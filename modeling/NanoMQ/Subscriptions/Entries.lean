import NanoMQ.Decoders.Bounds
import NanoMQ.Nng.Reference
import NanoMQ.Subscriptions.Handlers

/-! Topic lists as a client writes them, and the nodes that the decoders make of them. -/

namespace NanoMQ

open Bytes Reading

-- Packets

/-- These bytes are the valid property section in front of a topic list; only version 5 has
one.
-/
def TopicPropertiesValid (nng : MqttParser) (protoVer : Nat)
    (propertyBytes payload : List UInt8)
    : Prop :=
  if protoVer = MQTT_PROTOCOL_VERSION_v5 then
    ∃ found,
      nng.propertySection (propertyBytes ++ payload) = some found
      ∧ found.consumed = propertyBytes.length
      ∧ nng.checkProperties found.properties = true
  else propertyBytes = []

/-- A message with a topic list: the packet id, for version 5 a valid property section, and
the payload, at which the payload pointer points.
-/
structure TopicMessage (nng : MqttParser) (protoVer packetId : Nat) (payload : List UInt8)
    (msg : NngMsg)
    : Prop where
  short : packetId < 65536
  layout
    : ∃ propertyBytes,
        TopicPropertiesValid nng protoVer propertyBytes payload
        ∧ msg.body = putU16 packetId ++ (propertyBytes ++ payload)
        ∧ msg.payloadPtr = 2 + propertyBytes.length
  whole : msg.remainingLen = msg.body.length

-- The loop over the entries

section Loop

variable {Entry : Type}

/-- A loop body at the bytes of one of these entries: it goes on behind an entry that it
accepts, with a node for it, and refuses the packet at any other.
-/
structure DecodesEntries (entry : Nat → Nat → Reader DecodedEntry) (memory : Nat → List UInt8)
    (bytes : Entry → List UInt8) (accepts : Entry → Bool) (node : Nat → Entry → TopicNode)
    (items : List Entry)
    : Prop where
  positive : ∀ item, 0 < (bytes item).length
  next
    : ∀ index bpos item rest,
        item ∈ items
        → memory bpos = bytes item ++ rest
        → (entry index bpos).value.next
          = if accepts item then some (bpos + (bytes item).length) else none
  node
    : ∀ index bpos item rest,
        item ∈ items
        → memory bpos = bytes item ++ rest
        → accepts item
        → (entry index bpos).value.node = node index item

variable {entry : Nat → Nat → Reader DecodedEntry} {memory : Nat → List UInt8}
  {bytes : Entry → List UInt8} {accepts : Entry → Bool} {node : Nat → Entry → TopicNode}

theorem length_le_flatMap (positive : ∀ item, 0 < (bytes item).length) (items : List Entry)
    : items.length ≤ (items.flatMap bytes).length := by
  induction items with
  | nil => exact Nat.le_refl _
  | cons item rest ih =>
      have := positive item
      rw [List.flatMap_cons, List.length_append, List.length_cons]
      omega

/-- The loop accepts a list exactly if it accepts every entry, and then there is one node for
each entry. Witness: induction on the entries; the guard goes on exactly while entries are
left.
-/
theorem entryLoop_entries {items : List Entry} {remainingLen vpos fuel index bpos : Nat}
    (decodes : DecodesEntries entry memory bytes accepts node items)
    (drops : ∀ bpos skip, memory (bpos + skip) = (memory bpos).drop skip)
    (nonempty : items ≠ []) (enough : items.length ≤ fuel)
    (left : memory bpos = items.flatMap bytes)
    (size : (sizeMinus remainingLen vpos).value = bpos + (items.flatMap bytes).length)
    : let loop := (entryLoop entry remainingLen vpos fuel index bpos).value
      (loop.1 = SUCCESS ↔ ∀ item ∈ items, accepts item)
      ∧ ((∀ item ∈ items, accepts item)
        → loop = (SUCCESS, items.mapIdx fun i item => node (index + i) item)) := by
  induction items generalizing fuel index bpos with
  | nil => exact absurd rfl nonempty
  | cons item rest ih =>
      obtain ⟨fuel, rfl⟩ := Nat.exists_eq_succ_of_ne_zero (by
        rw [List.length_cons] at enough
        omega : fuel ≠ 0)
      rw [List.flatMap_cons] at left size
      have next := decodes.next index bpos item _ List.mem_cons_self left
      have found := decodes.node index bpos item _ List.mem_cons_self left
      dsimp only
      rw [entryLoop, Traced.value_bind, next, List.forall_mem_cons]
      cases accepted : accepts item with
      | false =>
          have rejected (all : false = true ∧ ∀ item ∈ rest, accepts item) : False :=
            Bool.false_ne_true all.1
          have failed : ¬PROTOCOL_ERROR = SUCCESS := by decide
          exact ⟨iff_of_false failed rejected, fun all => (rejected all).elim⟩
      | true =>
          rw [if_pos rfl]
          dsimp only
          rw [Traced.value_bind, size, found accepted]
          cases rest with
          | nil =>
              rw [if_neg (by simp)]
              exact ⟨iff_of_true rfl ⟨rfl, List.forall_mem_nil _⟩, fun _ => rfl⟩
          | cons other more =>
              have further : bpos + (bytes item).length
                  < bpos + (bytes item ++ (other :: more).flatMap bytes).length := by
                have := decodes.positive other
                rw [List.length_append, List.flatMap_cons, List.length_append]
                omega
              have later := @ih fuel (index + 1) (bpos + (bytes item).length)
                { decodes with
                  next := fun index bpos item rest member =>
                    decodes.next index bpos item rest (List.mem_cons_of_mem _ member)
                  node := fun index bpos item rest member =>
                    decodes.node index bpos item rest (List.mem_cons_of_mem _ member) }
                (List.cons_ne_nil _ _) (by simpa using enough)
                (by rw [drops, left, List.drop_left])
                (by rw [size, List.length_append]; omega)
              rw [if_pos further, Traced.value_bind, Traced.value_pure]
              refine ⟨later.1.trans ⟨fun all => ⟨rfl, all⟩, And.right⟩, ?_⟩
              rintro ⟨_, all⟩
              rw [later.2 all]
              simp [List.mapIdx_cons, Nat.add_assoc, Nat.add_comm 1]

end Loop

-- Entries of SUBSCRIBE

/-- One entry of a SUBSCRIBE: a filter and an option byte. -/
structure SubEntry where
  filter : List UInt8
  option : UInt8
  short : filter.length < 65536

namespace SubEntry

variable (nng : MqttParser) (protoVer : Nat) (entry : SubEntry)

def bytes : List UInt8 :=
  putU16 entry.filter.length ++ (entry.filter ++ [entry.option])

/-- The filter is not empty and valid UTF-8. -/
def valid : Bool :=
  entry.filter != [] && nng.utf8Check entry.filter

/-- The filter is empty, or it is valid UTF-8. -/
def Regular : Prop :=
  entry.filter = [] ∨ nng.utf8Check entry.filter = true

/-- The entry does not refuse the packet. -/
def accepted : Bool :=
  !(entry.valid nng && optionsRefused protoVer entry.filter (nng.topicOptions entry.option))

/-- The node of a valid filter, or of an empty one. -/
def node : TopicNode :=
  if entry.valid nng then
    {
      options := nng.topicOptions entry.option
      topicBody := some entry.filter
      topicLen := entry.filter.length
      reasonCode := GRANTED_QOS_2
    }
  else
    {
      TopicNode.zeroed with
      reasonCode :=
        if protoVer = MQTT_PROTOCOL_VERSION_v5 then TOPIC_FILTER_INVALID
        else UNSPECIFIED_ERROR
    }

theorem length_bytes : entry.bytes.length = 2 + entry.filter.length + 1 := by
  simp [bytes]
  omega

end SubEntry

section Subscribe

variable {nng : MqttParser} {buffer : Buffer} {payloadPtr protoVer : Nat}

/-- The body of the loop at an entry that is empty or valid. -/
theorem decodeSubEntry_entry {entry : SubEntry} {bpos : Nat} {rest : List UInt8}
    (regular : entry.Regular nng)
    (left : buffer.bytes.drop (payloadPtr + bpos) = entry.bytes ++ rest)
    : let decoded := (decodeSubEntry nng buffer payloadPtr protoVer bpos).value
      decoded.next
        = (if entry.accepted nng protoVer then some (bpos + entry.bytes.length) else none)
      ∧ (entry.accepted nng protoVer → decoded.node = entry.node nng protoVer) := by
  have field
      : StringField (buffer.bytes.drop (payloadPtr + bpos)) entry.filter
          (entry.option :: rest) :=
    {
      bytes_eq := by
        rw [left]
        simp [SubEntry.bytes]
      short := entry.short
    }
  have length := entry.length_bytes
  have small : ((entry.filter.length : Int) % 2 ^ 32).toNat = entry.filter.length := by
    have := entry.short
    omega
  have optionAt := field.drop_text
  rw [Nat.add_assoc] at optionAt
  unfold decodeSubEntry
  rw [Traced.value_bind, copyUtf8Str_value field]
  by_cases empty : entry.filter = []
  · have invalid : entry.valid nng = false := by simp [SubEntry.valid, empty]
    have accepted : entry.accepted nng protoVer = true := by simp [SubEntry.accepted, invalid]
    rw [if_pos empty, accepted, length, empty]
    refine ⟨rfl, fun _ => ?_⟩
    simp [decodeSubOptions, SubEntry.node, invalid, TopicNode.zeroed]
  · have utf8 : nng.utf8Check entry.filter = true := regular.resolve_left empty
    have valid : entry.valid nng = true := by simp [SubEntry.valid, empty, utf8]
    rw [if_neg empty, if_pos utf8, length]
    simp only [decodeSubOptions, Traced.value_bind, value_get8 optionAt, SubEntry.accepted,
      SubEntry.node, valid, Bool.true_and, if_true]
    cases refused : optionsRefused protoVer entry.filter (nng.topicOptions entry.option) with
    | true => exact ⟨rfl, fun accepted => Bool.noConfusion accepted⟩
    | false =>
        refine ⟨rfl, fun _ => ?_⟩
        simpa using small

theorem subEntries_decode (buffer : Buffer) {entries : List SubEntry}
    (regular : ∀ entry ∈ entries, entry.Regular nng)
    : DecodesEntries (fun _ => decodeSubEntry nng buffer payloadPtr protoVer)
        (fun bpos => buffer.bytes.drop (payloadPtr + bpos)) SubEntry.bytes
        (SubEntry.accepted nng protoVer) (fun _ => SubEntry.node nng protoVer) entries :=
  {
    positive := fun entry => by
      rw [entry.length_bytes]
      omega
    next := fun _ _ entry _ member left => (decodeSubEntry_entry (regular entry member) left).1
    node := fun _ _ entry _ member left => (decodeSubEntry_entry (regular entry member) left).2
  }

end Subscribe

-- Entries of UNSUBSCRIBE

/-- One entry of an UNSUBSCRIBE. -/
structure UnsubEntry where
  filter : List UInt8
  short : filter.length < 65536

namespace UnsubEntry

variable (nng : MqttParser) (entry : UnsubEntry)

def bytes : List UInt8 :=
  putU16 entry.filter.length ++ entry.filter

/-- The filter is empty, or it is valid UTF-8. -/
def accepted : Bool :=
  entry.filter == [] || nng.utf8Check entry.filter

/-- The node of an entry: what it does not set is as `nng_alloc` left it. -/
def node (fresh : TopicNode) : TopicNode :=
  {
    fresh with
    topicBody := if entry.filter = [] then fresh.topicBody else some entry.filter
    topicLen := entry.filter.length
  }

end UnsubEntry

section Unsubscribe

variable {nng : MqttParser} {buffer : Buffer} {payloadPtr : Nat}

theorem decodeUnsubEntry_entry {entry : UnsubEntry} {bpos : Nat} {rest : List UInt8}
    (fresh : Nat → TopicNode) (index : Nat)
    (left : buffer.bytes.drop (payloadPtr + bpos) = entry.bytes ++ rest)
    : let decoded := (decodeUnsubEntry nng buffer payloadPtr fresh index bpos).value
      decoded.next
        = (if entry.accepted nng then some (bpos + entry.bytes.length) else none)
      ∧ (entry.accepted nng → decoded.node = entry.node (fresh index)) := by
  have field : StringField (buffer.bytes.drop (payloadPtr + bpos)) entry.filter rest :=
    {
      bytes_eq := by
        rw [left]
        simp [UnsubEntry.bytes]
      short := entry.short
    }
  have length : entry.bytes.length = 2 + entry.filter.length := by simp [UnsubEntry.bytes]
  unfold decodeUnsubEntry
  rw [Traced.value_bind, Traced.value_pure, getUtf8Str_value _ field, length]
  by_cases empty : entry.filter = []
  · simp [decodeUnsubFilter, UnsubEntry.accepted, UnsubEntry.node, empty]
  · have counted : (entry.filter.length : Int) ≠ -1 := by omega
    cases utf8 : nng.utf8Check entry.filter with
    | true =>
        simp [decodeUnsubFilter, UnsubEntry.accepted, UnsubEntry.node, empty, utf8, counted]
    | false => simp [decodeUnsubFilter, UnsubEntry.accepted, empty, utf8]

theorem unsubEntries_decode (buffer : Buffer) (fresh : Nat → TopicNode) (entries : List UnsubEntry)
    : DecodesEntries (decodeUnsubEntry nng buffer payloadPtr fresh)
        (fun bpos => buffer.bytes.drop (payloadPtr + bpos)) UnsubEntry.bytes
        (UnsubEntry.accepted nng) (fun index entry => entry.node (fresh index)) entries :=
  {
    positive := fun entry => by simp [UnsubEntry.bytes]
    next := fun index _ _ _ _ left => (decodeUnsubEntry_entry fresh index left).1
    node := fun index _ _ _ _ left => (decodeUnsubEntry_entry fresh index left).2
  }

end Unsubscribe

-- Whole messages

section Messages

variable {nng : MqttParser} {protoVer packetId : Nat} {payload : List UInt8} {msg : NngMsg}

/-- What the decoders find in front of the payload, and how much of it they see. -/
theorem TopicMessage.found (stray : Nat → UInt8)
    (message : TopicMessage nng protoVer packetId payload msg)
    : ({ bytes := msg.body, stray : Buffer }.get16 0).value = packetId
      ∧ topicPropertiesRefused nng protoVer msg.body = false
      ∧ msg.body.drop msg.payloadPtr = payload
      ∧ (sizeMinus msg.remainingLen
            (2 + (decodeTopicProperties nng protoVer msg.body).consumed)).value
        = payload.length := by
  obtain ⟨propertyBytes, valid, body, pointer⟩ := message.layout
  have behindId : msg.body.drop 2 = propertyBytes ++ payload := by
    rw [body]
    exact List.drop_left' (length_putU16 _)
  have consumed
      : (decodeTopicProperties nng protoVer msg.body).consumed = propertyBytes.length
        ∧ topicPropertiesRefused nng protoVer msg.body = false := by
    unfold decodeTopicProperties topicPropertiesRefused decodeProperties
    unfold TopicPropertiesValid at valid
    rw [behindId]
    split at valid
    · rename_i v5
      obtain ⟨found, section_, consumed, checked⟩ := valid
      rw [if_pos v5, section_]
      simp [consumed, checked]
    · rename_i older
      rw [if_neg older]
      simp [older, valid]
  refine ⟨?_, consumed.2, ?_, ?_⟩
  · exact value_get16_put message.short body
  · rw [pointer, ← List.drop_drop, behindId, List.drop_left]
  · rw [message.whole, consumed.1, body, value_sizeMinus (by simp)]
    simp only [List.length_append, length_putU16]
    omega

theorem entryLoop_message {Entry : Type} {entry : Nat → Nat → Reader DecodedEntry}
    {bytes : Entry → List UInt8} {accepts : Entry → Bool} {node : Nat → Entry → TopicNode}
    {items : List Entry}
    (decodes
      : DecodesEntries entry (fun bpos => msg.body.drop (msg.payloadPtr + bpos)) bytes accepts
          node items)
    (nonempty : items ≠ [])
    (message : TopicMessage nng protoVer packetId (items.flatMap bytes) msg)
    : let vpos := 2 + (decodeTopicProperties nng protoVer msg.body).consumed
      let loop :=
        (entryLoop entry msg.remainingLen vpos (loopFuel msg.remainingLen vpos) 0 0).value
      (loop.1 = SUCCESS ↔ ∀ item ∈ items, accepts item)
      ∧ ((∀ item ∈ items, accepts item) → loop = (SUCCESS, items.mapIdx node)) := by
  intro vpos loop
  obtain ⟨_, _, payloadAt, size⟩ := message.found fun _ => 0
  have enough : items.length ≤ loopFuel msg.remainingLen vpos := by
    have counted := length_le_flatMap decodes.positive items
    unfold loopFuel
    rw [size]
    omega
  have drops
      : ∀ bpos skip,
          msg.body.drop (msg.payloadPtr + (bpos + skip))
          = (msg.body.drop (msg.payloadPtr + bpos)).drop skip := by
    intro bpos skip
    rw [List.drop_drop, Nat.add_assoc]
  have entries := @entryLoop_entries Entry entry _ bytes accepts node items msg.remainingLen
    vpos _ 0 0 decodes drops nonempty enough payloadAt (size.trans (Nat.zero_add _).symm)
  simpa only [Nat.zero_add] using entries

/-- The packet that the decoders fill. -/
def topicPacketOf (nng : MqttParser) (protoVer packetId : Nat) (body : List UInt8)
    (node : List TopicNode)
    : TopicPacket :=
  let found := decodeTopicProperties nng protoVer body
  { packetId, properties := found.properties, propLen := found.propLen, node }

/-- A SUBSCRIBE whose filters are empty or valid is accepted exactly if every entry is, and
then it has one node for each entry.
-/
theorem decodeSubMsg_entries (stray : Nat → UInt8) {entries : List SubEntry}
    (nonempty : entries ≠ [])
    (regular : ∀ entry ∈ entries, entry.Regular nng) (nonzero : packetId ≠ 0)
    (message
      : TopicMessage nng protoVer packetId (entries.flatMap SubEntry.bytes) msg)
    (packet : TopicPacket)
    : let decoded := (decodeSubMsg nng stray msg protoVer packet).value
      (decoded.1 = SUCCESS ↔ ∀ entry ∈ entries, entry.accepted nng protoVer)
      ∧ ((∀ entry ∈ entries, entry.accepted nng protoVer)
        → decoded
          = (SUCCESS,
              topicPacketOf nng protoVer packetId msg.body
                (entries.map (SubEntry.node nng protoVer)))) := by
  obtain ⟨packetIdRead, checked, _, _⟩ := message.found stray
  obtain ⟨accepts, nodes⟩ := entryLoop_message
    (subEntries_decode { bytes := msg.body, stray } regular) nonempty message
  dsimp only at accepts nodes ⊢
  unfold decodeSubMsg
  simp only [Traced.value_bind]
  rw [packetIdRead, if_neg nonzero, checked]
  refine ⟨accepts, fun all => ?_⟩
  have loop := nodes all
  have constant
      : entries.mapIdx (fun _ => SubEntry.node nng protoVer)
        = entries.map (SubEntry.node nng protoVer) :=
    List.ext_getElem (by simp) (by simp)
  rw [constant] at loop
  simp [loop, topicPacketOf]

/-- The same for an UNSUBSCRIBE, where a filter that is not valid refuses the packet. -/
theorem decodeUnsubMsg_entries (stray : Nat → UInt8) {entries : List UnsubEntry}
    (nonempty : entries ≠ [])
    (message
      : TopicMessage nng protoVer packetId (entries.flatMap UnsubEntry.bytes) msg)
    (fresh : Nat → TopicNode) (packet : TopicPacket)
    : let decoded := (decodeUnsubMsg nng stray fresh msg protoVer packet).value
      (decoded.1 = SUCCESS ↔ ∀ entry ∈ entries, entry.accepted nng)
      ∧ ((∀ entry ∈ entries, entry.accepted nng)
        → decoded
          = (SUCCESS,
              topicPacketOf nng protoVer packetId msg.body
                (entries.mapIdx fun i entry => entry.node (fresh i)))) := by
  obtain ⟨packetIdRead, checked, _, _⟩ := message.found stray
  obtain ⟨accepts, nodes⟩ := entryLoop_message
    (unsubEntries_decode { bytes := msg.body, stray } fresh entries) nonempty message
  dsimp only at accepts nodes ⊢
  unfold decodeUnsubMsg
  simp only [Traced.value_bind]
  rw [packetIdRead, checked]
  refine ⟨accepts, fun all => ?_⟩
  have loop := nodes all
  simp [loop, topicPacketOf]

end Messages

-- Well-formed lists

/-- The bit fields of a topic node lie over the bits of the option byte. The bits above
those of the retain handling may belong to it or not.
-/
structure MqttParser.OverlaysOptions (nng : MqttParser) : Prop where
  qos : ∀ byte, (nng.topicOptions byte).qos = byte.toNat % 4
  noLocal : ∀ byte, (nng.topicOptions byte).noLocal = (byte.toNat / 4 % 2 == 1)
  rap : ∀ byte, (nng.topicOptions byte).rap = (byte.toNat / 8 % 2 == 1)
  retainHandling : ∀ byte, (nng.topicOptions byte).retainHandling % 4 = byte.toNat / 16 % 4

/-- An entry that a SUBSCRIBE may have: a filter of valid UTF-8, a retain handling up to 2,
and for version 5 not no-local on a shared subscription.
-/
structure SubEntry.WellFormed (nng : MqttParser) (protoVer : Nat) (entry : SubEntry)
    : Prop where
  nonempty : entry.filter ≠ []
  utf8 : nng.utf8Check entry.filter = true
  retainHandling : (nng.topicOptions entry.option).retainHandling ≤ 2
  notLocal
    : protoVer = MQTT_PROTOCOL_VERSION_v5
      → SHARE <+: entry.filter
      → (nng.topicOptions entry.option).noLocal = false

/-- A node has the filter of its entry and the bits of its option byte. -/
structure SubEntry.Matches (node : TopicNode) (entry : SubEntry) : Prop where
  topic : node.topicBody = some entry.filter ∧ node.topicLen = entry.filter.length
  qos : node.options.qos = entry.option.toNat % 4
  noLocal : node.options.noLocal = (entry.option.toNat / 4 % 2 == 1)
  rap : node.options.rap = (entry.option.toNat / 8 % 2 == 1)
  retainHandling : node.options.retainHandling = entry.option.toNat / 16 % 4

/-- A node has the filter of its entry. -/
def UnsubEntry.Matches (node : TopicNode) (entry : UnsubEntry) : Prop :=
  node.topicBody = some entry.filter ∧ node.topicLen = entry.filter.length

theorem SubEntry.WellFormed.valid {nng : MqttParser} {protoVer : Nat} {entry : SubEntry}
    (wellFormed : entry.WellFormed nng protoVer)
    : entry.valid nng = true := by
  simp [SubEntry.valid, wellFormed.nonempty, wellFormed.utf8]

theorem SubEntry.WellFormed.accepted {nng : MqttParser} {protoVer : Nat} {entry : SubEntry}
    (wellFormed : entry.WellFormed nng protoVer)
    : entry.accepted nng protoVer = true := by
  have shared := strncmpEq_isPrefix (show (0 : UInt8) ∉ SHARE by decide) entry.filter
  have small : ¬2 < (nng.topicOptions entry.option).retainHandling :=
    Nat.not_lt.mpr wellFormed.retainHandling
  have granted
      : optionsRefused protoVer entry.filter (nng.topicOptions entry.option) = false := by
    unfold optionsRefused
    by_cases v5 : protoVer = MQTT_PROTOCOL_VERSION_v5
    · by_cases isShared : SHARE <+: entry.filter
      · simp [small, wellFormed.notLocal v5 isShared]
      · have different : strncmpEq 7 entry.filter SHARE = false :=
          Bool.eq_false_iff.mpr (mt shared.mp isShared)
        simp [small, different]
    · simp [small, v5]
  simp [SubEntry.accepted, granted]

theorem SubEntry.WellFormed.matches_node {nng : MqttParser} {protoVer : Nat} {entry : SubEntry}
    (overlays : nng.OverlaysOptions) (wellFormed : entry.WellFormed nng protoVer)
    : entry.Matches (entry.node nng protoVer) := by
  have bits := overlays.retainHandling entry.option
  have small := wellFormed.retainHandling
  unfold SubEntry.node
  rw [if_pos wellFormed.valid]
  exact {
    topic := ⟨rfl, rfl⟩
    qos := overlays.qos entry.option
    noLocal := overlays.noLocal entry.option
    rap := overlays.rap entry.option
    retainHandling := by
      dsimp only
      omega
  }

/-- Handling an UNSUBSCRIBE keeps its list of nodes. By induction on the list. -/
theorem length_unsubCtxHandle (pid : Pid) (nodes : List TopicNode) (stores : Stores)
    : (unsubCtxHandle pid nodes stores).1.length = nodes.length := by
  induction nodes generalizing stores with
  | nil => rfl
  | cons node rest ih => exact congrArg (· + 1) (ih _)

/-- No properties are written as a section of length 0. -/
def MqttParser.WritesNoProperties (nng : MqttParser) : Prop :=
  ∀ cmd, nng.encodeProperties none cmd = some [0]

theorem ackVariableHeader_eq {nng : MqttParser} (writes : nng.WritesNoProperties)
    (cmd : CmdType) (protoVer packetId : Nat)
    : ackVariableHeader nng cmd protoVer packetId
      = putU16 packetId ++ (if protoVer = MQTT_PROTOCOL_VERSION_v5 then [0] else []) := by
  simp [ackVariableHeader, writes cmd]

/-- Every well-formed list is decoded entry for entry, and acknowledged with its packet id,
for version 5 a property length of 0, and one code for each entry.
-/
theorem topic_lists_parsed (nng : MqttParser) (overlays : nng.OverlaysOptions)
    (writes : nng.WritesNoProperties)
    (stray : Nat → UInt8) (protoVer packetId : Nat) (nonzero : packetId ≠ 0) (msg : NngMsg)
    : (∀ entries : List SubEntry,
        entries ≠ []
        → (∀ entry ∈ entries, entry.WellFormed nng protoVer)
        → TopicMessage nng protoVer packetId (entries.flatMap SubEntry.bytes) msg
        → ∃ packet codes,
            (decodeSubMsg nng stray msg protoVer .zeroed).value = (0, packet)
            ∧ packet.packetId = packetId
            ∧ List.Forall₂ SubEntry.Matches packet.node entries
            ∧ (encodeSubackMsg nng msg packet protoVer).body
              = putU16 packetId
                ++ (if protoVer = MQTT_PROTOCOL_VERSION_v5 then [0] else [])
                ++ codes
            ∧ codes.length = entries.length)
      ∧ ∀ (entries : List UnsubEntry) (fresh : Nat → TopicNode) (unset : TopicPacket),
          entries ≠ []
          → (∀ entry ∈ entries, entry.filter ≠ [] ∧ nng.utf8Check entry.filter = true)
          → TopicMessage nng protoVer packetId (entries.flatMap UnsubEntry.bytes) msg
          → ∃ packet,
              (decodeUnsubMsg nng stray fresh msg protoVer unset).value = (0, packet)
              ∧ packet.packetId = packetId
              ∧ List.Forall₂ UnsubEntry.Matches packet.node entries
              ∧ (protoVer = MQTT_PROTOCOL_VERSION_v5
                → ∀ pid stores,
                    let handled := (unsubCtxHandle pid packet.node stores).1
                    ∃ codes,
                      (encodeUnsubackMsg nng msg { packet with node := handled } protoVer).body
                        = putU16 packetId ++ [0] ++ codes
                      ∧ codes.length = entries.length) := by
  refine ⟨?_, ?_⟩
  · intro entries nonempty wellFormed message
    have regular : ∀ entry ∈ entries, entry.Regular nng :=
      fun entry member => Or.inr (wellFormed entry member).utf8
    have accepted : ∀ entry ∈ entries, entry.accepted nng protoVer :=
      fun entry member => (wellFormed entry member).accepted
    have decoded :=
      (decodeSubMsg_entries stray nonempty regular nonzero message .zeroed).2 accepted
    refine ⟨_, (entries.map (SubEntry.node nng protoVer)).map fun node =>
      reasonByte node.reasonCode, decoded, rfl, ?_, ?_, ?_⟩
    · dsimp only [topicPacketOf]
      rw [List.forall₂_map_left_iff, List.forall₂_same]
      exact fun entry member => (wellFormed entry member).matches_node overlays
    · simp [encodeSubackMsg, NngMsg.acknowledge, topicPacketOf, nonzero, nonempty,
        ackVariableHeader_eq writes]
    · simp
  · intro entries fresh unset nonempty valid message
    have accepted : ∀ entry ∈ entries, entry.accepted nng := by
      intro entry member
      simp [UnsubEntry.accepted, (valid entry member).2]
    have decoded := (decodeUnsubMsg_entries stray nonempty message fresh unset).2 accepted
    refine ⟨_, decoded, rfl, ?_, ?_⟩
    · refine List.forall₂_iff_get.mpr ⟨by simp [topicPacketOf], ?_⟩
      intro i _ inEntries
      have named := (valid _ (List.getElem_mem inEntries)).1
      simp [topicPacketOf, UnsubEntry.Matches, UnsubEntry.node, named]
    · intro v5 pid stores handled
      refine ⟨handled.map fun node => reasonByte node.reasonCode, ?_, ?_⟩
      · simp [encodeUnsubackMsg, NngMsg.acknowledge, topicPacketOf, v5,
          ackVariableHeader_eq writes]
      · rw [List.length_map, length_unsubCtxHandle]
        simp [topicPacketOf]

theorem referenceParser_overlays : referenceParser.OverlaysOptions :=
  {
    qos := fun _ => rfl
    noLocal := fun _ => rfl
    rap := fun _ => rfl
    retainHandling := fun _ => rfl
  }

theorem referenceParser_writesNone : referenceParser.WritesNoProperties :=
  fun _ => rfl

/-- A SUBSCRIBE of version 3.1.1 with packet id 7 and the filter `a` at QoS 1. -/
def subscribeA : NngMsg :=
  .received .SUBSCRIBE [0x82, 6] [0, 7, 0, 1, 97, 1] 1 (.plain 4)

theorem filterA_short : ([97] : List UInt8).length < 65536 := by
  decide

def filterA : SubEntry :=
  { filter := [97], option := 1, short := filterA_short }

/-- The packet is decoded and acknowledged with its packet id. -/
theorem subscribeA_parsed
    : ∃ packet codes,
        (decodeSubMsg referenceParser (fun _ => 0) subscribeA 4 .zeroed).value = (0, packet)
        ∧ packet.packetId = 7
        ∧ List.Forall₂ SubEntry.Matches packet.node [filterA]
        ∧ (encodeSubackMsg referenceParser subscribeA packet 4).body
          = [0, 7] ++ codes
        ∧ codes.length = 1 := by
  refine (topic_lists_parsed referenceParser referenceParser_overlays
    referenceParser_writesNone (fun _ => 0) 4 7 (by decide) subscribeA).1 [filterA]
    (List.cons_ne_nil _ _) ?_ ?_
  · refine List.forall_mem_singleton.mpr ?_
    exact {
      nonempty := by decide
      utf8 := by decide
      retainHandling := by decide
      notLocal := nofun
    }
  · exact {
      short := by decide
      layout := ⟨[], rfl, rfl, rfl⟩
      whole := rfl
    }

end NanoMQ
