import NanoMQ.Broker.Unsubscribe
import NanoMQ.Library.Fields

/-! The fields of `packet_unsubscribe` and of its topic nodes along the path of an UNSUBSCRIBE.
Both come from `nng_alloc`, which does not clear them. The functions here are those of
`unsub_handler.c` with every access to a field in its place; reads for the log are left out.
-/

namespace NanoMQ

open Bytes Reading Fields

/-- The fields of one `topic_node`. -/
inductive NodeField where
  | topicBody
  | topicLen
  | reasonCode
  | next
  deriving DecidableEq, Repr

/-- The fields of `packet_unsubscribe`; a node is known by its place in the list. -/
inductive UnsubField where
  | packetId
  | properties
  | propLen
  | node
  | inNode (index : Nat) (field : NodeField)
  deriving DecidableEq, Repr

-- decode_unsub_msg

/-- The fields of one entry: `get_utf8_str` leaves the pointer alone for an empty string, and
the length is only known for a valid one.
-/
def decodeUnsubFilterFields (index : Nat) (pointed : StrResult)
    : Accessing UnsubField Unit := do
  (if pointed.len ≠ 0 then assign (.inNode index .topicBody) else pure ())
  if pointed.len = -1 then assign (.inNode index .reasonCode)
  else assign (.inNode index .topicLen)

section Decode

variable (nng : MqttParser) (buffer : Buffer) (payloadPtr : Nat) (fresh : Nat → TopicNode)

/-- The loop over the entries. A further node is linked to the list before it is filled. -/
def unsubEntryLoop (remainingLen vpos : Nat)
    : Nat → Nat → Nat → Accessing UnsubField (ReasonCode × List TopicNode)
  | 0, _, _ => pure (SUCCESS, [])
  | fuel + 1, index, bpos => do
      let pointed := (getUtf8Str nng buffer (fresh index).topicBody (payloadPtr + bpos)).value
      let decoded := decodeUnsubFilter (fresh index) bpos pointed
      decodeUnsubFilterFields index pointed
      match decoded.next with
      | none => pure (PROTOCOL_ERROR, [decoded.node])
      | some bpos => do
          if bpos < (sizeMinus remainingLen vpos).value then do
            assign (.inNode (index + 1) .next)
            assign (.inNode index .next)
            let rest ← unsubEntryLoop remainingLen vpos fuel (index + 1) bpos
            pure (rest.1, decoded.node :: rest.2)
          else
            pure (SUCCESS, [decoded.node])

end Decode

/-- The fields in front of the list; the property check reads the properties back. -/
def decodeUnsubHeaderFields (protoVer : Nat) : Accessing UnsubField Unit := do
  assign .packetId
  assign .properties
  assign .propLen
  assign .properties
  if protoVer = MQTT_PROTOCOL_VERSION_v5 then
    assign .propLen
    assign .properties
    Fields.read .properties

/-- `decode_unsub_msg`: the list is only begun after the property check. -/
def decodeUnsubMsgFields (nng : MqttParser) (stray : Nat → UInt8) (fresh : Nat → TopicNode)
    (msg : NngMsg) (protoVer : Nat) (packet : TopicPacket)
    : Accessing UnsubField (ReasonCode × TopicPacket) := do
  let buffer : Buffer := { bytes := msg.body, stray }
  let found := decodeTopicProperties nng protoVer msg.body
  let packet : TopicPacket :=
    {
      packet with
      packetId := (buffer.get16 0).value
      properties := found.properties
      propLen := found.propLen
    }
  decodeUnsubHeaderFields protoVer
  if topicPropertiesRefused nng protoVer msg.body then
    pure (PROTOCOL_ERROR, packet)
  else do
    let vpos := 2 + found.consumed
    assign .node
    assign (.inNode 0 .next)
    let entries ←
      unsubEntryLoop nng buffer msg.payloadPtr fresh msg.remainingLen vpos
        (loopFuel msg.remainingLen vpos) 0 0
    pure (entries.1, { packet with node := entries.2 })

/-- The loop decodes what `entryLoop` decodes. By induction on the fuel. -/
theorem unsubEntryLoop_value (nng : MqttParser) (buffer : Buffer) (payloadPtr : Nat)
    (fresh : Nat → TopicNode) (remainingLen vpos fuel index bpos : Nat)
    : (unsubEntryLoop nng buffer payloadPtr fresh remainingLen vpos fuel index bpos).value
      = (entryLoop (decodeUnsubEntry nng buffer payloadPtr fresh) remainingLen vpos fuel index
          bpos).value := by
  induction fuel generalizing index bpos with
  | zero => rfl
  | succ fuel ih =>
      rw [unsubEntryLoop, entryLoop]
      simp only [decodeUnsubEntry, Traced.value_bind, Traced.value_pure]
      cases (decodeUnsubFilter (fresh index) bpos
        (getUtf8Str nng buffer (fresh index).topicBody (payloadPtr + bpos)).value).next with
      | none => rfl
      | some later =>
          dsimp only
          rw [Traced.value_bind]
          split
          · simp only [Traced.value_bind, Traced.value_pure, ih]
          · rfl

theorem decodeUnsubMsgFields_value (nng : MqttParser) (stray : Nat → UInt8)
    (fresh : Nat → TopicNode) (msg : NngMsg) (protoVer : Nat) (packet : TopicPacket)
    : (decodeUnsubMsgFields nng stray fresh msg protoVer packet).value
      = (decodeUnsubMsg nng stray fresh msg protoVer packet).value := by
  unfold decodeUnsubMsgFields decodeUnsubMsg
  simp only [Traced.value_bind]
  split
  · rfl
  · simp only [Traced.value_bind, Traced.value_pure, unsubEntryLoop_value]

-- unsub_ctx_handle, encode_unsuback_msg and unsub_pkt_free

/-- Visit the nodes of the list from this place on, each up to its `next`. -/
def eachNode (visit : Nat → TopicNode → Accessing UnsubField Unit)
    : Nat → List TopicNode → Accessing UnsubField Unit
  | _, [] => pure ()
  | index, node :: rest => do
      visit index node
      Fields.read (.inNode index .next)
      eachNode visit (index + 1) rest

/-- A topic is copied out of its node, and its code is stored there. -/
def unsubCtxNodeFields (index : Nat) (node : TopicNode) : Accessing UnsubField Unit := do
  Fields.read (.inNode index .topicLen)
  if node.topicLen = 0 then
    pure ()
  else do
    Fields.read (.inNode index .topicBody)
    Fields.read (.inNode index .topicLen)
    assign (.inNode index .reasonCode)
    Fields.read (.inNode index .topicLen)

def unsubCtxHandleFields (pid : Pid) (nodes : List TopicNode) (stores : Stores)
    : Accessing UnsubField (List TopicNode × Stores) := do
  Fields.read .node
  eachNode unsubCtxNodeFields 0 nodes
  pure (unsubCtxHandle pid nodes stores)

def unsubackCodesFields (nodes : List TopicNode) : Accessing UnsubField Unit := do
  Fields.read .node
  eachNode (fun index _ => Fields.read (.inNode index .reasonCode)) 0 nodes

/-- Only version 5 goes over the list. -/
def encodeUnsubackMsgFields (nng : MqttParser) (msg : NngMsg) (packet : TopicPacket)
    (protoVer : Nat)
    : Accessing UnsubField NngMsg := do
  Fields.read .packetId
  (if protoVer = MQTT_PROTOCOL_VERSION_v5 then unsubackCodesFields packet.node else pure ())
  pure (encodeUnsubackMsg nng msg packet protoVer)

def unsubPropertyFree : Accessing UnsubField Unit := do
  Fields.read .properties
  assign .properties
  assign .propLen

/-- Without a list nothing is freed. -/
def unsubPktFree (packet : TopicPacket) : Accessing UnsubField Unit := do
  Fields.read .node
  if packet.node = [] then
    pure ()
  else do
    Fields.read .propLen
    (if packet.propLen ≠ 0 then unsubPropertyFree else pure ())
    Fields.read .node
    eachNode (fun _ _ => pure ()) 0 packet.node

/-- The calls that `server_cb` makes for an UNSUBSCRIBE: a failure of the decoder only skips
the handler.
-/
def unsubscribePath (nng : MqttParser) (env : Env) (msg : NngMsg) (protoVer : Nat) (pid : Pid)
    (stores : Stores)
    : Accessing UnsubField (NngMsg × Stores) := do
  let decoded ←
    decodeUnsubMsgFields nng env.stray env.freshNode msg protoVer env.freshUnsub
  let handled ←
    (if decoded.1 = 0 then unsubCtxHandleFields pid decoded.2.node stores
    else pure (decoded.2.node, stores))
  let packet := { decoded.2 with node := handled.1 }
  let unsuback ← encodeUnsubackMsgFields nng msg packet protoVer
  unsubPktFree packet
  pure (unsuback, handled.2)

theorem unsubscribePath_value (nng : MqttParser) (env : Env) (msg : NngMsg) (protoVer : Nat)
    (pid : Pid) (stores : Stores)
    : let outcome := unsubscribeOutcome nng env msg protoVer pid stores
      (unsubscribePath nng env msg protoVer pid stores).value
        = (encodeUnsubackMsg nng msg outcome.1 protoVer, outcome.2) := by
  unfold unsubscribePath unsubscribeOutcome
  simp only [Traced.value_bind, Traced.value_pure, decodeUnsubMsgFields_value,
    encodeUnsubackMsgFields]
  split <;> rfl

-- What the decoder sets

/-- The fields of a node that a later function may read; there is a topic behind a length
only if it is not zero.
-/
structure FilledNode (set : Set UnsubField) (index : Nat) (node : TopicNode) : Prop where
  topicLen : .inNode index .topicLen ∈ set
  topicBody : node.topicLen ≠ 0 → .inNode index .topicBody ∈ set
  next : .inNode index .next ∈ set

theorem FilledNode.mono {set more : Set UnsubField} {index : Nat} {node : TopicNode}
    (subset : set ⊆ more) (filled : FilledNode set index node)
    : FilledNode more index node :=
  {
    topicLen := subset filled.topicLen
    topicBody := fun named => subset (filled.topicBody named)
    next := subset filled.next
  }

/-- What a successful loop does to the fields of its nodes: it fills them, except for their
codes.
-/
structure FillsNodes (set : Set UnsubField) (index : Nat) (nodes : List TopicNode)
    (log : List (FieldAccess UnsubField))
    : Prop where
  assigns : ∀ field, .read field ∉ log
  codes : ∀ i, .assign (.inNode i .reasonCode) ∉ log
  filled : ∀ i node, nodes[i]? = some node → FilledNode (setAfter set log) (index + i) node

theorem decodeUnsubFilterFields_fills {set : Set UnsubField} {index : Nat}
    {pointed : StrResult} (valid : pointed.len ≠ -1) (linked : .inNode index .next ∈ set)
    (fresh : TopicNode) (bpos : Nat)
    : FillsNodes set index [(decodeUnsubFilter fresh bpos pointed).node]
        (decodeUnsubFilterFields index pointed).events := by
  have log
      : (decodeUnsubFilterFields index pointed).events
        = (if pointed.len ≠ 0 then [.assign (.inNode index .topicBody)] else [])
          ++ [.assign (.inNode index .topicLen)] := by
    unfold decodeUnsubFilterFields
    rw [Traced.events_bind, if_neg valid]
    split <;> rfl
  have length : (decodeUnsubFilter fresh bpos pointed).node.topicLen = pointed.len.toNat := by
    unfold decodeUnsubFilter
    rw [if_neg valid]
  rw [log]
  refine { assigns := ?_, codes := ?_, filled := ?_ }
  · intro field
    split <;> simp
  · intro i
    split <;> simp
  · intro i node found
    obtain ⟨rfl, rfl⟩ : i = 0 ∧ (decodeUnsubFilter fresh bpos pointed).node = node := by
      simpa [List.getElem?_singleton] using found
    exact {
      topicLen := Or.inr (List.mem_append_right _ List.mem_cons_self)
      topicBody := fun named => by
        rw [length] at named
        rw [if_pos (by omega)]
        exact Or.inr List.mem_cons_self
      next := mem_setAfter linked _
    }

theorem FillsNodes.cons {set : Set UnsubField} {index : Nat} {node : TopicNode}
    {nodes : List TopicNode} {first rest : List (FieldAccess UnsubField)}
    (head : FillsNodes set index [node] first)
    (tail : ∀ set, .inNode (index + 1) .next ∈ set → FillsNodes set (index + 1) nodes rest)
    : FillsNodes set index (node :: nodes)
        (first
          ++ .assign (.inNode (index + 1) .next) :: .assign (.inNode index .next) :: rest) := by
  let linked : Set UnsubField :=
    insert (.inNode index .next) (insert (.inNode (index + 1) .next) (setAfter set first))
  have later := tail linked (Or.inr (Or.inl rfl))
  have after
      : setAfter set
          (first
            ++ .assign (.inNode (index + 1) .next) :: .assign (.inNode index .next) :: rest)
        = setAfter linked rest := by
    rw [setAfter_append, setAfter_assign, setAfter_assign]
  refine { assigns := ?_, codes := ?_, filled := ?_ }
  · intro field
    simp [head.assigns field, later.assigns field]
  · intro i
    simp [head.codes i, later.codes i]
  · intro i other found
    rw [after]
    cases i with
    | zero =>
        obtain rfl : node = other := by simpa using found
        refine (head.filled 0 node rfl).mono fun field member => ?_
        have kept : field ∈ linked := Or.inr (Or.inr member)
        exact mem_setAfter kept rest
    | succ i =>
        have filled := later.filled i other (by simpa using found)
        rwa [Nat.add_right_comm] at filled

/-- By induction on the fuel: a node is linked before the loop comes to it. -/
theorem unsubEntryLoop_fills {nng : MqttParser} {buffer : Buffer} {payloadPtr : Nat}
    {fresh : Nat → TopicNode} {remainingLen vpos fuel index bpos : Nat}
    {set : Set UnsubField} (linked : .inNode index .next ∈ set)
    (success
      : (unsubEntryLoop nng buffer payloadPtr fresh remainingLen vpos fuel index bpos).value.1
        = SUCCESS)
    : FillsNodes set index
        (unsubEntryLoop nng buffer payloadPtr fresh remainingLen vpos fuel index bpos).value.2
        (unsubEntryLoop nng buffer payloadPtr fresh remainingLen vpos fuel index bpos).events := by
  induction fuel generalizing index bpos set with
  | zero =>
      exact
        {
          assigns := by simp [unsubEntryLoop]
          codes := by simp [unsubEntryLoop]
          filled := nofun
        }
  | succ fuel ih =>
      rw [unsubEntryLoop] at success ⊢
      generalize (getUtf8Str nng buffer (fresh index).topicBody (payloadPtr + bpos)).value
        = pointed at success ⊢
      by_cases invalid : pointed.len = -1
      · simp [decodeUnsubFilter, invalid] at success
        cases success
      · have head := decodeUnsubFilterFields_fills invalid linked (fresh index) bpos
        have next : (decodeUnsubFilter (fresh index) bpos pointed).next
            = some (bpos + pointed.used) := by
          unfold decodeUnsubFilter
          rw [if_neg invalid]
        rw [next] at success ⊢
        dsimp only at success ⊢
        split at success
        · rename_i left
          rw [if_pos left]
          simpa using head.cons fun set linked => ih linked (by simpa using success)
        · rename_i done
          rw [if_neg done]
          simpa using head

/-- The fields that are set once a packet has been decoded. -/
structure FilledPacket (set : Set UnsubField) (packet : TopicPacket) : Prop where
  packetId : .packetId ∈ set
  properties : .properties ∈ set
  propLen : .propLen ∈ set
  node : .node ∈ set
  nodes : ∀ i node, packet.node[i]? = some node → FilledNode set i node

theorem FilledPacket.next {set : Set UnsubField} {packet : TopicPacket}
    (filled : FilledPacket set packet) {nodes : List TopicNode}
    (same : nodes.length = packet.node.length) {i : Nat} {node : TopicNode}
    (found : nodes[i]? = some node)
    : .inNode i .next ∈ set := by
  have inside : i < packet.node.length := by
    rw [← same]
    exact (List.getElem?_eq_some_iff.mp found).1
  exact (filled.nodes i _ (List.getElem?_eq_getElem inside)).next

theorem events_decodeUnsubHeaderFields (protoVer : Nat)
    : NoUnsetRead ∅ (decodeUnsubHeaderFields protoVer).events
      ∧ setAfter ∅ (decodeUnsubHeaderFields protoVer).events
        = { .packetId, .properties, .propLen } := by
  unfold decodeUnsubHeaderFields
  constructor
  · split <;> simp [NoUnsetRead]
  · ext field
    split <;> simp <;> tauto

/-- A packet that is decoded is filled, except for its codes, and nothing unset is read on
the way.
-/
theorem decodeUnsubMsgFields_fills {nng : MqttParser} {stray : Nat → UInt8}
    {fresh : Nat → TopicNode} {msg : NngMsg} {protoVer : Nat} {unset : TopicPacket}
    (success
      : (decodeUnsubMsgFields nng stray fresh msg protoVer unset).value.1 = SUCCESS)
    : NoUnsetRead ∅ (decodeUnsubMsgFields nng stray fresh msg protoVer unset).events
      ∧ FilledPacket
          (setAfter ∅ (decodeUnsubMsgFields nng stray fresh msg protoVer unset).events)
          (decodeUnsubMsgFields nng stray fresh msg protoVer unset).value.2
      ∧ ∀ i,
          .inNode i .reasonCode
            ∉ setAfter ∅
                (decodeUnsubMsgFields nng stray fresh msg protoVer unset).events := by
  obtain ⟨clean, header⟩ := events_decodeUnsubHeaderFields protoVer
  unfold decodeUnsubMsgFields at success ⊢
  simp only [Traced.value_bind] at success
  split at success
  · cases success
  · rename_i checked
    simp only [Traced.value_bind, Traced.value_pure, Traced.events_bind, Traced.events_pure,
      if_neg checked, events_assign, setAfter_append, setAfter_assign, setAfter_nil,
      noUnsetRead_append, header, List.append_nil] at success ⊢
    let begun : Set UnsubField :=
      insert (.inNode 0 .next) (insert .node { .packetId, .properties, .propLen })
    have linked : .inNode 0 .next ∈ begun := Or.inl rfl
    have fills := unsubEntryLoop_fills linked success
    refine ⟨⟨clean, trivial, trivial, ?_⟩, ?_, ?_⟩
    · exact noUnsetRead_of_set fun field member => (fills.assigns field member).elim
    · exact {
        packetId := mem_setAfter (show _ ∈ begun by simp [begun]) _
        properties := mem_setAfter (show _ ∈ begun by simp [begun]) _
        propLen := mem_setAfter (show _ ∈ begun by simp [begun]) _
        node := mem_setAfter (show _ ∈ begun by simp [begun]) _
        nodes := fun i node found => by
          have filled := fills.filled i node found
          rwa [Nat.zero_add] at filled
      }
    · rintro i (early | later)
      · simp at early
      · exact fills.codes i later

-- What the other functions read

/-- The accesses along a list are those of its nodes. By induction on the list. -/
theorem mem_eachNode {visit : Nat → TopicNode → Accessing UnsubField Unit} {index : Nat}
    {nodes : List TopicNode} {access : FieldAccess UnsubField}
    : access ∈ (eachNode visit index nodes).events
      ↔ ∃ i node,
          nodes[i]? = some node
          ∧ (access ∈ (visit (index + i) node).events
            ∨ access = .read (.inNode (index + i) .next)) := by
  induction nodes generalizing index with
  | nil => simp [eachNode]
  | cons node rest ih =>
      rw [eachNode, Traced.events_bind, Traced.events_bind, events_read, List.mem_append,
        List.mem_append, List.mem_singleton, ih, ← or_assoc]
      constructor
      · rintro (here | ⟨i, other, found, accessed⟩)
        · exact ⟨0, node, rfl, here⟩
        · rw [Nat.add_right_comm] at accessed
          exact ⟨i + 1, other, found, accessed⟩
      · rintro ⟨i, other, found, accessed⟩
        cases i with
        | zero =>
            obtain rfl : node = other := by simpa using found
            exact Or.inl accessed
        | succ i =>
            rw [← Nat.add_assoc, Nat.add_right_comm] at accessed
            exact Or.inr ⟨i, other, by simpa using found, accessed⟩

theorem events_unsubCtxNodeFields (index : Nat) (node : TopicNode)
    : (unsubCtxNodeFields index node).events
      = .read (.inNode index .topicLen)
        :: if node.topicLen = 0 then []
          else
            [
              .read (.inNode index .topicBody),
              .read (.inNode index .topicLen),
              .assign (.inNode index .reasonCode),
              .read (.inNode index .topicLen)
            ] := by
  unfold unsubCtxNodeFields
  rw [Traced.events_bind, events_read]
  split <;> rfl

theorem assign_mem_unsubCtxHandleFields {pid : Pid} {nodes : List TopicNode}
    {stores : Stores} {field : UnsubField}
    : .assign field ∈ (unsubCtxHandleFields pid nodes stores).events
      ↔ ∃ i node,
          nodes[i]? = some node ∧ node.topicLen ≠ 0 ∧ field = .inNode i .reasonCode := by
  have accesses
      : .assign field ∈ (unsubCtxHandleFields pid nodes stores).events
        ↔ .assign field ∈ (eachNode unsubCtxNodeFields 0 nodes).events := by
    simp [unsubCtxHandleFields]
  rw [accesses, mem_eachNode]
  refine exists_congr fun i => exists_congr fun node => and_congr_right fun _ => ?_
  rw [events_unsubCtxNodeFields]
  split <;> simp_all

/-- The handler reads nothing that the decoder has not set. -/
theorem unsubCtxHandleFields_clean {set : Set UnsubField} {packet : TopicPacket}
    (filled : FilledPacket set packet) (pid : Pid) (stores : Stores)
    : NoUnsetRead set (unsubCtxHandleFields pid packet.node stores).events := by
  refine noUnsetRead_of_set fun field member => ?_
  simp only [unsubCtxHandleFields, Traced.events_bind, events_read, Traced.events_pure,
    List.append_nil, List.mem_append, List.mem_singleton, mem_eachNode,
    events_unsubCtxNodeFields, Nat.zero_add] at member
  rcases member with same | ⟨i, node, found, accessed⟩
  · cases same
    exact filled.node
  · have inNode := filled.nodes i node found
    split at accessed
    · simp only [List.mem_singleton, FieldAccess.read.injEq] at accessed
      rcases accessed with rfl | rfl
      · exact inNode.topicLen
      · exact inNode.next
    · rename_i named
      simp only [List.mem_cons, List.not_mem_nil, FieldAccess.read.injEq, reduceCtorEq,
        or_false, false_or] at accessed
      rcases accessed with (rfl | rfl | rfl | rfl) | rfl
      · exact inNode.topicLen
      · exact inNode.topicBody named
      · exact inNode.topicLen
      · exact inNode.topicLen
      · exact inNode.next

theorem read_mem_encodeUnsubackMsgFields {nng : MqttParser} {msg : NngMsg}
    {packet : TopicPacket} {protoVer : Nat} {field : UnsubField}
    : .read field ∈ (encodeUnsubackMsgFields nng msg packet protoVer).events
      ↔ field = .packetId
        ∨ (protoVer = MQTT_PROTOCOL_VERSION_v5
          ∧ (field = .node
            ∨ ∃ i node,
                packet.node[i]? = some node
                ∧ (field = .inNode i .reasonCode ∨ field = .inNode i .next))) := by
  unfold encodeUnsubackMsgFields unsubackCodesFields
  split <;> simp_all [mem_eachNode]

theorem assign_mem_encodeUnsubackMsgFields {nng : MqttParser} {msg : NngMsg}
    {packet : TopicPacket} {protoVer : Nat} {field : UnsubField}
    : .assign field ∉ (encodeUnsubackMsgFields nng msg packet protoVer).events := by
  unfold encodeUnsubackMsgFields unsubackCodesFields
  split <;> simp [mem_eachNode]

/-- Freeing a packet reads nothing that the decoder has not set. -/
theorem unsubPktFree_clean {set : Set UnsubField} {packet : TopicPacket}
    (filled : FilledPacket set packet) {nodes : List TopicNode}
    (same : nodes.length = packet.node.length)
    : NoUnsetRead set (unsubPktFree { packet with node := nodes }).events := by
  have unfree
      : ∀ field, .read field ∈ (unsubPktFree { packet with node := nodes }).events
        → field = .node
          ∨ field = .propLen
          ∨ field = .properties
          ∨ ∃ i node, nodes[i]? = some node ∧ field = .inNode i .next := by
    intro field
    unfold unsubPktFree unsubPropertyFree
    split
    · simpa using Or.inl
    · split <;> simp [mem_eachNode] <;> tauto
  refine noUnsetRead_of_set fun field member => ?_
  rcases unfree field member with rfl | rfl | rfl | ⟨i, node, found, rfl⟩
  · exact filled.node
  · exact filled.propLen
  · exact filled.properties
  · exact filled.next same found

-- The whole path

/-- The encoder reads nothing unset exactly if, for version 5, every node has a topic. -/
theorem encodeUnsubackMsgFields_clean_iff {set : Set UnsubField} {packet : TopicPacket}
    (filled : FilledPacket set packet) (codes : ∀ i, .inNode i .reasonCode ∉ set)
    (nng : MqttParser) (msg : NngMsg) (protoVer : Nat) (pid : Pid) (stores : Stores)
    : let handled := unsubCtxHandleFields pid packet.node stores
      NoUnsetRead (setAfter set handled.events)
          (encodeUnsubackMsgFields nng msg { packet with node := handled.value.1 }
            protoVer).events
        ↔ (protoVer = MQTT_PROTOCOL_VERSION_v5 → ∀ node ∈ packet.node, node.topicLen ≠ 0) := by
  intro handled
  have same : handled.value.1.length = packet.node.length :=
    length_unsubCtxHandle pid packet.node stores
  have subset : set ⊆ setAfter set handled.events := fun field member => Or.inl member
  have coded {i : Nat}
      : .inNode i .reasonCode ∈ setAfter set handled.events
        ↔ ∃ node, packet.node[i]? = some node ∧ node.topicLen ≠ 0 := by
    constructor
    · rintro (early | assigned)
      · exact (codes i early).elim
      · obtain ⟨j, node, found, named, place⟩ := assign_mem_unsubCtxHandleFields.mp assigned
        cases place
        exact ⟨node, found, named⟩
    · rintro ⟨node, found, named⟩
      exact Or.inr (assign_mem_unsubCtxHandleFields.mpr ⟨i, node, found, named, rfl⟩)
  constructor
  · intro clean v5 node member
    obtain ⟨i, inside, rfl⟩ := List.getElem_of_mem member
    have handledAt := List.getElem?_eq_getElem (same.symm ▸ inside)
    have read
        : .read (.inNode i .reasonCode)
          ∈ (encodeUnsubackMsgFields nng msg { packet with node := handled.value.1 }
              protoVer).events :=
      read_mem_encodeUnsubackMsgFields.mpr
        (Or.inr ⟨v5, Or.inr ⟨i, _, handledAt, Or.inl rfl⟩⟩)
    rcases clean.set_of_read read with set | assigned
    · obtain ⟨other, found, named⟩ := coded.mp set
      obtain rfl := Option.some.inj ((List.getElem?_eq_getElem inside).symm.trans found)
      exact named
    · exact (assign_mem_encodeUnsubackMsgFields assigned).elim
  · intro named
    refine noUnsetRead_of_set fun field member => ?_
    rcases read_mem_encodeUnsubackMsgFields.mp member with
      rfl | ⟨v5, rfl | ⟨i, node, found, rfl | rfl⟩⟩
    · exact subset filled.packetId
    · exact subset filled.node
    · have inside : i < packet.node.length := by
        rw [← same]
        exact (List.getElem?_eq_some_iff.mp found).1
      exact coded.mpr
        ⟨_, List.getElem?_eq_getElem inside, named v5 _ (List.getElem_mem inside)⟩
    · exact subset (filled.next same found)

/-- The path of an UNSUBSCRIBE that is decoded reads nothing unset exactly if, for version 5,
every node has a topic.
-/
theorem unsubscribePath_clean_iff {nng : MqttParser} {env : Env} {msg : NngMsg}
    {protoVer : Nat} {packet : TopicPacket} (pid : Pid) (stores : Stores)
    (decoded
      : (decodeUnsubMsg nng env.stray env.freshNode msg protoVer env.freshUnsub).value
        = (SUCCESS, packet))
    : NoUnsetRead ∅ (unsubscribePath nng env msg protoVer pid stores).events
      ↔ (protoVer = MQTT_PROTOCOL_VERSION_v5 → ∀ node ∈ packet.node, node.topicLen ≠ 0) := by
  have value := decodeUnsubMsgFields_value nng env.stray env.freshNode msg protoVer
    env.freshUnsub
  rw [decoded] at value
  obtain ⟨clean, filled, codes⟩ := decodeUnsubMsgFields_fills (congrArg Prod.fst value)
  unfold unsubscribePath
  simp only [Traced.events_bind, Traced.events_pure, List.append_nil, noUnsetRead_append]
  generalize decodeUnsubMsgFields nng env.stray env.freshNode msg protoVer env.freshUnsub
    = decoding at value clean filled codes ⊢
  rw [value] at filled ⊢
  have handled := unsubCtxHandleFields_clean filled pid stores
  have encoded := encodeUnsubackMsgFields_clean_iff filled codes nng msg protoVer pid stores
  have freed := unsubPktFree_clean filled (length_unsubCtxHandle pid packet.node stores)
  have success : (SUCCESS, packet).1 = 0 := rfl
  rw [if_pos success]
  constructor
  · rintro ⟨_, _, codesRead, _⟩
    exact encoded.mp codesRead
  · intro named
    refine ⟨clean, handled, encoded.mpr named, freed.mono fun field member => ?_⟩
    exact Or.inl (Or.inl member)

/-- The path of an UNSUBSCRIBE reads no field of the packet or of a node that was not assigned
for it, and no UNSUBACK is sent when it could not be decoded: exactly if it is decoded and,
for version 5, no filter is empty.
-/
theorem unsubscribe_fields_set_iff (lib : Library) (env : Env) (work : Work) (world : World)
    (msg : NngMsg) (receiving : work.state = .RECV) (broker : work.proto = .MQTT_BROKER)
    (completed : env.aioResult = 0) (received : env.aioMsg = some msg)
    (unsubscribe : msg.cmdType = .UNSUBSCRIBE)
    : let protoVer := msg.connParam.protover
      let decoded :=
        (decodeUnsubMsg lib.parser env.stray env.freshNode msg protoVer env.freshUnsub).value
      (NoUnsetRead ∅
          (unsubscribePath lib.parser env msg protoVer msg.pipe world.stores).events
        ∧ (decoded.1 ≠ SUCCESS
          → ∀ ack id,
              .ctxSend false id ack ∈ (serverCb lib env work world).trace
              → ack.header.head? ≠ some CMD_UNSUBACK_BYTE))
      ↔ decoded.1 = SUCCESS
        ∧ (protoVer = MQTT_PROTOCOL_VERSION_v5
          → ∀ node ∈ decoded.2.node, node.topicLen ≠ 0) := by
  intro protoVer decoded
  obtain ⟨sent, _⟩ :=
    @serverCb_unsuback lib env work world msg receiving broker completed received unsubscribe
  constructor
  · rintro ⟨clean, silent⟩
    have success : decoded.1 = SUCCESS := by
      by_contra failed
      exact silent failed _ _ sent rfl
    have named := unsubscribePath_clean_iff msg.pipe world.stores (Prod.ext success rfl)
    exact ⟨success, named.mp clean⟩
  · rintro ⟨success, named⟩
    refine ⟨?_, fun failed => absurd success failed⟩
    exact (unsubscribePath_clean_iff msg.pipe world.stores (Prod.ext success rfl)).mpr named

/-- An UNSUBSCRIBE from `a` only reads what is set. -/
theorem unsubscribeA_fields_set
    : NoUnsetRead ∅
        (unsubscribePath referenceParser (.brings (some unsubscribeA)) unsubscribeA 5 1
          (worldAfter []).stores).events :=
  ((unsubscribe_fields_set_iff (referenceLibrary fun _ => none) (.brings (some unsubscribeA))
    (.receiving .MQTT_BROKER) (worldAfter []) unsubscribeA rfl rfl rfl rfl rfl).mpr
    (by decide)).1

/-- A version 5 UNSUBSCRIBE of pipe 1 with this payload. -/
def unsubscribeOf (payload : List UInt8) : NngMsg :=
  { NngMsg.received .UNSUBSCRIBE [0xA2, 9] ([0, 7, 0] ++ payload) 1 (.plain 5) with
    payloadPtr := 3 }

/-- A parser that refuses every property section. -/
def refusingParser : MqttParser :=
  { referenceParser with checkProperties := fun _ => false }

/-- The list is read unset after a failed property check. A filter that is not UTF-8 fails
the decoder, yet an UNSUBACK is sent, with the unset code of the filter in front of it. The
code of an empty filter is read unset as well.
-/
theorem unsubscribe_fields_unset
    : let env (payload : List UInt8) := Env.brings (some (unsubscribeOf payload))
      let path (nng : MqttParser) (payload : List UInt8) :=
        unsubscribePath nng (env payload) (unsubscribeOf payload) 5 1 .empty
      let code (nng : MqttParser) (payload : List UInt8) :=
        (decodeUnsubMsg nng (env payload).stray (env payload).freshNode
          (unsubscribeOf payload) 5 (env payload).freshUnsub).value.1
      (code refusingParser [0, 1, 97] = PROTOCOL_ERROR
        ∧ ¬NoUnsetRead ∅ (path refusingParser [0, 1, 97]).events)
      ∧ (code referenceParser [0, 1, 97, 0, 1, 0xFF] = PROTOCOL_ERROR
        ∧ ¬NoUnsetRead ∅ (path referenceParser [0, 1, 97, 0, 1, 0xFF]).events
        ∧ ∃ ack,
            .ctxSend false 0 ack
              ∈ (serverCb (referenceLibrary fun _ => none) (env [0, 1, 97, 0, 1, 0xFF])
                  (.receiving .MQTT_BROKER) .empty).trace
            ∧ ack.header.head? = some CMD_UNSUBACK_BYTE)
      ∧ code referenceParser [0, 0] = SUCCESS
      ∧ ¬NoUnsetRead ∅ (path referenceParser [0, 0]).events := by
  refine ⟨⟨by decide, ?_⟩, ⟨by decide, ?_, ?_⟩, by decide, ?_⟩
  · exact not_noUnsetRead .node (by decide) (by decide)
  · exact not_noUnsetRead (.inNode 0 .reasonCode) (by decide) (by decide)
  · exact ⟨_, (serverCb_unsuback rfl rfl rfl rfl rfl).1, rfl⟩
  · exact not_noUnsetRead (.inNode 0 .reasonCode) (by decide) (by decide)

end NanoMQ
