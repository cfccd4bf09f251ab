import NanoMQ.Broker.SubscribeRequest
import NanoMQ.Subscriptions.Entries

/-! What becomes of the entries that a client writes into a SUBSCRIBE, filters that are empty
or not valid UTF-8 included, and which codes they get.
-/

namespace NanoMQ

open Bytes Reading

-- How far the decoder goes

/-- The bytes that a node accounts for: a length, its topic and an option byte. -/
def TopicNode.span (node : TopicNode) : Nat :=
  3 + (node.topicBody.getD []).length

section Span

variable {nng : MqttParser} {buffer : Buffer} {payloadPtr protoVer : Nat}

/-- A string that is rejected is skipped by its length field only. -/
def MqttParser.SkipsLength (nng : MqttParser) : Prop :=
  ∀ count, nng.copyRejectSkip count = 2

theorem copyUtf8Str_used (buffer : Buffer) (skips : nng.SkipsLength) (pos : Nat)
    : (copyUtf8Str nng buffer pos).value.used
      = 2 + ((copyUtf8Str nng buffer pos).value.body.getD []).length := by
  unfold copyUtf8Str
  rw [Traced.value_bind]
  split
  · rfl
  · split
    · rfl
    · exact skips _

theorem decodeSubEntry_span (skips : nng.SkipsLength) {bpos next : Nat}
    (granted
      : (decodeSubEntry nng buffer payloadPtr protoVer bpos).value.next = some next)
    : next = bpos + (decodeSubEntry nng buffer payloadPtr protoVer bpos).value.node.span := by
  have accepted := decodeSubEntry_accepted granted
  rw [accepted.next_eq, copyUtf8Str_used buffer skips, TopicNode.span, accepted.topic]
  omega

/-- The nodes of an accepted list account for the whole payload. By induction on the fuel.
-/
theorem entryLoop_span {entry : Nat → Nat → Reader DecodedEntry} {remainingLen vpos : Nat}
    (spans
      : ∀ index bpos next,
          (entry index bpos).value.next = some next
          → next = bpos + (entry index bpos).value.node.span)
    {fuel index bpos : Nat} (running : 0 < fuel)
    (enough : (sizeMinus remainingLen vpos).value < fuel + bpos)
    (success : (entryLoop entry remainingLen vpos fuel index bpos).value.1 = SUCCESS)
    : (sizeMinus remainingLen vpos).value
      ≤ bpos
        + ((entryLoop entry remainingLen vpos fuel index bpos).value.2.map TopicNode.span).sum := by
  induction fuel generalizing index bpos with
  | zero => exact absurd running (Nat.lt_irrefl 0)
  | succ fuel ih =>
      have span := spans index bpos
      rw [entryLoop, Traced.value_bind] at success ⊢
      cases next : (entry index bpos).value.next with
      | none =>
          rw [next] at success
          cases success
      | some later =>
          rw [next] at success
          have further := span later next
          have positive : 0 < (entry index bpos).value.node.span := by
            unfold TopicNode.span
            omega
          dsimp only at success ⊢
          rw [Traced.value_bind] at success ⊢
          split
          · rename_i left
            rw [if_pos left] at success
            have rest := ih (by omega) (by omega) success
            rw [Traced.value_bind, Traced.value_pure, List.map_cons, List.sum_cons]
            omega
          · rw [Traced.value_pure, List.map_singleton, List.sum_singleton]
            omega

end Span

-- Nodes and entries

/-- A node is that of an entry: with the topic of a valid filter, or without a topic and
with an error code.
-/
structure SubEntry.Answers (nng : MqttParser) (node : TopicNode) (entry : SubEntry)
    : Prop where
  named : entry.valid nng = true → node.topicBody = some entry.filter ∧ node.reasonCode < 0x80
  rejected : entry.valid nng = false → node.topicBody = none ∧ 0x80 ≤ node.reasonCode

theorem SubEntry.answers_node (nng : MqttParser) (protoVer : Nat) (entry : SubEntry)
    : entry.Answers nng (entry.node nng protoVer) := by
  unfold SubEntry.node
  refine { named := ?_, rejected := ?_ }
  · intro valid
    rw [if_pos valid]
    exact ⟨rfl, show GRANTED_QOS_2 < 0x80 by decide⟩
  · intro invalid
    rw [if_neg (by rw [invalid]; decide)]
    refine ⟨rfl, ?_⟩
    dsimp only
    split
    · decide
    · decide

theorem SubEntry.topicStr_node {nng : MqttParser} {protoVer : Nat} {entry : SubEntry}
    {topic : Topic} (rejectsNul : nng.RejectsNul)
    : (entry.node nng protoVer).topicStr = some topic
      ↔ entry.valid nng = true ∧ topic = entry.filter := by
  have answers := entry.answers_node nng protoVer
  unfold TopicNode.topicStr
  cases valid : entry.valid nng with
  | true =>
      have utf8 : nng.utf8Check entry.filter = true := by
        simp only [SubEntry.valid, Bool.and_eq_true] at valid
        exact valid.2
      rw [(answers.named valid).1, Option.map_some, Option.some.injEq,
        cstr_of_not_mem (rejectsNul _ utf8)]
      exact ⟨fun same => ⟨rfl, same.symm⟩, fun same => same.2.symm⟩
  | false =>
      rw [(answers.rejected valid).1]
      simp

/-- The nodes of a list account for its payload only if no filter is rejected for its bytes.
By induction on the two lists.
-/
theorem span_le_payload {nng : MqttParser} {nodes : List TopicNode} {entries : List SubEntry}
    (answers : List.Forall₂ (SubEntry.Answers nng) nodes entries)
    : (nodes.map TopicNode.span).sum ≤ (entries.flatMap SubEntry.bytes).length
      ∧ ((entries.flatMap SubEntry.bytes).length ≤ (nodes.map TopicNode.span).sum
        → ∀ entry ∈ entries, entry.Regular nng) := by
  induction answers with
  | nil => exact ⟨Nat.le_refl _, fun _ => List.forall_mem_nil _⟩
  | @cons node entry nodes entries answer _ ih =>
      obtain ⟨atMost, regular⟩ := ih
      have length := entry.length_bytes
      rw [List.map_cons, List.sum_cons, List.flatMap_cons, List.length_append,
        List.forall_mem_cons]
      cases valid : entry.valid nng with
      | true =>
          have span : node.span = 3 + entry.filter.length := by
            unfold TopicNode.span
            rw [(answer.named valid).1]
            rfl
          have utf8 : entry.Regular nng := by
            simp only [SubEntry.valid, Bool.and_eq_true] at valid
            exact Or.inr valid.2
          exact ⟨by omega, fun covers => ⟨utf8, regular (by omega)⟩⟩
      | false =>
          have span : node.span = 3 := by
            unfold TopicNode.span
            rw [(answer.rejected valid).1]
            rfl
          refine ⟨by omega, fun covers => ⟨Or.inl ?_, regular (by omega)⟩⟩
          exact List.length_eq_zero_iff.mp (by omega)

/-- A SUBSCRIBE that is accepted has its packet id, and its nodes account for its payload. -/
theorem decodeSubMsg_span {nng : MqttParser} {stray : Nat → UInt8} {protoVer packetId : Nat}
    {payload : List UInt8} {msg : NngMsg} {packet : TopicPacket} (skips : nng.SkipsLength)
    (message : TopicMessage nng protoVer packetId payload msg)
    (decoded : (decodeSubMsg nng stray msg protoVer .zeroed).value = (SUCCESS, packet))
    : packetId ≠ 0
      ∧ packet.packetId = packetId
      ∧ payload.length ≤ (packet.node.map TopicNode.span).sum := by
  obtain ⟨packetIdRead, checked, _, size⟩ := message.found stray
  unfold decodeSubMsg at decoded
  simp only [Traced.value_bind] at decoded
  rw [packetIdRead, checked] at decoded
  split at decoded
  · cases decoded
  · rename_i nonzero
    simp only [Bool.false_eq_true, if_false, Traced.value_bind, Traced.value_pure,
      Prod.mk.injEq] at decoded
    obtain ⟨success, rfl⟩ := decoded
    refine ⟨nonzero, rfl, ?_⟩
    have spans := entryLoop_span (fun _ _ _ granted => decodeSubEntry_span skips granted)
      (Nat.succ_pos _) (Nat.lt_succ_self _) success
    rw [Nat.zero_add] at spans
    exact size.symm.trans_le spans

section Accepted

variable {nng : MqttParser} {stray : Nat → UInt8} {protoVer packetId : Nat}
  {entries : List SubEntry} {msg : NngMsg} {packet : TopicPacket}

theorem nodes_of_regular (skips : nng.SkipsLength) (nonempty : entries ≠ [])
    (message : TopicMessage nng protoVer packetId (entries.flatMap SubEntry.bytes) msg)
    (decoded : (decodeSubMsg nng stray msg protoVer .zeroed).value = (SUCCESS, packet))
    (regular : ∀ entry ∈ entries, entry.Regular nng)
    : packet.node = entries.map (SubEntry.node nng protoVer) := by
  obtain ⟨nonzero, _, _⟩ := decodeSubMsg_span skips message decoded
  obtain ⟨accepts, nodes⟩ :=
    decodeSubMsg_entries stray nonempty regular nonzero message .zeroed
  have packet_eq := decoded.symm.trans (nodes (accepts.mp (congrArg Prod.fst decoded)))
  obtain rfl := (Prod.mk.inj packet_eq).2
  rfl

/-- The nodes of an accepted list are those of its entries exactly if every filter is empty
or valid UTF-8.
-/
theorem answers_iff_regular (skips : nng.SkipsLength) (nonempty : entries ≠ [])
    (message : TopicMessage nng protoVer packetId (entries.flatMap SubEntry.bytes) msg)
    (decoded : (decodeSubMsg nng stray msg protoVer .zeroed).value = (SUCCESS, packet))
    : List.Forall₂ (SubEntry.Answers nng) packet.node entries
      ↔ ∀ entry ∈ entries, entry.Regular nng := by
  constructor
  · intro answers
    obtain ⟨_, _, covers⟩ := decodeSubMsg_span skips message decoded
    exact (span_le_payload answers).2 covers
  · intro regular
    rw [nodes_of_regular skips nonempty message decoded regular, List.forall₂_map_left_iff,
      List.forall₂_same]
    exact fun entry _ => entry.answers_node nng protoVer

theorem mem_subscribe_entries {stores : Stores} (rejectsNul : nng.RejectsNul)
    (agrees : stores.Agrees) (pid : Pid) (topic : Topic) (owner : Pid)
    : (topic, owner)
        ∈ ((entries.map (SubEntry.node nng protoVer)).foldl (subscribeNode pid) stores).pairs
      ↔ (topic, owner) ∈ stores.pairs
        ∨ owner = pid ∧ ∃ entry ∈ entries, entry.valid nng = true ∧ topic = entry.filter := by
  rw [mem_foldl_subscribeNode agrees]
  refine or_congr_right (and_congr_right fun _ => ?_)
  simp only [List.mem_map, exists_exists_and_eq_and, SubEntry.topicStr_node rejectsNul]

/-- When a list of entries is accepted, its nodes are those of its entries, and the topics
that are stored are its valid filters, exactly if every filter is empty or valid UTF-8.
-/
theorem no_filter_smuggled_iff
    (skips : nng.SkipsLength) (rejectsNul : nng.RejectsNul) (nonempty : entries ≠ [])
    (message : TopicMessage nng protoVer packetId (entries.flatMap SubEntry.bytes) msg)
    (decoded : (decodeSubMsg nng stray msg protoVer .zeroed).value = (SUCCESS, packet))
    : (List.Forall₂ (SubEntry.Answers nng) packet.node entries
        ∧ ∀ findRetain stale pid stores,
            stores.Agrees
            → ∀ topic owner,
                (topic, owner)
                  ∈ (subCtxHandle findRetain stale pid packet stores).2.stores.pairs
                ↔ (topic, owner) ∈ stores.pairs
                  ∨ owner = pid
                    ∧ ∃ entry ∈ entries, entry.valid nng = true ∧ topic = entry.filter)
      ↔ ∀ entry ∈ entries, entry.Regular nng := by
  have answers := answers_iff_regular skips nonempty message decoded
  refine ⟨fun handled => answers.mp handled.1, fun regular => ⟨answers.mpr regular, ?_⟩⟩
  obtain ⟨nonzero, same, _⟩ := decodeSubMsg_span skips message decoded
  intro findRetain stale pid stores agrees topic owner
  rw [subCtxHandle_stores, if_neg (by rw [same]; exact nonzero),
    nodes_of_regular skips nonempty message decoded regular,
    mem_subscribe_entries rejectsNul agrees]

end Accepted

theorem referenceParser_skips : referenceParser.SkipsLength :=
  fun _ => rfl

def emptyFilter : SubEntry :=
  { filter := [], option := 0, short := by decide }

/-- The entry for the filter `a` with these options. -/
def askingA (option : UInt8) : SubEntry :=
  { filterA with option }

theorem mixedSubscribe_message
    : TopicMessage referenceParser 4 1 ([askingA 0, emptyFilter].flatMap SubEntry.bytes)
        mixedSubscribe :=
  { short := by decide, layout := ⟨[], rfl, rfl, rfl⟩, whole := rfl }

/-- The filter `a` is stored, the empty one is not. -/
theorem emptyFilter_answered
    : let packet := (decodeSubMsg referenceParser (fun _ => 0) mixedSubscribe 4 .zeroed).value.2
      List.Forall₂ (SubEntry.Answers referenceParser) packet.node
        [{ filterA with option := 0 }, emptyFilter] := by
  have decoded
      : (decodeSubMsg referenceParser (fun _ => 0) mixedSubscribe 4 .zeroed).value
        = (SUCCESS,
            (decodeSubMsg referenceParser (fun _ => 0) mixedSubscribe 4 .zeroed).value.2) :=
    rfl
  refine ((no_filter_smuggled_iff referenceParser_skips referenceParser_rejectsNul
    (List.cons_ne_nil _ _) mixedSubscribe_message decoded).mpr ?_).1
  refine List.forall_mem_cons.mpr ⟨Or.inr (by decide), ?_⟩
  exact List.forall_mem_singleton.mpr (Or.inl rfl)

/-- A filter that is not valid UTF-8, with an entry for `x` among its bytes. -/
def smuggler : SubEntry :=
  { filter := [0xFF, 0, 1, 120, 0, 0], option := 0, short := by decide }

/-- A SUBSCRIBE of pipe 1 with that filter only. -/
def smugglingSubscribe : NngMsg :=
  .received .SUBSCRIBE [0x82, 11] ([0, 7] ++ smuggler.bytes) 1 (.plain 4)

/-- The filter is rejected, and the client is subscribed to `x`. -/
theorem smuggler_subscribes
    : let decoded :=
        (decodeSubMsg referenceParser (fun _ => 0) smugglingSubscribe 4 .zeroed).value
      TopicMessage referenceParser 4 7 ([smuggler].flatMap SubEntry.bytes) smugglingSubscribe
      ∧ decoded.1 = SUCCESS
      ∧ decoded.2.node.length = 3
      ∧ smuggler.valid referenceParser = false
      ∧ ([120], 1) ∈ (subCtxHandle (fun _ => none) [] 1 decoded.2 .empty).2.stores.pairs := by
  refine ⟨?_, by decide, by decide, by decide, by decide⟩
  exact { short := by decide, layout := ⟨[], rfl, rfl, rfl⟩, whole := rfl }

-- What an acknowledgement says about the stores

/-- The nodes whose codes an acknowledgement carries are those of the entries, one for each.
An entry with a code below 0x80 is stored, one with another code is not added, and no other
pair has changed.
-/
structure SubackTruthful (nng : MqttParser) (pid : Pid) (nodes : List TopicNode)
    (entries : List SubEntry) (before after : Stores)
    : Prop where
  answers : List.Forall₂ (SubEntry.Answers nng) nodes entries
  granted
    : ∀ node entry,
        (node, entry) ∈ nodes.zip entries
        → node.reasonCode < 0x80
        → (entry.filter, pid) ∈ after.pairs ∧ entry.filter ∈ after.keys pid
  refused
    : ∀ node entry,
        (node, entry) ∈ nodes.zip entries
        → 0x80 ≤ node.reasonCode
        → ((entry.filter, pid) ∈ after.pairs ↔ (entry.filter, pid) ∈ before.pairs)
          ∧ (entry.filter ∈ after.keys pid ↔ entry.filter ∈ before.keys pid)
  others
    : ∀ topic owner,
        ¬(owner = pid ∧ ∃ entry ∈ entries, topic = entry.filter)
        → ((topic, owner) ∈ after.pairs ↔ (topic, owner) ∈ before.pairs)
          ∧ (topic ∈ after.keys owner ↔ topic ∈ before.keys owner)

/-- The codes of the entries' own nodes are truthful about the stores that these are entered
into. Witness: whether a code is an error depends on the filter only.
-/
theorem subackTruthful_nodes {nng : MqttParser} {protoVer : Nat}
    {entries : List SubEntry} {stores : Stores} (rejectsNul : nng.RejectsNul)
    (agrees : stores.Agrees) (pid : Pid)
    : let nodes := entries.map (SubEntry.node nng protoVer)
      SubackTruthful nng pid nodes entries stores
        (nodes.foldl (subscribeNode pid) stores) := by
  intro nodes
  have storesAgree : (nodes.foldl (subscribeNode pid) stores).Agrees :=
    foldl_agrees (fun agree node => subscribeNode_agrees agree pid node) _ agrees
  have own
      : ∀ node entry,
          (node, entry) ∈ nodes.zip entries
          → entry ∈ entries ∧ entry.Answers nng node := by
    intro node entry paired
    rw [← List.map_prod_right_eq_zip] at paired
    obtain ⟨other, member, same⟩ := List.mem_map.mp paired
    obtain ⟨rfl, rfl⟩ := Prod.mk.inj same
    exact ⟨member, other.answers_node nng protoVer⟩
  have kept
      : ∀ topic owner,
          ¬(owner = pid ∧ ∃ entry ∈ entries, entry.valid nng = true ∧ topic = entry.filter)
          → ((topic, owner) ∈ (nodes.foldl (subscribeNode pid) stores).pairs
              ↔ (topic, owner) ∈ stores.pairs)
            ∧ (topic ∈ (nodes.foldl (subscribeNode pid) stores).keys owner
              ↔ topic ∈ stores.keys owner) := by
    intro topic owner notAsked
    have pairs
        : (topic, owner) ∈ (nodes.foldl (subscribeNode pid) stores).pairs
          ↔ (topic, owner) ∈ stores.pairs :=
      (mem_subscribe_entries rejectsNul agrees pid topic owner).trans (or_iff_left notAsked)
    exact ⟨pairs, by rw [← storesAgree.mem_iff, ← agrees.mem_iff]; exact pairs⟩
  refine { answers := ?_, granted := ?_, refused := ?_, others := ?_ }
  · rw [List.forall₂_map_left_iff, List.forall₂_same]
    exact fun entry _ => entry.answers_node nng protoVer
  · intro node entry paired noError
    obtain ⟨member, answer⟩ := own node entry paired
    have valid : entry.valid nng = true := by
      by_contra invalid
      exact absurd (answer.rejected (Bool.eq_false_iff.mpr invalid)).2 (not_le_of_gt noError)
    have stored
        : (entry.filter, pid) ∈ (nodes.foldl (subscribeNode pid) stores).pairs :=
      (mem_subscribe_entries rejectsNul agrees pid entry.filter pid).mpr
        (Or.inr ⟨rfl, entry, member, valid, rfl⟩)
    exact ⟨stored, (storesAgree.mem_iff _ _).mp stored⟩
  · intro node entry paired error
    obtain ⟨member, answer⟩ := own node entry paired
    have invalid : entry.valid nng ≠ true := fun valid =>
      absurd (answer.named valid).2 (not_lt_of_ge error)
    refine kept entry.filter pid ?_
    rintro ⟨_, other, _, valid, same⟩
    unfold SubEntry.valid at valid invalid
    rw [← same] at valid
    exact invalid valid
  · intro topic owner notAsked
    refine kept topic owner ?_
    rintro ⟨mine, entry, member, _, same⟩
    exact notAsked ⟨mine, entry, member, same⟩

section Acknowledged

variable (lib : Library) (env : Env) (work : Work) (world : World) (msg : NngMsg)
  {packetId : Nat} {entries : List SubEntry}

/-- A SUBSCRIBE that reaches a context of the broker without an error code closes the
connection and leaves the stores as they were; or it is acknowledged under its packet id, and
the acknowledgement is truthful exactly if every filter is empty or valid UTF-8.
-/
theorem subscribe_all_or_nothing_iff (skips : lib.parser.SkipsLength)
    (rejectsNul : lib.parser.RejectsNul) (writes : lib.parser.WritesNoProperties)
    (receiving : work.state = .RECV) (broker : work.proto = .MQTT_BROKER)
    (clean : work.code = SUCCESS) (completed : env.aioResult = 0)
    (received : env.aioMsg = some msg) (subscribe : msg.cmdType = .SUBSCRIBE)
    (agrees : world.stores.Agrees) (nonempty : entries ≠ [])
    (message
      : TopicMessage lib.parser msg.connParam.protover packetId
          (entries.flatMap SubEntry.bytes) msg)
    : let after := serverCb lib env work world
      let protover := msg.connParam.protover
      (after.work.state = .CLOSE ∧ after.world.stores = world.stores)
      ∨ ∃ packet ack,
          (decodeSubMsg lib.parser env.stray msg protover .zeroed).value = (SUCCESS, packet)
          ∧ .ctxSend false world.nextMsg ack ∈ after.trace
          ∧ ack.cmdType = .SUBACK
          ∧ ack.pipe = msg.pipe
          ∧ ack.body
            = putU16 packetId
              ++ (if protover = MQTT_PROTOCOL_VERSION_v5 then [0] else [])
              ++ packet.node.map (fun node => reasonByte node.reasonCode)
          ∧ (SubackTruthful lib.parser msg.pipe packet.node entries world.stores
                after.world.stores
            ↔ ∀ entry ∈ entries, entry.Regular lib.parser) := by
  intro after protover
  rcases serverCb_subscribe_cases world receiving broker clean completed received subscribe
    with refused | ⟨packet, ack, decoded, sent, cmdType, pipe, body, stored⟩
  · exact Or.inl refused
  · obtain ⟨_, same, _⟩ := decodeSubMsg_span skips message decoded
    refine Or.inr ⟨packet, ack, decoded, sent, cmdType, pipe, ?_, ?_⟩
    · rw [body, same, ackVariableHeader_eq writes]
    · refine ⟨fun truthful =>
        (answers_iff_regular skips nonempty message decoded).mp truthful.answers, ?_⟩
      intro regular
      rw [stored, nodes_of_regular skips nonempty message decoded regular]
      exact subackTruthful_nodes rejectsNul agrees msg.pipe

/-- The node is that of the entry. For a valid filter its code is 0, 1 or 2 and the QoS bits
of the option byte, and the QoS bits 3 are not granted.
-/
structure SubEntry.Granted (nng : MqttParser) (node : TopicNode) (entry : SubEntry)
    : Prop where
  answers : entry.Answers nng node
  granted
    : entry.valid nng = true
      → (reasonByte node.reasonCode).toNat ≤ 2
        ∧ (reasonByte node.reasonCode).toNat = entry.option.toNat % 4
  forbidden : entry.option.toNat % 4 = 3 → 0x80 ≤ node.reasonCode

/-- A node with the default code grants what was asked for exactly if that was QoS 2. -/
theorem SubEntry.granted_node_iff (nng : MqttParser) (protoVer : Nat) (entry : SubEntry)
    : entry.Granted nng (entry.node nng protoVer)
      ↔ (entry.valid nng = true → entry.option.toNat % 4 = 2) := by
  have answers := entry.answers_node nng protoVer
  have code : entry.valid nng = true
      → (reasonByte (entry.node nng protoVer).reasonCode).toNat = 2 := by
    intro valid
    rw [SubEntry.node, if_pos valid]
    rfl
  constructor
  · intro granted valid
    rw [← (granted.granted valid).2, code valid]
  · intro asked
    refine { answers, granted := ?_, forbidden := ?_ }
    · intro valid
      rw [code valid, asked valid]
      exact ⟨Nat.le_refl 2, rfl⟩
    · intro bits
      refine (answers.rejected (Bool.eq_false_iff.mpr fun valid => ?_)).2
      rw [asked valid] at bits
      cases bits

/-- A SUBSCRIBE that is acknowledged gets the codes of its nodes under its packet id. They
grant every entry what it asked for exactly if every filter is empty or valid UTF-8 and every
entry with a valid one asked for QoS 2.
-/
theorem suback_grants_iff (skips : lib.parser.SkipsLength)
    (writes : lib.parser.WritesNoProperties) (receiving : work.state = .RECV)
    (broker : work.proto = .MQTT_BROKER) (clean : work.code = SUCCESS)
    (completed : env.aioResult = 0) (received : env.aioMsg = some msg)
    (subscribe : msg.cmdType = .SUBSCRIBE) (nonempty : entries ≠ [])
    (message
      : TopicMessage lib.parser msg.connParam.protover packetId
          (entries.flatMap SubEntry.bytes) msg)
    (acknowledged : (serverCb lib env work world).work.state = .SEND)
    : let protover := msg.connParam.protover
      ∃ packet ack,
        (decodeSubMsg lib.parser env.stray msg protover .zeroed).value = (SUCCESS, packet)
        ∧ .ctxSend false world.nextMsg ack ∈ (serverCb lib env work world).trace
        ∧ ack.cmdType = .SUBACK
        ∧ ack.body
          = putU16 packetId
            ++ (if protover = MQTT_PROTOCOL_VERSION_v5 then [0] else [])
            ++ packet.node.map (fun node => reasonByte node.reasonCode)
        ∧ (List.Forall₂ (SubEntry.Granted lib.parser) packet.node entries
          ↔ ∀ entry ∈ entries,
              entry.Regular lib.parser
              ∧ (entry.valid lib.parser = true → entry.option.toNat % 4 = 2)) := by
  intro protover
  rcases serverCb_subscribe_cases world receiving broker clean completed received subscribe
    with ⟨closed, _⟩ | ⟨packet, ack, decoded, sent, cmdType, _, body, _⟩
  · cases acknowledged.symm.trans closed
  · obtain ⟨_, same, _⟩ := decodeSubMsg_span skips message decoded
    refine ⟨packet, ack, decoded, sent, cmdType, ?_, ?_⟩
    · rw [body, same, ackVariableHeader_eq writes]
    · have answers := answers_iff_regular skips nonempty message decoded
      have nodes (regular : ∀ entry ∈ entries, entry.Regular lib.parser)
          : List.Forall₂ (SubEntry.Granted lib.parser) packet.node entries
            ↔ ∀ entry ∈ entries,
                entry.valid lib.parser = true → entry.option.toNat % 4 = 2 := by
        rw [nodes_of_regular skips nonempty message decoded regular,
          List.forall₂_map_left_iff, List.forall₂_same]
        exact forall₂_congr fun entry _ => entry.granted_node_iff lib.parser protover
      constructor
      · intro granted
        have regular := answers.mp (granted.imp fun _ _ each => each.answers)
        exact fun entry member => ⟨regular entry member, (nodes regular).mp granted entry member⟩
      · intro asked
        exact (nodes fun entry member => (asked entry member).1).mpr
          fun entry member => (asked entry member).2

end Acknowledged

-- Packets

/-- The first entry is granted and stored, the second one is not. -/
theorem mixedSubscribe_acknowledged
    : let after :=
        serverCb (referenceLibrary fun _ => none) (.brings (some mixedSubscribe))
          (.receiving .MQTT_BROKER) .empty
      ([97], mixedSubscribe.pipe) ∈ after.world.stores.pairs
      ∧ ∃ ack, .ctxSend false 0 ack ∈ after.trace ∧ ack.body = [0, 1, 2, 0x80] := by
  intro after
  have notClosed : after.work.state ≠ .CLOSE := by decide
  rcases subscribe_all_or_nothing_iff (referenceLibrary fun _ => none)
    (.brings (some mixedSubscribe)) (.receiving .MQTT_BROKER) .empty mixedSubscribe
    referenceParser_skips referenceParser_rejectsNul referenceParser_writesNone rfl rfl rfl rfl
    rfl rfl DualIndex.Index.agrees_empty (List.cons_ne_nil _ _) mixedSubscribe_message
    with ⟨closed, _⟩ | ⟨packet, ack, decoded, sent, _, _, body, truthful⟩
  · exact absurd closed notClosed
  · obtain rfl := (Prod.mk.inj decoded).2
    have regular
        : ∀ entry ∈ [askingA 0, emptyFilter], entry.Regular referenceParser :=
      List.forall_mem_cons.mpr
        ⟨Or.inr (by decide), List.forall_mem_singleton.mpr (Or.inl rfl)⟩
    have stored := (truthful.mpr regular).granted _ _ List.mem_cons_self (by decide)
    exact ⟨stored.1, ack, sent, body.trans (by decide)⟩

/-- A filter that is not valid UTF-8. -/
def brokenFilter : SubEntry :=
  { filter := [0xFF, 0, 0], option := 0, short := by decide }

/-- A SUBSCRIBE of pipe 1 with that filter and the filter `a` at QoS 2. -/
def shiftedSubscribe : NngMsg :=
  .received .SUBSCRIBE [0x82, 12] ([0, 7] ++ [brokenFilter, askingA 2].flatMap SubEntry.bytes) 1
    (.plain 4)

/-- The SUBACK has three codes for the two entries. The code of the second one is an error,
but its filter is added.
-/
theorem refused_entry_added
    : let after :=
        serverCb (referenceLibrary fun _ => none) (.brings (some shiftedSubscribe))
          (.receiving .MQTT_BROKER) .empty
      TopicMessage referenceParser 4 7 ([brokenFilter, askingA 2].flatMap SubEntry.bytes)
        shiftedSubscribe
      ∧ after.work.state = .SEND
      ∧ (∃ ack,
          .ctxSend false 0 ack ∈ after.trace
          ∧ ack.cmdType = .SUBACK
          ∧ ack.body = [0, 7, 0x80, 0x80, 2])
      ∧ (askingA 2).valid referenceParser = true
      ∧ ((askingA 2).filter, 1) ∈ after.world.stores.pairs := by
  intro after
  have acknowledged : after.work.state = .SEND := by decide
  refine ⟨{ short := by decide, layout := ⟨[], rfl, rfl, rfl⟩, whole := rfl }, acknowledged, ?_,
    by decide, by decide⟩
  rcases @serverCb_subscribe_cases (referenceLibrary fun _ => none)
    (.brings (some shiftedSubscribe)) (.receiving .MQTT_BROKER) .empty shiftedSubscribe rfl rfl
    rfl rfl rfl rfl
    with ⟨closed, _⟩ | ⟨packet, ack, decoded, sent, cmdType, _, body, _⟩
  · cases acknowledged.symm.trans closed
  · obtain rfl := (Prod.mk.inj decoded).2
    exact ⟨ack, sent, cmdType, body.trans (by decide)⟩

/-- A SUBSCRIBE to `a` with these options. -/
def subscribeWith (option : UInt8) : NngMsg :=
  .received .SUBSCRIBE [0x82, 6] ([0, 7] ++ (askingA option).bytes) 1 (.plain 4)

theorem subscribeWith_message (option : UInt8)
    : TopicMessage referenceParser 4 7 ([askingA option].flatMap SubEntry.bytes)
        (subscribeWith option) :=
  { short := by decide, layout := ⟨[], rfl, rfl, rfl⟩, whole := rfl }

/-- A SUBSCRIBE at QoS 2 is granted QoS 2. -/
theorem suback_grants_two
    : ∃ (packet : TopicPacket) (ack : NngMsg),
        .ctxSend false 0 ack
            ∈ (serverCb (referenceLibrary fun _ => none) (.brings (some (subscribeWith 2)))
                (.receiving .MQTT_BROKER) .empty).trace
        ∧ ack.cmdType = .SUBACK
        ∧ List.Forall₂ (SubEntry.Granted referenceParser) packet.node [askingA 2] := by
  obtain ⟨packet, ack, _, sent, cmdType, _, grants⟩ :=
    suback_grants_iff (referenceLibrary fun _ => none) (.brings (some (subscribeWith 2)))
      (.receiving .MQTT_BROKER) .empty (subscribeWith 2) referenceParser_skips
      referenceParser_writesNone rfl rfl rfl rfl rfl rfl (List.cons_ne_nil _ _)
      (subscribeWith_message 2) (by decide)
  refine ⟨packet, ack, sent, cmdType, grants.mpr ?_⟩
  exact List.forall_mem_singleton.mpr ⟨Or.inr (by decide), fun _ => rfl⟩

/-- A SUBSCRIBE at QoS 0 and one with the QoS bits 3 are both granted QoS 2. -/
theorem suback_grants_other
    : let suback (option : UInt8) :=
        let decoded :=
          (decodeSubMsg referenceParser (fun _ => 0) (subscribeWith option) 4 .zeroed).value
        (decoded.1, (encodeSubackMsg referenceParser (subscribeWith option) decoded.2 4).body)
      TopicMessage referenceParser 4 7 (askingA 0).bytes (subscribeWith 0)
      ∧ suback 0 = (SUCCESS, [0, 7, 2])
      ∧ TopicMessage referenceParser 4 7 (askingA 3).bytes (subscribeWith 3)
      ∧ suback 3 = (SUCCESS, [0, 7, 2]) :=
  ⟨subscribeWith_message 0, by decide, subscribeWith_message 3, by decide⟩

end NanoMQ
