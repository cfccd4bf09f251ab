import NanoMQ.Broker.SubscribeRequest
import NanoMQ.Subscriptions.Entries

/-! What an UNSUBSCRIBE takes out of the stores, and the codes that its UNSUBACK carries. -/

namespace NanoMQ

open Reading

-- The stores

/-- The pairs that the entries of a list give up. -/
def GivesUp (pid : Pid) (nodes : List TopicNode) (topic : Topic) (owner : Pid) : Prop :=
  owner = pid ∧ ∃ node ∈ nodes, node.topicLen ≠ 0 ∧ node.strndup = topic

theorem mem_unsubscribeNode (stores : Stores) (pid : Pid) (node : TopicNode) (topic : Topic)
    (owner : Pid)
    : (topic, owner) ∈ (unsubscribeNode pid stores node).pairs
      ↔ (topic, owner) ∈ stores.pairs
        ∧ ¬(owner = pid ∧ node.topicLen ≠ 0 ∧ node.strndup = topic) := by
  unfold unsubscribeNode
  split
  · rename_i empty
    simp [empty]
  · rename_i named
    unfold subCtxDel dbhashDelTopic dbtreeDeleteClient
    rw [DualIndex.Index.pairs_deleteFirst, DualIndex.Index.mem_removePair, ne_eq,
      Prod.mk.injEq]
    tauto

/-- The entries remove the pairs they give up and change no other. By induction on the list.
-/
theorem mem_foldl_unsubscribeNode (pid : Pid) (nodes : List TopicNode) (stores : Stores)
    (topic : Topic) (owner : Pid)
    : (topic, owner) ∈ (nodes.foldl (unsubscribeNode pid) stores).pairs
      ↔ (topic, owner) ∈ stores.pairs ∧ ¬GivesUp pid nodes topic owner := by
  induction nodes generalizing stores with
  | nil => simp [GivesUp]
  | cons node rest ih =>
      rw [List.foldl_cons, ih, mem_unsubscribeNode, and_assoc, ← not_or]
      simp only [GivesUp, List.exists_mem_cons_iff, and_or_left]

-- The codes

/-- The codes that a client's filters are due, each judged when its turn comes: 0x00 for a
topic that the client still holds then, 0x11 for one that it does not.
-/
def dueCodes (pid : Pid) : List Topic → Finset (Topic × Pid) → List UInt8
  | [], _ => []
  | topic :: rest, held =>
      (if (topic, pid) ∈ held then 0x00 else 0x11)
      :: dueCodes pid rest (held.erase (topic, pid))

/-- All of them are due 0x00 exactly if the client holds every filter and none is repeated.
By induction on the list.
-/
theorem dueCodes_eq_zeros_iff (pid : Pid) (topics : List Topic) (held : Finset (Topic × Pid))
    : List.replicate topics.length 0x00 = dueCodes pid topics held
      ↔ topics.Nodup ∧ ∀ topic ∈ topics, (topic, pid) ∈ held := by
  induction topics generalizing held with
  | nil => simp [dueCodes]
  | cons topic rest ih =>
      rw [List.length_cons, List.replicate_succ, dueCodes, List.cons.injEq, ih,
        List.nodup_cons, List.forall_mem_cons]
      have head : (0x00 : UInt8) = (if (topic, pid) ∈ held then 0x00 else 0x11)
          ↔ (topic, pid) ∈ held := by
        split
        · rename_i member
          exact iff_of_true rfl member
        · rename_i absent
          exact iff_of_false (by decide) absent
      rw [head]
      constructor
      · rintro ⟨member, distinct, others⟩
        refine ⟨⟨?_, distinct⟩, member, ?_⟩
        · intro repeated
          exact (Finset.mem_erase.mp (others topic repeated)).1 rfl
        · exact fun other listed => Finset.mem_of_mem_erase (others other listed)
      · rintro ⟨⟨absent, distinct⟩, member, others⟩
        refine ⟨member, distinct, fun other listed => ?_⟩
        refine Finset.mem_erase.mpr ⟨?_, others other listed⟩
        rintro ⟨⟩
        exact absent listed

/-- Every filter is answered with 0x00. By induction on the list. -/
theorem unsubCtxHandle_codes (pid : Pid) (stores : Stores) {nodes : List TopicNode}
    (named : ∀ node ∈ nodes, node.topicLen ≠ 0)
    : (unsubCtxHandle pid nodes stores).1.map (fun node => reasonByte node.reasonCode)
      = List.replicate nodes.length 0x00 := by
  induction nodes generalizing stores with
  | nil => rfl
  | cons node rest ih =>
      rw [List.forall_mem_cons] at named
      rw [unsubCtxHandle, List.map_cons, List.length_cons, List.replicate_succ, ih _ named.2,
        unsubCtxNode, if_neg named.1]
      rfl

-- server_cb

theorem serverCb_unsubscribe {lib : Library} {env : Env} {work : Work} {world : World}
    {msg : NngMsg} (receiving : work.state = .RECV) (broker : work.proto = .MQTT_BROKER)
    (completed : env.aioResult = 0) (received : env.aioMsg = some msg)
    (unsubscribe : msg.cmdType = .UNSUBSCRIBE)
    : serverCb lib env work world
      = recvUnsubscribe lib env world.nextMsg
          ((Cb.received work world msg).adopt world.nextMsg) := by
  rw [serverCb_received receiving broker completed received]
  unfold recvMsg
  rw [Cb.received_self work world msg, unsubscribe]

/-- What decoding and handling an UNSUBSCRIBE lead to: the packet as it is acknowledged, and
the stores.
-/
def unsubscribeOutcome (nng : MqttParser) (env : Env) (msg : NngMsg) (protoVer : Nat)
    (pid : Pid) (stores : Stores)
    : TopicPacket × Stores :=
  let decoded :=
    (decodeUnsubMsg nng env.stray env.freshNode msg protoVer env.freshUnsub).value
  let handled :=
    if decoded.1 = 0 then unsubCtxHandle pid decoded.2.node stores
    else (decoded.2.node, stores)
  ({ decoded.2 with node := handled.1 }, handled.2)

theorem recvUnsubscribe_outcome (lib : Library) (env : Env) (id : MsgId) (s : Cb)
    : let protoVer := s.work.cparam.protover
      let outcome :=
        unsubscribeOutcome lib.parser env (s.world.msgs id) protoVer s.work.pid s.world.stores
      .ctxSend false id
          ((encodeUnsubackMsg lib.parser (s.world.msgs id) outcome.1 protoVer).setPipe 0)
        ∈ (recvUnsubscribe lib env id s).trace
      ∧ (recvUnsubscribe lib env id s).world.stores = outcome.2 := by
  intro protoVer outcome
  refine ⟨?_, rfl⟩
  refine List.mem_append_left _ (List.mem_append_right _ (List.mem_singleton.mpr ?_))
  have contents := Cb.setMsg_self (((s.emit .cparamRead).read [.fields, .contents id]).setWorld
    { s.world with stores := outcome.2 }) id
    fun msg => (encodeUnsubackMsg lib.parser msg outcome.1 protoVer).setPipe 0
  exact congrArg (Effect.ctxSend false id) contents.symm

theorem serverCb_unsuback {lib : Library} {env : Env} {work : Work} {world : World}
    {msg : NngMsg} (receiving : work.state = .RECV) (broker : work.proto = .MQTT_BROKER)
    (completed : env.aioResult = 0) (received : env.aioMsg = some msg)
    (unsubscribe : msg.cmdType = .UNSUBSCRIBE)
    : let protoVer := msg.connParam.protover
      let outcome := unsubscribeOutcome lib.parser env msg protoVer msg.pipe world.stores
      .ctxSend false world.nextMsg
          ((encodeUnsubackMsg lib.parser msg outcome.1 protoVer).setPipe 0)
        ∈ (serverCb lib env work world).trace
      ∧ (serverCb lib env work world).world.stores = outcome.2 := by
  let adopted := (Cb.received work world msg).adopt world.nextMsg
  have contents : adopted.world.msgs world.nextMsg = msg :=
    Cb.received_self work world msg
  have pid : adopted.work.pid = msg.pipe := congrArg NngMsg.pipe contents
  have version : adopted.work.cparam.protover = msg.connParam.protover :=
    congrArg (fun msg => msg.connParam.protover) contents
  have outcome := recvUnsubscribe_outcome lib env world.nextMsg adopted
  rw [contents, pid, version] at outcome
  rw [serverCb_unsubscribe receiving broker completed received unsubscribe]
  exact outcome

theorem UnsubEntry.strndup_node {nng : MqttParser} {entry : UnsubEntry}
    (rejectsNul : nng.RejectsNul)
    (valid : entry.filter ≠ [] ∧ nng.utf8Check entry.filter = true) (fresh : TopicNode)
    : (entry.node fresh).topicLen ≠ 0 ∧ (entry.node fresh).strndup = entry.filter := by
  refine ⟨fun empty => valid.1 (List.length_eq_zero_iff.mp empty), ?_⟩
  unfold TopicNode.strndup UnsubEntry.node
  rw [if_neg valid.1, Option.getD_some, List.take_length, Bytes.cstr_of_not_mem]
  exact rejectsNul _ valid.2

theorem givesUp_entries {nng : MqttParser} {entries : List UnsubEntry}
    (rejectsNul : nng.RejectsNul)
    (valid : ∀ entry ∈ entries, entry.filter ≠ [] ∧ nng.utf8Check entry.filter = true)
    (fresh : Nat → TopicNode) (pid : Pid) (topic : Topic) (owner : Pid)
    : GivesUp pid (entries.mapIdx fun i entry => entry.node (fresh i)) topic owner
      ↔ owner = pid ∧ topic ∈ entries.map UnsubEntry.filter := by
  refine and_congr_right fun _ => ?_
  rw [List.mem_map]
  constructor
  · rintro ⟨node, member, _, rfl⟩
    obtain ⟨i, inside, rfl⟩ := List.mem_mapIdx.mp member
    have inEntries := List.getElem_mem inside
    exact ⟨_, inEntries, (UnsubEntry.strndup_node rejectsNul (valid _ inEntries) _).2.symm⟩
  · rintro ⟨entry, member, rfl⟩
    obtain ⟨i, inside, rfl⟩ := List.getElem_of_mem member
    exact ⟨_, List.mem_mapIdx.mpr ⟨i, inside, rfl⟩,
      UnsubEntry.strndup_node rejectsNul (valid _ member) _⟩

/-- A version 5 UNSUBSCRIBE of valid filters takes exactly its filters out of the stores. Its
codes are those that are due exactly if the client holds every filter and none is repeated.
-/
theorem unsuback_truthful_iff (lib : Library) (rejectsNul : lib.parser.RejectsNul) (env : Env)
    (work : Work) (world : World) (msg : NngMsg) (receiving : work.state = .RECV)
    (broker : work.proto = .MQTT_BROKER) (completed : env.aioResult = 0)
    (received : env.aioMsg = some msg) (unsubscribe : msg.cmdType = .UNSUBSCRIBE)
    (v5 : msg.connParam.protover = MQTT_PROTOCOL_VERSION_v5) (entries : List UnsubEntry)
    (nonempty : entries ≠ [])
    (valid
      : ∀ entry ∈ entries, entry.filter ≠ [] ∧ lib.parser.utf8Check entry.filter = true)
    (packetId : Nat)
    (message
      : TopicMessage lib.parser MQTT_PROTOCOL_VERSION_v5 packetId
          (entries.flatMap UnsubEntry.bytes) msg)
    (findRetain : Topic → Option (List (Option MsgId))) (stale : List (Option MsgId))
    (runs : List HandlerRun) (reached : world.stores = runHandlers findRetain stale runs .empty)
    : let stores := (serverCb lib env work world).world.stores
      let filters := entries.map UnsubEntry.filter
      (∃ ack codes,
        .ctxSend false world.nextMsg ack ∈ (serverCb lib env work world).trace
        ∧ ack.header.head? = some CMD_UNSUBACK_BYTE
        ∧ ack.body
          = ackVariableHeader lib.parser .UNSUBACK MQTT_PROTOCOL_VERSION_v5 packetId ++ codes
        ∧ (codes = dueCodes msg.pipe filters world.stores.pairs
          ↔ filters.Nodup ∧ ∀ topic ∈ filters, (topic, msg.pipe) ∈ world.stores.pairs))
      ∧ ∀ topic owner,
          ((topic, owner) ∈ stores.pairs
            ↔ (topic, owner) ∈ world.stores.pairs ∧ ¬(owner = msg.pipe ∧ topic ∈ filters))
          ∧ (topic ∈ stores.keys owner
            ↔ topic ∈ world.stores.keys owner ∧ ¬(owner = msg.pipe ∧ topic ∈ filters)) := by
  intro stores filters
  obtain ⟨sent, stored⟩ :=
    @serverCb_unsuback lib env work world msg receiving broker completed received unsubscribe
  have accepted : ∀ entry ∈ entries, entry.accepted lib.parser := by
    intro entry member
    simp [UnsubEntry.accepted, (valid entry member).2]
  have decoded :=
    (decodeUnsubMsg_entries env.stray nonempty message env.freshNode env.freshUnsub).2 accepted
  let nodes := entries.mapIdx fun i entry => entry.node (env.freshNode i)
  have named : ∀ node ∈ nodes, node.topicLen ≠ 0 := by
    intro node member
    obtain ⟨i, inside, rfl⟩ := List.mem_mapIdx.mp member
    exact (UnsubEntry.strndup_node rejectsNul (valid _ (List.getElem_mem inside)) _).1
  have outcome
      : unsubscribeOutcome lib.parser env msg MQTT_PROTOCOL_VERSION_v5 msg.pipe world.stores
        = (topicPacketOf lib.parser MQTT_PROTOCOL_VERSION_v5 packetId msg.body
            (unsubCtxHandle msg.pipe nodes world.stores).1,
          (unsubCtxHandle msg.pipe nodes world.stores).2) := by
    unfold unsubscribeOutcome
    rw [decoded]
    rfl
  rw [v5, outcome] at sent stored
  have before : world.stores.Agrees := by
    rw [reached]
    exact runHandlers_agrees findRetain stale runs DualIndex.Index.agrees_empty
  have folded : stores = nodes.foldl (unsubscribeNode msg.pipe) world.stores :=
    stored.trans (unsubCtxHandle_stores _ _ _)
  have after : stores.Agrees := by
    rw [folded]
    exact foldl_agrees (fun h node => unsubscribeNode_agrees h msg.pipe node) _ before
  have pairs : ∀ topic owner,
      (topic, owner) ∈ stores.pairs
      ↔ (topic, owner) ∈ world.stores.pairs ∧ ¬(owner = msg.pipe ∧ topic ∈ filters) := by
    intro topic owner
    rw [folded, mem_foldl_unsubscribeNode, givesUp_entries rejectsNul valid]
  refine ⟨⟨_, List.replicate filters.length 0x00, sent, rfl, ?_, ?_⟩, ?_⟩
  · have codes := unsubCtxHandle_codes msg.pipe world.stores named
    have length : nodes.length = filters.length := by simp [nodes, filters]
    rw [length] at codes
    rw [← codes]
    rfl
  · exact dueCodes_eq_zeros_iff msg.pipe filters world.stores.pairs
  · intro topic owner
    refine ⟨pairs topic owner, ?_⟩
    rw [← after.mem_iff, ← before.mem_iff]
    exact pairs topic owner

/-- A version 5 UNSUBSCRIBE of pipe 1 from `a`, with packet id 7. -/
def unsubscribeA : NngMsg :=
  { NngMsg.received .UNSUBSCRIBE [0xA2, 6] [0, 7, 0, 0, 1, 97] 1 (.plain 5) with
    payloadPtr := 3 }

/-- A SUBSCRIBE of pipe 1 to `a` is handled. -/
def heldA : List HandlerRun :=
  [
    .subscribe 1
      {
        TopicPacket.zeroed with
        packetId := 1
        node := [{ TopicNode.zeroed with topicBody := some [97], topicLen := 1 }]
      }
  ]

/-- The world with these subscriptions only. -/
def worldAfter (runs : List HandlerRun) : World :=
  { World.empty with stores := runHandlers (fun _ => none) [] runs .empty }

theorem unsubscribeA_message
    : TopicMessage referenceParser MQTT_PROTOCOL_VERSION_v5 7
        ([{ filter := [97], short := filterA_short : UnsubEntry }].flatMap UnsubEntry.bytes)
        unsubscribeA :=
  { short := by decide, layout := ⟨[0], ⟨_, rfl, rfl, rfl⟩, rfl, rfl⟩, whole := rfl }

/-- A client that holds `a` and unsubscribes from it is told so, and holds it no longer. -/
theorem unsubscribeA_truthful
    : let after :=
        serverCb (referenceLibrary fun _ => none) (.brings (some unsubscribeA))
          (.receiving .MQTT_BROKER) (worldAfter heldA)
      (∃ ack codes,
        .ctxSend false 0 ack ∈ after.trace
        ∧ ack.body = ackVariableHeader referenceParser .UNSUBACK 5 7 ++ codes
        ∧ codes = dueCodes 1 [[97]] (worldAfter heldA).stores.pairs)
      ∧ ([97], 1) ∈ (worldAfter heldA).stores.pairs
      ∧ ([97], 1) ∉ after.world.stores.pairs := by
  obtain ⟨⟨ack, codes, sent, _, body, truthful⟩, stores⟩ :=
    unsuback_truthful_iff (referenceLibrary fun _ => none) referenceParser_rejectsNul
      (.brings (some unsubscribeA)) (.receiving .MQTT_BROKER) (worldAfter heldA) unsubscribeA
      rfl rfl rfl rfl rfl rfl [{ filter := [97], short := filterA_short }]
      (List.cons_ne_nil _ _) (by decide) 7 unsubscribeA_message (fun _ => none) [] heldA rfl
  refine ⟨⟨ack, codes, sent, body, truthful.mpr (by decide)⟩, by decide, fun stays => ?_⟩
  exact ((stores [97] 1).1.mp stays).2 ⟨rfl, List.mem_singleton.mpr rfl⟩

/-- A client that does not hold `a` is due 0x11 and gets 0x00. -/
theorem unsubscribeA_untruthful
    : let outcome :=
        unsubscribeOutcome referenceParser (.brings (some unsubscribeA)) unsubscribeA 5 1
          (worldAfter []).stores
      dueCodes 1 [[97]] (worldAfter []).stores.pairs = [0x11]
      ∧ (encodeUnsubackMsg referenceParser unsubscribeA outcome.1 5).body = [0, 7, 0, 0x00] := by
  decide

end NanoMQ
