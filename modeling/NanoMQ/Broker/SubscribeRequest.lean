import NanoMQ.Broker.Reference
import NanoMQ.Subscriptions.Agreement

/-! A SUBSCRIBE is refused as a whole, or all of its decoded entries are stored and
acknowledged.
-/

namespace NanoMQ

open Reading

-- The entries of a decoded SUBSCRIBE

section Decoded

variable {nng : MqttParser} {buffer : Buffer} {payloadPtr protoVer : Nat}

/-- An entry that does not refuse the packet, with the filter that was copied for it. -/
structure EntryAccepted (copied : StrResult) (bpos next : Nat) (node : TopicNode) : Prop where
  next_eq : next = bpos + copied.used + 1
  topic : node.topicBody = copied.body

theorem decodeSubEntry_accepted {bpos next : Nat}
    (granted
      : (decodeSubEntry nng buffer payloadPtr protoVer bpos).value.next = some next)
    : EntryAccepted (copyUtf8Str nng buffer (payloadPtr + bpos)).value bpos next
        (decodeSubEntry nng buffer payloadPtr protoVer bpos).value.node := by
  unfold decodeSubEntry at granted ⊢
  rw [Traced.value_bind] at granted ⊢
  generalize (copyUtf8Str nng buffer (payloadPtr + bpos)).value = copied at granted ⊢
  obtain ⟨body, len, used⟩ := copied
  cases body with
  | none =>
      cases granted
      exact ⟨rfl, rfl⟩
  | some topic =>
      simp only [decodeSubOptions, Traced.value_bind] at granted ⊢
      split at granted
      · cases granted
      · rename_i accepted
        rw [if_neg accepted]
        cases granted
        exact ⟨rfl, rfl⟩

theorem decodeSubEntry_loopFuel {remainingLen vpos more : Nat}
    (atLeast : loopFuel remainingLen vpos ≤ more)
    : entryLoop (fun _ => decodeSubEntry nng buffer payloadPtr protoVer) remainingLen vpos
        more 0 0
      = entryLoop (fun _ => decodeSubEntry nng buffer payloadPtr protoVer) remainingLen vpos
        (loopFuel remainingLen vpos) 0 0 := by
  refine entryLoop_fuel ?_ (Nat.succ_pos _) atLeast (Nat.lt_succ_self _)
  intro _ bpos next granted
  rw [(decodeSubEntry_accepted granted).next_eq]
  omega

end Decoded

-- The stores

/-- The pairs that the entries of a list ask for. -/
def Requests (pid : Pid) (nodes : List TopicNode) (topic : Topic) (owner : Pid) : Prop :=
  owner = pid ∧ ∃ node ∈ nodes, node.topicStr = some topic

theorem mem_subscribeNode {stores : Stores} (agrees : stores.Agrees) (pid : Pid)
    (node : TopicNode) (topic : Topic) (owner : Pid)
    : (topic, owner) ∈ (subscribeNode pid stores node).pairs
      ↔ (topic, owner) ∈ stores.pairs ∨ (owner = pid ∧ node.topicStr = some topic) := by
  unfold subscribeNode
  cases named : node.topicStr with
  | none => simp
  | some filter =>
      dsimp only
      unfold subCtxInsert
      split
      · rename_i held
        have listed : filter ∈ stores.keys pid := by simpa [dbhashCheckTopic] using held
        have paired := (agrees.mem_iff filter pid).mpr listed
        constructor
        · exact Or.inl
        · rintro (known | ⟨rfl, same⟩)
          · exact known
          · cases same
            exact paired
      · unfold dbhashInsertTopic dbtreeInsertClient
        rw [DualIndex.Index.pairs_append, DualIndex.Index.mem_addPair, Prod.mk.injEq,
          Option.some.injEq]
        tauto

/-- The entries add the pairs they ask for and change no other. By induction on the list.
-/
theorem mem_foldl_subscribeNode {stores : Stores} (agrees : stores.Agrees) (pid : Pid)
    (nodes : List TopicNode) (topic : Topic) (owner : Pid)
    : (topic, owner) ∈ (nodes.foldl (subscribeNode pid) stores).pairs
      ↔ (topic, owner) ∈ stores.pairs ∨ Requests pid nodes topic owner := by
  induction nodes generalizing stores with
  | nil => simp [Requests]
  | cons node rest ih =>
      rw [List.foldl_cons, ih (subscribeNode_agrees agrees pid node),
        mem_subscribeNode agrees]
      simp only [Requests, List.exists_mem_cons_iff]
      tauto

/-- A packet is refused without a change, or all of its entries are handled. -/
theorem subCtxHandle_cases (findRetain : Topic → Option (List (Option MsgId)))
    (stale : List (Option MsgId)) (pid : Pid) (packet : TopicPacket) (stores : Stores)
    : let handled := subCtxHandle findRetain stale pid packet stores
      (handled.1 ≠ 0 ∧ handled.2.stores = stores)
      ∨ (handled.1 = 0
        ∧ packet.node ≠ []
        ∧ packet.packetId ≠ 0
        ∧ handled.2.stores = packet.node.foldl (subscribeNode pid) stores) := by
  intro handled
  have stored := subCtxHandle_stores findRetain stale pid packet stores
  by_cases empty : packet.node = []
  · refine Or.inl ⟨?_, ?_⟩
    · simp [handled, subCtxHandle, empty]
    · simpa [handled, empty] using stored
  · by_cases zero : packet.packetId = 0
    · refine Or.inl ⟨?_, ?_⟩
      · simp [handled, subCtxHandle, empty, zero]
      · simpa [handled, zero] using stored
    · refine Or.inr ⟨?_, empty, zero, ?_⟩
      · simp [handled, subCtxHandle, empty, zero]
      · simpa [handled, zero] using stored

-- server_cb

section Request

variable (lib : Library) (env : Env) (id : MsgId) (s : Cb)

/-- Everything a SUBSCRIBE can lead to in a context without an error code. -/
theorem recvSubscribe_cases (clean : s.work.code = SUCCESS)
    : ((recvSubscribe lib env id s).work.state = .CLOSE
        ∧ (recvSubscribe lib env id s).world.stores = s.world.stores)
      ∨ ∃ packet msgRet,
          (decodeSubMsg lib.parser env.stray (s.world.msgs id) s.work.protoVer .zeroed).value
            = (SUCCESS, packet)
          ∧ packet.node ≠ []
          ∧ packet.packetId ≠ 0
          ∧ recvSubscribe lib env id s
            = acknowledgeSubscribe lib env id packet msgRet
                ((s.read [.fields, .contents id]).setWorld
                  {
                    s.world with
                    stores := packet.node.foldl (subscribeNode s.work.pid) s.world.stores
                  }) := by
  unfold recvSubscribe
  dsimp only
  generalize decoding
    : (decodeSubMsg lib.parser env.stray (s.world.msgs id) s.work.protoVer .zeroed).value
      = result
  obtain ⟨code, packet⟩ := result
  split
  · exact Or.inl ⟨rfl, rfl⟩
  · rename_i accepted
    obtain rfl : code = SUCCESS := not_not.mp accepted
    have handling := subCtxHandle_cases (lib.findRetain s.world.retained) env.stale
      s.work.pid packet s.world.stores
    dsimp only at handling ⊢
    generalize subCtxHandle (lib.findRetain s.world.retained) env.stale s.work.pid packet
      s.world.stores = handled at handling ⊢
    rcases handling with ⟨refused, stored⟩ | ⟨granted, entries, packetId, stored⟩
    · rw [if_pos refused]
      refine Or.inl ?_
      split
      · exact ⟨rfl, stored⟩
      · rename_i clear
        exact absurd (not_not.mp clear) refused
    · refine Or.inr ⟨packet, handled.2.msgRet, rfl, entries, packetId, ?_⟩
      have notRefused : ¬handled.1 ≠ 0 := not_not.mpr granted
      rw [if_neg notRefused, ← stored]
      exact if_neg (not_not.mpr clean)

theorem sendRetained_frame (clock : Nat) (pid : Pid) (msgRet : List MsgId) (s : Cb)
    : Frame (fun _ => False) [.other, .delivery] s (sendRetained clock pid msgRet s) :=
  (Frame.refl s).sendRetained clock pid msgRet (by decide) (by decide)

theorem acknowledgeSubscribe_suback (packet : TopicPacket) (msgRet : List MsgId)
    : ∃ ack,
        .ctxSend false id ack ∈ (acknowledgeSubscribe lib env id packet msgRet s).trace
        ∧ ack.cmdType = .SUBACK
        ∧ ack.pipe = s.work.pid
        ∧ ack.body
          = (encodeSubackMsg lib.parser (s.world.msgs id) packet s.work.protoVer).body := by
  let encoded :=
    (s.read [.fields]).setMsg id fun msg =>
      encodeSubackMsg lib.parser msg packet s.work.protoVer
  have retained := sendRetained_frame env.clock s.work.pid msgRet encoded
  obtain ⟨pipe, kept⟩ := retained.msgs id nofun
  have contents : encoded.world.msgs id
      = encodeSubackMsg lib.parser (s.world.msgs id) packet s.work.protoVer :=
    Cb.setMsg_self _ _ fun msg => encodeSubackMsg lib.parser msg packet s.work.protoVer
  refine ⟨((sendRetained env.clock s.work.pid msgRet encoded).setMsg id
    fun msg => (msg.setCmdType .SUBACK).setPipe s.work.pid).world.msgs id, ?_, ?_⟩
  · exact List.mem_append_left _ (List.mem_append_right _ List.mem_cons_self)
  · rw [Cb.setMsg_self, kept, contents]
    exact ⟨rfl, rfl, rfl⟩

theorem acknowledgeSubscribe_stores (packet : TopicPacket) (msgRet : List MsgId)
    : (acknowledgeSubscribe lib env id packet msgRet s).world.stores = s.world.stores := by
  exact (sendRetained_frame env.clock s.work.pid msgRet _).stores (by decide)

end Request

section Received

variable {lib : Library} {env : Env} {work : Work} {world : World} {msg : NngMsg}
  (receiving : work.state = .RECV) (broker : work.proto = .MQTT_BROKER)
  (completed : env.aioResult = 0) (received : env.aioMsg = some msg)

include receiving broker completed received

theorem serverCb_received
    : serverCb lib env work world
      = recvMsg lib env world.nextMsg (Cb.received work world msg) := by
  have notFailed
      : ¬(env.aioResult ≠ 0 ∧ (work.proto = .MQTT_BROKER ∨ env.aioResult ≠ NNG_ECONNSHUT)) :=
    fun failed => failed.1 completed
  rw [serverCb_of_recv receiving]
  unfold recvState
  rw [if_neg notFailed, received]
  dsimp only
  have role
      : ((Cb.read { work, world, trace := [] } [.fields]).alloc msg).work.proto
        = .MQTT_BROKER :=
    broker
  rw [role]
  rfl

theorem serverCb_subscribe (subscribe : msg.cmdType = .SUBSCRIBE)
    : serverCb lib env work world
      = recvSubscribe lib env world.nextMsg
          ((Cb.received work world msg).adopt world.nextMsg) := by
  rw [serverCb_received receiving broker completed received]
  unfold recvMsg
  rw [Cb.received_self work world msg, subscribe]

end Received

/-- A SUBSCRIBE that reaches a context of the broker without an error code closes the
connection and leaves the stores as they were; or all of its decoded entries are stored, and
it is acknowledged with a code for each of them.
-/
theorem serverCb_subscribe_cases {lib : Library} {env : Env} {work : Work} (world : World)
    {msg : NngMsg} (receiving : work.state = .RECV) (broker : work.proto = .MQTT_BROKER)
    (clean : work.code = SUCCESS) (completed : env.aioResult = 0)
    (received : env.aioMsg = some msg) (subscribe : msg.cmdType = .SUBSCRIBE)
    : let after := serverCb lib env work world
      let protover := msg.connParam.protover
      (after.work.state = .CLOSE ∧ after.world.stores = world.stores)
      ∨ ∃ packet ack,
          (decodeSubMsg lib.parser env.stray msg protover .zeroed).value = (SUCCESS, packet)
          ∧ .ctxSend false world.nextMsg ack ∈ after.trace
          ∧ ack.cmdType = .SUBACK
          ∧ ack.pipe = msg.pipe
          ∧ ack.body
            = ackVariableHeader lib.parser .SUBACK protover packet.packetId
              ++ packet.node.map (fun node => reasonByte node.reasonCode)
          ∧ after.world.stores
            = packet.node.foldl (subscribeNode msg.pipe) world.stores := by
  intro after protover
  let adopted := (Cb.received work world msg).adopt world.nextMsg
  have handled : after = recvSubscribe lib env world.nextMsg adopted :=
    serverCb_subscribe receiving broker completed received subscribe
  have contents : adopted.world.msgs world.nextMsg = msg :=
    Cb.received_self work world msg
  have pid : adopted.work.pid = msg.pipe := congrArg NngMsg.pipe contents
  have version : adopted.work.protoVer = protover :=
    congrArg (fun msg => msg.connParam.protover) contents
  have cases := recvSubscribe_cases lib env world.nextMsg adopted clean
  rw [← handled, contents, version, pid] at cases
  rcases cases with refused | ⟨packet, msgRet, decoding, entries, packetId, acknowledged⟩
  · exact Or.inl refused
  · let granted := (adopted.read [.fields, .contents world.nextMsg]).setWorld
      { adopted.world with stores := packet.node.foldl (subscribeNode msg.pipe) world.stores }
    obtain ⟨ack, sent, cmdType, pipe, body⟩ :=
      acknowledgeSubscribe_suback lib env world.nextMsg granted packet msgRet
    have grantedContents : granted.world.msgs world.nextMsg = msg := contents
    have grantedVersion : granted.work.protoVer = protover := version
    rw [grantedContents, grantedVersion] at body
    refine Or.inr ⟨packet, ack, decoding, ?_, cmdType, pipe.trans pid, ?_, ?_⟩
    · rw [acknowledged]
      exact sent
    · rw [body]
      simp [encodeSubackMsg, NngMsg.acknowledge, entries, packetId]
    · rw [acknowledged]
      exact acknowledgeSubscribe_stores lib env world.nextMsg granted packet msgRet

/-- A SUBSCRIBE of pipe 7 to filter `a` and to an empty filter. -/
def mixedSubscribe : NngMsg :=
  .received .SUBSCRIBE [0x82, 9] [0, 1, 0, 1, 97, 0, 0, 0, 0] 7 (.plain 4)

end NanoMQ
