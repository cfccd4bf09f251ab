import NanoMQ.Broker.System

/-! The calls that the blocks of `server_cb` make, in their order.
What is counted over whole runs is read off these lists.
-/

namespace NanoMQ

open Bytes Contexts

-- Stretches of calls

/-- Clones of messages that are sent at once. -/
inductive Deliveries (allowed : MsgId → Prop) : List Effect → Prop
  | nil : Deliveries allowed []
  | cons {id : MsgId} {rest : List Effect} (isAllowed : allowed id) (msg : NngMsg)
    (deliveries : Deliveries allowed rest)
    : Deliveries allowed (.msgClone id :: .ctxSend false id msg :: rest)

/-- The web hook looks at `work->cparam`, and may be told something. -/
inductive Hooks : List Effect → Prop
  | silent : Hooks [.cparamRead]
  | told (flag : CmdType) (reason : UInt8) : Hooks [.cparamRead, .webhook flag reason]

/-- Copies for the bridges. -/
def Forwards (effects : List Effect) : Prop :=
  ∀ effect ∈ effects,
    (∃ node msg, effect = .bridgeSend node msg) ∨ effect = .awsBridgeForward

/-- The message that a field holds is freed. -/
def freeHeld : Option MsgId → List Effect
  | none => []
  | some id => [.msgFree id]

/-- What `handle_pub` does to the retained messages: nothing, store this message under a
topic, or delete the entry of a topic. The message of the old entry is freed.
-/
inductive Keeps (id : MsgId) (before : Topic → Option RetainMsg)
    : (Topic → Option RetainMsg) → List Effect → Prop
  | nothing : Keeps id before before []
  | stored (topic : Topic) (qos : BitVec 2)
    : Keeps id before (Function.update before topic (some { qos, message := id }))
        (.msgClone id :: freeHeld ((before topic).map RetainMsg.message))
  | deleted (topic : Topic)
    : Keeps id before (Function.update before topic none)
        (freeHeld ((before topic).map RetainMsg.message))

/-- A call of `handle_pub` with what it does to the retained messages. -/
inductive Handles (id : MsgId) (before after : Topic → Option RetainMsg)
    : List Effect → Prop
  | intro {kept : List Effect} (keeps : Keeps id before after kept) (proto : Nat)
    (msg : NngMsg) (packet : PubPacket) (code : ReasonCode) (topic : Option Topic)
    : Handles id before after (kept ++ [.handlePub proto msg packet code topic])

section Trace

variable (s : Cb)

@[simp]
theorem Cb.emit_trace (effect : Effect) : (s.emit effect).trace = s.trace ++ [effect] :=
  rfl

@[simp]
theorem Cb.setWork_trace (work : Work) : (s.setWork work).trace = s.trace :=
  rfl

@[simp]
theorem Cb.setWorld_trace (world : World) : (s.setWorld world).trace = s.trace :=
  rfl

@[simp]
theorem Cb.setState_trace (state : WorkState) : (s.setState state).trace = s.trace :=
  rfl

@[simp]
theorem Cb.setMsg_trace (id : MsgId) (change : NngMsg → NngMsg)
    : (s.setMsg id change).trace = s.trace :=
  rfl

@[simp]
theorem Cb.alloc_trace (msg : NngMsg) : (s.alloc msg).trace = s.trace :=
  rfl

@[simp]
theorem Cb.ctxSend_trace (extra : Bool) (id : MsgId)
    : (s.ctxSend extra id).trace = s.trace ++ [.ctxSend extra id (s.world.msgs id)] :=
  rfl

@[simp]
theorem Cb.ctxRecv_trace
    : s.ctxRecv.trace = s.trace ++ [.ctxRecv (decide (s.work.proto ≠ .MQTT_BROKER))] :=
  rfl

@[simp]
theorem Cb.adopt_trace (id : MsgId) : (s.adopt id).trace = s.trace ++ [.cparamRead] :=
  rfl

@[simp]
theorem Cb.clearPublication_trace
    : s.clearPublication.trace = s.trace ++ [.freePubPacket] :=
  rfl

@[simp]
theorem Cb.dropMsg_trace : s.dropMsg.trace = s.trace ++ freeHeld s.work.msg := by
  unfold Cb.dropMsg
  cases s.work.msg with
  | none => exact (List.append_nil _).symm
  | some id => rfl

theorem Cb.dropMsg_work : s.dropMsg.work = { s.work with msg := none } := by
  unfold Cb.dropMsg
  split
  · rename_i nothing
    rw [← nothing]
  · rfl

end Trace

section Views

variable {View : Type} {view : Effect → Option View} {allowed : MsgId → Prop}
  {effects : List Effect}

/-- A view that ignores clones and sends sees nothing of deliveries, by induction on them. -/
theorem Deliveries.filterMap_eq_nil (deliveries : Deliveries allowed effects)
    (clones : ∀ id, view (.msgClone id) = none)
    (sends : ∀ id msg, view (.ctxSend false id msg) = none)
    : effects.filterMap view = [] := by
  induction deliveries with
  | nil => rfl
  | cons _ msg _ ih => simp [clones, sends, ih]

theorem Hooks.filterMap_eq_nil (hooks : Hooks effects) (reads : view .cparamRead = none)
    (told : ∀ flag reason, view (.webhook flag reason) = none)
    : effects.filterMap view = [] := by
  cases hooks with
  | silent => simp [reads]
  | told flag reason => simp [reads, told]

theorem Forwards.filterMap_eq_nil (forwards : Forwards effects)
    (sends : ∀ node msg, view (.bridgeSend node msg) = none)
    (aws : view .awsBridgeForward = none)
    : effects.filterMap view = [] := by
  rw [List.filterMap_eq_nil_iff]
  intro effect member
  rcases forwards effect member with ⟨node, msg, rfl⟩ | rfl
  · exact sends node msg
  · exact aws

theorem freeHeld_filterMap_eq_nil (frees : ∀ id, view (.msgFree id) = none)
    (held : Option MsgId)
    : (freeHeld held).filterMap view = [] := by
  cases held with
  | none => rfl
  | some id => simp [freeHeld, frees]

theorem Handles.filterMap_eq {id : MsgId} {before after : Topic → Option RetainMsg}
    (handles : Handles id before after effects) (view : Effect → Option View)
    (clones : ∀ id, view (.msgClone id) = none) (frees : ∀ id, view (.msgFree id) = none)
    : ∃ proto msg packet code topic,
        effects.filterMap view = [Effect.handlePub proto msg packet code topic].filterMap view := by
  obtain ⟨keeps, proto, msg, packet, code, topic⟩ := handles
  refine ⟨proto, msg, packet, code, topic, ?_⟩
  rw [List.filterMap_append]
  cases keeps with
  | nothing => rfl
  | stored _ _ => simp [clones, freeHeld_filterMap_eq_nil frees]
  | deleted _ => simp [freeHeld_filterMap_eq_nil frees]

end Views

/-- This many messages were obtained, and the retained messages stayed. -/
structure Obtains (world : World) (t : Cb) (count : Nat) : Prop where
  next : t.world.nextMsg = world.nextMsg + count
  retained : t.world.retained = world.retained

section Blocks

variable (lib : Library) (env : Env) {s : Cb} {id : MsgId}

theorem webhookEntry_hooks (reason : UInt8) (s : Cb)
    : ∃ hooks, Hooks hooks ∧ (webhookEntry reason s).trace = s.trace ++ hooks := by
  unfold webhookEntry
  dsimp only
  split
  · split
    · exact ⟨_, .told s.work.flag reason, List.append_assoc _ _ _⟩
    · exact ⟨_, .told s.work.flag reason, List.append_assoc _ _ _⟩
    · exact ⟨_, .told s.work.flag reason, List.append_assoc _ _ _⟩
    · exact ⟨_, .silent, rfl⟩
  · exact ⟨_, .silent, rfl⟩

/-- Sending to each recipient, by induction on the recipients. -/
theorem sendToEach_deliveries_of (held : s.work.msg = some id) (pipes : List Pid)
    : ∃ sends pid,
        Deliveries (· = id) sends
        ∧ (sendToEach id pipes s).trace = s.trace ++ sends
        ∧ (sendToEach id pipes s).work = { s.work with pid }
        ∧ Obtains s.world (sendToEach id pipes s) 0 := by
  induction pipes generalizing s with
  | nil => exact ⟨[], s.work.pid, .nil, (List.append_nil _).symm, rfl, rfl, rfl⟩
  | cons pipe rest ih =>
      let next :=
        (((s.emit (.msgClone id)).setWork { s.work with pid := pipe, msg := some id }).setMsg
          id (·.setPipe pipe)).ctxSend false id
      have nextHeld : next.work.msg = some id := rfl
      obtain ⟨sends, pid, deliveries, trace, work, same⟩ := ih nextHeld
      have delivered
          : Deliveries (· = id)
              (.msgClone id :: .ctxSend false id (next.world.msgs id) :: sends) :=
        .cons (by rfl) _ deliveries
      refine ⟨_, pid, delivered, trace.trans ?_, work.trans ?_, same.next, same.retained⟩
      · change ((s.trace ++ [_]) ++ [_]) ++ sends = _
        simp only [List.append_assoc, List.cons_append, List.nil_append]
        rfl
      · change { s.work with pid, msg := some id } = { s.work with pid }
        rw [← held]

/-- Delivering the publication of a context, which keeps its packet. -/
theorem fanOut_deliveries_of (parser : MqttParser) (held : s.work.msg = some id)
    (packetless : s.work.pubPacket = none → s.work.msgInfos = [])
    : ∃ sends pid packet,
        Deliveries (· = id) sends
        ∧ (fanOut parser s).trace = s.trace ++ sends
        ∧ (fanOut parser s).work = { s.work with pid, pubPacket := packet }
        ∧ packet.isSome = s.work.pubPacket.isSome
        ∧ Obtains s.world (fanOut parser s) 0 := by
  unfold fanOut
  rw [held]
  dsimp only
  unfold encodeAndSend
  split
  · exact ⟨[], s.work.pid, s.work.pubPacket, .nil, (List.append_nil _).symm, rfl, rfl, rfl,
      rfl⟩
  · rename_i someone
    obtain ⟨packet, isPacket⟩ :=
      Option.ne_none_iff_exists'.mp fun nothing => someone (packetless nothing)
    dsimp only
    generalize encodePubMessage parser (s.world.msgs id) (s.work.pubPacket.getD .zeroed)
      PUBLISH = encoded
    split
    · obtain ⟨sends, pid, deliveries, trace, work, same⟩ :=
        sendToEach_deliveries_of
          (s := ((s.read [.fields, .contents id]).setMsg id fun _ => encoded.msg).setWork
            { s.work with pubPacket := some encoded.packet }) held s.work.msgInfos
      refine ⟨sends, pid, some encoded.packet, deliveries, trace, work, ?_, same.next,
        same.retained⟩
      rw [isPacket]
      rfl
    · refine ⟨[], s.work.pid, some encoded.packet, .nil, (List.append_nil _).symm, rfl, ?_, rfl,
        rfl⟩
      rw [isPacket]
      rfl

/-- From `s` to `t` copies went to the bridges, which may put the context into SEND. -/
def Forwarded (s t : Cb) : Prop :=
  ∃ forwards state,
    Forwards forwards
    ∧ t.trace = s.trace ++ forwards
    ∧ t.work = { s.work with state }
    ∧ t.world = s.world

theorem Forwarded.refl (s : Cb) : Forwarded s s :=
  ⟨[], s.work.state, List.forall_mem_nil _, (List.append_nil _).symm, rfl, rfl⟩

theorem Forwarded.trans {s t u : Cb} (first : Forwarded s t) (second : Forwarded t u)
    : Forwarded s u := by
  obtain ⟨forwards, _, onlyFirst, trace, work, world⟩ := first
  obtain ⟨more, state, onlySecond, traceAfter, workAfter, worldAfter⟩ := second
  refine ⟨forwards ++ more, state, List.forall_mem_append.mpr ⟨onlyFirst, onlySecond⟩, ?_, ?_,
    worldAfter.trans world⟩
  · rw [traceAfter, trace, List.append_assoc]
  · rw [workAfter, work]

theorem Forwarded.setState (s : Cb) (state : WorkState) : Forwarded s (s.setState state) :=
  ⟨[], state, List.forall_mem_nil _, (List.append_nil _).symm, rfl, rfl⟩

theorem Forwarded.read (s : Cb) (accesses : List Step) : Forwarded s (s.read accesses) :=
  ⟨[], s.work.state, List.forall_mem_nil _, (List.append_nil _).symm, rfl, rfl⟩

theorem Forwarded.emit {s t : Cb} (forwarded : Forwarded s t) {effect : Effect}
    (isForward
      : (∃ node msg, effect = .bridgeSend node msg) ∨ effect = .awsBridgeForward)
    : Forwarded s (t.emit effect) :=
  forwarded.trans ⟨[effect], t.work.state, List.forall_mem_singleton.mpr isForward, rfl, rfl, rfl⟩

theorem bridgeForwards_forwarded (msg : BridgeMsg) (node : Nat) (filters : List Topic)
    (asked : Nat) (s : Cb)
    : Forwarded s (bridgeForwards lib env msg node filters asked s).2 := by
  induction filters generalizing asked s with
  | nil => exact .refl s
  | cons filter rest ih =>
      unfold bridgeForwards
      split
      · dsimp only
        split
        · exact (Forwarded.setState s .SEND).trans (ih _ _)
        · exact ((Forwarded.setState s .SEND).emit (Or.inl ⟨node, msg, rfl⟩)).trans (ih _ _)
      · exact ih asked s

theorem bridgeNodes_forwarded (msg : BridgeMsg) (nodes : List BridgeNode)
    (index asked : Nat) (s : Cb)
    : Forwarded s (bridgeNodes lib env msg nodes index asked s) := by
  induction nodes generalizing index asked s with
  | nil => exact .refl s
  | cons node rest ih =>
      unfold bridgeNodes
      split
      · exact (bridgeForwards_forwarded lib env msg index node.forwards asked s).trans (ih _ _ _)
      · exact ih _ _ _

theorem forwardToBridges_forwarded (s : Cb) : Forwarded s (forwardToBridges lib env s) := by
  have forwarded := (Forwarded.read s [.fields]).trans
    (bridgeNodes_forwarded lib env (bridgeMsg s.work) s.work.config.bridgeNodes 0 0 _)
  unfold forwardToBridges
  split
  · dsimp only
    split
    · exact Forwarded.emit forwarded (Or.inr rfl)
    · exact forwarded
  · exact .read s _

theorem Cb.freeRetained_trace (s : Cb) (old : Option RetainMsg)
    : (s.freeRetained old).trace = s.trace ++ freeHeld (old.map RetainMsg.message) := by
  cases old with
  | none => exact (List.append_nil _).symm
  | some entry => rfl

theorem handlePubRetain_keeps (id : MsgId) (packet : PubPacket) (topic : Topic) (s : Cb)
    : ∃ kept,
        Keeps id s.world.retained (handlePubRetain id packet topic s).world.retained kept
        ∧ (handlePubRetain id packet topic s).trace = s.trace ++ kept
        ∧ (handlePubRetain id packet topic s).world.nextMsg = s.world.nextMsg := by
  unfold handlePubRetain
  split
  · dsimp only
    split
    · refine ⟨.msgClone id :: freeHeld ((s.world.retained topic).map RetainMsg.message), ?_⟩
      rw [Cb.freeRetained_world, Cb.freeRetained_trace]
      split
      · exact ⟨.stored topic packet.fixedHeader.qos, List.append_assoc _ _ _, rfl⟩
      · exact ⟨.stored topic packet.fixedHeader.qos, List.append_assoc _ _ _, rfl⟩
    · refine ⟨freeHeld ((s.world.retained topic).map RetainMsg.message), ?_⟩
      rw [Cb.freeRetained_world, Cb.freeRetained_trace]
      exact ⟨.deleted topic, rfl, rfl⟩
  · exact ⟨[], .nothing, (List.append_nil _).symm, rfl⟩

theorem routePub_keeps (id : MsgId) (resolved : Resolved) {packet : PubPacket}
    (sameWorld : ∃ aliases, resolved.world = { s.world with aliases })
    (hasPacket : s.work.pubPacket = some packet)
    : ∃ kept msgInfos routed,
        Keeps id s.world.retained (routePub lib env id resolved s).world.retained kept
        ∧ (routePub lib env id resolved s).trace = s.trace ++ kept
        ∧ (routePub lib env id resolved s).work
          = { s.work with msgInfos, pubPacket := some routed }
        ∧ (routePub lib env id resolved s).world.nextMsg = s.world.nextMsg := by
  obtain ⟨world, routed, topic⟩ := resolved
  obtain ⟨aliases, rfl⟩ := sameWorld
  cases topic with
  | none =>
      refine ⟨[], s.work.msgInfos, packet, .nothing, (List.append_nil _).symm, ?_, rfl⟩
      rw [← hasPacket]
      rfl
  | some topic =>
      unfold routePub
      dsimp only
      generalize start
        : Cb.setWork (Cb.setWorld s { s.world with aliases }) _ = collected
      obtain ⟨kept, keeps, trace, next⟩ := handlePubRetain_keeps id routed topic collected
      have work := handlePubRetain_work id routed topic collected
      subst start
      exact ⟨kept, _, routed, keeps, trace, work, next⟩

theorem handlePub_calls (proto : Nat) (id : MsgId) (s : Cb)
    : ∃ handled msgInfos packet,
        Handles id s.world.retained (handlePub lib env proto id s).2.world.retained handled
        ∧ (handlePub lib env proto id s).2.trace = s.trace ++ handled
        ∧ (handlePub lib env proto id s).2.work
          = { s.work with msgInfos, pubPacket := some packet }
        ∧ (handlePub lib env proto id s).2.world.nextMsg = s.world.nextMsg
        ∧ ((handlePub lib env proto id s).1 ≠ SUCCESS → msgInfos = []) := by
  unfold handlePub
  dsimp only
  generalize (decodePubMessage lib.parser env.stray (s.world.msgs id) .zeroed proto).value
    = decoded
  split
  · exact ⟨_, [], decoded.2, .intro .nothing proto _ decoded.2 decoded.1 none, rfl, rfl, rfl,
      fun _ => rfl⟩
  · rename_i accepted
    have success : decoded.1 = SUCCESS := not_not.mp (not_or.mp accepted).1
    generalize opened
      : (s.read [.fields, .contents id]).setWork
          { s.work with msgInfos := [], pubPacket := some decoded.2 }
        = start
    have sameWorld := resolveTopic_world start.world start.work.pid proto decoded.2
    generalize resolveTopic start.world start.work.pid proto decoded.2 = resolved at sameWorld
    subst opened
    obtain ⟨kept, msgInfos, routed, keeps, trace, work, next⟩ :=
      routePub_keeps lib env id resolved sameWorld rfl
    refine ⟨kept ++ [_], msgInfos, routed,
      .intro keeps proto (s.world.msgs id) decoded.2 decoded.1 resolved.topic, ?_, work, next,
      fun failed => absurd success failed⟩
    change (routePub _ _ _ _ _).trace ++ [_] = _
    rw [trace, List.append_assoc]
    rfl

/-- Retained messages are sent up to the first that has expired. -/
theorem sendRetained_deliveries_of (clock : Nat) (pid : Pid) (msgRet : List MsgId) (s : Cb)
    : ∃ sends,
        Deliveries (· ∈ msgRet) sends
        ∧ (sendRetained clock pid msgRet s).trace = s.trace ++ sends
        ∧ (sendRetained clock pid msgRet s).work = s.work
        ∧ Obtains s.world (sendRetained clock pid msgRet s) 0 := by
  suffices upTo
      : ∀ allowed : MsgId → Prop,
          (∀ id ∈ msgRet, allowed id)
          → ∃ sends,
              Deliveries allowed sends
              ∧ (sendRetained clock pid msgRet s).trace = s.trace ++ sends
              ∧ (sendRetained clock pid msgRet s).work = s.work
              ∧ Obtains s.world (sendRetained clock pid msgRet s) 0 from
    upTo _ fun _ member => member
  intro allowed
  induction msgRet generalizing s with
  | nil => exact fun _ => ⟨[], .nil, (List.append_nil _).symm, rfl, rfl, rfl⟩
  | cons id rest ih =>
      intro all
      obtain ⟨isAllowed, restAllowed⟩ := List.forall_mem_cons.mp all
      unfold sendRetained
      split
      · dsimp only
        obtain ⟨sends, deliveries, trace, work, same⟩ :=
          ih ((((s.read [.contents id]).emit (.msgClone id)).setMsg id (·.setPipe pid)).ctxSend
            false id) restAllowed
        refine ⟨_, .cons isAllowed ((s.world.msgs id).setPipe pid) deliveries, ?_, work,
          same.next, same.retained⟩
        refine trace.trans ?_
        unfold Cb.ctxSend
        rw [Cb.setMsg_self]
        change ((s.trace ++ [_]) ++ [_]) ++ sends = _
        simp only [List.append_assoc, List.cons_append, List.nil_append]
        rfl
      · exact ⟨[], .nil, (List.append_nil _).symm, rfl, rfl, rfl⟩

end Blocks

end NanoMQ
