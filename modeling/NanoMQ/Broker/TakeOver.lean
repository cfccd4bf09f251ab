import NanoMQ.Broker.Calls

/-! Taking over a message: for every kind of message the calls that RECV makes, in their
order, and the fields that it leaves behind.
-/

namespace NanoMQ

open Bytes Contexts

/-- What an activation leaves in the fields of its context. -/
structure Leaves (work after : Work) (state : WorkState) (msg : Option MsgId)
    (packet : Bool) (cparam : ConnParam)
    : Prop where
  entered : after.state = state
  held : after.msg = msg
  kept : after.pubPacket.isSome = packet
  recipients : packet = false → after.msgInfos = []
  param : after.cparam = cparam
  role : after.proto = work.proto
  clean
    : work.proto = .MQTT_BROKER
      → state ≠ .CLOSE
      → work.code = SUCCESS
      → after.code = SUCCESS

/-- The retained messages that a SUBSCRIBE collects. -/
def collectedRetained (lib : Library) (env : Env) (world : World) (msg : NngMsg)
    : List MsgId :=
  let decoded := (decodeSubMsg lib.parser env.stray msg msg.connParam.protover .zeroed).value
  (subCtxHandle (lib.findRetain world.retained) env.stale msg.pipe decoded.2
    world.stores).2.msgRet

/-- How RECV goes on after a PUBLISH: at once, or when a reply has been sent. -/
inductive Resumes (world : World) : Nat → Effect → Prop
  | finish : Resumes world 0 .aioFinish
  | reply (msg : NngMsg) : Resumes world 1 (.ctxSend true world.nextMsg msg)

/-- The broker returns a CONNACK to the client; a bridge keeps it. -/
inductive Passes (id : MsgId) : List Effect → Prop
  | nothing : Passes id []
  | returned (msg : NngMsg) : Passes id [.msgClone id, .ctxSend false id msg]

/-- The calls by which a context takes over the message `id` with the contents `msg` and
handles it, and what it leaves behind.
-/
inductive TakesOver (lib : Library) (env : Env) (work : Work) (world : World) (id : MsgId)
    (msg : NngMsg) (t : Cb)
    : List Effect → Prop
  | refusedSubscribe (kind : msg.cmdType = .SUBSCRIBE)
    (leaves : Leaves work t.work .CLOSE (some id) work.pubPacket.isSome msg.connParam)
    (obtains : Obtains world t 0)
    : TakesOver lib env work world id msg t
        [.cparamRead, .connParamFree msg.connParam, .aioFinish]
  | subscribed {sends : List Effect} (ack : NngMsg) (kind : msg.cmdType = .SUBSCRIBE)
    (deliveries : Deliveries (· ∈ collectedRetained lib env world msg) sends)
    (leaves : Leaves work t.work .SEND none work.pubPacket.isSome msg.connParam)
    (obtains : Obtains world t 0)
    : TakesOver lib env work world id msg t
        (.cparamRead :: sends ++ [.ctxSend false id ack, .aioFinish])
  | unsubscribed (ack : NngMsg) (kind : msg.cmdType = .UNSUBSCRIBE)
    (leaves : Leaves work t.work .SEND none work.pubPacket.isSome msg.connParam)
    (obtains : Obtains world t 0)
    : TakesOver lib env work world id msg t
        [.cparamRead, .cparamRead, .ctxSend false id ack, .aioFinish]
  | published {state : WorkState} {handled : List Effect} {count : Nat} {arm : Effect}
    (kind : msg.cmdType = .PUBLISH) (goesOn : state = .WAIT ∨ state = .SEND)
    (handles : Handles id world.retained t.world.retained handled)
    (resumes : Resumes world count arm)
    (leaves : Leaves work t.work state (some id) true msg.connParam)
    (type : t.heldType = msg.type) (next : t.world.nextMsg = world.nextMsg + count)
    : TakesOver lib env work world id msg t (.cparamRead :: handled ++ [arm])
  | refusedPublish {handled : List Effect} (kind : msg.cmdType = .PUBLISH)
    (handles : Handles id world.retained t.world.retained handled)
    (leaves : Leaves work t.work .CLOSE (some id) false msg.connParam)
    (next : t.world.nextMsg = world.nextMsg)
    : TakesOver lib env work world id msg t
        (.cparamRead :: handled
          ++ [.freePubPacket, .connParamFree msg.connParam, .aioFinish])
  | connected {passed hooks handled : List Effect} {reason : UInt8}
    (kind : msg.cmdType = .CONNACK) (passes : Passes id passed) (reports : Hooks hooks)
    (handles : Handles world.nextMsg world.retained t.world.retained handled)
    (leaves : Leaves work t.work .WAIT (some world.nextMsg) true msg.connParam)
    (type : t.heldType = (lib.msgNotifyConnect msg.connParam reason).type)
    (next : t.world.nextMsg = world.nextMsg + 1)
    : TakesOver lib env work world id msg t
        (.cparamRead :: passed ++ .cparamRead :: hooks ++ .msgFree id :: handled
          ++ [.aioFinish])
  | disconnected {hooks handled : List Effect} (kind : msg.cmdType = .DISCONNECT_EV)
    (reports : Hooks hooks)
    (handles : Handles id world.retained t.world.retained handled)
    (leaves : Leaves work t.work .WAIT (some id) true msg.connParam)
    (type : t.heldType = msg.type) (next : t.world.nextMsg = world.nextMsg)
    : TakesOver lib env work world id msg t
        (.cparamRead :: hooks ++ handled
          ++ [.cparamRead, .connParamFree msg.connParam, .aioFinish])
  | willLeft {hooks handled : List Effect} (kind : msg.cmdType = .DISCONNECT_EV)
    (hasWill : msg.connParam.hasWill) (reports : Hooks hooks)
    (handles : Handles id world.retained t.world.retained handled)
    (leaves : Leaves work t.work .END (some id) true msg.connParam)
    (type : t.heldType = msg.type) (next : t.world.nextMsg = world.nextMsg)
    : TakesOver lib env work world id msg t
        (.cparamRead :: hooks ++ handled ++ [.cparamRead, .aioFinish])
  | ignored (notSubscribe : msg.cmdType ≠ .SUBSCRIBE)
    (notUnsubscribe : msg.cmdType ≠ .UNSUBSCRIBE) (notPublish : msg.cmdType ≠ .PUBLISH)
    (notConnack : msg.cmdType ≠ .CONNACK) (notEvent : msg.cmdType ≠ .DISCONNECT_EV)
    (leaves : Leaves work t.work .WAIT (some id) work.pubPacket.isSome msg.connParam)
    (type : t.heldType = msg.type) (obtains : Obtains world t 0)
    : TakesOver lib env work world id msg t [.cparamRead, .aioFinish]

/-- The context `s` ends in `t` after it has taken over a message. -/
def TakenOver (lib : Library) (env : Env) (s : Cb) (id : MsgId) (msg : NngMsg) (t : Cb)
    : Prop :=
  ∃ calls, TakesOver lib env s.work s.world id msg t calls ∧ t.trace = s.trace ++ calls

section Subscribing

variable (lib : Library) (env : Env) {s : Cb} {id : MsgId}

/-- A context that has handled the SUBSCRIBE `id`, with the code and the stores after it. -/
def Cb.subscribing (s : Cb) (id : MsgId) (stores : Stores) (code : ReasonCode)
    (steps : List Step)
    : Cb :=
  {
    work := { (s.adopt id).work with code }
    world := { s.world with stores }
    trace := s.trace ++ [.cparamRead]
    steps
  }

variable (kind : (s.world.msgs id).cmdType = .SUBSCRIBE)
  (packetless : s.work.pubPacket.isSome = false → s.work.msgInfos = [])

include kind packetless

theorem refuseSubscribe_takenOver (stores : Stores) (code : ReasonCode) (steps : List Step)
    : TakenOver lib env s id (s.world.msgs id)
        (refuseSubscribe (s.subscribing id stores code steps)) := by
  refine ⟨_, .refusedSubscribe kind ?_ ⟨rfl, rfl⟩, ?_⟩
  · exact {
      entered := rfl
      held := rfl
      kept := rfl
      recipients := packetless
      param := rfl
      role := rfl
      clean := fun _ closed => absurd rfl closed
    }
  · change ((s.trace ++ [_]) ++ [_]) ++ [_] = _
    simp only [List.append_assoc, List.cons_append, List.nil_append]
    rfl

theorem acknowledgeSubscribe_takenOver (stores : Stores) (packet : TopicPacket)
    (steps : List Step)
    : TakenOver lib env s id (s.world.msgs id)
        (acknowledgeSubscribe lib env id packet
          (collectedRetained lib env s.world (s.world.msgs id))
          (s.subscribing id stores SUCCESS steps)) := by
  let start := ((s.subscribing id stores SUCCESS steps).read [.fields]).setMsg id
    (fun msg => encodeSubackMsg lib.parser msg packet (s.world.msgs id).connParam.protover)
  let msgRet := collectedRetained lib env s.world (s.world.msgs id)
  let retained := sendRetained env.clock (s.world.msgs id).pipe msgRet start
  obtain ⟨sends, deliveries, trace, work, same⟩ :=
    sendRetained_deliveries_of env.clock (s.world.msgs id).pipe msgRet start
  let marked := retained.setMsg id
    (fun msg => (msg.setCmdType .SUBACK).setPipe (s.world.msgs id).pipe)
  refine ⟨_, .subscribed (marked.world.msgs id) kind deliveries ?_
    ⟨same.next, same.retained⟩, ?_⟩
  · exact {
      entered := rfl
      held := rfl
      kept := congrArg (fun work => work.pubPacket.isSome) work
      recipients := fun missing => (congrArg Work.msgInfos work).trans (packetless missing)
      param := congrArg Work.cparam work
      role := (congrArg Work.proto work).trans rfl
      clean := fun _ _ _ => congrArg Work.code work
    }
  · change (retained.trace ++ [_]) ++ [_] = _
    rw [trace]
    change (((s.trace ++ [_]) ++ sends) ++ [_]) ++ [_] = _
    simp only [List.append_assoc, List.cons_append, List.nil_append]
    rfl

end Subscribing

theorem passConnack_passes (id : MsgId) (s : Cb)
    : ∃ passed,
        Passes id passed
        ∧ (passConnack id s).trace = s.trace ++ passed
        ∧ (passConnack id s).work = s.work
        ∧ Obtains s.world (passConnack id s) 0 := by
  unfold passConnack
  split
  · refine ⟨_, .returned ((s.world.msgs id).setPipe s.work.pid), ?_, rfl, rfl, rfl⟩
    dsimp only
    rw [Cb.ctxSend_trace, Cb.emit_trace, Cb.setMsg_trace, List.append_assoc]
    exact congrArg (fun msg => s.trace ++ [Effect.msgClone id, Effect.ctxSend false id msg])
      (Cb.setMsg_self (s.read [.fields]) id (·.setPipe s.work.pid))
  · exact ⟨[], .nothing, (List.append_nil _).symm, rfl, rfl, rfl⟩

section TakesOver

variable (lib : Library) (env : Env) {s : Cb} {id : MsgId} {msg : NngMsg}
  (contents : s.world.msgs id = msg)

include contents

/-- A SUBSCRIBE: the code of the context decides, whoever has set it. -/
theorem recvSubscribe_takenOver (kind : msg.cmdType = .SUBSCRIBE)
    (packetless : s.work.pubPacket.isSome = false → s.work.msgInfos = [])
    : TakenOver lib env s id msg (recvSubscribe lib env id (s.adopt id)) := by
  subst contents
  unfold recvSubscribe
  dsimp only
  split
  · exact refuseSubscribe_takenOver lib env kind packetless s.world.stores _ _
  · split
    · split
      · exact refuseSubscribe_takenOver lib env kind packetless _ _ _
      · rename_i failed success
        exact absurd (not_not.mp success) failed
    · split
      · exact refuseSubscribe_takenOver lib env kind packetless _ s.work.code _
      · rename_i success
        have clean : s.work.code = SUCCESS := not_not.mp success
        have acknowledged := acknowledgeSubscribe_takenOver lib env kind packetless
        unfold Cb.subscribing at acknowledged
        rw [← clean] at acknowledged
        exact acknowledged _ _ _

theorem recvUnsubscribe_takenOver (kind : msg.cmdType = .UNSUBSCRIBE)
    (packetless : s.work.pubPacket.isSome = false → s.work.msgInfos = [])
    : TakenOver lib env s id msg (recvUnsubscribe lib env id (s.adopt id)) := by
  subst contents
  unfold recvUnsubscribe
  dsimp only
  generalize unpacked : Cb.setMsg (Cb.setWorld _ _) _ _ = answered
  refine ⟨_, .unsubscribed (answered.world.msgs id) kind ?_ ⟨?_, ?_⟩, ?_⟩
  · subst unpacked
    exact {
      entered := rfl
      held := rfl
      kept := rfl
      recipients := packetless
      param := rfl
      role := rfl
      clean := fun _ _ clean => clean
    }
  · subst unpacked
    rfl
  · subst unpacked
    rfl
  · subst unpacked
    change (((s.trace ++ [_]) ++ [_]) ++ [_]) ++ [_] = _
    simp only [List.append_assoc, List.cons_append, List.nil_append]
    rfl

/-- How a PUBLISH goes on with the result of `handle_pub`. -/
theorem settlePublish_takenOver {handled : List Effect} {msgInfos : List Pid}
    {packet : PubPacket} {t : Cb} (code : ReasonCode) (kind : msg.cmdType = .PUBLISH)
    (known : id < s.world.nextMsg)
    (handles : Handles id s.world.retained t.world.retained handled)
    (trace : t.trace = s.trace ++ Effect.cparamRead :: handled)
    (work : t.work = { (s.adopt id).work with msgInfos, pubPacket := some packet })
    (next : t.world.nextMsg = s.world.nextMsg) (type : t.heldType = msg.type)
    (unrouted : code ≠ SUCCESS → msgInfos = [])
    : TakenOver lib env s id msg (settlePublish lib code t) := by
  subst contents
  have held : t.work.msg = some id := congrArg Work.msg work
  have param : t.work.cparam = (s.world.msgs id).connParam := congrArg Work.cparam work
  have role : t.work.proto = s.work.proto := (congrArg Work.proto work).trans rfl
  have kept : t.work.pubPacket.isSome = true :=
    (congrArg (fun work => work.pubPacket.isSome) work).trans rfl
  have goesOn (state : WorkState) (clean : s.work.proto = .MQTT_BROKER → code = SUCCESS)
      : Leaves s.work { t.work with code, state } state (some id) true
          (s.world.msgs id).connParam :=
    {
      entered := rfl
      held
      kept
      recipients := nofun
      param
      role
      clean := fun broker _ _ => clean broker
    }
  have extended (arm : Effect)
      : t.trace ++ [arm] = s.trace ++ (Effect.cparamRead :: handled ++ [arm]) := by
    rw [trace, List.append_assoc]
  have replies (notBroker : s.work.proto ≠ .MQTT_BROKER)
      : TakenOver lib env s id (s.world.msgs id)
          (replyExtra lib ((t.read [.fields]).setWork { t.work with code })) := by
    have older : ∀ other, t.work.msg = some other → other < t.world.nextMsg := by
      intro other isHeld
      obtain rfl : id = other := Option.some.inj (held.symm.trans isHeld)
      exact known.trans_eq next.symm
    have sameType
        : (replyExtra lib ((t.read [.fields]).setWork { t.work with code })).heldType
          = (s.world.msgs id).type :=
      (replyExtra_heldType older).trans type
    let state : WorkState := if code = SUCCESS then .WAIT else .SEND
    have replied : state = .WAIT ∨ state = .SEND := by
      by_cases success : code = SUCCESS
      · exact Or.inl (if_pos success)
      · exact Or.inr (if_neg success)
    refine ⟨_, .published kind replied handles (.reply lib.emptyMsg) ?_ sameType
      (congrArg (· + 1) next), ?_⟩
    · exact {
        entered := rfl
        held
        kept
        recipients := nofun
        param
        role
        clean := fun broker => absurd broker notBroker
      }
    · unfold replyExtra
      dsimp only
      rw [Cb.ctxSend_trace, ← extended, ← next]
      exact congrArg (fun msg => t.trace ++ [Effect.ctxSend true t.world.nextMsg msg])
        (Cb.alloc_self _ _)
  unfold settlePublish
  dsimp only
  split
  · rename_i http
    exact replies fun broker => nomatch (http.symm.trans role).trans broker
  · rename_i aws
    exact replies fun broker => nomatch (aws.symm.trans role).trans broker
  · rename_i bridge
    have notBroker : s.work.proto ≠ .MQTT_BROKER :=
      fun broker => nomatch (bridge.symm.trans role).trans broker
    split
    · exact ⟨_, .published kind (Or.inl rfl) handles .finish
        (goesOn .WAIT (absurd · notBroker)) type next, extended .aioFinish⟩
    · exact ⟨_, .published kind (Or.inr rfl) handles .finish
        (goesOn .SEND (absurd · notBroker)) type next, extended .aioFinish⟩
  · split
    · rename_i success
      exact ⟨_, .published kind (Or.inl rfl) handles .finish
        (goesOn .WAIT fun _ => success) type next, extended .aioFinish⟩
    · rename_i failed
      refine ⟨_, .refusedPublish kind handles ?_ next, ?_⟩
      · exact {
          entered := rfl
          held
          kept := rfl
          recipients := fun _ => (congrArg Work.msgInfos work).trans (unrouted failed)
          param
          role
          clean := fun _ closed => absurd rfl closed
        }
      · change ((t.trace ++ [_]) ++ [Effect.connParamFree t.work.cparam]) ++ [_] = _
        rw [trace, param]
        simp only [List.append_assoc, List.cons_append, List.nil_append]

theorem recvPublish_takenOver (kind : msg.cmdType = .PUBLISH) (known : id < s.world.nextMsg)
    : TakenOver lib env s id msg (recvPublish lib env id (s.adopt id)) := by
  let marked := ((s.adopt id).read [.fields]).setMsg id (·.setCmdType
    (if (s.adopt id).work.protoVer = MQTT_PROTOCOL_VERSION_v5 then CmdType.PUBLISH_V5
      else CmdType.PUBLISH))
  have markedType : (marked.world.msgs id).type = msg.type := by
    rw [Cb.setMsg_self, ← contents]
    rfl
  obtain ⟨handled, msgInfos, packet, handles, trace, work, next, unrouted⟩ :=
    handlePub_calls lib env marked.work.protoVer id marked
  refine settlePublish_takenOver lib env contents _ kind known handles ?_ work next
    ((handlePub_heldType rfl).trans markedType) unrouted
  rw [trace]
  exact List.append_assoc _ _ _

/-- A CONNACK. -/
theorem recvConnack_takenOver (kind : msg.cmdType = .CONNACK)
    : TakenOver lib env s id msg (recvConnack lib env id (s.adopt id)) := by
  subst contents
  obtain ⟨passed, passes, passTrace, passWork, passSame⟩ :=
    passConnack_passes id ((s.adopt id).read [.contents id])
  unfold recvConnack
  dsimp only
  generalize Reading.Buffer.byteAt _ 1 = reason
  generalize passConnack id ((s.adopt id).read [.contents id]) = answered
    at passTrace passWork passSame ⊢
  let notice :=
    (lib.msgNotifyConnect answered.work.cparam reason).setCmdType .PUBLISH
  let announced := (answered.emit .cparamRead).alloc notice
  obtain ⟨hooks, reports, hookTrace⟩ := webhookEntry_hooks reason announced
  obtain ⟨flag, hookWork⟩ := webhookEntry_work reason announced
  have hookWorld := webhookEntry_world reason announced
  let opened := ((webhookEntry reason announced).emit (.msgFree id)).setWork
    { (webhookEntry reason announced).work with
      flag := .PUBLISH, msg := some answered.world.nextMsg }
  obtain ⟨handled, msgInfos, packet, handles, trace, work, next, _⟩ :=
    handlePub_calls lib env MQTT_PROTOCOL_VERSION_v311 answered.world.nextMsg opened
  have openedWork : opened.work
      = { (s.adopt id).work with flag := .PUBLISH, msg := some answered.world.nextMsg } := by
    change { (webhookEntry reason announced).work with
      flag := .PUBLISH, msg := some answered.world.nextMsg } = _
    rw [hookWork]
    change { answered.work with flag := .PUBLISH, msg := some answered.world.nextMsg } = _
    rw [passWork]
    rfl
  have openedWorld : opened.world = announced.world := hookWorld
  have sameNext : answered.world.nextMsg = s.world.nextMsg := passSame.next
  have sameRetained : answered.world.retained = s.world.retained := passSame.retained
  have sameParam : answered.work.cparam = (s.world.msgs id).connParam := by
    rw [passWork]
    rfl
  have handlesHere : Handles s.world.nextMsg s.world.retained
      (handlePub lib env MQTT_PROTOCOL_VERSION_v311 answered.world.nextMsg opened).2.world.retained
      handled := by
    rw [openedWorld] at handles
    rw [← sameNext, ← sameRetained]
    exact handles
  rw [openedWork] at work
  rw [openedWorld] at next
  have noticeType
      : (opened.world.msgs answered.world.nextMsg).type
        = (lib.msgNotifyConnect (s.world.msgs id).connParam reason).type := by
    rw [openedWorld, ← sameParam]
    exact (congrArg NngMsg.type (Cb.alloc_self (answered.emit .cparamRead) notice)).trans rfl
  refine ⟨_, .connected kind passes reports handlesHere ?_
    ((handlePub_heldType rfl).trans noticeType) ?_, ?_⟩
  · exact {
      entered := rfl
      held := (congrArg Work.msg work).trans (congrArg some sameNext)
      kept := congrArg (fun work => work.pubPacket.isSome) work
      recipients := nofun
      param := congrArg Work.cparam work
      role := (congrArg Work.proto work).trans rfl
      clean := fun _ _ clean => (congrArg Work.code work).trans clean
    }
  · exact next.trans (congrArg (· + 1) sameNext)
  · have announces : announced.trace
        = ((s.trace ++ [Effect.cparamRead]) ++ passed) ++ [Effect.cparamRead] := by
      change answered.trace ++ [_] = _
      rw [passTrace]
      rfl
    have opens : opened.trace = announced.trace ++ hooks ++ [Effect.msgFree id] := by
      change (webhookEntry reason announced).trace ++ [_] = _
      rw [hookTrace]
    refine (congrArg (· ++ [Effect.aioFinish]) trace).trans ?_
    rw [opens, announces]
    simp only [List.append_assoc, List.cons_append, List.nil_append]

theorem settleDisconnect_takenOver {hooks handled : List Effect} {msgInfos : List Pid}
    {flag : CmdType} {packet : PubPacket} {t : Cb} (kind : msg.cmdType = .DISCONNECT_EV)
    (reports : Hooks hooks) (handles : Handles id s.world.retained t.world.retained handled)
    (trace : t.trace = s.trace ++ (Effect.cparamRead :: hooks ++ handled))
    (work : t.work = { (s.adopt id).work with flag, msgInfos, pubPacket := some packet })
    (next : t.world.nextMsg = s.world.nextMsg)
    (type : (settleDisconnect t).heldType = msg.type)
    : TakenOver lib env s id msg (settleDisconnect t) := by
  subst contents
  have param : t.work.cparam = (s.world.msgs id).connParam := congrArg Work.cparam work
  have leaves (state : WorkState)
      : Leaves s.work { t.work with state } state (some id) true
          (s.world.msgs id).connParam :=
    {
      entered := rfl
      held := congrArg Work.msg work
      kept := (congrArg (fun work => work.pubPacket.isSome) work).trans rfl
      recipients := nofun
      param
      role := (congrArg Work.proto work).trans rfl
      clean := fun _ _ clean => (congrArg Work.code work).trans clean
    }
  unfold settleDisconnect at type ⊢
  dsimp only at type ⊢
  split at type
  · rename_i hasWill
    have left : (s.world.msgs id).connParam.hasWill := param ▸ hasWill
    rw [if_pos hasWill]
    refine ⟨_, .willLeft kind left reports handles (leaves .END) type next, ?_⟩
    change (t.trace ++ [_]) ++ [_] = _
    rw [trace]
    simp only [List.append_assoc, List.cons_append, List.nil_append]
  · rename_i noWill
    rw [if_neg noWill]
    refine ⟨_, .disconnected kind reports handles (leaves .WAIT) type next, ?_⟩
    change ((t.trace ++ [_]) ++ [Effect.connParamFree t.work.cparam]) ++ [_] = _
    rw [trace, param]
    simp only [List.append_assoc, List.cons_append, List.nil_append]

theorem recvDisconnect_takenOver (kind : msg.cmdType = .DISCONNECT_EV)
    : TakenOver lib env s id msg (recvDisconnect lib env id (s.adopt id)) := by
  let adopted := s.adopt id
  obtain ⟨hooks, reports, hookTrace⟩ := webhookEntry_hooks 0 adopted
  obtain ⟨flag, hookWork⟩ := webhookEntry_work 0 adopted
  have hookWorld := webhookEntry_world 0 adopted
  let opened := ((webhookEntry 0 adopted).setMsg id (·.setCmdType .PUBLISH)).setWork
    { (webhookEntry 0 adopted).work with flag := .PUBLISH }
  obtain ⟨handled, msgInfos, packet, handles, trace, work, next, _⟩ :=
    handlePub_calls lib env MQTT_PROTOCOL_VERSION_v311 id opened
  have openedWork : opened.work = { adopted.work with flag := .PUBLISH } := by
    change { (webhookEntry 0 adopted).work with flag := .PUBLISH } = _
    rw [hookWork]
  have openedNext : opened.world.nextMsg = s.world.nextMsg :=
    (congrArg World.nextMsg hookWorld).trans rfl
  have openedRetained : opened.world.retained = s.world.retained :=
    (congrArg World.retained hookWorld).trans rfl
  have openedTrace : opened.trace = s.trace ++ Effect.cparamRead :: hooks := by
    change (webhookEntry 0 adopted).trace = _
    rw [hookTrace, Cb.adopt_trace, List.append_assoc]
    rfl
  rw [openedRetained] at handles
  rw [openedWork] at work
  rw [openedTrace, List.append_assoc] at trace
  have type : (recvDisconnect lib env id adopted).heldType = msg.type := by
    rw [← contents]
    exact recvDisconnect_heldType rfl
  exact settleDisconnect_takenOver lib env contents kind reports handles trace work
    (next.trans openedNext) type

theorem recvMsg_takenOver (known : id < s.world.nextMsg)
    (packetless : s.work.pubPacket.isSome = false → s.work.msgInfos = [])
    : TakenOver lib env s id msg (recvMsg lib env id s) := by
  unfold recvMsg
  split
  · rename_i kind
    exact recvSubscribe_takenOver lib env contents (contents ▸ kind) packetless
  · rename_i kind
    exact recvUnsubscribe_takenOver lib env contents (contents ▸ kind) packetless
  · rename_i kind
    exact recvPublish_takenOver lib env contents (contents ▸ kind) known
  · rename_i kind
    exact recvConnack_takenOver lib env contents (contents ▸ kind)
  · rename_i kind
    exact recvDisconnect_takenOver lib env contents (contents ▸ kind)
  · rename_i notSubscribe notUnsubscribe notPublish notConnack notEvent
    subst contents
    refine ⟨_, .ignored notSubscribe notUnsubscribe notPublish notConnack notEvent ?_ rfl
      ⟨rfl, rfl⟩, List.append_assoc _ _ _⟩
    exact {
      entered := rfl
      held := rfl
      kept := rfl
      recipients := packetless
      param := rfl
      role := rfl
      clean := fun _ _ clean => clean
    }

end TakesOver

end NanoMQ
