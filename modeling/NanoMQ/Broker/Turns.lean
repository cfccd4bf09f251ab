import NanoMQ.Broker.Steps
import NanoMQ.Broker.TakeOver

/-! Every activation of `server_cb` with the calls it makes, in their order, and the fields
that it leaves behind.
-/

namespace NanoMQ

open Bytes Contexts

/-- The message that a context in RECV takes over. A failed receive brings none, a bridge
takes only CONNACK and PUBLISH, and what comes over inproc is unpacked first.
-/
def takenOver (lib : Library) (env : Env) (work : Work) : Option NngMsg :=
  if env.aioResult ≠ 0
      ∧ (work.proto = .MQTT_BROKER ∨ env.aioResult ≠ NNG_ECONNSHUT) then none
  else
    env.aioMsg.bind fun msg =>
      match work.proto with
      | .MQTT_BROKER => some msg
      | .MQTT_BRIDGE =>
          if msg.type = CONNACK then some (msg.setCmdType .CONNACK)
          else if msg.type = PUBLISH then some (msg.setCmdType .PUBLISH)
          else none
      | .HTTP_SERVER | .AWS_BRIDGE =>
          let decoded := (decodeCommonMqttMsg lib env.freshCparam env.stray msg).value
          if decoded.type = PUBLISH then some (decoded.setCmdType .PUBLISH) else none

/-- The broker takes over what it receives; the other contexts take over what the header says
is a CONNACK or a PUBLISH.
-/
theorem takenOver_cases {lib : Library} {env : Env} {work : Work} {msg : NngMsg}
    (taken : takenOver lib env work = some msg)
    : (work.proto = .MQTT_BROKER ∧ env.aioResult = 0 ∧ env.aioMsg = some msg)
      ∨ (work.proto ≠ .MQTT_BROKER
        ∧ ((msg.cmdType = .CONNACK ∧ msg.type = CONNACK)
          ∨ (msg.cmdType = .PUBLISH ∧ msg.type = PUBLISH))) := by
  unfold takenOver at taken
  split at taken
  · cases taken
  · rename_i completed
    obtain ⟨received, brings, accepted⟩ := Option.bind_eq_some_iff.mp taken
    cases role : work.proto with
    | MQTT_BROKER =>
        rw [role] at accepted
        cases accepted
        exact Or.inl ⟨rfl, by_contra fun failed => completed ⟨failed, Or.inl role⟩, brings⟩
    | MQTT_BRIDGE =>
        rw [role] at accepted
        dsimp only at accepted
        refine Or.inr ⟨nofun, ?_⟩
        split at accepted
        · rename_i connack
          cases accepted
          exact Or.inl ⟨rfl, connack⟩
        · split at accepted
          · rename_i publish
            cases accepted
            exact Or.inr ⟨rfl, publish⟩
          · cases accepted
    | HTTP_SERVER =>
        rw [role] at accepted
        dsimp only at accepted
        refine Or.inr ⟨nofun, Or.inr ?_⟩
        split at accepted
        · rename_i publish
          cases accepted
          exact ⟨rfl, publish⟩
        · cases accepted
    | AWS_BRIDGE =>
        rw [role] at accepted
        dsimp only at accepted
        refine Or.inr ⟨nofun, Or.inr ?_⟩
        split at accepted
        · rename_i publish
          cases accepted
          exact ⟨rfl, publish⟩
        · cases accepted

/-- How the message that is taken over is obtained. -/
inductive Arrives (world : World) : MsgId → List Effect → Prop
  | received : Arrives world world.nextMsg []
  | upstream (cparam : ConnParam)
    : Arrives world world.nextMsg [.connParamClone cparam]
  | unpacked : Arrives world (world.nextMsg + 1) [.msgFree world.nextMsg]

/-- The rule engine may be told of a publication. -/
inductive Records : List Effect → Prop
  | nothing : Records []
  | inserted : Records [.ruleEngineInsertSql]

/-- The properties of a will may be attached to its packet. -/
inductive Attaches : List Effect → Prop
  | nothing : Attaches []
  | will (properties : Option (List Property)) (propLen : Nat)
    : Attaches [.willProperties properties propLen]

/-- The calls of one activation in their order, and what it leaves behind. -/
inductive Turn (lib : Library) (env : Env) (work : Work) (world : World) (t : Cb) : Prop
  | idle (extra : Bool)
    (state : work.state = .INIT ∨ work.state = .RECV ∧ takenOver lib env work = none)
    (trace : t.trace = [.ctxRecv extra]) (after : t.work = { work with state := .RECV })
    (obtains : Obtains world t 0)
  | dropped (extra : Bool) (state : work.state = .RECV)
    (nothing : takenOver lib env work = none)
    (trace : t.trace = [.msgFree world.nextMsg, .ctxRecv extra]) (after : t.work = work)
    (obtains : Obtains world t 1)
  | rejected {msg : NngMsg} (extra : Bool) (cparam : ConnParam) (state : work.state = .RECV)
    (inproc : work.proto = .HTTP_SERVER ∨ work.proto = .AWS_BRIDGE)
    (brings : env.aioMsg = some msg)
    (other
      : (decodeCommonMqttMsg lib env.freshCparam env.stray msg).value.type ≠ PUBLISH)
    (nothing : takenOver lib env work = none)
    (trace
      : t.trace = [.msgFree world.nextMsg, .connParamFree cparam, .ctxRecv extra])
    (after : t.work = work) (obtains : Obtains world t 2)
  | takes {id : MsgId} {msg : NngMsg} {arrival calls : List Effect} {arrived : World}
    (state : work.state = .RECV) (taken : takenOver lib env work = some msg)
    (arrives : Arrives world id arrival) (next : arrived.nextMsg = id + 1)
    (retained : arrived.retained = world.retained) (stores : arrived.stores = world.stores)
    (takes : TakesOver lib env work arrived id msg t calls)
    (trace : t.trace = arrival ++ calls)
  | delivered {id : MsgId} {sends forwards : List Effect} (state : work.state = .WAIT)
    (held : work.msg = some id) (publish : (world.msgs id).type = PUBLISH)
    (deliveries : Deliveries (· = id) sends) (bridges : Forwards forwards)
    (trace : t.trace = sends ++ forwards ++ [.aioFinish])
    (leaves : Leaves work t.work .SEND (some id) work.pubPacket.isSome work.cparam)
    (obtains : Obtains world t 0)
  | finished {id : MsgId} {sends forwards : List Effect} (extra : Bool)
    (state : work.state = .WAIT) (held : work.msg = some id)
    (publish : (world.msgs id).type = PUBLISH)
    (deliveries : Deliveries (· = id) sends) (bridges : Forwards forwards)
    (trace
      : t.trace
        = sends ++ forwards
          ++ [.msgFree id, .connParamFree work.cparam, .freePubPacket, .ctxRecv extra])
    (leaves : Leaves work t.work .RECV none false work.cparam) (obtains : Obtains world t 0)
  | nothingToDo (state : work.state = .WAIT)
    (other : Cb.heldType { work, world, trace := [] } ≠ PUBLISH)
    (trace : t.trace = freeHeld work.msg ++ [.ctxRecv false])
    (leaves : Leaves work t.work .RECV none work.pubPacket.isSome work.cparam)
    (obtains : Obtains world t 0)
  | sent {recorded hooks : List Effect} (extra : Bool) (state : work.state = .SEND)
    (records : Records recorded) (reports : Hooks hooks)
    (trace
      : t.trace
        = recorded ++ hooks ++ freeHeld work.msg
          ++ (if work.pubPacket.isSome then [.freePubPacket] else [])
          ++ [.connParamFree work.cparam, .ctxRecv extra])
    (leaves : Leaves work t.work .RECV none false work.cparam) (obtains : Obtains world t 0)
  | willPublished {id : MsgId} {sends hooks handled attached : List Effect} {will : NngMsg}
    (state : work.state = .END) (held : work.msg = some id)
    (deliveries : Deliveries (· = id) sends) (reports : Hooks hooks)
    (flagged : work.cparam.willFlag)
    (handles : Handles world.nextMsg world.retained t.world.retained handled)
    (attaches : Attaches attached)
    (trace
      : t.trace
        = sends ++ hooks ++ [.msgFree id, .freePubPacket, .cparamRead, .cparamRead] ++ handled
          ++ attached ++ [.aioFinish, .connParamFree work.cparam])
    (leaves : Leaves work t.work .WAIT (some world.nextMsg) true work.cparam)
    (composed
      : ∃ retain qos payload topic protover clock,
          will = lib.pubmsgComposer retain qos payload topic protover clock)
    (type : t.heldType = will.type) (next : t.world.nextMsg = world.nextMsg + 1)
  | ended {id : MsgId} {sends hooks : List Effect} (extra : Bool) (state : work.state = .END)
    (held : work.msg = some id) (deliveries : Deliveries (· = id) sends)
    (reports : Hooks hooks) (unflagged : work.cparam.willFlag = false)
    (trace
      : t.trace
        = sends ++ hooks ++ [.msgFree id, .freePubPacket, .cparamRead, .ctxRecv extra]
          ++ [.connParamFree work.cparam])
    (leaves : Leaves work t.work .RECV none false work.cparam) (obtains : Obtains world t 0)
  | closed (disconnect : NngMsg) (state : work.state = .CLOSE)
    (trace
      : t.trace
        = freeHeld work.msg ++ [.ctxSend false world.nextMsg disconnect, .ctxRecv false])
    (leaves
      : Leaves work t.work .RECV (some world.nextMsg) work.pubPacket.isSome work.cparam)
    (cleared : t.work.code = SUCCESS) (obtains : Obtains world t 1)

/-- What an activation has done that has taken over a message. -/
theorem Turn.of_taken {lib : Library} {env : Env} {work : Work} {world : World} {t : Cb}
    {msg : NngMsg} (receiving : work.state = .RECV) (taken : takenOver lib env work = some msg)
    (turn : Turn lib env work world t)
    : ∃ id arrival calls arrived,
        Arrives world id arrival
        ∧ arrived.retained = world.retained
        ∧ TakesOver lib env work arrived id msg t calls
        ∧ t.trace = arrival ++ calls := by
  cases turn with
  | idle _ state _ _ _ =>
      rcases state with init | ⟨_, nothing⟩
      · cases receiving.symm.trans init
      · cases nothing.symm.trans taken
  | dropped _ _ nothing _ _ _ => cases nothing.symm.trans taken
  | rejected _ _ _ _ _ _ nothing _ _ _ => cases nothing.symm.trans taken
  | takes _ isTaken arrives _ retained _ takes trace =>
      cases isTaken.symm.trans taken
      exact ⟨_, _, _, _, arrives, retained, takes, trace⟩
  | delivered state _ _ _ _ _ _ _ => cases receiving.symm.trans state
  | finished _ state _ _ _ _ _ _ _ => cases receiving.symm.trans state
  | nothingToDo state _ _ _ _ => cases receiving.symm.trans state
  | sent _ state _ _ _ _ _ => cases receiving.symm.trans state
  | willPublished state _ _ _ _ _ _ _ _ _ _ _ => cases receiving.symm.trans state
  | ended _ state _ _ _ _ _ _ _ => cases receiving.symm.trans state
  | closed _ state _ _ _ _ => cases receiving.symm.trans state

-- RECV

/-- A context that has obtained the message it takes over. -/
structure Obtained (work : Work) (world : World) (id : MsgId) (msg : NngMsg) (s : Cb) : Prop
    where
  contents : s.world.msgs id = msg
  same : s.work = work
  arrives : Arrives world id s.trace
  next : s.world.nextMsg = id + 1
  retained : s.world.retained = world.retained
  stores : s.world.stores = world.stores
  orderly : s.Orderly {id}

/-- What becomes of a completion in RECV: the context receives again, with or without having
dropped a message, or it takes a message over.
-/
inductive Receives (lib : Library) (env : Env) (work : Work) (world : World) : Cb → Prop
  | failed (nothing : takenOver lib env work = none)
    : Receives lib env work world (Cb.read { work, world, trace := [] } [.fields]).ctxRecv
  | fatal (nothing : takenOver lib env work = none)
    : Receives lib env work world ((Cb.read { work, world, trace := [] } [.fields]).emit .fatal)
  | dropped {before : Cb} (nothing : takenOver lib env work = none)
    (trace : before.trace = [.msgFree world.nextMsg]) (same : before.work = work)
    (obtains : Obtains world before 1) (orderly : before.Orderly ∅)
    : Receives lib env work world before.ctxRecv
  | rejected {msg : NngMsg} {before : Cb} (cparam : ConnParam)
    (inproc : work.proto = .HTTP_SERVER ∨ work.proto = .AWS_BRIDGE)
    (brings : env.aioMsg = some msg)
    (other
      : (decodeCommonMqttMsg lib env.freshCparam env.stray msg).value.type ≠ PUBLISH)
    (nothing : takenOver lib env work = none)
    (trace : before.trace = [.msgFree world.nextMsg, .connParamFree cparam])
    (same : before.work = work) (obtains : Obtains world before 2)
    (orderly : before.Orderly {world.nextMsg + 1})
    : Receives lib env work world before.ctxRecv
  | takes {s : Cb} {id : MsgId} {msg : NngMsg} (taken : takenOver lib env work = some msg)
    (obtained : Obtained work world id msg s)
    : Receives lib env work world (recvMsg lib env id s)

section Recv

variable (lib : Library) (env : Env) {work : Work} {world : World}

theorem Cb.received_orderly (msg : NngMsg)
    : (Cb.received work world msg).Orderly {world.nextMsg} :=
  (Cb.Orderly.start _ work world).readFields.setWorld

theorem recvBridge_receives {msg : NngMsg}
    (taken
      : takenOver lib env work
        = if msg.type = CONNACK then some (msg.setCmdType .CONNACK)
          else if msg.type = PUBLISH then some (msg.setCmdType .PUBLISH)
          else none)
    : Receives lib env work world
        (recvBridge lib env world.nextMsg (Cb.received work world msg)) := by
  let received := (Cb.received work world msg).read [.contents world.nextMsg]
  have looked : received.Orderly {world.nextMsg} := (Cb.received_orderly msg).readMsg rfl
  have marked (cmdType : CmdType)
      : Obtained work world world.nextMsg (msg.setCmdType cmdType)
          (received.setMsg world.nextMsg (·.setCmdType cmdType)) :=
    {
      contents := (Cb.setMsg_self _ _ _).trans
        (congrArg (·.setCmdType cmdType) (Cb.received_self work world msg))
      same := rfl
      arrives := .received
      next := rfl
      retained := rfl
      stores := rfl
      orderly := looked.setMsg rfl
    }
  unfold recvBridge
  dsimp only
  rw [Cb.received_self work world msg]
  split
  · rename_i connack
    rw [if_pos connack] at taken
    exact .takes taken (marked .CONNACK)
  · rename_i notConnack
    rw [if_neg notConnack] at taken
    split
    · rename_i publish
      rw [if_pos publish] at taken
      have upstream := marked .PUBLISH
      exact .takes taken
        { upstream with arrives := .upstream _, orderly := upstream.orderly.emit rfl }
    · rename_i notPublish
      rw [if_neg notPublish] at taken
      have given : (received.read [.fields]).Orderly (insert world.nextMsg ∅) :=
        looked.readFields.mono fun _ same => Or.inl same
      exact .dropped taken rfl rfl ⟨rfl, rfl⟩ (.give (.release world.nextMsg) given rfl rfl)

theorem recvInproc_receives {msg : NngMsg}
    (inproc : work.proto = .HTTP_SERVER ∨ work.proto = .AWS_BRIDGE)
    (brings : env.aioMsg = some msg)
    (taken
      : let decoded := (decodeCommonMqttMsg lib env.freshCparam env.stray msg).value
        takenOver lib env work
        = if decoded.type = PUBLISH then some (decoded.setCmdType .PUBLISH) else none)
    : Receives lib env work world
        (recvInproc lib env world.nextMsg (Cb.received work world msg)) := by
  let received := (Cb.received work world msg).read [.contents world.nextMsg]
  have given : received.Orderly (insert world.nextMsg ∅) :=
    ((Cb.received_orderly msg).readMsg rfl).mono fun _ same => Or.inl same
  have freed : (received.emit (.msgFree world.nextMsg)).Orderly {world.nextMsg + 1} :=
    (Cb.Orderly.give (.release world.nextMsg) given rfl rfl).mono (Set.empty_subset _)
  unfold recvInproc
  dsimp only at taken ⊢
  rw [Cb.received_self work world msg]
  generalize unpacks : (decodeCommonMqttMsg lib env.freshCparam env.stray msg).value = decoded
    at taken ⊢
  have unpacked
      : (((received.emit (.msgFree world.nextMsg)).alloc decoded).read
          [.contents (world.nextMsg + 1)]).Orderly {world.nextMsg + 1} :=
    freed.setWorld.readMsg rfl
  split
  · rename_i publish
    rw [if_pos publish] at taken
    exact .takes taken {
      contents := (Cb.setMsg_self _ _ _).trans
        (congrArg (·.setCmdType .PUBLISH) (Cb.alloc_self _ decoded))
      same := rfl
      arrives := .unpacked
      next := rfl
      retained := rfl
      stores := rfl
      orderly := unpacked.setMsg rfl
    }
  · rename_i notPublish
    rw [if_neg notPublish] at taken
    exact .rejected decoded.connParam inproc brings (unpacks ▸ notPublish) taken rfl rfl
      ⟨rfl, rfl⟩ (unpacked.emit rfl).readFields

theorem recvState_receives (work : Work) (world : World)
    : Receives lib env work world (recvState lib env { work, world, trace := [] }) := by
  unfold recvState
  split
  · rename_i failed
    exact .failed (if_pos failed)
  · rename_i completed
    cases received : env.aioMsg with
    | none =>
        refine .fatal ?_
        unfold takenOver
        rw [if_neg completed, received]
        rfl
    | some msg =>
        dsimp only
        split
        · rename_i broker
          change work.proto = _ at broker
          have taken : takenOver lib env work = some msg := by
            unfold takenOver
            rw [if_neg completed, received, broker]
            rfl
          exact .takes taken {
            contents := Cb.received_self work world msg
            same := rfl
            arrives := .received
            next := rfl
            retained := rfl
            stores := rfl
            orderly := Cb.received_orderly msg
          }
        · rename_i bridge
          change work.proto = _ at bridge
          refine recvBridge_receives lib env ?_
          unfold takenOver
          rw [if_neg completed, received, bridge]
          rfl
        · rename_i http
          change work.proto = _ at http
          refine recvInproc_receives lib env (Or.inl http) received ?_
          unfold takenOver
          rw [if_neg completed, received, http]
          rfl
        · rename_i aws
          change work.proto = _ at aws
          refine recvInproc_receives lib env (Or.inr aws) received ?_
          unfold takenOver
          rw [if_neg completed, received, aws]
          rfl

theorem Receives.of_taken {t : Cb} {msg : NngMsg} (receives : Receives lib env work world t)
    (taken : takenOver lib env work = some msg)
    : ∃ id s, Obtained work world id msg s ∧ t = recvMsg lib env id s := by
  cases receives with
  | failed nothing => cases nothing.symm.trans taken
  | fatal nothing => cases nothing.symm.trans taken
  | dropped nothing _ _ _ _ => cases nothing.symm.trans taken
  | rejected _ _ _ _ nothing _ _ _ _ => cases nothing.symm.trans taken
  | takes isTaken obtained =>
      cases isTaken.symm.trans taken
      exact ⟨_, _, obtained, rfl⟩

theorem Receives.turn {t : Cb} (receives : Receives lib env work world t)
    (receiving : work.state = .RECV)
    (packetless : work.pubPacket.isSome = false → work.msgInfos = [])
    (alive : .fatal ∉ t.trace)
    : Turn lib env work world t := by
  cases receives with
  | failed nothing =>
      refine .idle _ (Or.inr ⟨receiving, nothing⟩) rfl ?_ ⟨rfl, rfl⟩
      rw [← receiving]
      rfl
  | fatal _ => exact absurd List.mem_cons_self alive
  | dropped nothing trace same obtains _ =>
      exact .dropped _ receiving nothing (congrArg (· ++ _) trace) same
        ⟨obtains.next, obtains.retained⟩
  | rejected cparam inproc brings other nothing trace same obtains _ =>
      exact .rejected _ cparam receiving inproc brings other nothing
        (congrArg (· ++ _) trace) same ⟨obtains.next, obtains.retained⟩
  | @takes s id msg taken obtained =>
      have known : id < s.world.nextMsg := by
        rw [obtained.next]
        exact Nat.lt_succ_self id
      have handles := recvMsg_takenOver lib env obtained.contents known (by
        rw [obtained.same]
        exact packetless)
      obtain ⟨calls, takes, trace⟩ := handles
      rw [obtained.same] at takes
      exact .takes receiving taken obtained.arrives obtained.next obtained.retained
        obtained.stores takes trace

end Recv

section OtherStates

theorem Cb.held_of_publish {s : Cb} (publish : s.heldType = PUBLISH)
    : ∃ id, s.work.msg = some id ∧ (s.world.msgs id).type = PUBLISH := by
  unfold Cb.heldType at publish
  split at publish
  · cases publish
  · rename_i id held
    exact ⟨id, held, publish⟩

theorem finishPublication_work (s : Cb)
    : (finishPublication s).work
      = { s.work with msg := none, pubPacket := none, msgInfos := [], state := .RECV } := by
  change { s.dropMsg.work with pubPacket := none, msgInfos := [], state := .RECV } = _
  rw [Cb.dropMsg_work]

theorem finishPublication_trace (s : Cb)
    : (finishPublication s).trace
      = s.trace ++ freeHeld s.work.msg
        ++ [Effect.connParamFree s.work.cparam, Effect.freePubPacket,
          .ctxRecv (decide (s.work.proto ≠ .MQTT_BROKER))] := by
  change ((s.dropMsg.trace ++ [Effect.connParamFree s.dropMsg.work.cparam]) ++ [_])
    ++ [Effect.ctxRecv (decide (s.dropMsg.work.proto ≠ .MQTT_BROKER))] = _
  rw [Cb.dropMsg_work, Cb.dropMsg_trace]
  simp only [List.append_assoc, List.cons_append, List.nil_append]

theorem Cb.heldType_of_held {s : Cb} {id : MsgId} (held : s.work.msg = some id)
    : s.heldType = (s.world.msgs id).type := by
  unfold Cb.heldType
  rw [held]

variable (lib : Library) (env : Env) {work : Work} {world : World}

/-- SEND. -/
theorem sendState_turn (sending : work.state = .SEND)
    (alive : .fatal ∉ (sendState env { work, world, trace := [] }).trace)
    : Turn lib env work world (sendState env { work, world, trace := [] }) := by
  obtain ⟨recorded, told, records, isTold, toldTrace, toldWork, toldWorld⟩
      : ∃ recorded told,
          Records recorded
          ∧ (if work.flag = .PUBLISH ∧ work.config.ruleEngine then
              (Cb.read { work, world, trace := [] } [.fields]).emit .ruleEngineInsertSql
            else Cb.read { work, world, trace := [] } [.fields])
            = told
          ∧ told.trace = recorded
          ∧ told.work = work
          ∧ told.world = world := by
    split
    · exact ⟨_, _, .inserted, rfl, rfl, rfl, rfl⟩
    · exact ⟨_, _, .nothing, rfl, rfl, rfl, rfl⟩
  obtain ⟨hooks, reports, hookTrace⟩ := webhookEntry_hooks 0 told
  obtain ⟨flag, hookWork⟩ := webhookEntry_work 0 told
  have hookWorld := webhookEntry_world 0 told
  revert alive
  unfold sendState
  dsimp only
  rw [isTold]
  split
  · exact fun alive => absurd (List.mem_append_right _ List.mem_cons_self) alive
  · intro _
    have dropWork : (webhookEntry 0 told).dropMsg.work = { work with flag, msg := none } := by
      rw [Cb.dropMsg_work, hookWork, toldWork]
    have dropTrace : (webhookEntry 0 told).dropMsg.trace
        = recorded ++ hooks ++ freeHeld work.msg := by
      rw [Cb.dropMsg_trace, hookTrace, hookWork, toldTrace, toldWork]
    have dropWorld : (webhookEntry 0 told).dropMsg.world = world := by
      rw [Cb.dropMsg_world, hookWorld, toldWorld]
    generalize (webhookEntry 0 told).dropMsg = t at dropWork dropTrace dropWorld ⊢
    obtain ⟨after, worldAfter, trace, steps⟩ := t
    dsimp only at dropWork dropTrace dropWorld
    subst dropWork dropTrace dropWorld
    refine .sent (decide (work.proto ≠ .MQTT_BROKER)) sending records reports ?_ ?_ ⟨?_, ?_⟩
    · dsimp only
      split
      · change ((_ ++ [_]) ++ [_]) ++ [_] = _
        simp only [List.append_assoc, List.cons_append, List.nil_append]
        rfl
      · change (_ ++ [_]) ++ [_] = _
        simp only [List.append_assoc, List.cons_append, List.nil_append]
        rfl
    · dsimp only
      split
      · exact {
          entered := rfl
          held := rfl
          kept := rfl
          recipients := fun _ => rfl
          param := rfl
          role := rfl
          clean := fun _ _ clean => clean
        }
      · rename_i noPacket
        exact {
          entered := rfl
          held := rfl
          kept := Bool.not_eq_true _ ▸ noPacket
          recipients := fun _ => rfl
          param := rfl
          role := rfl
          clean := fun _ _ clean => clean
        }
    · split <;> rfl
    · split <;> rfl

/-- A will is published. -/
theorem publishWill_calls (s : Cb)
    : ∃ handled attached msgInfos packet will,
        Handles s.world.nextMsg s.world.retained (publishWill lib env s).world.retained handled
        ∧ Attaches attached
        ∧ (publishWill lib env s).trace
          = s.trace ++ (Effect.cparamRead :: handled ++ attached ++ [Effect.aioFinish])
        ∧ (publishWill lib env s).work
          = { s.work with
              msg := some s.world.nextMsg, flag := .PUBLISH, msgInfos,
              pubPacket := some packet, state := .WAIT }
        ∧ (publishWill lib env s).world.nextMsg = s.world.nextMsg + 1
        ∧ (∃ retain qos payload topic protover clock,
            will = lib.pubmsgComposer retain qos payload topic protover clock)
        ∧ (publishWill lib env s).heldType = will.type := by
  let composed := lib.pubmsgComposer s.work.cparam.willRetain s.work.cparam.willQos
    s.work.cparam.willMsg s.work.cparam.willTopic s.work.cparam.protover env.clock
  let start (cmdType : CmdType) := (((s.emit .cparamRead).alloc composed).setWork
    { s.work with msg := some s.world.nextMsg, flag := .PUBLISH }).setMsg s.world.nextMsg
      (·.setCmdType cmdType)
  have startType (cmdType : CmdType)
      : ((start cmdType).world.msgs s.world.nextMsg).type = composed.type := by
    rw [Cb.setMsg_self]
    exact congrArg (fun msg => (NngMsg.setCmdType msg cmdType).type)
      (Cb.alloc_self (s.emit .cparamRead) composed)
  unfold publishWill
  dsimp only
  split
  · obtain ⟨handled, msgInfos, packet, handles, trace, work, next, _⟩ :=
      handlePub_calls lib env MQTT_PROTOCOL_VERSION_v5 s.world.nextMsg (start .PUBLISH_V5)
    have type : (handlePub lib env MQTT_PROTOCOL_VERSION_v5 s.world.nextMsg
        (start .PUBLISH_V5)).2.heldType = composed.type :=
      (handlePub_heldType rfl).trans (startType .PUBLISH_V5)
    let properties := lib.propertyPubByWill s.work.cparam.willProperty
    let propLen := lib.getPropertiesLen properties
    refine ⟨handled, [.willProperties properties propLen], msgInfos,
      packet.setProperties properties propLen, composed, handles, .will properties propLen, ?_,
      ?_, next, ⟨_, _, _, _, _, _, rfl⟩, type⟩
    · refine (congrArg (· ++ [Effect.willProperties properties propLen] ++ [Effect.aioFinish])
        trace).trans ?_
      change ((((s.trace ++ [_]) ++ handled) ++ [_]) ++ [_]) = _
      simp only [List.append_assoc, List.cons_append, List.nil_append]
    · exact congrArg (fun work : Work =>
        { work with
          pubPacket := some ((work.pubPacket.getD .zeroed).setProperties properties propLen),
          state := .WAIT }) work
  · obtain ⟨handled, msgInfos, packet, handles, trace, work, next, _⟩ :=
      handlePub_calls lib env MQTT_PROTOCOL_VERSION_v311 s.world.nextMsg (start .PUBLISH)
    refine ⟨handled, [], msgInfos, packet, composed, handles, .nothing, ?_, ?_, next,
      ⟨_, _, _, _, _, _, rfl⟩, (handlePub_heldType rfl).trans (startType .PUBLISH)⟩
    · refine (congrArg (· ++ [Effect.aioFinish]) trace).trans ?_
      change (((s.trace ++ [_]) ++ handled) ++ [_]) = _
      simp only [List.append_assoc, List.cons_append, List.nil_append]
    · exact congrArg (fun work => { work with state := .WAIT }) work

variable (packetless : work.pubPacket.isSome = false → work.msgInfos = [])

include packetless

theorem deliver_calls {id : MsgId} (held : work.msg = some id)
    : let t := forwardToBridges lib env (fanOut lib.parser (Cb.look { work, world, trace := [] }))
      ∃ sends forwards pid packet state,
        Deliveries (· = id) sends
        ∧ Forwards forwards
        ∧ t.trace = sends ++ forwards
        ∧ t.work = { work with pid, pubPacket := packet, state }
        ∧ packet.isSome = work.pubPacket.isSome
        ∧ Obtains world t 0 := by
  intro t
  obtain ⟨sends, pid, packet, deliveries, fanTrace, fanWork, samePacket, fanSame⟩ :=
    fanOut_deliveries_of (s := Cb.look { work, world, trace := [] }) lib.parser held
      fun missing => packetless (congrArg Option.isSome missing)
  obtain ⟨forwards, state, bridges, trace, workAfter, worldAfter⟩ :=
    forwardToBridges_forwarded lib env (fanOut lib.parser (Cb.look { work, world, trace := [] }))
  refine ⟨sends, forwards, pid, packet, state, deliveries, bridges, ?_, ?_, samePacket, ?_⟩
  · exact trace.trans (congrArg (· ++ forwards) fanTrace)
  · rw [workAfter, fanWork]
    rfl
  · refine ⟨?_, ?_⟩
    · rw [worldAfter]
      exact fanSame.next
    · rw [worldAfter]
      exact fanSame.retained

/-- WAIT. -/
theorem waitState_turn (waiting : work.state = .WAIT)
    (alive : .fatal ∉ (waitState lib env { work, world, trace := [] }).trace)
    : Turn lib env work world (waitState lib env { work, world, trace := [] }) := by
  revert alive
  unfold waitState
  split
  · rename_i publish
    obtain ⟨id, held, type⟩ := Cb.held_of_publish publish
    split
    · exact fun alive => absurd (List.mem_append_right _ List.mem_cons_self) alive
    · intro _
      obtain ⟨sends, forwards, pid, packet, state, deliveries, bridges, trace, after, samePacket,
        obtains⟩ := deliver_calls lib env packetless held
      dsimp only
      generalize forwardToBridges lib env
          (fanOut lib.parser (Cb.look { work, world, trace := [] })) = t
        at trace after obtains
      split
      · refine .delivered waiting held type deliveries bridges ?_ ?_
          ⟨obtains.next, obtains.retained⟩
        · change t.trace ++ [_] = _
          rw [trace]
        · have sent : ((t.setState .SEND).emit .aioFinish).work = { t.work with state := .SEND } :=
            rfl
          rw [sent, after]
          exact {
            entered := rfl
            held
            kept := samePacket
            recipients := packetless
            param := rfl
            role := rfl
            clean := fun _ _ clean => clean
          }
      · have isHeld : t.work.msg = some id := by
          rw [after]
          exact held
        refine .finished (decide (t.work.proto ≠ .MQTT_BROKER)) waiting held type deliveries
          bridges ?_ ?_ ⟨?_, ?_⟩
        · rw [finishPublication_trace, isHeld, trace, List.append_assoc]
          rw [after]
          rfl
        · rw [finishPublication_work, after]
          exact {
            entered := rfl
            held := rfl
            kept := rfl
            recipients := fun _ => rfl
            param := rfl
            role := rfl
            clean := fun _ _ clean => clean
          }
        · exact (congrArg World.nextMsg (Cb.dropMsg_world t)).trans obtains.next
        · exact (congrArg World.retained (Cb.dropMsg_world t)).trans obtains.retained
  · rename_i other
    intro _
    refine .nothingToDo waiting other ?_ ?_ ?_
    · rw [Cb.emit_trace, Cb.setState_trace, Cb.dropMsg_trace]
      rfl
    · change Leaves work
        { (Cb.dropMsg (Cb.look { work, world, trace := [] })).work with state := .RECV } _ _ _ _
      rw [Cb.dropMsg_work]
      exact {
        entered := rfl
        held := rfl
        kept := rfl
        recipients := packetless
        param := rfl
        role := rfl
        clean := fun _ _ clean => clean
      }
    · have same := Cb.dropMsg_world (Cb.look { work, world, trace := [] })
      exact ⟨congrArg World.nextMsg same, congrArg World.retained same⟩

theorem deliverEvent_calls {id : MsgId} (held : work.msg = some id)
    : let cleared :=
        (webhookEntry 0 (fanOut lib.parser (Cb.look { work, world, trace := [] }))).dropMsg
          |>.clearPublication.emit .cparamRead
      ∃ sends hooks flag pid,
        Deliveries (· = id) sends
        ∧ Hooks hooks
        ∧ cleared.trace
          = sends ++ hooks ++ [Effect.msgFree id, Effect.freePubPacket, Effect.cparamRead]
        ∧ cleared.work
          = { work with flag, pid, pubPacket := none, msg := none, msgInfos := [] }
        ∧ Obtains world cleared 0 := by
  intro cleared
  obtain ⟨sends, pid, packet, deliveries, fanTrace, fanWork, _, fanSame⟩ :=
    fanOut_deliveries_of (s := Cb.look { work, world, trace := [] }) lib.parser held
      fun missing => packetless (congrArg Option.isSome missing)
  let delivered := fanOut lib.parser (Cb.look { work, world, trace := [] })
  obtain ⟨hooks, reports, hookTrace⟩ := webhookEntry_hooks 0 delivered
  obtain ⟨flag, hookWork⟩ := webhookEntry_work 0 delivered
  have hookWorld := webhookEntry_world 0 delivered
  have dropTrace
      : (webhookEntry 0 delivered).dropMsg.trace = sends ++ hooks ++ [Effect.msgFree id] := by
    rw [Cb.dropMsg_trace, hookTrace, hookWork, fanTrace, fanWork]
    change _ ++ freeHeld work.msg = _
    rw [held]
    rfl
  refine ⟨sends, hooks, flag, pid, deliveries, reports, ?_, ?_, ?_, ?_⟩
  · change ((webhookEntry 0 delivered).dropMsg.trace ++ [_]) ++ [_] = _
    rw [dropTrace]
    simp only [List.append_assoc, List.cons_append, List.nil_append]
  · change { (webhookEntry 0 delivered).dropMsg.work with pubPacket := none, msgInfos := [] } = _
    rw [Cb.dropMsg_work, hookWork, fanWork]
    rfl
  · change (webhookEntry 0 delivered).dropMsg.world.nextMsg = _
    rw [Cb.dropMsg_world, hookWorld]
    exact fanSame.next
  · change (webhookEntry 0 delivered).dropMsg.world.retained = _
    rw [Cb.dropMsg_world, hookWorld]
    exact fanSame.retained

/-- END, where a disconnect event is held. -/
theorem endState_turn (ending : work.state = .END)
    (publish : Cb.heldType { work, world, trace := [] } = PUBLISH)
    (alive : .fatal ∉ (endState lib env { work, world, trace := [] }).trace)
    : Turn lib env work world (endState lib env { work, world, trace := [] }) := by
  obtain ⟨id, held, type⟩ := Cb.held_of_publish publish
  obtain ⟨sends, hooks, flag, pid, deliveries, reports, trace, after, obtains⟩ :=
    @deliverEvent_calls lib work world packetless id held
  revert alive
  unfold endState
  rw [if_pos publish]
  split
  · exact fun alive => absurd (List.mem_append_right _ List.mem_cons_self) alive
  · intro _
    dsimp only at trace after obtains ⊢
    generalize Cb.emit _ .cparamRead = cleared at trace after obtains ⊢
    have sameParam : cleared.work.cparam = work.cparam := by
      rw [after]
    have sameNext : cleared.world.nextMsg = world.nextMsg := obtains.next
    split
    · rename_i flagged
      obtain ⟨handled, attached, msgInfos, packet, will, handles, attaches, willTrace, willWork,
        next, composed, willType⟩ := publishWill_calls lib env cleared
      rw [sameNext, obtains.retained] at handles
      rw [sameParam] at flagged
      rw [sameNext, after] at willWork
      have willParam : (publishWill lib env cleared).work.cparam = work.cparam := by
        rw [willWork]
      refine .willPublished ending held deliveries reports flagged handles attaches ?_ ?_ composed
        willType (next.trans (congrArg (· + 1) sameNext))
      · change (publishWill lib env cleared).trace
          ++ [Effect.connParamFree (publishWill lib env cleared).work.cparam] = _
        rw [willTrace, trace, willParam]
        simp only [List.append_assoc, List.cons_append, List.nil_append]
      · change Leaves work (publishWill lib env cleared).work _ _ _ _
        rw [willWork]
        exact {
          entered := rfl
          held := rfl
          kept := rfl
          recipients := nofun
          param := rfl
          role := rfl
          clean := fun _ _ clean => clean
        }
    · rename_i unflagged
      rw [sameParam] at unflagged
      refine .ended (decide (cleared.work.proto ≠ .MQTT_BROKER)) ending held deliveries reports
        (Bool.not_eq_true _ ▸ unflagged) ?_ ?_ ⟨obtains.next, obtains.retained⟩
      · change (cleared.trace ++ [_]) ++ [Effect.connParamFree cleared.work.cparam] = _
        rw [trace, sameParam]
        simp only [List.append_assoc, List.cons_append, List.nil_append]
        rfl
      · change Leaves work { cleared.work with state := .RECV } _ _ _ _
        rw [after]
        exact {
          entered := rfl
          held := rfl
          kept := rfl
          recipients := fun _ => rfl
          param := rfl
          role := rfl
          clean := fun _ _ clean => clean
        }

theorem closeState_turn (closing : work.state = .CLOSE)
    : Turn lib env work world (closeState lib { work, world, trace := [] }) := by
  let disconnect := (lib.dismsgComposer work.code).setPipe work.pid
  let composed := Cb.received work world disconnect
  have dropWork := Cb.dropMsg_work composed
  have dropWorld := Cb.dropMsg_world composed
  have contents : composed.dropMsg.world.msgs world.nextMsg = disconnect := by
    rw [dropWorld]
    exact Cb.alloc_self _ disconnect
  refine .closed disconnect closing ?_ ?_ rfl ⟨?_, ?_⟩
  · change (composed.dropMsg.trace
      ++ [Effect.ctxSend false world.nextMsg (composed.dropMsg.world.msgs world.nextMsg)])
      ++ [_] = _
    rw [Cb.dropMsg_trace, contents, List.append_assoc]
    rfl
  · change Leaves work
      { composed.dropMsg.work with
        msg := some world.nextMsg, code := SUCCESS, state := .RECV } _ _ _ _
    rw [dropWork]
    exact {
      entered := rfl
      held := rfl
      kept := rfl
      recipients := packetless
      param := rfl
      role := rfl
      clean := fun _ _ _ => rfl
    }
  · exact congrArg World.nextMsg dropWorld
  · exact (congrArg World.retained dropWorld).trans rfl

/-- Every activation of a context whose state fits. Witness: one case for each state. -/
theorem serverCb_turn (fits : Cb.Fits { work, world, trace := [] })
    (alive : .fatal ∉ (serverCb lib env work world).trace)
    : Turn lib env work world (serverCb lib env work world) := by
  revert alive
  unfold serverCb
  dsimp only
  cases state : work.state with
  | INIT => exact fun _ => .idle _ (Or.inl state) rfl rfl ⟨rfl, rfl⟩
  | RECV => exact (recvState_receives lib env work world).turn lib env state packetless
  | WAIT => exact waitState_turn lib env packetless state
  | SEND => exact sendState_turn lib env state
  | HOOK => exact fun alive => absurd List.mem_cons_self alive
  | END => exact endState_turn lib env packetless state (fits.ending state).2
  | CLOSE => exact fun _ => closeState_turn lib env packetless state

end OtherStates

-- Runs

/-- A context as `proto_work_init` leaves it. -/
structure Work.Fresh (work : Work) : Prop where
  packet : work.pubPacket = none
  recipients : work.msgInfos = []
  code : work.code = SUCCESS

/-- A context that can be activated: its state fits, and it has recipients only together
with a packet.
-/
structure Ready (work : Work) (world : World) : Prop where
  holds : Holds work world
  recipients : work.pubPacket.isSome = false → work.msgInfos = []

section Ready

variable {lib : Library} {env : Env} {work : Work} {world : World} {t : Cb}

theorem Leaves.emptied {state : WorkState} {held : Option MsgId} {packet : Bool}
    {cparam : ConnParam} (leaves : Leaves work t.work state held packet cparam)
    : t.work.pubPacket.isSome = false → t.work.msgInfos = [] := by
  intro missing
  exact leaves.recipients (leaves.kept.symm.trans missing)

theorem TakesOver.recipients {arrived : World} {id : MsgId} {msg : NngMsg}
    {calls : List Effect} (takes : TakesOver lib env work arrived id msg t calls)
    : t.work.pubPacket.isSome = false → t.work.msgInfos = [] := by
  cases takes with
  | refusedSubscribe _ leaves _ => exact leaves.emptied
  | subscribed _ _ _ leaves _ => exact leaves.emptied
  | unsubscribed _ _ leaves _ => exact leaves.emptied
  | published _ _ _ _ leaves _ _ => exact leaves.emptied
  | refusedPublish _ _ leaves _ => exact leaves.emptied
  | connected _ _ _ _ leaves _ _ => exact leaves.emptied
  | disconnected _ _ _ leaves _ _ => exact leaves.emptied
  | willLeft _ _ _ _ leaves _ _ => exact leaves.emptied
  | ignored _ _ _ _ _ leaves _ _ => exact leaves.emptied

theorem Turn.recipients (before : work.pubPacket.isSome = false → work.msgInfos = [])
    (turn : Turn lib env work world t)
    : t.work.pubPacket.isSome = false → t.work.msgInfos = [] := by
  cases turn with
  | idle _ _ _ after _ =>
      rw [after]
      exact before
  | dropped _ _ _ _ after _ =>
      rw [after]
      exact before
  | rejected _ _ _ _ _ _ _ _ after _ =>
      rw [after]
      exact before
  | takes _ _ _ _ _ _ takes _ => exact takes.recipients
  | delivered _ _ _ _ _ _ leaves _ => exact leaves.emptied
  | finished _ _ _ _ _ _ _ leaves _ => exact leaves.emptied
  | nothingToDo _ _ _ leaves _ => exact leaves.emptied
  | sent _ _ _ _ _ leaves _ => exact leaves.emptied
  | willPublished _ _ _ _ _ _ _ _ leaves _ _ _ => exact leaves.emptied
  | ended _ _ _ _ _ _ _ leaves _ => exact leaves.emptied
  | closed _ _ _ leaves _ _ => exact leaves.emptied

theorem Ready.turn (ready : Ready work world) (permitted : Permitted lib env work world)
    : Turn lib env work world (serverCb lib env work world) :=
  serverCb_turn lib env ready.recipients ready.holds.fits permitted.alive

/-- An activation keeps the contexts ready, next to any invariant of what they share. -/
theorem Ready.preserved {Global : World → List Effect → Prop} {history : List Effect}
    (notifies : lib.NotifiesPublish) (permitted : Permitted lib env work world)
    (ready : Ready work world)
    (globally
      : Global (serverCb lib env work world).world
          (history ++ (serverCb lib env work world).trace))
    : Preserved Global Ready Apart world history work (activate lib env work world) := by
  have preserved := ready.holds.preserved notifies permitted globally
  refine { globally, own := ?_, others := ?_ }
  · exact {
      holds := preserved.own
      recipients := (ready.turn permitted).recipients ready.recipients
    }
  · intro other otherReady apart
    obtain ⟨holds, stillApart⟩ := preserved.others other otherReady.holds apart
    exact ⟨{ holds, recipients := otherReady.recipients }, stillApart⟩

theorem Starts.ready {Index : Type} {first : System Index Work World}
    {Global : World → List Effect → Prop} (starts : Starts first)
    (fresh : ∀ index, (first.locals index).Fresh) (globally : Global first.shared [])
    : Invariant Global Ready Apart first [] := by
  have holds := starts.invariant globally
  exact {
    globally
    own := fun index =>
      { holds := holds.own index, recipients := fun _ => (fresh index).recipients }
    apart := holds.apart
  }

theorem Starts.reachable_ready {Index : Type} [DecidableEq Index]
    {first system : System Index Work World} {history : List Effect} (starts : Starts first)
    (fresh : ∀ index, (first.locals index).Fresh) (notifies : lib.NotifiesPublish)
    (reached : Reach (activate lib) (fun _ => Permitted lib) first system history)
    : Invariant (fun _ _ => True) Ready Apart system history :=
  reached.invariant Apart.symm
    (fun _ _ _ _ _ permitted _ ready => ready.preserved notifies permitted trivial)
    (starts.ready fresh trivial)

end Ready

end NanoMQ
