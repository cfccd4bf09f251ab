import NanoMQ.Broker.Frame
import NanoMQ.Publish.RoundTrip

/-! Everything an activation of `server_cb` can do: it arms the context once, and it hands at
most one message to `handle_pub`, a message that no other context holds.
-/

namespace NanoMQ

open Contexts

-- Arming

/-- One call arms the context, and if it is a receive it is on the context of the role. All
other calls are of the given kinds.
-/
inductive Rearms (mine : MsgId → Prop) (kinds : List EffectKind) (s : Cb) : Cb → Prop
  | intro {armed t : Cb} (arm : Effect) (isArm : arm.kind = .arm)
    (role
      : ∀ extra, arm = .ctxRecv extra → (extra = false ↔ armed.work.proto = .MQTT_BROKER))
    (before : Frame mine kinds s armed) (after : Frame mine kinds (armed.emit arm) t)
    : Rearms mine kinds s t

section Rearms

variable {mine : MsgId → Prop} {kinds : List EffectKind} {s t u : Cb}

theorem Rearms.of_finish (frame : Frame mine kinds s t)
    : Rearms mine kinds s (t.emit .aioFinish) :=
  .intro .aioFinish rfl (fun _ other => nomatch other) frame (.refl _)

theorem Rearms.of_recv (frame : Frame mine kinds s t) : Rearms mine kinds s t.ctxRecv := by
  refine .intro (.ctxRecv _) rfl ?_ frame (.refl _)
  rintro extra ⟨⟩
  rw [decide_eq_false_iff_not, not_not]

theorem Rearms.of_recvOwn (frame : Frame mine kinds s t)
    (broker : t.work.proto = .MQTT_BROKER)
    : Rearms mine kinds s (t.emit (.ctxRecv false)) := by
  refine .intro (.ctxRecv false) rfl ?_ frame (.refl _)
  rintro extra ⟨⟩
  exact ⟨fun _ => broker, fun _ => rfl⟩

theorem Rearms.of_reply (frame : Frame mine kinds s t) (id : MsgId)
    : Rearms mine kinds s (t.ctxSend true id) :=
  .intro (.ctxSend true _ _) rfl (fun _ other => nomatch other) frame (.refl _)

theorem Rearms.after (rearms : Rearms mine kinds s t) (frame : Frame mine kinds t u)
    : Rearms mine kinds s u := by
  obtain ⟨arm, isArm, role, before, after⟩ := rearms
  exact .intro arm isArm role before (after.trans frame)

theorem Frame.rearms (frame : Frame mine kinds s t) (rearms : Rearms mine kinds t u)
    : Rearms mine kinds s u := by
  obtain ⟨arm, isArm, role, before, after⟩ := rearms
  exact .intro arm isArm role (frame.trans before) after

theorem Rearms.widen {wider : MsgId → Prop} {more : List EffectKind}
    (rearms : Rearms mine kinds s t) (owned : ∀ id, mine id → wider id)
    (subset : kinds ⊆ more)
    : Rearms wider more s t := by
  obtain ⟨arm, isArm, role, before, after⟩ := rearms
  exact .intro arm isArm role (before.widen owned subset) (after.widen owned subset)

theorem Rearms.frame (rearms : Rearms mine kinds s t)
    : Frame mine (.arm :: kinds) s t := by
  obtain ⟨arm, isArm, _, before, after⟩ := rearms
  have isMember : arm.kind ∈ EffectKind.arm :: kinds := by
    rw [isArm]
    exact List.mem_cons_self
  have subset : kinds ⊆ .arm :: kinds := List.subset_cons_self _ _
  exact ((before.also subset).emit arm isMember).trans (after.also subset)

end Rearms

-- Publishing

/-- The packet of the context stays as it is, or gets the properties of a will. -/
inductive Attached (s : Cb) : Option (Option (List Property) × Nat) → Cb → Prop
  | nothing : Attached s none s
  | will (properties : Option (List Property)) (propLen : Nat)
    : Attached s (some (properties, propLen)) (s.attachWill properties propLen)

/-- The publication of `s` waits in `t` to be delivered. -/
structure Continues (id : MsgId) (s t : Cb) : Prop where
  waiting : t.work.state = .WAIT ∨ t.work.state = .END
  held : t.work.msg = some id
  msgInfos : t.work.msgInfos = s.work.msgInfos
  pubPacket : t.work.pubPacket = s.work.pubPacket

/-- A version 5 message that `nano_pubmsg_composer` builds. -/
def Library.Composes (lib : Library) (msg : NngMsg) : Prop :=
  ∃ retain qos payload topic clock,
    msg = lib.pubmsgComposer retain qos payload topic MQTT_PROTOCOL_VERSION_v5 clock

/-- One message, not older than `limit`, is handed to `handle_pub`; before and after that
the activation is silent, and an accepted publication waits to be delivered. What is
handled as version 5 comes from the pipe of the context, or is a will.
-/
inductive Publishes (lib : Library) (env : Env) (limit : MsgId) (mine : MsgId → Prop)
    (s : Cb)
    : Cb → Prop
  | intro {start attached t : Cb} {will : Option (Option (List Property) × Nat)} (proto : Nat)
    (id : MsgId) (before : Frame mine [.other, .delivery] s start) (fresh : limit ≤ id)
    (known : id < start.world.nextMsg) (held : start.work.msg = some id)
    (version : SameVersion (start.world.msgs id).cmdType proto)
    (attach : Attached (handlePub lib env proto id start).2 will attached)
    (after : Rearms (start.world.nextMsg ≤ ·) [.other, .storing] attached t)
    (continues
      : (handlePub lib env proto id start).1 = SUCCESS → Continues id attached t)
    (origin
      : proto = MQTT_PROTOCOL_VERSION_v5
        → start.work.pid = (start.world.msgs id).pipe
          ∨ ∃ will, lib.Composes will ∧ start.world.msgs id = will.setCmdType .PUBLISH_V5)
    : Publishes lib env limit mine s t

/-- An activation that goes on: it publishes or it does not. -/
inductive Activates (lib : Library) (env : Env) (limit : MsgId) (mine : MsgId → Prop)
    (s t : Cb)
    : Prop
  | quiet (rearms : Rearms mine [.other, .delivery, .storing] s t)
  | publishes (publishes : Publishes lib env limit mine s t)

section Activates

variable {lib : Library} {env : Env} {limit : MsgId} {mine : MsgId → Prop} {s t u : Cb}

theorem Frame.publishes (frame : Frame mine [.other, .delivery] s t)
    (publishes : Publishes lib env limit mine t u)
    : Publishes lib env limit mine s u := by
  obtain ⟨proto, id, before, fresh, known, held, version, attach, after, continues, origin⟩ :=
    publishes
  exact .intro proto id (frame.trans before) fresh known held version attach after continues
    origin

theorem Activates.silent (rearms : Rearms mine [.other, .delivery] s t)
    : Activates lib env limit mine s t :=
  .quiet (rearms.widen (fun _ => id) (by decide))

theorem Frame.activates (frame : Frame mine [.other, .delivery] s t)
    (activates : Activates lib env limit mine t u)
    : Activates lib env limit mine s u := by
  cases activates with
  | quiet rearms => exact .quiet ((frame.also (by decide)).rearms rearms)
  | publishes publishes => exact .publishes (frame.publishes publishes)

theorem Attached.frame {kinds : List EffectKind} {will : Option (Option (List Property) × Nat)}
    (attach : Attached t will u) (handling : .handling ∈ kinds)
    : Frame mine kinds t u := by
  cases attach with
  | nothing => exact .refl t
  | will properties propLen =>
      refine Frame.setWork ?_ (by rfl) (by rfl)
      exact (Frame.refl t).emit (.willProperties properties propLen) handling

theorem Publishes.emit (publishes : Publishes lib env limit mine s t) (effect : Effect)
    (other : effect.kind = .other)
    : Publishes lib env limit mine s (t.emit effect) := by
  obtain ⟨proto, id, before, fresh, known, held, version, attach, after, continues, origin⟩ :=
    publishes
  have isMember : effect.kind ∈ [EffectKind.other, .storing] := by
    rw [other]
    exact List.mem_cons_self
  refine .intro proto id before fresh known held version attach
    (after.after ((Frame.refl t).emit effect isMember)) ?_ origin
  intro success
  exact { continues success with }

theorem Publishes.rearms (publishes : Publishes lib env limit mine s t)
    (owned : ∀ id, limit ≤ id → mine id) (limited : limit ≤ s.world.nextMsg)
    : Rearms mine [.other, .delivery, .handling, .storing] s t := by
  obtain ⟨proto, id, before, fresh, known, _, _, attach, after, _⟩ := publishes
  have subset : [EffectKind.other, .delivery] ⊆ [.other, .delivery, .handling, .storing] := by
    decide
  have handled := (before.also subset).handlePub lib env proto (owned id fresh) (by decide)
    (by decide)
  refine (handled.trans (attach.frame (by decide))).rearms ?_
  refine after.widen ?_ (by decide)
  intro other later
  exact owned other (Nat.le_trans limited (Nat.le_trans before.next later))

theorem Activates.rearms (activates : Activates lib env limit mine s t)
    (owned : ∀ id, limit ≤ id → mine id) (limited : limit ≤ s.world.nextMsg)
    : Rearms mine [.other, .delivery, .handling, .storing] s t := by
  cases activates with
  | quiet rearms => exact rearms.widen (fun _ => id) (by decide)
  | publishes publishes => exact publishes.rearms owned limited

end Activates

-- SUBSCRIBE and UNSUBSCRIBE

section Subscribe

variable {lib : Library} {env : Env} {mine : MsgId → Prop} {kinds : List EffectKind}
  {s t : Cb} {id : MsgId} (other : .other ∈ kinds)

include other

theorem refuseSubscribe_rearms (frame : Frame mine kinds s t)
    : Rearms mine kinds s (refuseSubscribe t) :=
  .of_finish ((frame.emit (.connParamFree _) other).setState .CLOSE)

variable (delivery : .delivery ∈ kinds) (storing : .storing ∈ kinds) (isMine : mine id)

include delivery isMine

theorem acknowledgeSubscribe_rearms (frame : Frame mine kinds s t) (packet : TopicPacket)
    (msgRet : List MsgId)
    : Rearms mine kinds s (acknowledgeSubscribe lib env id packet msgRet t) := by
  have encoded := (frame.read [.fields]).setMsg
    (fun msg => encodeSubackMsg lib.parser msg packet t.work.protoVer) isMine
  have retained := encoded.sendRetained env.clock t.work.pid msgRet other delivery
  have marked := retained.setMsg (fun msg => (msg.setCmdType .SUBACK).setPipe t.work.pid)
    isMine
  exact .of_finish ((marked.forget (by rfl) (by rfl)).emit (.ctxSend false _ _) delivery)

include storing

theorem recvSubscribe_rearms : Rearms mine kinds s (recvSubscribe lib env id s) := by
  have start : Frame mine kinds s (s.read [.fields, .contents id]) := (Frame.refl s).read _
  unfold recvSubscribe
  dsimp only
  split
  · exact refuseSubscribe_rearms other (start.setWork (by rfl) (by rfl))
  · split
    · split
      · exact refuseSubscribe_rearms other ((start.setStores storing _).setWork (by rfl) (by rfl))
      · exact acknowledgeSubscribe_rearms other delivery isMine
          ((start.setStores storing _).setWork (by rfl) (by rfl)) _ _
    · split
      · exact refuseSubscribe_rearms other (start.setStores storing _)
      · exact acknowledgeSubscribe_rearms other delivery isMine (start.setStores storing _) _ _

theorem recvUnsubscribe_rearms : Rearms mine kinds s (recvUnsubscribe lib env id s) := by
  have start : Frame mine kinds s (s.emit .cparamRead) := (Frame.refl s).emit _ other
  have read := start.read [.fields, .contents id]
  exact .of_finish ((((read.setStores storing _).setMsg _ isMine).forget (by rfl) (by rfl)).emit
    (.ctxSend false _ _) delivery)

end Subscribe

-- PUBLISH, CONNACK and disconnect events

@[simp]
theorem Cb.freeRetained_work (s : Cb) (old : Option RetainMsg)
    : (s.freeRetained old).work = s.work := by
  unfold Cb.freeRetained
  split <;> rfl

@[simp]
theorem Cb.freeRetained_world (s : Cb) (old : Option RetainMsg)
    : (s.freeRetained old).world = s.world := by
  unfold Cb.freeRetained
  split <;> rfl

theorem handlePubRetain_work (id : MsgId) (packet : PubPacket) (topic : Topic) (s : Cb)
    : (handlePubRetain id packet topic s).work = s.work := by
  unfold handlePubRetain
  split
  · dsimp only
    split
    · rw [Cb.freeRetained_work]
      split <;> rfl
    · exact Cb.freeRetained_work _ _
  · rfl

theorem handlePubRetain_msg (id : MsgId) (packet : PubPacket) (topic : Topic) (s : Cb)
    : ∃ properties,
        (handlePubRetain id packet topic s).world.msgs id
        = (s.world.msgs id).protoSetProperty properties := by
  unfold handlePubRetain
  split
  · dsimp only
    split
    · rw [Cb.freeRetained_world]
      split
      · exact ⟨packet.publish.properties,
          Cb.setMsg_self s id (·.protoSetProperty packet.publish.properties)⟩
      · exact ⟨_, rfl⟩
    · rw [Cb.freeRetained_world]
      exact ⟨_, rfl⟩
  · exact ⟨_, rfl⟩

theorem handlePub_work (lib : Library) (env : Env) (proto : Nat) (id : MsgId) (s : Cb)
    : ∃ msgInfos pubPacket,
        (handlePub lib env proto id s).2.work = { s.work with msgInfos, pubPacket } := by
  unfold handlePub routePub
  dsimp only
  split
  · exact ⟨_, _, rfl⟩
  · split
    · exact ⟨_, _, rfl⟩
    · exact ⟨_, _, handlePubRetain_work _ _ _ _⟩

theorem handlePub_msg (lib : Library) (env : Env) (proto : Nat) (id : MsgId) (s : Cb)
    : ∃ properties,
        (handlePub lib env proto id s).2.world.msgs id
        = (s.world.msgs id).protoSetProperty properties := by
  unfold handlePub routePub
  dsimp only
  generalize (decodePubMessage lib.parser env.stray (s.world.msgs id) .zeroed proto).value
    = decoded
  split
  · exact ⟨_, rfl⟩
  · obtain ⟨aliases, resolved⟩ := resolveTopic_world s.world s.work.pid proto decoded.2
    have sameMsgs : (resolveTopic s.world s.work.pid proto decoded.2).world.msgs
        = s.world.msgs := by
      rw [resolved]
    split
    · exact ⟨_, congrFun sameMsgs id⟩
    · rw [← sameMsgs]
      exact handlePubRetain_msg _ _ _ _

section Publish

variable {lib : Library} {env : Env} {mine : MsgId → Prop} {s : Cb} {id : MsgId}

theorem handlePub_held {start : Cb} {proto : Nat} (held : start.work.msg = some id)
    : (handlePub lib env proto id start).2.work.msg = some id := by
  obtain ⟨_, _, work⟩ := handlePub_work lib env proto id start
  rw [work]
  exact held

theorem enterWait_continues {s : Cb} (held : s.work.msg = some id)
    : Continues id s (enterWait s) :=
  { waiting := Or.inl rfl, held, msgInfos := rfl, pubPacket := rfl }

theorem enterWait_rearms {kinds : List EffectKind} {t : Cb} (frame : Frame mine kinds s t)
    : Rearms mine kinds s (enterWait t) :=
  .of_finish (frame.setState .WAIT)

theorem sameVersion_ite (proto : Nat)
    : SameVersion
        (if proto = MQTT_PROTOCOL_VERSION_v5 then CmdType.PUBLISH_V5 else CmdType.PUBLISH)
        proto := by
  unfold SameVersion
  split
  · rename_i v5
    exact ⟨fun _ => v5, fun _ => rfl⟩
  · rename_i older
    exact ⟨fun marked => (nomatch marked), fun v5 => absurd v5 older⟩

theorem sameVersion_v311
    : SameVersion .PUBLISH MQTT_PROTOCOL_VERSION_v311 := by
  unfold SameVersion
  decide

theorem settlePublish_rearms (code : ReasonCode)
    (fresh : ∀ id, s.world.nextMsg ≤ id → mine id)
    : Rearms mine [.other, .storing] s (settlePublish lib code s) := by
  have start : Frame mine [.other, .storing] s
      ((s.read [.fields]).setWork { s.work with code }) :=
    ((Frame.refl s).read _).setWork (by rfl) (by rfl)
  unfold settlePublish
  dsimp only
  split
  · exact .of_reply ((start.alloc _ fresh).setState _) _
  · exact .of_reply ((start.alloc _ fresh).setState _) _
  · split
    · exact enterWait_rearms start
    · exact .of_finish (start.setState .SEND)
  · split
    · exact enterWait_rearms start
    · have freed := (start.setState .CLOSE).emit .freePubPacket List.mem_cons_self
      refine .of_finish (Frame.emit ?_ (.connParamFree _) List.mem_cons_self)
      exact freed.setWork (by rfl) (by rfl)

theorem settlePublish_continues (held : s.work.msg = some id)
    : Continues id s (settlePublish lib SUCCESS s) := by
  unfold settlePublish
  dsimp only
  split
  · exact { waiting := Or.inl rfl, held, msgInfos := rfl, pubPacket := rfl }
  · exact { waiting := Or.inl rfl, held, msgInfos := rfl, pubPacket := rfl }
  · exact { waiting := Or.inl rfl, held, msgInfos := rfl, pubPacket := rfl }
  · exact { waiting := Or.inl rfl, held, msgInfos := rfl, pubPacket := rfl }

theorem settleDisconnect_rearms : Rearms mine [.other, .storing] s (settleDisconnect s) := by
  have start : Frame mine [.other, .storing] s
      (((s.read [.fields]).setWorld
        { s.world with stores := disconnectClient s.work.pid s.world.stores }).emit
        .cparamRead) :=
    (((Frame.refl s).read _).setStores (by decide) _).emit .cparamRead List.mem_cons_self
  unfold settleDisconnect
  dsimp only
  split
  · exact .of_finish (start.setState .END)
  · exact enterWait_rearms (start.emit (.connParamFree _) List.mem_cons_self)

theorem settleDisconnect_continues (held : s.work.msg = some id)
    : Continues id s (settleDisconnect s) := by
  unfold settleDisconnect
  dsimp only
  split
  · exact { waiting := Or.inr rfl, held, msgInfos := rfl, pubPacket := rfl }
  · exact { waiting := Or.inl rfl, held, msgInfos := rfl, pubPacket := rfl }

theorem other_mem : EffectKind.other ∈ [EffectKind.other, .delivery] := by decide

theorem delivery_mem : EffectKind.delivery ∈ [EffectKind.other, .delivery] := by decide

variable {limit : MsgId} (limited : limit ≤ s.world.nextMsg)
  (owned : ∀ other, limit ≤ other → mine other)

include limited owned

/-- A connection is announced by a notification of its own. -/
theorem recvConnack_publishes
    : Publishes lib env limit mine s (recvConnack lib env id s) := by
  unfold recvConnack
  dsimp only
  generalize Reading.Buffer.byteAt _ 1 = reason
  have start : Frame mine [.other, .delivery] s ((s.read [.contents id]).read [.fields]) :=
    ((Frame.refl s).read _).read _
  have passed
      : Frame mine [.other, .delivery] s
          ((passConnack id (s.read [.contents id])).emit .cparamRead) := by
    unfold passConnack
    split
    · exact (((start.setPipe _ _).emit (.msgClone id) other_mem).emit
        (.ctxSend false _ _) delivery_mem).emit .cparamRead other_mem
    · exact start.emit .cparamRead other_mem
  generalize (passConnack id (s.read [.contents id])).emit .cparamRead = sent at passed
  have fresh := Nat.le_trans limited passed.next
  have announced := passed.alloc
    ((lib.msgNotifyConnect sent.work.cparam reason).setCmdType .PUBLISH)
    fun later atLeast => owned later (Nat.le_trans limited atLeast)
  have known : sent.world.nextMsg < (webhookEntry reason (sent.alloc
      ((lib.msgNotifyConnect sent.work.cparam reason).setCmdType .PUBLISH))).world.nextMsg := by
    rw [webhookEntry_world]
    exact Nat.lt_succ_self _
  refine .intro MQTT_PROTOCOL_VERSION_v311 sent.world.nextMsg
    (((announced.webhookEntry reason other_mem).emit (.msgFree id) other_mem).take
      (owned _ fresh) known (by rfl) (by rfl))
    fresh known rfl ?_ .nothing (enterWait_rearms (.refl _))
    (fun _ => enterWait_continues (handlePub_held rfl)) (fun v5 => nomatch v5)
  change SameVersion ((webhookEntry reason _).world.msgs _).cmdType _
  rw [webhookEntry_world, Cb.alloc_self]
  exact sameVersion_v311

/-- The will is a message of its own as well. -/
theorem publishWill_publishes
    : Publishes lib env limit mine s (publishWill lib env s) := by
  have later : ∀ id, s.world.nextMsg ≤ id → mine id :=
    fun id atLeast => owned id (Nat.le_trans limited atLeast)
  have isMine := owned s.world.nextMsg limited
  have known : s.world.nextMsg < s.world.nextMsg + 1 := Nat.lt_succ_self _
  have read : Frame mine [.other, .delivery] s (s.emit .cparamRead) :=
    (Frame.refl s).emit .cparamRead (by decide)
  unfold publishWill
  dsimp only
  split
  · rename_i v5
    refine .intro MQTT_PROTOCOL_VERSION_v5 s.world.nextMsg
      (((read.alloc _ later).take isMine known (by rfl) (by rfl)).setMsg _ isMine)
      limited known rfl ?_ (.will _ _) (enterWait_rearms (.refl _))
      (fun _ => enterWait_continues (handlePub_held rfl)) (fun _ => Or.inr ?_)
    · rw [Cb.setMsg_self]
      exact ⟨fun _ => rfl, fun _ => rfl⟩
    · rw [Cb.setMsg_self]
      refine ⟨lib.pubmsgComposer s.work.cparam.willRetain s.work.cparam.willQos
        s.work.cparam.willMsg s.work.cparam.willTopic s.work.cparam.protover env.clock,
        ⟨_, _, _, _, _, by rw [v5]⟩, ?_⟩
      exact congrArg (·.setCmdType .PUBLISH_V5) (Cb.alloc_self _ _)
  · refine .intro MQTT_PROTOCOL_VERSION_v311 s.world.nextMsg
      (((read.alloc _ later).take isMine known (by rfl) (by rfl)).setMsg _ isMine)
      limited known rfl ?_ .nothing (enterWait_rearms (.refl _))
      (fun _ => enterWait_continues (handlePub_held rfl)) (fun v5 => nomatch v5)
    rw [Cb.setMsg_self]
    exact sameVersion_v311

omit limited

variable (held : s.work.msg = some id) (fresh : limit ≤ id) (known : id < s.world.nextMsg)

include held fresh known

theorem recvPublish_publishes (own : s.work.pid = (s.world.msgs id).pipe)
    : Publishes lib env limit mine s (recvPublish lib env id s) := by
  have isMine := owned id fresh
  let cmdType :=
    if s.work.protoVer = MQTT_PROTOCOL_VERSION_v5 then CmdType.PUBLISH_V5
    else CmdType.PUBLISH
  let start := (s.read [.fields]).setMsg id (·.setCmdType cmdType)
  have handled : Frame mine [.other, .handling] start _ :=
    (Frame.refl start).handlePub lib env s.work.protoVer isMine (by decide) (by decide)
  have before : Frame mine [.other, .delivery] s start :=
    ((Frame.refl s).read _).setMsg (·.setCmdType cmdType) isMine
  refine .intro s.work.protoVer id before fresh known held ?_ .nothing ?_ ?_
    (fun _ => Or.inl ?_)
  · rw [Cb.setMsg_self]
    exact sameVersion_ite s.work.protoVer
  · exact settlePublish_rearms _ fun other later => Nat.le_trans handled.next later
  · intro success
    change Continues id _
      (settlePublish lib (handlePub lib env s.work.protoVer id start).1 _)
    rw [success]
    exact settlePublish_continues (handlePub_held held)
  · rw [Cb.setMsg_self]
    exact own

theorem recvDisconnect_publishes
    : Publishes lib env limit mine s (recvDisconnect lib env id s) := by
  have isMine := owned id fresh
  let start := ((webhookEntry 0 s).setMsg id (·.setCmdType .PUBLISH)).setWork
    { (webhookEntry 0 s).work with flag := .PUBLISH }
  have before : Frame mine [.other, .delivery] s start :=
    (((Frame.refl s).webhookEntry 0 other_mem).setMsg _ isMine).setWork rfl rfl
  have startHeld : start.work.msg = some id := by
    obtain ⟨_, work⟩ := webhookEntry_work 0 s
    change (webhookEntry 0 s).work.msg = some id
    rw [work]
    exact held
  refine .intro MQTT_PROTOCOL_VERSION_v311 id before fresh ?_ startHeld ?_ .nothing
    settleDisconnect_rearms (fun _ => settleDisconnect_continues (handlePub_held startHeld))
    (fun v5 => nomatch v5)
  · change id < (webhookEntry 0 s).world.nextMsg
    rw [webhookEntry_world]
    exact known
  · change SameVersion
      (((webhookEntry 0 s).setMsg id (·.setCmdType .PUBLISH)).world.msgs id).cmdType _
    rw [Cb.setMsg_self]
    exact sameVersion_v311

end Publish

-- Whole activations

section Whole

variable {lib : Library} {env : Env} {limit : MsgId} {mine : MsgId → Prop} {s : Cb}
  {id : MsgId} (owned : ∀ other, limit ≤ other → mine other)

include owned

theorem recvMsg_activates (fresh : limit ≤ id) (known : id < s.world.nextMsg)
    : Activates lib env limit mine s (recvMsg lib env id s) := by
  have adopted : Frame mine [.other, .delivery] s (s.adopt id) :=
    (((Frame.refl s).read _).emit .cparamRead (by decide)).take (owned id fresh) known
      (by rfl) rfl
  have limited : limit ≤ s.world.nextMsg := Nat.le_trans fresh (Nat.le_of_lt known)
  unfold recvMsg
  split
  · exact adopted.activates (.quiet
      (recvSubscribe_rearms (by decide) (by decide) (by decide) (owned id fresh)))
  · exact adopted.activates (.quiet
      (recvUnsubscribe_rearms (by decide) (by decide) (by decide) (owned id fresh)))
  · exact .publishes (adopted.publishes (recvPublish_publishes owned rfl fresh known rfl))
  · exact .publishes (adopted.publishes (recvConnack_publishes limited owned))
  · exact .publishes (adopted.publishes (recvDisconnect_publishes owned rfl fresh known))
  · exact .silent (enterWait_rearms adopted)

theorem recvBridge_activates (fresh : limit ≤ id) (known : id < s.world.nextMsg)
    : Activates lib env limit mine s (recvBridge lib env id s) := by
  have start : Frame mine [.other, .delivery] s (s.read [.contents id]) := (Frame.refl s).read _
  unfold recvBridge
  dsimp only
  split
  · exact (start.setMsg _ (owned id fresh)).activates (recvMsg_activates owned fresh known)
  · split
    · exact ((start.setMsg _ (owned id fresh)).emit (.connParamClone _) other_mem).activates
        (recvMsg_activates owned fresh known)
    · exact .silent (.of_recv ((start.read _).emit (.msgFree id) other_mem))

theorem recvInproc_activates (limited : limit ≤ s.world.nextMsg)
    : Activates lib env limit mine s (recvInproc lib env id s) := by
  have start : Frame mine [.other, .delivery] s (s.read [.contents id]) := (Frame.refl s).read _
  have obtained := (start.emit (.msgFree id) other_mem).alloc
    (decodeCommonMqttMsg lib env.freshCparam env.stray (s.world.msgs id)).value
    fun later atLeast => owned later (Nat.le_trans limited atLeast)
  have unpacked := obtained.read [.contents s.world.nextMsg]
  unfold recvInproc
  dsimp only
  split
  · exact (unpacked.setMsg _ (owned _ limited)).activates
      (recvMsg_activates owned limited (Nat.lt_succ_self _))
  · exact .silent (.of_recv ((unpacked.emit (.connParamFree _) other_mem).read _))

/-- A context in RECV that does not end the process goes on. -/
theorem recvState_activates (limited : limit ≤ s.world.nextMsg)
    (alive : .fatal ∉ (recvState lib env s).trace)
    : Activates lib env limit mine s (recvState lib env s) := by
  have start : Frame mine [.other, .delivery] s (s.read [.fields]) := (Frame.refl s).read _
  revert alive
  unfold recvState
  split
  · exact fun _ => .silent (.of_recv start)
  · cases env.aioMsg with
    | none => exact fun alive => absurd (List.mem_append_right _ List.mem_cons_self) alive
    | some msg =>
        intro _
        have received := start.alloc msg
          fun later atLeast => owned later (Nat.le_trans limited atLeast)
        have known : s.world.nextMsg < s.world.nextMsg + 1 := Nat.lt_succ_self _
        dsimp only
        split
        · exact received.activates (recvMsg_activates owned limited known)
        · exact received.activates (recvBridge_activates owned limited known)
        · exact received.activates
            (recvInproc_activates owned (Nat.le_succ_of_le limited))
        · exact received.activates
            (recvInproc_activates owned (Nat.le_succ_of_le limited))

omit owned

variable (isMine : ∀ held, s.work.msg = some held → mine held)

include isMine

/-- Only a broker may hold anything but a PUBLISH here. -/
theorem waitState_activates (role : s.heldType ≠ PUBLISH → s.work.proto = .MQTT_BROKER)
    (alive : .fatal ∉ (waitState lib env s).trace)
    : Activates lib env limit mine s (waitState lib env s) := by
  have start : Frame mine [.other, .delivery] s s.look := (Frame.refl s).read _
  revert alive
  unfold waitState
  split
  · split
    · exact fun alive => absurd (List.mem_append_right _ List.mem_cons_self) alive
    · intro _
      have forwarded := (start.fanOut lib.parser isMine other_mem delivery_mem).forwardToBridges
        lib env other_mem
      dsimp only
      split
      · exact .silent (.of_finish (forwarded.setState .SEND))
      · exact .silent (.of_recv (((((forwarded.dropMsg other_mem).emit (.connParamFree _)
          other_mem).clearPublication other_mem).setState .RECV)))
  · rename_i notPublish
    intro _
    have dropped := (start.dropMsg other_mem).setState .RECV
    exact .silent (.of_recvOwn dropped (dropped.proto.trans (role notPublish)))

/-- Only a PUBLISH may be held here; anything else would leave the context unarmed. -/
theorem endState_activates (limited : limit ≤ s.world.nextMsg)
    (owned : ∀ other, limit ≤ other → mine other) (publish : s.heldType = PUBLISH)
    (alive : .fatal ∉ (endState lib env s).trace)
    : Activates lib env limit mine s (endState lib env s) := by
  have start : Frame mine [.other, .delivery] s s.look := (Frame.refl s).read _
  revert alive
  unfold endState
  rw [if_pos publish]
  split
  · exact fun alive => absurd (List.mem_append_right _ List.mem_cons_self) alive
  · intro _
    have hooked := (start.fanOut lib.parser isMine other_mem delivery_mem).webhookEntry 0 other_mem
    have cleared := ((hooked.dropMsg other_mem).clearPublication other_mem).emit .cparamRead
      other_mem
    dsimp only
    split
    · exact .publishes ((cleared.publishes (publishWill_publishes
        (Nat.le_trans limited cleared.next) owned)).emit (.connParamFree _) rfl)
    · exact .silent ((Rearms.of_recv (cleared.setState .RECV)).after
        ((Frame.refl _).emit (.connParamFree _) other_mem))

omit isMine

theorem sendState_activates (alive : .fatal ∉ (sendState env s).trace)
    : Activates lib env limit mine s (sendState env s) := by
  have start : Frame mine [.other, .delivery] s (s.read [.fields]) := (Frame.refl s).read _
  revert alive
  unfold sendState
  dsimp only
  generalize ruled : (if s.work.flag = .PUBLISH ∧ s.work.config.ruleEngine then _ else _) = t
  have inserted : Frame mine [.other, .delivery] s t := by
    rw [← ruled]
    split
    · exact start.emit .ruleEngineInsertSql other_mem
    · exact start
  have hooked := (inserted.webhookEntry 0 other_mem).dropMsg other_mem
  split
  · exact fun alive => absurd (List.mem_append_right _ List.mem_cons_self) alive
  · intro _
    split
    · exact .silent (.of_recv (((hooked.clearPublication other_mem).emit (.connParamFree _)
        other_mem).setWork (by rfl) (by rfl)))
    · exact .silent (.of_recv ((hooked.emit (.connParamFree _) other_mem).setWork (by rfl)
        (by rfl)))

theorem closeState_activates (limited : limit ≤ s.world.nextMsg)
    (owned : ∀ other, limit ≤ other → mine other) (broker : s.work.proto = .MQTT_BROKER)
    : Activates lib env limit mine s (closeState lib s) := by
  have start : Frame mine [.other, .delivery] s (s.read [.fields]) := (Frame.refl s).read _
  have dropped := (start.alloc ((lib.dismsgComposer s.work.code).setPipe s.work.pid)
    fun later atLeast => owned later (Nat.le_trans limited atLeast)).dropMsg other_mem
  have known : s.world.nextMsg < ((s.read [.fields]).alloc
      ((lib.dismsgComposer s.work.code).setPipe s.work.pid)).dropMsg.world.nextMsg := by
    rw [Cb.dropMsg_world]
    exact Nat.lt_succ_self _
  have role := dropped.proto.trans broker
  exact .silent (.of_recvOwn ((((dropped.take (owned _ limited) known (by rfl) (by rfl)).read
    _).emit (.ctxSend false _ _) delivery_mem).setWork (by rfl) (by rfl)) role)

end Whole

-- server_cb

/-- What the states rely on: only the broker gets to CLOSE and END, a context in END holds
a PUBLISH, and so does one in WAIT unless it is the broker's.
-/
structure Cb.Fits (s : Cb) : Prop where
  closing : s.work.state = .CLOSE → s.work.proto = .MQTT_BROKER
  ending : s.work.state = .END → s.work.proto = .MQTT_BROKER ∧ s.heldType = PUBLISH
  waiting : s.work.state = .WAIT → s.heldType ≠ PUBLISH → s.work.proto = .MQTT_BROKER

/-- The messages an activation may change: the one the context holds and new ones. -/
def Owned (work : Work) (world : World) (id : MsgId) : Prop :=
  world.nextMsg ≤ id ∨ work.msg = some id

/-- An activation that does not end the process arms the context once, and publishes at most
one message. Witness: the states one by one.
-/
theorem serverCb_activates {lib : Library} {env : Env} {work : Work} {world : World}
    (fits : Cb.Fits { work, world, trace := [] })
    (alive : .fatal ∉ (serverCb lib env work world).trace)
    : Activates lib env world.nextMsg (Owned work world) { work, world, trace := [] }
        (serverCb lib env work world) := by
  have limited : world.nextMsg ≤ world.nextMsg := Nat.le_refl _
  have owned : ∀ other, world.nextMsg ≤ other → Owned work world other := fun _ => Or.inl
  have isMine : ∀ held, work.msg = some held → Owned work world held := fun _ => Or.inr
  revert alive
  unfold serverCb
  dsimp only
  cases state : work.state with
  | INIT => exact fun _ => .silent (.of_recv ((Frame.refl _).setState .RECV))
  | RECV => exact recvState_activates owned limited
  | WAIT => exact waitState_activates isMine (fits.waiting state)
  | SEND => exact sendState_activates
  | HOOK => exact fun alive => absurd List.mem_cons_self alive
  | END => exact endState_activates isMine limited owned (fits.ending state).2
  | CLOSE => exact fun _ => closeState_activates limited owned (fits.closing state)

end NanoMQ
