import NanoMQ.Broker.Reference

/-! Deliveries: what a context that holds a publication sends to the subscribers. -/

namespace NanoMQ

open Contexts

/-- The message of a send on the broker's own context. -/
def Effect.delivered : Effect → Option NngMsg
  | .ctxSend false _ msg => some msg
  | _ => none

/-- The messages sent on the broker's own context, in order. -/
def deliveries (trace : List Effect) : List NngMsg :=
  trace.filterMap Effect.delivered

theorem Effect.delivered_eq_none {effect : Effect} (other : effect.kind ≠ .delivery)
    : effect.delivered = none := by
  cases effect with
  | ctxSend extra id msg =>
      cases extra with
      | false => exact absurd rfl other
      | true => rfl
  | _ => rfl

section Deliveries

variable {mine : MsgId → Prop} {kinds : List EffectKind} {s t : Cb}

theorem Frame.deliveries_eq (frame : Frame mine kinds s t) (silent : .delivery ∉ kinds)
    : deliveries t.trace = deliveries s.trace := by
  apply frame.trace.filterMap_eq
  intro effect member
  apply Effect.delivered_eq_none
  intro delivery
  rw [delivery] at member
  exact silent member

theorem deliveries_emit (s : Cb) (effect : Effect)
    : deliveries (s.emit effect).trace = deliveries s.trace ++ effect.delivered.toList := by
  unfold deliveries Cb.emit
  rw [List.filterMap_append]
  cases sent : effect.delivered <;> simp [sent]

/-- Each recipient gets the message, addressed to it. By induction on the recipients: every
send leaves the message as it was, except for the pipe.
-/
theorem sendToEach_deliveries (id : MsgId) (pipes : List Pid) (s : Cb)
    : deliveries (sendToEach id pipes s).trace
      = deliveries s.trace ++ pipes.map (s.world.msgs id).setPipe := by
  induction pipes generalizing s with
  | nil => exact (List.append_nil _).symm
  | cons pipe rest ih =>
      let addressed := ((s.emit (.msgClone id)).setWork
        { s.work with pid := pipe, msg := some id }).setMsg id (·.setPipe pipe)
      have contents : addressed.world.msgs id = (s.world.msgs id).setPipe pipe :=
        Cb.setMsg_self _ id (·.setPipe pipe)
      have readdressed : ∀ other, (addressed.world.msgs id).setPipe other
          = (s.world.msgs id).setPipe other := by
        intro other
        rw [contents]
        rfl
      have sent : deliveries (addressed.ctxSend false id).trace
          = deliveries s.trace ++ [(s.world.msgs id).setPipe pipe] := by
        have cloned : deliveries addressed.trace = deliveries s.trace ++ [] :=
          deliveries_emit s (.msgClone id)
        rw [Cb.ctxSend, deliveries_emit, cloned, List.append_nil, contents]
        rfl
      calc
        deliveries (sendToEach id (pipe :: rest) s).trace
            = deliveries (addressed.ctxSend false id).trace
              ++ rest.map (addressed.world.msgs id).setPipe := ih _
        _ = deliveries s.trace ++ (pipe :: rest).map (s.world.msgs id).setPipe := by
            rw [sent, List.append_assoc, List.map_congr_left fun other _ => readdressed other]
            rfl

theorem fanOut_deliveries {parser : MqttParser} {id : MsgId} {packet : PubPacket}
    (held : s.work.msg = some id) (pubPacket : s.work.pubPacket = some packet)
    (ok : (encodePublish parser (s.world.msgs id) packet).ok = true)
    : deliveries (fanOut parser s).trace
      = deliveries s.trace
        ++ s.work.msgInfos.map (encodePublish parser (s.world.msgs id) packet).msg.setPipe := by
  unfold fanOut
  rw [held]
  dsimp only
  unfold encodeAndSend
  split
  · rename_i nobody
    rw [nobody]
    exact (List.append_nil _).symm
  · have encoded : encodePubMessage parser (s.world.msgs id) packet PUBLISH
        = encodePublish parser (s.world.msgs id) packet := rfl
    rw [pubPacket, Option.getD_some]
    dsimp only
    rw [encoded, if_pos ok, sendToEach_deliveries]
    exact congrArg
      (fun msg => deliveries s.trace ++ s.work.msgInfos.map (NngMsg.setPipe msg))
      (Cb.setMsg_self s id fun _ => (encodePublish parser (s.world.msgs id) packet).msg)

end Deliveries

-- What follows the deliveries

section After

variable {lib : Library} {env : Env} {mine : MsgId → Prop} {s : Cb}

theorem Frame.publishWill {kinds : List EffectKind} {t : Cb} (frame : Frame mine kinds s t)
    (fresh : ∀ id, s.world.nextMsg ≤ id → mine id) (other : .other ∈ kinds)
    (handling : .handling ∈ kinds) (arm : .arm ∈ kinds)
    : Frame mine kinds s (publishWill lib env t) := by
  have known : t.world.nextMsg < t.world.nextMsg + 1 := Nat.lt_succ_self _
  have isMine := fresh _ frame.next
  have read := frame.emit .cparamRead other
  unfold NanoMQ.publishWill
  dsimp only
  split
  · refine ((Frame.setWork (Frame.emit (Frame.handlePub ?_ lib env _ isMine other handling)
      (.willProperties _ _) handling) (by rfl) (by rfl)).setState .WAIT).emit .aioFinish arm
    exact ((read.alloc _ fresh).take isMine known (by rfl) (by rfl)).setMsg _ isMine
  · refine ((Frame.handlePub ?_ lib env _ isMine other handling).setState .WAIT).emit
      .aioFinish arm
    exact ((read.alloc _ fresh).take isMine known (by rfl) (by rfl)).setMsg _ isMine

theorem waitState_frame (publish : s.heldType = PUBLISH)
    (alive : .fatal ∉ (waitState lib env s).trace)
    : Frame mine [.other, .arm] (fanOut lib.parser s.look) (waitState lib env s) := by
  have other : EffectKind.other ∈ [EffectKind.other, .arm] := by decide
  have arm : EffectKind.arm ∈ [EffectKind.other, .arm] := by decide
  have forwarded : Frame mine [.other, .arm] (fanOut lib.parser s.look)
      (forwardToBridges lib env (fanOut lib.parser s.look)) :=
    (Frame.refl _).forwardToBridges lib env other
  revert alive
  unfold waitState
  rw [if_pos publish]
  split
  · exact fun alive => absurd (List.mem_append_right _ List.mem_cons_self) alive
  · intro _
    dsimp only
    split
    · exact (forwarded.setState .SEND).emit .aioFinish arm
    · exact ((((forwarded.dropMsg other).emit (.connParamFree _) other).clearPublication
        other).setState .RECV).emit (.ctxRecv _) arm

theorem endState_frame (publish : s.heldType = PUBLISH)
    (fresh : ∀ id, (fanOut lib.parser s.look).world.nextMsg ≤ id → mine id)
    (alive : .fatal ∉ (endState lib env s).trace)
    : Frame mine [.other, .arm, .handling] (fanOut lib.parser s.look) (endState lib env s) := by
  have other : EffectKind.other ∈ [EffectKind.other, .arm, .handling] := by decide
  have arm : EffectKind.arm ∈ [EffectKind.other, .arm, .handling] := by decide
  have handling : EffectKind.handling ∈ [EffectKind.other, .arm, .handling] := by decide
  have hooked : Frame mine [.other, .arm, .handling] (fanOut lib.parser s.look)
      (webhookEntry 0 (fanOut lib.parser s.look)) :=
    (Frame.refl _).webhookEntry 0 other
  have cleared := ((hooked.dropMsg other).clearPublication other).emit .cparamRead other
  revert alive
  unfold endState
  rw [if_pos publish]
  split
  · exact fun alive => absurd (List.mem_append_right _ List.mem_cons_self) alive
  · intro _
    dsimp only
    split
    · exact (cleared.publishWill fresh other handling arm).emit (.connParamFree _) other
    · exact ((cleared.setState .RECV).emit (.ctxRecv _) arm).emit (.connParamFree _) other

end After

-- From `handle_pub` to the deliveries

/-- The context waits with a packet for these recipients. -/
structure Awaits (proto : Nat) (pipes : List Pid) (packet : PubPacket) (work : Work)
    (world : World)
    : Prop where
  waiting : work.state = .WAIT ∨ work.state = .END
  msgInfos : work.msgInfos = pipes
  pubPacket : work.pubPacket = some packet
  message
    : ∃ id,
        work.msg = some id
        ∧ (world.msgs id).type = PUBLISH
        ∧ SameVersion (world.msgs id).cmdType proto

section Awaits

variable {lib : Library} {env : Env} {proto : Nat} {pipes : List Pid} {packet : PubPacket}
  {work other : Work} {world : World}

theorem Awaits.bystander (awaits : Awaits proto pipes packet other world)
    (holds : Holds work world) (permitted : Permitted lib env work world)
    (otherHolds : Holds other world) (apart : Apart work other)
    : Awaits proto pipes packet other (serverCb lib env work world).world := by
  obtain ⟨id, held, publish, version⟩ := awaits.message
  obtain ⟨pipe, kept⟩ := holds.bystander permitted otherHolds apart held
  refine { awaits with message := ⟨id, held, ?_, ?_⟩ }
  · rw [kept]
    exact publish
  · rw [kept]
    exact version

theorem Awaits.heldType (awaits : Awaits proto pipes packet work world)
    : Cb.heldType { work, world, trace := [] } = PUBLISH := by
  obtain ⟨id, held, publish, _⟩ := awaits.message
  unfold Cb.heldType
  rw [held]
  exact publish

theorem Awaits.delivered {topic : Topic} (awaits : Awaits proto pipes packet work world)
    (encodable : packet.Encodable lib.parser proto topic)
    (payloadShort : packet.payload.len < 2 ^ 32)
    (alive : .fatal ∉ (serverCb lib env work world).trace)
    : let sent := deliveries (serverCb lib env work world).trace
      sent.map NngMsg.pipe = pipes
      ∧ ∀ msg ∈ sent, ∀ stray,
          let decoded := (decodePubMessage lib.parser stray msg .zeroed proto).value
          decoded.1 = SUCCESS ∧ PubPacket.SameContent proto packet decoded.2 := by
  obtain ⟨id, held, _, version⟩ := awaits.message
  let s : Cb := { work, world, trace := [] }
  have ok : (encodePublish lib.parser (world.msgs id) packet).ok = true := by
    obtain ⟨_, _, _, _, _, ok, _⟩ := encodable.encoded version
    exact ok
  have sent : deliveries (serverCb lib env work world).trace
      = pipes.map (encodePublish lib.parser (world.msgs id) packet).msg.setPipe := by
    have fanned : deliveries (fanOut lib.parser s.look).trace
        = [] ++ work.msgInfos.map (encodePublish lib.parser (world.msgs id) packet).msg.setPipe :=
      fanOut_deliveries held awaits.pubPacket ok
    rw [awaits.msgInfos, List.nil_append] at fanned
    rw [← fanned]
    rcases awaits.waiting with state | state
    · rw [serverCb_of_wait state] at alive ⊢
      have rest : Frame (fun _ => True) [.other, .arm] _ _ :=
        waitState_frame awaits.heldType alive
      exact rest.deliveries_eq (by decide)
    · rw [serverCb_of_end state] at alive ⊢
      have rest : Frame (fun _ => True) [.other, .arm, .handling] _ _ :=
        endState_frame awaits.heldType (fun _ _ => trivial) alive
      exact rest.deliveries_eq (by decide)
  dsimp only
  rw [sent]
  refine ⟨?_, ?_⟩
  · rw [List.map_map]
    exact List.map_id _
  · intro msg member stray
    obtain ⟨pipe, _, rfl⟩ := List.mem_map.mp member
    exact encodable.decoded stray version payloadShort

theorem Awaits.meanwhile {Index : Type} [DecidableEq Index] {index : Index}
    {system after : System Index Work World} {later : List Effect}
    (awaits : Awaits proto pipes packet (system.locals index) system.shared)
    (notifies : lib.NotifiesPublish)
    (invariant : Invariant (fun _ (_ : List Effect) => True) Holds Apart system [])
    (others
      : Reach (activate lib)
          (fun other env work world => other ≠ index ∧ Permitted lib env work world)
          system after later)
    : Awaits proto pipes packet (after.locals index) after.shared := by
  let Waits : World → Prop := Awaits proto pipes packet (system.locals index)
  have untouched : after.locals index = system.locals index ∧ Waits after.shared := by
    refine others.bystander Apart.symm ?_ invariant ?_ ?_ awaits
    · intro _ _ _ _ _ permitted _ holds
      exact holds.preserved notifies permitted.2 trivial
    · intro _ _ _ _ permitted
      exact permitted.1
    · intro _ _ _ _ permitted holds otherHolds apart waits
      exact Awaits.bystander waits holds permitted.2 otherHolds apart
  rw [untouched.1]
  exact untouched.2

end Awaits

/-- The properties that a will attaches to its packet. -/
def Effect.will : Effect → Option (Option (List Property) × Nat)
  | .willProperties properties propLen => some (properties, propLen)
  | _ => none

/-- A packet with the properties of a will, if there are any. -/
def PubPacket.attach (packet : PubPacket) : Option (Option (List Property) × Nat) → PubPacket
  | none => packet
  | some (properties, propLen) => packet.setProperties properties propLen

/-- What the subscribers are meant to get from an activation that routes a packet to this
topic: properties of a will take the place of its own.
-/
def publication (decoded : PubPacket) (topic : Topic) (trace : List Effect) : PubPacket :=
  (decoded.setTopicName { body := some topic, len := topic.length }).attach
    (trace.findSome? Effect.will)

theorem publication_topicName (decoded : PubPacket) (topic : Topic) (trace : List Effect)
    : (publication decoded topic trace).publish.topicName
      = { body := some topic, len := topic.length } := by
  unfold publication
  cases trace.findSome? Effect.will <;> rfl

/-- The calls of `handle_pub_retain` concern message objects only. -/
theorem handlePubRetain_trace (id : MsgId) (packet : PubPacket) (topic : Topic) (s : Cb)
    : Grows (fun effect => effect.kind = .other) s.trace
        (handlePubRetain id packet topic s).trace := by
  have freed : ∀ (t : Cb) old,
      Grows (fun effect => effect.kind = .other) t.trace (t.freeRetained old).trace := by
    intro t old
    cases old with
    | none => exact .refl _
    | some entry =>
        exact ⟨[.msgFree entry.message], rfl, List.forall_mem_singleton.mpr rfl⟩
  unfold handlePubRetain
  split
  · dsimp only
    split
    · refine Grows.trans ⟨[.msgClone id], rfl, List.forall_mem_singleton.mpr rfl⟩ ?_
      split
      · exact freed _ _
      · exact freed _ _
    · exact freed _ _
  · exact .refl _

theorem Effect.will_eq_none {effect : Effect} (other : effect.kind ≠ .handling)
    : effect.will = none := by
  cases effect with
  | willProperties properties propLen => exact absurd rfl other
  | _ => rfl

theorem Frame.will_eq {mine : MsgId → Prop} {kinds : List EffectKind} {s t : Cb}
    (frame : Frame mine kinds s t) (silent : .handling ∉ kinds)
    : t.trace.findSome? Effect.will = s.trace.findSome? Effect.will := by
  apply frame.trace.findSome_eq
  intro effect member
  apply Effect.will_eq_none
  intro handling
  rw [handling] at member
  exact silent member

theorem Frame.handling_mem {mine : MsgId → Prop} {kinds : List EffectKind} {s t : Cb}
    {effect : Effect} (frame : Frame mine kinds s t) (silent : .handling ∉ kinds)
    (handling : effect.kind = .handling) (member : effect ∈ t.trace)
    : effect ∈ s.trace := by
  apply frame.trace.mem_of_mem member
  rw [handling]
  exact silent

theorem Frame.handling_not_mem {mine : MsgId → Prop} {kinds : List EffectKind} {s t : Cb}
    (frame : Frame mine kinds s t) (quiet : .handling ∉ kinds) (silent : s.trace = [])
    : ∀ effect ∈ t.trace, effect.kind ≠ .handling := by
  intro effect member handling
  have fromStart := frame.handling_mem quiet handling member
  rw [silent] at fromStart
  exact List.not_mem_nil fromStart

theorem Attached.handlePub_mem {will : Option (Option (List Property) × Nat)} {s t : Cb}
    {proto : Nat} {msg : NngMsg} {packet : PubPacket} {code : ReasonCode}
    {routed : Option Topic} (attach : Attached s will t)
    (member : .handlePub proto msg packet code routed ∈ t.trace)
    : .handlePub proto msg packet code routed ∈ s.trace := by
  cases attach with
  | nothing => exact member
  | will properties propLen =>
      rcases List.mem_append.mp member with earlier | last
      · exact earlier
      · cases List.mem_singleton.mp last

/-- `handle_pub` itself attaches no will. -/
theorem handlePub_will (lib : Library) (env : Env) (proto : Nat) (id : MsgId) (s : Cb)
    : (handlePub lib env proto id s).2.trace.findSome? Effect.will
      = s.trace.findSome? Effect.will := by
  have handles := handlePub_handles lib env proto id s
  have last : ∀ trace msg packet code topic,
      (trace ++ [Effect.handlePub proto msg packet code topic]).findSome? Effect.will
      = trace.findSome? Effect.will := by
    intro trace msg packet code topic
    rw [List.findSome?_append]
    exact Option.or_none
  generalize handlePub lib env proto id s = result at handles
  cases handles with
  | refused _ _ => exact last _ _ _ _ _
  | unresolved _ _ _ => exact last _ _ _ _ _
  | routed _ _ _ =>
      refine (last _ _ _ _ _).trans ((handlePubRetain_trace _ _ _ _).findSome_eq ?_)
      intro effect other
      apply Effect.will_eq_none
      rw [other]
      exact nofun

theorem Attached.will_eq {s t : Cb} {will : Option (Option (List Property) × Nat)}
    (attach : Attached s will t) (noWill : s.trace.findSome? Effect.will = none)
    : t.trace.findSome? Effect.will = will := by
  cases attach with
  | nothing => exact noWill
  | will properties propLen =>
      change (s.trace ++ [Effect.willProperties properties propLen]).findSome? Effect.will = _
      rw [List.findSome?_append, noWill]
      rfl

theorem Attached.will_after {lib : Library} {env : Env} {mine later : MsgId → Prop}
    {s start attached t : Cb} {will : Option (Option (List Property) × Nat)} {proto : Nat}
    {id : MsgId} (attach : Attached (handlePub lib env proto id start).2 will attached)
    (before : Frame mine [.other, .delivery] s start) (silent : s.trace = [])
    (after : Rearms later [.other, .storing] attached t)
    : t.trace.findSome? Effect.will = will := by
  have noWill : (handlePub lib env proto id start).2.trace.findSome? Effect.will = none := by
    rw [handlePub_will, before.will_eq (by decide), silent]
    rfl
  exact (after.frame.will_eq (by decide)).trans (attach.will_eq noWill)

section Publishes

variable {lib : Library} {env : Env} {limit : MsgId} {mine : MsgId → Prop} {s t : Cb}
  {proto : Nat} {msg : NngMsg} {decoded : PubPacket} {topic : Topic}

/-- A message that was routed was routed by this call of `handle_pub`. -/
theorem handlePub_routed {usedProto : Nat} {id : MsgId}
    (notBefore : ∀ effect ∈ s.trace, effect.kind ≠ .handling)
    (accepted
      : .handlePub proto msg decoded SUCCESS (some topic)
        ∈ (handlePub lib env usedProto id s).2.trace)
    : usedProto = proto
      ∧ s.world.msgs id = msg
      ∧ (decodePubMessage lib.parser env.stray msg .zeroed proto).value = (SUCCESS, decoded)
      ∧ msg.type = PUBLISH
      ∧ ((resolveTopic s.world s.work.pid proto decoded).topic = some topic
        ∧ (handlePub lib env usedProto id s).1 = SUCCESS
        ∧ (handlePub lib env usedProto id s).2.work.msgInfos
          = recipients lib env s.world.stores topic
        ∧ (handlePub lib env usedProto id s).2.work.pubPacket
          = some (resolveTopic s.world s.work.pid proto decoded).packet) := by
  have handles := handlePub_handles lib env usedProto id s
  generalize handlePub lib env usedProto id s = result at handles accepted
  have absent : .handlePub proto msg decoded SUCCESS (some topic) ∉ s.trace :=
    fun earlier => notBefore _ earlier rfl
  cases handles with
  | refused _ _ =>
      rcases List.mem_append.mp accepted with earlier | last
      · exact absurd earlier absent
      · cases List.mem_singleton.mp last
  | unresolved _ _ _ =>
      rcases List.mem_append.mp accepted with earlier | last
      · exact absurd earlier absent
      · cases List.mem_singleton.mp last
  | routed decoding publish resolved =>
      rcases List.mem_append.mp accepted with earlier | last
      · exact absurd ((handlePubRetain_trace _ _ _ _).mem_of_mem earlier nofun) absent
      · cases List.mem_singleton.mp last
        refine ⟨rfl, rfl, decoding, publish, ?_, rfl, ?_, ?_⟩
        · rw [resolved]
        · exact congrArg Work.msgInfos (handlePubRetain_work _ _ _ _)
        · rw [resolved]
          exact congrArg Work.pubPacket (handlePubRetain_work _ _ _ _)

/-- The publication of an activation that has routed a message waits to be delivered. -/
theorem Publishes.awaits (publishes : Publishes lib env limit mine s t)
    (rejectsNul : lib.parser.RejectsNul) (aliases : AliasesValid lib.parser s.world)
    (silent : s.trace = [])
    (accepted : .handlePub proto msg decoded SUCCESS (some topic) ∈ t.trace)
    : (decodePubMessage lib.parser env.stray msg .zeroed proto).value = (SUCCESS, decoded)
      ∧ decoded.Sound lib.parser proto
      ∧ PublishTopic lib.parser topic
      ∧ Awaits proto (recipients lib env s.world.stores topic)
          (publication decoded topic t.trace) t.work t.world := by
  obtain ⟨usedProto, id, before, _, known, held, version, attach, after, continues⟩ :=
    publishes
  rename_i start attached will _ _
  have inHandled :=
    attach.handlePub_mem (after.frame.handling_mem (by decide) rfl accepted)
  obtain ⟨rfl, rfl, decoding, publish, resolved, success, msgInfos, pubPacket⟩ :=
    handlePub_routed (before.handling_not_mem (by decide) silent) inHandled
  have sound := (decodePubMessage_sound rejectsNul publish (congrArg Prod.fst decoding)).1
  rw [decoding] at sound
  have startAliases := aliases.of_eq (before.databases (by decide)).1
  obtain ⟨publishTopic, packetEq⟩ :=
    resolveTopic_sound rejectsNul startAliases sound.topicName resolved
  rw [packetEq] at pubPacket
  have waits := continues success
  obtain ⟨properties, handledMsg⟩ := handlePub_msg lib env usedProto id start
  obtain ⟨pipe, keptMsg⟩ := after.frame.msgs id (Nat.not_le_of_lt known)
  have willEq := attach.will_after before silent after
  refine ⟨decoding, sound, publishTopic, ?_⟩
  have attachedMsg : attached.world.msgs id
      = (start.world.msgs id).protoSetProperty properties := by
    cases attach with
    | nothing => exact handledMsg
    | will _ _ => exact handledMsg
  refine {
      waiting := waits.waiting
      msgInfos := waits.msgInfos.trans ?_
      pubPacket := waits.pubPacket.trans ?_
      message := ⟨id, waits.held, ?_, ?_⟩
    }
  · rw [before.stores (by decide)] at msgInfos
    cases attach with
    | nothing => exact msgInfos
    | will _ _ => exact msgInfos
  · unfold publication
    rw [willEq]
    cases attach with
    | nothing => exact pubPacket
    | will willProperties propLen =>
        change some (PubPacket.setProperties (Option.getD _ _) _ _) = _
        rw [pubPacket]
        rfl
  · rw [keptMsg, attachedMsg]
    exact publish
  · rw [keptMsg, attachedMsg]
    exact version

/-- A publication can be encoded, if the properties of a will are valid and its properties
are canonical.
-/
theorem publication_encodable {nng : MqttParser} {trace : List Effect}
    (sound : decoded.Sound nng proto) (publishTopic : PublishTopic nng topic)
    (willValid
      : ∀ properties propLen,
          .willProperties properties propLen ∈ trace
          → publishPropertiesValid nng properties = true)
    (canonical
      : proto = MQTT_PROTOCOL_VERSION_v5
        → ∃ bytes,
            CanonicalProperties nng (publication decoded topic trace).publish.properties bytes)
    : (publication decoded topic trace).Encodable nng proto topic
      ∧ (publication decoded topic trace).payload.len < 2 ^ 32 := by
  unfold publication at canonical ⊢
  cases found : trace.findSome? Effect.will with
  | none =>
      rw [found] at canonical
      exact ⟨{
          topicName := rfl
          publishTopic
          packetId := sound.packetId
          payload := sound.payload
          propertiesValid := sound.propertiesValid
          canonical
        }, sound.payloadShort⟩
  | some will =>
      rw [found] at canonical
      obtain ⟨properties, propLen⟩ := will
      have attached : .willProperties properties propLen ∈ trace := by
        obtain ⟨effect, member, isWill⟩ := List.exists_of_findSome?_eq_some found
        cases effect with
        | willProperties _ _ =>
            cases isWill
            exact member
        | _ => cases isWill
      exact ⟨{
          topicName := rfl
          publishTopic
          packetId := sound.packetId
          payload := sound.payload
          propertiesValid := fun _ => willValid properties propLen attached
          canonical
        }, sound.payloadShort⟩

end Publishes

/-- The recipients are the subscribers, then the clients chosen for shared subscriptions,
both without empty slots.
-/
theorem recipients_eq (lib : Library) (env : Env) (stores : Stores) (topic : Topic)
    : recipients lib env stores topic
      = ((lib.findClients stores topic).getD []).filter (· != 0)
        ++ ((env.sharedClients topic).getD []).filter (· != 0) := by
  unfold recipients foreachClient
  cases lib.findClients stores topic <;> cases env.sharedClients topic <;> simp

/-- In every run of the broker, a message that `handle_pub` has routed to a topic is sent by
the next activation of its context, in order and once to each recipient, and what is sent
is decoded to the publication again.
-/
theorem routed_message_delivered {Index : Type} [DecidableEq Index] {lib : Library}
    {first before after : System Index Work World} {history later : List Effect}
    (notifies : lib.NotifiesPublish) (rejectsNul : lib.parser.RejectsNul)
    (starts : Starts first)
    (reached : Reach (activate lib) (fun _ => Permitted lib) first before history)
    (index : Index) (env next : Env)
    (permitted : Permitted lib env (before.locals index) before.shared)
    (others
      : Reach (activate lib)
          (fun other env work world => other ≠ index ∧ Permitted lib env work world)
          (before.step (activate lib) index env) after later)
    (alive : .fatal ∉ (serverCb lib next (after.locals index) after.shared).trace)
    (proto : Nat) (msg : NngMsg) (decoded : PubPacket) (topic : Topic)
    : let handled := (serverCb lib env (before.locals index) before.shared).trace
      let sent := deliveries (serverCb lib next (after.locals index) after.shared).trace
      let published := publication decoded topic handled
      .handlePub proto msg decoded SUCCESS (some topic) ∈ handled
      → (∀ properties propLen,
          .willProperties properties propLen ∈ handled
          → publishPropertiesValid lib.parser properties = true)
      → (proto = MQTT_PROTOCOL_VERSION_v5
          → ∃ bytes, CanonicalProperties lib.parser published.publish.properties bytes)
      → (decodePubMessage lib.parser env.stray msg .zeroed proto).value = (SUCCESS, decoded)
        ∧ ((after.locals index).state = .WAIT ∨ (after.locals index).state = .END)
        ∧ sent.map NngMsg.pipe
          = ((lib.findClients before.shared.stores topic).getD []).filter (· != 0)
            ++ ((env.sharedClients topic).getD []).filter (· != 0)
        ∧ ∀ delivered ∈ sent, ∀ stray,
            let received := (decodePubMessage lib.parser stray delivered .zeroed proto).value
            received.1 = SUCCESS ∧ PubPacket.SameContent proto published received.2 := by
  intro handled sent published accepted willValid canonical
  have invariant := starts.reachable_aliases rejectsNul notifies reached
  have activates := serverCb_activates (invariant.own index).fits permitted.alive
  have routed
      : (decodePubMessage lib.parser env.stray msg .zeroed proto).value = (SUCCESS, decoded)
        ∧ decoded.Sound lib.parser proto
        ∧ PublishTopic lib.parser topic
        ∧ Awaits proto (recipients lib env before.shared.stores topic) published
            (serverCb lib env (before.locals index) before.shared).work
            (serverCb lib env (before.locals index) before.shared).world := by
    cases activates with
    | quiet rearms => cases rearms.frame.handling_mem (by decide) rfl accepted
    | publishes publishes =>
        exact publishes.awaits rejectsNul invariant.globally rfl accepted
  obtain ⟨decoding, sound, publishTopic, awaits⟩ := routed
  obtain ⟨encodable, payloadShort⟩ :=
    publication_encodable sound publishTopic willValid canonical
  have stepped := (starts.reachable notifies (.step index env reached permitted))
  have awaitsStep : Awaits proto (recipients lib env before.shared.stores topic) published
      ((before.step (activate lib) index env).locals index)
      (before.step (activate lib) index env).shared := by
    change Awaits _ _ _ (Function.update before.locals index _ index) _
    rw [Function.update_self]
    exact awaits
  -- Between the two activations only other contexts run.
  have waits := awaitsStep.meanwhile notifies { stepped with } others
  obtain ⟨pipes, contents⟩ := waits.delivered encodable payloadShort alive
  rw [recipients_eq] at pipes
  exact ⟨decoding, waits.waiting, pipes, contents⟩

/-- A version 5 PUBLISH of QoS 1 to topic `a` with topic alias 1 and payload `x`. -/
def aliasMessage : NngMsg :=
  .received .PUBLISH [0x33, 10] [0, 1, 97, 0, 7, 3, 35, 0, 1, 120] 3 (.plain 5)

/-- The message with a topic alias reaches both subscribers. -/
theorem aliasMessage_delivered
    : let lib := referenceLibrary (fun _ => some [0, 7, 9])
      let before := oneContext.step (activate lib) () (.brings none)
      let after := before.step (activate lib) () (.brings (some aliasMessage))
      let sent :=
        deliveries (serverCb lib (.brings none) (after.locals ()) after.shared).trace
      let packet :=
        { aliasPacket with fixedHeader := { aliasPacket.fixedHeader with remainLen := 10 } }
      sent.map NngMsg.pipe = [7, 9]
      ∧ ∀ delivered ∈ sent, ∀ stray,
          let received :=
            (decodePubMessage lib.parser stray delivered .zeroed MQTT_PROTOCOL_VERSION_v5).value
          received.1 = SUCCESS
          ∧ PubPacket.SameContent MQTT_PROTOCOL_VERSION_v5 packet received.2 := by
  intro lib before after sent packet
  have started : Reach (activate lib) (fun _ => Permitted lib) oneContext before _ :=
    .step () (.brings none) .start { delivers := Env.delivers_brings_none, alive := by decide }
  have trace
      : (serverCb lib (.brings (some aliasMessage)) (before.locals ()) before.shared).trace
        = [
          .cparamRead,
          .msgClone 0,
          .handlePub 5 (aliasMessage.setCmdType .PUBLISH_V5) packet SUCCESS (some [97]),
          .aioFinish
        ] := by
    decide
  have permitted
      : Permitted lib (.brings (some aliasMessage)) (before.locals ()) before.shared := by
    refine { delivers := ?_, alive := ?_ }
    · rintro msg ⟨⟩ ⟨⟩
    · rw [trace]
      simp
  have delivered := routed_message_delivered (referenceLibrary_notifies _)
    referenceParser_rejectsNul oneContext_starts started () (.brings (some aliasMessage))
    (.brings none) permitted .start (by decide) MQTT_PROTOCOL_VERSION_v5
    (aliasMessage.setCmdType .PUBLISH_V5) packet [97]
  rw [trace] at delivered
  obtain ⟨_, _, pipes, contents⟩ := delivered
    (List.mem_cons_of_mem _ (List.mem_cons_of_mem _ List.mem_cons_self)) (by simp)
    (fun _ => aliasPacket_encodable.canonical rfl)
  exact ⟨pipes, contents⟩

end NanoMQ
