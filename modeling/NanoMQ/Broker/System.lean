import NanoMQ.Broker.Activation

/-! The work contexts of a running broker.
Contexts take turns in any order; each activation meets an arbitrary completion. In every
reachable state a context is in a state that fits what it holds, and no two contexts hold
the same message.
-/

namespace NanoMQ

open Contexts

-- Runs

/-- One activation of a context. -/
def activate (lib : Library) (env : Env) (work : Work) (world : World)
    : Activation Work World Effect :=
  let s := serverCb lib env work world
  { own := s.work, shared := s.world, events := s.trace }

/-- What arrives as a disconnect event carries the header of a PUBLISH. -/
def Env.Delivers (env : Env) : Prop :=
  ∀ msg, env.aioMsg = some msg → msg.cmdType = .DISCONNECT_EV → msg.type = PUBLISH

/-- The activations of a run: after `fatal` there are none. -/
structure Permitted (lib : Library) (env : Env) (work : Work) (world : World) : Prop where
  delivers : env.Delivers
  alive : .fatal ∉ (serverCb lib env work world).trace

instance (env : Env) : Decidable env.Delivers :=
  inferInstanceAs
    (Decidable (∀ msg ∈ env.aioMsg, msg.cmdType = .DISCONNECT_EV → msg.type = PUBLISH))

instance (lib : Library) (env : Env) (work : Work) (world : World)
    : Decidable (Permitted lib env work world) :=
  decidable_of_iff (env.Delivers ∧ .fatal ∉ (serverCb lib env work world).trace)
    ⟨fun ⟨delivers, alive⟩ => { delivers, alive },
      fun permitted => ⟨permitted.delivers, permitted.alive⟩⟩

/-- The broker has just been started: no context has run, and nothing is stored. -/
structure Starts {Index : Type} (system : System Index Work World) : Prop where
  init : ∀ index, (system.locals index).state = .INIT
  idle : ∀ index, (system.locals index).msg = none
  aliases : ∀ pid topicAlias, system.shared.aliases pid topicAlias = none
  retained : ∀ topic, system.shared.retained topic = none

/-- The connect notification is a PUBLISH. -/
def Library.NotifiesPublish (lib : Library) : Prop :=
  ∀ cparam reason, (lib.msgNotifyConnect cparam reason).type = PUBLISH

/-- Notifications and wills are composed with the header of a PUBLISH. -/
structure Library.ComposesPublish (lib : Library) : Prop where
  notifies : lib.NotifiesPublish
  wills
    : ∀ retain qos payload topic protover clock,
        (lib.pubmsgComposer retain qos payload topic protover clock).type = PUBLISH

-- States that fit

section Fits

variable {s : Cb}

theorem Cb.Fits.of_idle (idle : s.work.state = .RECV ∨ s.work.state = .SEND) : s.Fits := by
  rcases idle with state | state
  · exact {
      closing := fun closing => nomatch state.symm.trans closing
      ending := fun ending => nomatch state.symm.trans ending
      waiting := fun waiting => nomatch state.symm.trans waiting
    }
  · exact {
      closing := fun closing => nomatch state.symm.trans closing
      ending := fun ending => nomatch state.symm.trans ending
      waiting := fun waiting => nomatch state.symm.trans waiting
    }

theorem Cb.Fits.of_broker (broker : s.work.proto = .MQTT_BROKER)
    (ending : s.work.state = .END → s.heldType = PUBLISH)
    : s.Fits :=
  {
    closing := fun _ => broker
    ending := fun state => ⟨broker, ending state⟩
    waiting := fun _ _ => broker
  }

theorem Cb.Fits.of_waiting (waiting : s.work.state = .WAIT) (publish : s.heldType = PUBLISH)
    : s.Fits :=
  {
    closing := fun closing => nomatch waiting.symm.trans closing
    ending := fun ending => nomatch waiting.symm.trans ending
    waiting := fun _ notPublish => absurd publish notPublish
  }

end Fits

section RecvFits

variable {lib : Library} {env : Env} {s : Cb} {id : MsgId}

theorem handlePub_heldType {proto : Nat} (held : s.work.msg = some id)
    : (handlePub lib env proto id s).2.heldType = (s.world.msgs id).type := by
  obtain ⟨properties, kept⟩ := handlePub_msg lib env proto id s
  unfold Cb.heldType
  rw [handlePub_held held]
  dsimp only
  rw [kept]
  rfl

theorem recvSubscribe_notEnd : (recvSubscribe lib env id s).work.state ≠ .END := by
  unfold recvSubscribe
  dsimp only
  split
  · exact nofun
  · split
    · split <;> exact nofun
    · split <;> exact nofun

theorem replyExtra_heldType (known : ∀ id, s.work.msg = some id → id < s.world.nextMsg)
    : (replyExtra lib s).heldType = s.heldType := by
  have sameMsg : (replyExtra lib s).work.msg = s.work.msg := rfl
  unfold Cb.heldType
  rw [sameMsg]
  cases held : s.work.msg with
  | none => rfl
  | some id =>
      have older : id ≠ s.world.nextMsg := Nat.ne_of_lt (known id held)
      exact congrArg NngMsg.type (Function.update_of_ne older _ _)

theorem replyExtra_fits (publish : s.heldType = PUBLISH)
    (known : ∀ id, s.work.msg = some id → id < s.world.nextMsg)
    : (replyExtra lib s).Fits := by
  by_cases success : s.work.code = SUCCESS
  · exact .of_waiting (if_pos success) ((replyExtra_heldType known).trans publish)
  · exact .of_idle (Or.inr (if_neg success))

/-- What becomes of a PUBLISH: the broker waits or closes, other contexts wait with the
message or go on to SEND.
-/
theorem settlePublish_fits (code : ReasonCode)
    (publish : s.work.proto ≠ .MQTT_BROKER → s.heldType = PUBLISH)
    (known : ∀ id, s.work.msg = some id → id < s.world.nextMsg)
    : (settlePublish lib code s).Fits := by
  unfold settlePublish
  dsimp only
  split
  · rename_i role
    exact replyExtra_fits (publish (fun broker => nomatch role.symm.trans broker)) known
  · rename_i role
    exact replyExtra_fits (publish (fun broker => nomatch role.symm.trans broker)) known
  · rename_i role
    split
    · exact .of_waiting rfl (publish (fun broker => nomatch role.symm.trans broker))
    · exact .of_idle (Or.inr rfl)
  · rename_i broker
    split
    · exact .of_broker broker nofun
    · exact .of_broker broker nofun

theorem recvConnack_fits (notifies : lib.NotifiesPublish)
    : (recvConnack lib env id s).Fits := by
  refine .of_waiting rfl ?_
  refine (handlePub_heldType rfl).trans ?_
  change ((webhookEntry _ _).world.msgs _).type = PUBLISH
  rw [webhookEntry_world, Cb.alloc_self]
  exact notifies _ _

theorem recvDisconnect_heldType (held : s.work.msg = some id)
    : (recvDisconnect lib env id s).heldType = (s.world.msgs id).type := by
  obtain ⟨flag, work⟩ := webhookEntry_work 0 s
  have settled : ∀ t, (settleDisconnect t).heldType = t.heldType := by
    intro t
    unfold settleDisconnect
    dsimp only
    split <;> rfl
  unfold recvDisconnect
  dsimp only
  rw [settled, handlePub_heldType]
  · change (((webhookEntry 0 s).setMsg id (·.setCmdType .PUBLISH)).world.msgs id).type = _
    rw [Cb.setMsg_self, webhookEntry_world]
    rfl
  · change (webhookEntry 0 s).work.msg = some id
    rw [work]
    exact held

theorem recvPublish_fits (held : s.work.msg = some id) (known : id < s.world.nextMsg)
    (publish : s.work.proto ≠ .MQTT_BROKER → (s.world.msgs id).type = PUBLISH)
    : (recvPublish lib env id s).Fits := by
  unfold recvPublish
  dsimp only
  generalize marked : (s.read [.fields]).setMsg id (·.setCmdType _) = start
  have sameType : (start.world.msgs id).type = (s.world.msgs id).type := by
    rw [← marked, Cb.setMsg_self]
    rfl
  have startHeld : start.work.msg = some id := by
    rw [← marked]
    exact held
  have handled : Frame (fun _ => True) [.other, .handling] start
      (handlePub lib env start.work.protoVer id start).2 :=
    (Frame.refl start).handlePub lib env _ trivial (by decide) (by decide)
  apply settlePublish_fits
  · intro notBroker
    rw [handled.proto, ← marked] at notBroker
    rw [handlePub_heldType startHeld, sameType]
    exact publish notBroker
  · intro other isHeld
    obtain rfl : id = other :=
      Option.some.inj ((handlePub_held startHeld).symm.trans isHeld)
    refine Nat.lt_of_lt_of_le ?_ handled.next
    rw [← marked]
    exact known

/-- A message that is handled by its command type leads to a state that fits, if contexts of
other roles than the broker's see only what they accept.
-/
theorem recvMsg_fits {msg : NngMsg} (notifies : lib.NotifiesPublish)
    (known : id < s.world.nextMsg) (contents : s.world.msgs id = msg)
    (accepted
      : s.work.proto ≠ .MQTT_BROKER
        → msg.cmdType = .CONNACK ∨ (msg.cmdType = .PUBLISH ∧ msg.type = PUBLISH))
    (event : msg.cmdType = .DISCONNECT_EV → msg.type = PUBLISH)
    : (recvMsg lib env id s).Fits := by
  subst contents
  have broker
      : (s.world.msgs id).cmdType ≠ .CONNACK
        → (s.world.msgs id).cmdType ≠ .PUBLISH
        → s.work.proto = .MQTT_BROKER := by
    intro notConnack notPublish
    by_contra other
    rcases accepted other with connack | ⟨publish, _⟩
    · exact notConnack connack
    · exact notPublish publish
  have activates : Activates lib env 0 (fun _ => True) s (recvMsg lib env id s) :=
    recvMsg_activates (fun _ _ => trivial) (Nat.zero_le id) known
  have proto : (recvMsg lib env id s).work.proto = s.work.proto :=
    (activates.rearms (fun _ _ => trivial) (Nat.zero_le _)).frame.proto
  unfold recvMsg at proto ⊢
  split at proto
  · rename_i kind
    have isBroker := broker (by rw [kind]; nofun) (by rw [kind]; nofun)
    exact .of_broker (proto.trans isBroker) fun ending => absurd ending recvSubscribe_notEnd
  · rename_i kind
    have isBroker := broker (by rw [kind]; nofun) (by rw [kind]; nofun)
    exact .of_broker (proto.trans isBroker) nofun
  · rename_i kind
    refine recvPublish_fits rfl known ?_
    intro other
    rcases accepted other with connack | ⟨_, publish⟩
    · rw [kind] at connack
      cases connack
    · exact publish
  · exact recvConnack_fits notifies
  · rename_i kind
    have isBroker := broker (by rw [kind]; nofun) (by rw [kind]; nofun)
    exact .of_broker (proto.trans isBroker) fun _ =>
      (recvDisconnect_heldType rfl).trans (event kind)
  · rename_i notSubscribe notUnsubscribe notPublish notConnack notEvent
    exact .of_broker (proto.trans (broker notConnack notPublish)) nofun

theorem recvBridge_fits (notifies : lib.NotifiesPublish) (known : id < s.world.nextMsg)
    (receiving : s.work.state = .RECV)
    : (recvBridge lib env id s).Fits := by
  unfold recvBridge
  dsimp only
  split
  · refine recvMsg_fits notifies ?_ (Cb.setMsg_self s id (·.setCmdType .CONNACK)) ?_ nofun
    · exact known
    · exact fun _ => Or.inl rfl
  · split
    · rename_i publish
      refine recvMsg_fits notifies ?_ (Cb.setMsg_self s id (·.setCmdType .PUBLISH)) ?_ nofun
      · exact known
      · exact fun _ => Or.inr ⟨rfl, publish⟩
    · exact .of_idle (Or.inl receiving)

theorem recvInproc_fits (notifies : lib.NotifiesPublish) (receiving : s.work.state = .RECV)
    : (recvInproc lib env id s).Fits := by
  unfold recvInproc
  dsimp only
  generalize (decodeCommonMqttMsg lib env.freshCparam env.stray (s.world.msgs id)).value
    = decoded
  split
  · rename_i publish
    have contents
        : ((s.alloc decoded).setMsg s.world.nextMsg (·.setCmdType .PUBLISH)).world.msgs
            s.world.nextMsg
          = decoded.setCmdType .PUBLISH := by
      rw [Cb.setMsg_self, Cb.alloc_self]
    refine recvMsg_fits notifies ?_ contents ?_ nofun
    · exact Nat.lt_succ_self _
    · exact fun _ => Or.inr ⟨rfl, publish⟩
  · exact .of_idle (Or.inl receiving)

theorem recvState_fits (notifies : lib.NotifiesPublish) (delivers : env.Delivers)
    (receiving : s.work.state = .RECV)
    : (recvState lib env s).Fits := by
  unfold recvState
  split
  · exact .of_idle (Or.inl receiving)
  · cases received : env.aioMsg with
    | none => exact .of_idle (Or.inl receiving)
    | some msg =>
        dsimp only
        have known : s.world.nextMsg < (s.alloc msg).world.nextMsg := Nat.lt_succ_self _
        split
        · rename_i broker
          exact recvMsg_fits notifies known (Cb.alloc_self s msg)
            (fun other => absurd broker other) (delivers msg received)
        · exact recvBridge_fits notifies known receiving
        · exact recvInproc_fits notifies receiving
        · exact recvInproc_fits notifies receiving

end RecvFits

theorem endState_notEnd {lib : Library} {env : Env} {s : Cb} (publish : s.heldType = PUBLISH)
    (alive : .fatal ∉ (endState lib env s).trace)
    : (endState lib env s).work.state ≠ .END := by
  have published : ∀ t, (publishWill lib env t).work.state = .WAIT := by
    intro t
    unfold publishWill
    dsimp only
    split <;> rfl
  revert alive
  unfold endState
  rw [if_pos publish]
  split
  · exact fun alive => absurd (List.mem_append_right _ List.mem_cons_self) alive
  · intro _
    dsimp only
    split
    · exact fun ending => nomatch (published _).symm.trans ending
    · exact nofun

theorem waitState_idle {lib : Library} {env : Env} {s : Cb}
    (alive : .fatal ∉ (waitState lib env s).trace)
    : (waitState lib env s).work.state = .RECV
      ∨ (waitState lib env s).work.state = .SEND := by
  revert alive
  unfold waitState
  split
  · split
    · exact fun alive => absurd (List.mem_append_right _ List.mem_cons_self) alive
    · intro _
      dsimp only
      split
      · exact Or.inr rfl
      · exact Or.inl rfl
  · exact fun _ => Or.inl rfl

theorem sendState_idle {env : Env} {s : Cb} (alive : .fatal ∉ (sendState env s).trace)
    : (sendState env s).work.state = .RECV := by
  revert alive
  unfold sendState
  dsimp only
  split
  · exact fun alive => absurd (List.mem_append_right _ List.mem_cons_self) alive
  · exact fun _ => rfl

theorem serverCb_fits {lib : Library} {env : Env} {work : Work} {world : World}
    (notifies : lib.NotifiesPublish) (permitted : Permitted lib env work world)
    (fits : Cb.Fits { work, world, trace := [] })
    : (serverCb lib env work world).Fits := by
  obtain ⟨delivers, alive⟩ := permitted
  have proto : (serverCb lib env work world).work.proto = work.proto :=
    ((serverCb_activates fits alive).rearms (fun _ => Or.inl) (Nat.le_refl _)).frame.proto
  revert alive proto
  unfold serverCb
  dsimp only
  cases state : work.state with
  | INIT => exact fun _ _ => .of_idle (Or.inl rfl)
  | RECV => exact fun _ _ => recvState_fits notifies delivers state
  | WAIT => exact fun alive _ => .of_idle (waitState_idle alive)
  | SEND => exact fun alive _ => .of_idle (Or.inl (sendState_idle alive))
  | HOOK => exact fun alive _ => absurd List.mem_cons_self alive
  | END =>
      intro alive proto
      obtain ⟨broker, publish⟩ := fits.ending state
      exact .of_broker (proto.trans broker)
        fun ending => absurd ending (endState_notEnd publish alive)
  | CLOSE => exact fun _ _ => .of_idle (Or.inl rfl)

-- The invariant of the contexts

/-- The state of a context fits what it holds, and what it holds exists. -/
structure Holds (work : Work) (world : World) : Prop where
  fits : Cb.Fits { work, world, trace := [] }
  known : ∀ id, work.msg = some id → id < world.nextMsg

/-- Two contexts do not hold the same message. -/
def Apart (left right : Work) : Prop :=
  ∀ id, left.msg = some id → right.msg ≠ some id

section Preserved

variable {lib : Library} {env : Env} {work : Work} {world : World}

theorem Holds.frame (holds : Holds work world) (permitted : Permitted lib env work world)
    : Frame (Owned work world) [.arm, .other, .delivery, .handling, .storing]
        { work, world, trace := [] } (serverCb lib env work world) :=
  ((serverCb_activates holds.fits permitted.alive).rearms (fun _ => Or.inl)
    (Nat.le_refl _)).frame

theorem Holds.bystander {other : Work} {id : MsgId} (holds : Holds work world)
    (permitted : Permitted lib env work world) (otherHolds : Holds other world)
    (apart : Apart work other) (held : other.msg = some id)
    : ∃ pipe, (serverCb lib env work world).world.msgs id = (world.msgs id).setPipe pipe := by
  apply (holds.frame permitted).msgs
  rintro (fresh | isHeld)
  · exact absurd (otherHolds.known id held) (Nat.not_lt_of_le fresh)
  · exact apart id isHeld held

theorem Holds.other_heldType {other : Work} (holds : Holds work world)
    (permitted : Permitted lib env work world) (otherHolds : Holds other world)
    (apart : Apart work other)
    : Cb.heldType { work := other, world := (serverCb lib env work world).world, trace := [] }
      = Cb.heldType { work := other, world, trace := [] } := by
  unfold Cb.heldType
  dsimp only
  cases held : other.msg with
  | none => rfl
  | some id =>
      obtain ⟨pipe, kept⟩ := holds.bystander permitted otherHolds apart held
      dsimp only
      rw [kept]
      rfl

theorem Holds.other {other : Work} (holds : Holds work world)
    (permitted : Permitted lib env work world) (otherHolds : Holds other world)
    (apart : Apart work other)
    : Holds other (serverCb lib env work world).world
      ∧ Apart (serverCb lib env work world).work other := by
  have frame := holds.frame permitted
  have sameType := holds.other_heldType permitted otherHolds apart
  refine ⟨{ fits := ?_, known := ?_ }, ?_⟩
  · exact {
      closing := otherHolds.fits.closing
      ending := fun ending => by
        rw [sameType]
        exact otherHolds.fits.ending ending
      waiting := fun waiting => by
        rw [sameType]
        exact otherHolds.fits.waiting waiting
    }
  · exact fun id held => Nat.lt_of_lt_of_le (otherHolds.known id held) frame.next
  · intro id held
    rcases frame.held id held with before | ⟨fresh | before, _⟩
    · exact apart id before
    · exact fun isHeld => absurd (otherHolds.known id isHeld) (Nat.not_lt_of_le fresh)
    · exact apart id before

/-- An activation keeps the invariant of the contexts, next to any invariant of what they
share.
-/
theorem Holds.preserved {Global : World → List Effect → Prop} {history : List Effect}
    (notifies : lib.NotifiesPublish) (permitted : Permitted lib env work world)
    (holds : Holds work world)
    (globally
      : Global (serverCb lib env work world).world
          (history ++ (serverCb lib env work world).trace))
    : Preserved Global Holds Apart world history work (activate lib env work world) := by
  have frame := holds.frame permitted
  have fits := serverCb_fits notifies permitted holds.fits
  refine { globally, own := { fits := ?_, known := ?_ }, others := ?_ }
  · exact { closing := fits.closing, ending := fits.ending, waiting := fits.waiting }
  · intro id held
    rcases frame.held id held with before | ⟨_, known⟩
    · exact Nat.lt_of_lt_of_le (holds.known id before) frame.next
    · exact known
  · exact fun other otherHolds apart => holds.other permitted otherHolds apart

end Preserved

section Reach

variable {Index : Type} {lib : Library} {first : System Index Work World}

theorem Starts.invariant {Global : World → List Effect → Prop} (starts : Starts first)
    (globally : Global first.shared [])
    : Invariant Global Holds Apart first [] := by
  refine { globally, own := fun index => { fits := ?_, known := ?_ }, apart := ?_ }
  · have init := starts.init index
    exact {
      closing := fun closing => nomatch init.symm.trans closing
      ending := fun ending => nomatch init.symm.trans ending
      waiting := fun waiting => nomatch init.symm.trans waiting
    }
  · exact fun id held => nomatch (starts.idle index).symm.trans held
  · exact fun left _ _ id held => nomatch (starts.idle left).symm.trans held

theorem Apart.symm {left right : Work} (apart : Apart left right) : Apart right left :=
  fun id held isHeld => apart id isHeld held

variable [DecidableEq Index]

theorem Starts.reachable {system : System Index Work World} {history : List Effect}
    (starts : Starts first) (notifies : lib.NotifiesPublish)
    (reached : Reach (activate lib) (fun _ => Permitted lib) first system history)
    : Invariant (fun _ _ => True) Holds Apart system history :=
  reached.invariant Apart.symm
    (fun _ _ _ _ _ permitted _ holds => holds.preserved notifies permitted trivial)
    (starts.invariant trivial)

end Reach

end NanoMQ
