import NanoMQ.Broker.Turns

/-! The end of an activation.
Behind the call that hands its context over, an activation touches neither the context nor a
message; only END has a call left. What it has looked at before was then cloned, freed or sent,
or is what the context has to give back.
-/

namespace NanoMQ

open References

/-- The steps behind the first call that hands the context over. -/
def behind : List Step → List Step
  | [] => []
  | step :: rest => if (step.effect.bind Effect.handsOver).isSome then rest else behind rest

/-- The message that a context in this state has to give back: outside of INIT and RECV the
one it holds.
-/
def handIn (state : WorkState) (msg : Option MsgId) : Option MsgId :=
  match state with
  | .INIT | .RECV => none
  | .WAIT | .SEND | .HOOK | .END | .CLOSE => msg

def Work.hand (work : Work) : Option MsgId :=
  handIn work.state work.msg

/-- An activation that is over: what it has looked at was then cloned, freed or sent, or is
in `held`, and behind the call that handed the context over there were only these calls.
-/
structure Cb.Completed (held : Set MsgId) (left : List Effect) (t : Cb) : Prop where
  calls : t.steps.filterMap Step.effect = t.trace
  behind : behind t.steps = left.map .call
  followed : Followed held (stepAccesses t.steps)

/-- The message that the context has to give back. -/
def Cb.handed (t : Cb) : Set MsgId :=
  {id | t.work.hand = some id}

/-- By induction on the steps in front. -/
theorem behind_append {steps more : List Step}
    (keeps : ∀ step ∈ steps, step.effect.bind Effect.handsOver = none)
    : behind (steps ++ more) = behind more := by
  induction steps with
  | nil => rfl
  | cons step rest ih =>
      obtain ⟨here, later⟩ := List.forall_mem_cons.mp keeps
      rw [List.cons_append, behind, here]
      exact ih later

section Completed

variable {held : Set MsgId} {s : Cb} {id : MsgId}

theorem Cb.Orderly.last (orderly : s.Orderly held) (effect : Effect)
    : (s.emit effect).Completed held [] := by
  refine { calls := orderly.calls_emit, behind := ?_, followed := ?_ }
  · refine (behind_append orderly.keeps).trans ?_
    unfold NanoMQ.behind
    split <;> rfl
  · exact orderly.followed_emit fun _ => Or.inl

theorem Cb.Orderly.oneMore (orderly : s.Orderly held) {effect : Effect}
    (hands : effect.handsOver = some ()) (more : Effect) (plain : more.msgAccess = none)
    : ((s.emit effect).emit more).Completed held [more] := by
  refine { calls := ?_, behind := ?_, followed := ?_ }
  · exact List.filterMap_append.trans (congrArg (· ++ [more]) orderly.calls_emit)
  · change behind ((s.steps ++ [.call effect]) ++ [.call more]) = _
    rw [List.append_assoc, behind_append orderly.keeps]
    change (if (effect.handsOver).isSome then _ else _) = _
    rw [hands]
    rfl
  · change Followed held (stepAccesses ((s.emit effect).steps ++ [.call more]))
    have nothing : stepAccesses [.call more] = [] := by
      simp [stepAccesses, Step.msgAccess, plain]
    unfold stepAccesses at nothing ⊢
    rw [List.filterMap_append, nothing, List.append_nil]
    exact orderly.followed_emit fun _ => Or.inl

theorem Cb.Completed.mono {after : Set MsgId} {left : List Effect}
    (completed : s.Completed held left) (subset : held ⊆ after)
    : s.Completed after left :=
  { completed with followed := completed.followed.mono subset }

/-- Nothing is left that was only looked at, and no call behind the hand-over. -/
def Cb.Ends (t : Cb) : Prop :=
  t.Completed t.handed []

theorem Cb.Completed.ends (completed : s.Completed ∅ []) : s.Ends :=
  completed.mono (Set.empty_subset _)

theorem held_of (isHeld : s.work.msg = some id)
    : ∀ other ∈ ({id} : Set MsgId), s.work.msg = some other := by
  rintro _ rfl
  exact isHeld

end Completed

-- RECV

section Recv

variable {lib : Library} {env : Env} {s : Cb} {id : MsgId}

theorem Cb.Orderly.answered {held : Set MsgId} (orderly : s.Orderly (insert id held))
    (extra : Bool)
    : ((s.ctxSend extra id).emit .aioFinish).Completed held [] :=
  (Cb.Orderly.give (.release id) orderly rfl rfl).last .aioFinish

theorem refuseSubscribe_completed (orderly : s.Orderly {id}) (isHeld : s.work.msg = some id)
    : (refuseSubscribe s).Ends :=
  ((orderly.emit rfl).setWork.last .aioFinish).mono (held_of isHeld)

theorem acknowledgeSubscribe_completed (orderly : s.Orderly {id}) (packet : TopicPacket)
    (msgRet : List MsgId)
    : (acknowledgeSubscribe lib env id packet msgRet s).Completed {ret | ret ∈ msgRet} [] := by
  have both : s.Orderly (insert id {ret | ret ∈ msgRet}) :=
    orderly.mono fun _ same => Or.inl same
  exact (((both.readFields.setMsg (Or.inl rfl)).sendRetained _ _ fun _ => Or.inr).setMsg
    (Or.inl rfl)).setWork.answered false

/-- The retained messages that are collected for a message. -/
def collecting (lib : Library) (env : Env) (world : World) (msg : NngMsg) : Set MsgId :=
  {ret | msg.cmdType = .SUBSCRIBE ∧ ret ∈ collectedRetained lib env world msg}

theorem recvSubscribe_completed (orderly : (s.adopt id).Orderly {id})
    (kind : (s.world.msgs id).cmdType = .SUBSCRIBE)
    : let t := recvSubscribe lib env id (s.adopt id)
      t.Completed (t.handed ∪ collecting lib env s.world (s.world.msgs id)) [] := by
  have looked : ((s.adopt id).read [.fields, .contents id]).Orderly {id} := orderly.readBoth rfl
  have refused {t : Cb} (ends : t.Ends)
      : t.Completed (t.handed ∪ collecting lib env s.world (s.world.msgs id)) [] :=
    ends.mono Set.subset_union_left
  have acknowledged {t : Cb} (packet : TopicPacket) (orderly : t.Orderly {id})
      : let after := acknowledgeSubscribe lib env id packet
          (collectedRetained lib env s.world (s.world.msgs id)) t
        after.Completed (after.handed ∪ collecting lib env s.world (s.world.msgs id)) [] :=
    (acknowledgeSubscribe_completed orderly _ _).mono fun _ member => Or.inr ⟨kind, member⟩
  unfold recvSubscribe
  dsimp only
  split
  · exact refused (refuseSubscribe_completed looked.setWork rfl)
  · split
    · split
      · exact refused (refuseSubscribe_completed looked.setWorld.setWork rfl)
      · exact acknowledged _ looked.setWorld.setWork
    · split
      · exact refused (refuseSubscribe_completed looked.setWorld rfl)
      · exact acknowledged _ looked.setWorld

theorem recvUnsubscribe_completed (orderly : s.Orderly {id})
    : (recvUnsubscribe lib env id s).Completed ∅ [] := by
  have given : s.Orderly (insert id ∅) := orderly.mono fun _ same => Or.inl same
  exact (((given.emit rfl).readBoth (Or.inl rfl)).setWorld.setMsg
    (Or.inl rfl)).setWork.answered false

theorem enterWait_completed (orderly : s.Orderly {id}) (isHeld : s.work.msg = some id)
    : (enterWait s).Ends :=
  (orderly.setWork.last .aioFinish).mono (held_of isHeld)

theorem settlePublish_completed (orderly : s.Orderly {id}) (isHeld : s.work.msg = some id)
    (code : ReasonCode)
    : (settlePublish lib code s).Ends := by
  have coded : ((s.read [.fields]).setWork { s.work with code }).Orderly {id} :=
    orderly.readFields.setWork
  have replied
      : let t := (s.read [.fields]).setWork { s.work with code }
        (replyExtra lib t).Ends := by
    refine (Cb.Orderly.last coded.setWorld.setWork _).mono ?_
    rintro _ rfl
    unfold Cb.handed Work.hand
    change handIn (if _ then _ else _) s.work.msg = _
    split
    · exact isHeld
    · exact isHeld
  unfold settlePublish
  dsimp only
  split
  · exact replied
  · exact replied
  · split
    · exact enterWait_completed coded isHeld
    · exact (coded.setWork.last .aioFinish).mono (held_of isHeld)
  · split
    · exact enterWait_completed coded isHeld
    · exact (((coded.setWork.emit rfl).setWork.emit rfl).last .aioFinish).mono (held_of isHeld)

theorem passConnack_orderly (orderly : s.Orderly {id}) : (passConnack id s).Orderly {id} := by
  unfold passConnack
  split
  · exact ((orderly.readFields.setMsg rfl).emit rfl).emit rfl
  · exact orderly.readFields

theorem recvConnack_completed (orderly : s.Orderly {id})
    : (recvConnack lib env id s).Ends := by
  unfold recvConnack
  dsimp only
  have passed : (passConnack id (s.read [.contents id])).Orderly (insert id ∅) :=
    (passConnack_orderly (orderly.readMsg rfl)).mono fun _ same => Or.inl same
  refine enterWait_completed (Cb.Orderly.handlePub ?_ lib env _ rfl) (handlePub_held rfl)
  refine (Cb.Orderly.give (.release id) ?_ rfl rfl).setWork.mono (Set.empty_subset _)
  exact ((passed.emit rfl).setWorld.webhookEntry _)

theorem settleDisconnect_completed (orderly : s.Orderly {id}) (isHeld : s.work.msg = some id)
    : (settleDisconnect s).Ends := by
  unfold settleDisconnect
  dsimp only
  split
  · exact ((orderly.readFields.setWorld.emit rfl).setWork.last .aioFinish).mono (held_of isHeld)
  · exact enterWait_completed ((orderly.readFields.setWorld.emit rfl).emit rfl) isHeld

theorem recvDisconnect_completed (orderly : s.Orderly {id}) (isHeld : s.work.msg = some id)
    : (recvDisconnect lib env id s).Ends := by
  obtain ⟨_, work⟩ := webhookEntry_work 0 s
  refine settleDisconnect_completed (Cb.Orderly.handlePub ?_ lib env _ rfl) (handlePub_held ?_)
  · exact ((orderly.webhookEntry 0).setMsg rfl).setWork
  · change (webhookEntry 0 s).work.msg = _
    rw [work]
    exact isHeld

theorem recvPublish_completed (orderly : s.Orderly {id}) (isHeld : s.work.msg = some id)
    : (recvPublish lib env id s).Ends := by
  have marked (change : NngMsg → NngMsg)
      : ((s.read [.fields]).setMsg id change).Orderly {id}
        ∧ ((s.read [.fields]).setMsg id change).work.msg = some id :=
    ⟨orderly.readFields.setMsg rfl, isHeld⟩
  unfold recvPublish
  exact settlePublish_completed ((marked _).1.handlePub lib env _ rfl)
    (handlePub_held (marked _).2) _

theorem recvMsg_completed (orderly : s.Orderly {id})
    : let t := recvMsg lib env id s
      t.Completed (t.handed ∪ collecting lib env s.world (s.world.msgs id)) [] := by
  have adopted : (s.adopt id).Orderly {id} := ((orderly.readMsg rfl).emit rfl).setWork
  have holds : (s.adopt id).work.msg = some id := rfl
  have ends {t : Cb} (ends : t.Ends)
      : t.Completed (t.handed ∪ collecting lib env s.world (s.world.msgs id)) [] :=
    ends.mono Set.subset_union_left
  unfold recvMsg
  split
  · rename_i kind
    exact recvSubscribe_completed adopted kind
  · exact ends (recvUnsubscribe_completed adopted).ends
  · exact ends (recvPublish_completed adopted holds)
  · exact ends (recvConnack_completed adopted)
  · exact ends (recvDisconnect_completed adopted holds)
  · exact ends (enterWait_completed adopted holds)

/-- What is received over inproc unpacks to a PUBLISH. -/
def Unpacks (lib : Library) (env : Env) (work : Work) : Prop :=
  work.proto = .HTTP_SERVER ∨ work.proto = .AWS_BRIDGE
  → ∀ msg, env.aioMsg = some msg
    → (decodeCommonMqttMsg lib env.freshCparam env.stray msg).value.type = PUBLISH

/-- What is unpacked and not a PUBLISH is looked at and left alone. -/
theorem Receives.completed {work : Work} {world : World} {t : Cb}
    (receives : Receives lib env work world t)
    : ∃ held,
        t.Completed held []
        ∧ (Unpacks lib env work
          → ∀ other ∈ held,
              other ∈ t.handed
              ∨ ∃ msg,
                  takenOver lib env work = some msg ∧ other ∈ collecting lib env world msg) := by
  have begun : (Cb.read { work, world, trace := [] } [.fields]).Orderly ∅ :=
    (Cb.Orderly.start ∅ work world).readFields
  cases receives with
  | failed _ => exact ⟨∅, begun.last _, fun _ _ => False.elim⟩
  | fatal _ => exact ⟨∅, begun.last _, fun _ _ => False.elim⟩
  | dropped _ _ _ _ orderly => exact ⟨∅, orderly.last _, fun _ _ => False.elim⟩
  | @rejected msg _ _ inproc brings other _ _ _ _ orderly =>
      exact ⟨_, orderly.last _, fun unpacks => absurd (unpacks inproc msg brings) other⟩
  | takes taken obtained =>
      refine ⟨_, recvMsg_completed obtained.orderly, fun _ other => Or.imp_right fun looked => ?_⟩
      unfold collecting collectedRetained at looked ⊢
      rw [obtained.contents, obtained.retained, obtained.stores] at looked
      exact ⟨_, taken, looked⟩

end Recv

-- The other states

section OtherStates

variable {lib : Library} {env : Env} {work : Work} {world : World}

theorem waitState_completed (waiting : work.state = .WAIT)
    (packetless : work.pubPacket.isSome = false → work.msgInfos = [])
    : (waitState lib env { work, world, trace := [] }).Ends := by
  have looked : (Cb.look { work, world, trace := [] }).Orderly {id | work.msg = some id} :=
    (Cb.Orderly.start _ work world).look
  unfold waitState
  split
  · rename_i publish
    obtain ⟨id, isHeld, _⟩ := Cb.held_of_publish publish
    split
    · refine (looked.last .fatal).mono fun other same => ?_
      change handIn work.state work.msg = some other
      rw [waiting]
      exact same
    · obtain ⟨_, _, _, _, _, _, _, _, after, _⟩ := deliver_calls lib env packetless isHeld
      have delivered := (looked.fanOut lib.parser isHeld isHeld).forwardToBridges lib env
      dsimp only at after ⊢
      generalize forwardToBridges lib env
          (fanOut lib.parser (Cb.look { work, world, trace := [] })) = t
        at after delivered ⊢
      have stillHeld : t.work.msg = work.msg := by rw [after]
      split
      · exact (delivered.setWork.last .aioFinish).mono fun _ same => stillHeld.trans same
      · have dropped := delivered.dropMsg fun _ same => stillHeld.trans same
        exact ((dropped.emit rfl).clearPublication.setWork.last _).ends
  · exact ((looked.dropMsg fun _ => id).setWork.last _).ends

theorem sendState_completed
    : (sendState env { work, world, trace := [] }).Ends := by
  have begun : (Cb.read { work, world, trace := [] } [.fields]).Orderly ∅ :=
    (Cb.Orderly.start ∅ work world).readFields
  have told
      : (if work.flag = .PUBLISH ∧ work.config.ruleEngine then
            (Cb.read { work, world, trace := [] } [.fields]).emit .ruleEngineInsertSql
          else Cb.read { work, world, trace := [] } [.fields]).Orderly ∅ := by
    split
    · exact begun.emit rfl
    · exact begun
  have dropped := (told.webhookEntry 0).dropMsg nofun
  unfold sendState
  dsimp only
  generalize (webhookEntry 0 _).dropMsg = t at dropped ⊢
  split
  · exact (dropped.last .fatal).ends
  · refine (Cb.Orderly.last ?_ _).ends
    split
    · exact (dropped.clearPublication.emit rfl).setWork
    · exact (dropped.emit rfl).setWork

theorem publishWill_orderly {s : Cb} (orderly : s.Orderly ∅)
    : ∃ before : Cb,
        publishWill lib env s = before.emit .aioFinish
        ∧ before.Orderly (publishWill lib env s).handed := by
  have composed (msg : NngMsg) (work : Work)
      : (((s.emit .cparamRead).alloc msg).setWork work).Orderly {s.world.nextMsg} :=
    ((orderly.emit rfl).setWorld.setWork).mono (Set.empty_subset _)
  unfold publishWill
  dsimp only
  split
  · refine ⟨_, rfl, Cb.Orderly.mono ?_ (@held_of _ s.world.nextMsg ?_)⟩
    · exact ((((composed _ _).setMsg rfl).handlePub lib env _ rfl).emit rfl).setWork.setWork
    · exact handlePub_held rfl
  · refine ⟨_, rfl, Cb.Orderly.mono ?_ (@held_of _ s.world.nextMsg ?_)⟩
    · exact (((composed _ _).setMsg rfl).handlePub lib env _ rfl).setWork
    · exact handlePub_held rfl

theorem endState_completed (publish : Cb.heldType { work, world, trace := [] } = PUBLISH)
    (packetless : work.pubPacket.isSome = false → work.msgInfos = [])
    (alive : .fatal ∉ (endState lib env { work, world, trace := [] }).trace)
    : let t := endState lib env { work, world, trace := [] }
      t.Completed t.handed [.connParamFree t.work.cparam] := by
  obtain ⟨id, isHeld, _⟩ := Cb.held_of_publish publish
  have looked : (Cb.look { work, world, trace := [] }).Orderly {id | work.msg = some id} :=
    (Cb.Orderly.start _ work world).look
  obtain ⟨_, _, _, _, _, after, _⟩ :=
    fanOut_deliveries_of (s := Cb.look { work, world, trace := [] }) lib.parser isHeld
      fun missing => packetless (congrArg Option.isSome missing)
  have delivered := (looked.fanOut lib.parser isHeld isHeld).webhookEntry 0
  obtain ⟨_, hooked⟩ := webhookEntry_work 0
    (fanOut lib.parser (Cb.look { work, world, trace := [] }))
  have stillHeld
      : (webhookEntry 0 (fanOut lib.parser (Cb.look { work, world, trace := [] }))).work.msg
        = work.msg := by
    rw [hooked, after]
    rfl
  have dropped := (delivered.dropMsg fun _ same => stillHeld.trans same).clearPublication
  have cleared := dropped.emit (show Effect.handsOver .cparamRead = none from rfl)
  revert alive
  unfold endState
  rw [if_pos publish]
  split
  · exact fun alive => absurd (List.mem_append_right _ List.mem_cons_self) alive
  · intro _
    dsimp only
    generalize (Cb.clearPublication _).emit .cparamRead = t at cleared ⊢
    split
    · obtain ⟨before, published, orderly⟩ := @publishWill_orderly lib env _ cleared
      rw [published] at orderly ⊢
      exact orderly.oneMore rfl _ rfl
    · exact (cleared.setWork.oneMore rfl _ rfl).mono (Set.empty_subset _)

theorem closeState_completed
    : (closeState lib { work, world, trace := [] }).Ends := by
  have dropped (msg : NngMsg)
      : ((Cb.read { work, world, trace := [] } [.fields]).alloc msg).dropMsg.Orderly ∅ :=
    (Cb.Orderly.start ∅ work world).readFields.setWorld.dropMsg nofun
  have composed := ((dropped ((lib.dismsgComposer work.code).setPipe work.pid)).mono
    (Set.empty_subset (insert world.nextMsg ∅)))
  refine ((Cb.Orderly.give (.release world.nextMsg) ?_ rfl rfl).setWork.last
    (.ctxRecv false)).ends
  exact composed.setWork.readMsg (Set.mem_insert _ _)

/-- An activation of a context that is ready. It looks only at messages that it then clones,
frees or sends or that its context has to give back, or that it has collected for a SUBSCRIBE,
unless it has unpacked something else than a PUBLISH; and only END has a call left behind the one
that hands the context over.
-/
theorem Ready.completed (ready : Ready work world) (permitted : Permitted lib env work world)
    : let t := serverCb lib env work world
      ∃ held,
        t.Completed held (if work.state = .END then [.connParamFree t.work.cparam] else [])
        ∧ (Unpacks lib env work ∨ work.state ≠ .RECV
          → ∀ other ∈ held,
              other ∈ t.handed
              ∨ work.state = .RECV
                ∧ ∃ msg,
                    takenOver lib env work = some msg
                    ∧ other ∈ collecting lib env world msg) := by
  have alive := permitted.alive
  revert alive
  unfold serverCb
  dsimp only
  cases state : work.state with
  | INIT =>
      intro _
      exact ⟨∅, (Cb.Orderly.start ∅ work world).setWork.last _, fun _ _ => False.elim⟩
  | RECV =>
      intro _
      obtain ⟨held, completed, unpacks⟩ := (recvState_receives lib env work world).completed
      refine ⟨held, completed, ?_⟩
      rintro (publish | other) looked isHeld
      · exact (unpacks publish looked isHeld).imp_right fun collected => ⟨rfl, collected⟩
      · exact absurd rfl other
  | WAIT =>
      exact fun _ => ⟨_, waitState_completed state ready.recipients, fun _ _ => Or.inl⟩
  | SEND => exact fun _ => ⟨_, sendState_completed, fun _ _ => Or.inl⟩
  | HOOK => exact fun alive => absurd List.mem_cons_self alive
  | END =>
      intro alive
      have publish := (ready.holds.fits.ending state).2
      exact ⟨_, endState_completed publish ready.recipients alive, fun _ _ => Or.inl⟩
  | CLOSE => exact fun _ => ⟨_, closeState_completed, fun _ _ => Or.inl⟩

end OtherStates

end NanoMQ
