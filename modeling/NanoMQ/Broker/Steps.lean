import NanoMQ.Broker.Calls
import NanoMQ.Library.References

/-! The accesses of an activation between its calls.
Before it hands its context over, an activation looks only at messages that it then clones,
frees or sends, or that it still holds.
-/

namespace NanoMQ

open References

-- Accesses

/-- The calls after which the next activation of the context may run. -/
def Effect.handsOver : Effect → Option Unit
  | .aioFinish | .ctxRecv _ => some ()
  | _ => none

/-- What a call does to the references of a message; a message that is sent is given away. -/
def Effect.msgAccess : Effect → Option Access
  | .msgClone id => some (.clone id)
  | .msgFree id => some (.release id)
  | .ctxSend _ id _ => some (.release id)
  | _ => none

def Step.effect : Step → Option Effect
  | .call effect => some effect
  | .fields | .contents _ => none

/-- What a step does to messages: it looks at one, or it is a call. -/
def Step.msgAccess : Step → Option Access
  | .call effect => effect.msgAccess
  | .contents id => some (.inspect id)
  | .fields => none

def stepAccesses (steps : List Step) : List Access :=
  steps.filterMap Step.msgAccess

theorem Effect.msgAccess_counts {effect : Effect} {access : Access}
    (accesses : effect.msgAccess = some access)
    : access.counts := by
  unfold Effect.msgAccess at accesses
  split at accesses <;> cases accesses <;> rfl

-- Orderly activations

/-- The context has not been handed over, the steps contain the calls, and what has been
looked at was then cloned, freed or sent, or is in `held`.
-/
structure Cb.Orderly (held : Set MsgId) (s : Cb) : Prop where
  calls : s.steps.filterMap Step.effect = s.trace
  keeps : ∀ step ∈ s.steps, step.effect.bind Effect.handsOver = none
  followed : Followed held (stepAccesses s.steps)

/-- A step that is not a call and looks only at these messages. -/
def Step.Looks (held : Set MsgId) : Step → Prop
  | .call _ => False
  | .fields => True
  | .contents id => id ∈ held

namespace Cb.Orderly

variable {held after : Set MsgId} {s : Cb} {effect : Effect} {id : MsgId}

theorem start (held : Set MsgId) (work : Work) (world : World)
    : Cb.Orderly held { work, world, trace := [] } :=
  { calls := rfl, keeps := List.forall_mem_nil _, followed := trivial }

theorem mono (orderly : s.Orderly held) (subset : held ⊆ after) : s.Orderly after :=
  { orderly with followed := orderly.followed.mono subset }

/-- After a call the messages that it gives away need not be held any more. -/
theorem followed_emit (orderly : s.Orderly held)
    (still : ∀ id ∈ held, id ∈ after ∨ Counted effect.msgAccess.toList id)
    : Followed after (stepAccesses (s.emit effect).steps) := by
  have accesses : stepAccesses [.call effect] = effect.msgAccess.toList := by
    cases isAccess : effect.msgAccess <;> simp [stepAccesses, Step.msgAccess, isAccess]
  have counts : Followed after effect.msgAccess.toList := by
    cases isAccess : effect.msgAccess with
    | none => trivial
    | some access =>
        refine ⟨fun looks => ?_, trivial⟩
        rw [Effect.msgAccess_counts isAccess] at looks
        cases looks
  change Followed after (stepAccesses (s.steps ++ [.call effect]))
  unfold stepAccesses at accesses ⊢
  rw [List.filterMap_append, accesses]
  exact orderly.followed.append counts still

theorem calls_emit (orderly : s.Orderly held)
    : (s.emit effect).steps.filterMap Step.effect = (s.emit effect).trace :=
  List.filterMap_append.trans (congrArg (· ++ [effect]) orderly.calls)

theorem call (orderly : s.Orderly held) (quiet : effect.handsOver = none)
    (still : ∀ id ∈ held, id ∈ after ∨ Counted effect.msgAccess.toList id)
    : (s.emit effect).Orderly after :=
  {
    calls := orderly.calls_emit
    keeps := List.forall_mem_append.mpr
      ⟨orderly.keeps, List.forall_mem_singleton.mpr quiet⟩
    followed := orderly.followed_emit still
  }

theorem emit (orderly : s.Orderly held) (quiet : effect.handsOver = none)
    : (s.emit effect).Orderly held :=
  orderly.call quiet fun _ => Or.inl

theorem give (access : Access) (orderly : s.Orderly (insert access.id held))
    (quiet : effect.handsOver = none) (gives : effect.msgAccess = some access)
    : (s.emit effect).Orderly held := by
  refine orderly.call quiet fun id member => ?_
  rcases Set.mem_insert_iff.mp member with rfl | isHeld
  · rw [gives]
    exact Or.inr ⟨access, List.mem_singleton_self _, Effect.msgAccess_counts gives, rfl⟩
  · exact Or.inl isHeld

/-- Steps that are not calls and look only at messages that are held. -/
theorem looks {t : Cb} (accesses : List Step) (orderly : s.Orderly held)
    (only : ∀ step ∈ accesses, step.Looks held) (trace : t.trace = s.trace)
    (steps : t.steps = s.steps ++ accesses)
    : t.Orderly held := by
  have noCall : ∀ step ∈ accesses, step.effect = none := by
    intro step member
    cases step with
    | call _ => exact (only _ member).elim
    | fields => rfl
    | contents _ => rfl
  have isHeld : ∀ access ∈ stepAccesses accesses, access.id ∈ held := by
    intro access member
    obtain ⟨step, isStep, accessed⟩ := List.mem_filterMap.mp member
    cases step with
    | call _ => exact (only _ isStep).elim
    | fields => cases accessed
    | contents id =>
        cases accessed
        exact only _ isStep
  refine { calls := ?_, keeps := ?_, followed := ?_ }
  · rw [steps, trace, List.filterMap_append, orderly.calls,
      List.filterMap_eq_nil_iff.mpr noCall, List.append_nil]
  · rw [steps]
    refine List.forall_mem_append.mpr ⟨orderly.keeps, fun step member => ?_⟩
    rw [noCall step member]
    rfl
  · rw [steps]
    unfold stepAccesses at isHeld ⊢
    rw [List.filterMap_append]
    exact orderly.followed.append (.of_held isHeld) fun _ => Or.inl

theorem read {accesses : List Step} (orderly : s.Orderly held)
    (only : ∀ step ∈ accesses, step.Looks held)
    : (s.read accesses).Orderly held :=
  orderly.looks accesses only rfl rfl

theorem readFields (orderly : s.Orderly held) : (s.read [.fields]).Orderly held :=
  orderly.read (List.forall_mem_singleton.mpr trivial)

theorem readMsg (orderly : s.Orderly held) (member : id ∈ held)
    : (s.read [.contents id]).Orderly held :=
  orderly.read (List.forall_mem_singleton.mpr member)

theorem readBoth (orderly : s.Orderly held) (member : id ∈ held)
    : (s.read [.fields, .contents id]).Orderly held :=
  orderly.read (List.forall_mem_cons.mpr ⟨trivial, List.forall_mem_singleton.mpr member⟩)

theorem setWork {work : Work} (orderly : s.Orderly held) : (s.setWork work).Orderly held :=
  orderly.looks [.fields] (List.forall_mem_singleton.mpr trivial) rfl rfl

theorem setMsg {change : NngMsg → NngMsg} (orderly : s.Orderly held) (member : id ∈ held)
    : (s.setMsg id change).Orderly held :=
  orderly.looks [.contents id] (List.forall_mem_singleton.mpr member) rfl rfl

theorem setWorld {world : World} (orderly : s.Orderly held)
    : (s.setWorld world).Orderly held :=
  { orderly with }

theorem look (orderly : s.Orderly {id | s.work.msg = some id})
    : s.look.Orderly {id | s.work.msg = some id} := by
  refine orderly.read (List.forall_mem_cons.mpr ⟨trivial, fun step member => ?_⟩)
  obtain ⟨id, isHeld, rfl⟩ := List.mem_map.mp member
  exact Option.mem_toList.mp isHeld

theorem dropMsg (orderly : s.Orderly held) (only : ∀ id ∈ held, s.work.msg = some id)
    : s.dropMsg.Orderly ∅ := by
  unfold Cb.dropMsg
  cases isHeld : s.work.msg with
  | none =>
      refine orderly.mono fun id member => ?_
      cases isHeld.symm.trans (only id member)
  | some id =>
      have one : held ⊆ insert id ∅ := by
        intro other member
        exact Or.inl (Option.some.inj ((only other member).symm.trans isHeld))
      exact (give (.release id) (orderly.mono one) rfl rfl).setWork

theorem clearPublication (orderly : s.Orderly held) : s.clearPublication.Orderly held :=
  (orderly.emit rfl).setWork

theorem webhookEntry (orderly : s.Orderly held) (reason : UInt8)
    : (webhookEntry reason s).Orderly held := by
  have read : (s.emit .cparamRead).Orderly held := orderly.emit rfl
  unfold NanoMQ.webhookEntry
  dsimp only
  split
  · split
    · exact (read.emit rfl).setWork
    · exact (read.emit rfl).setWork
    · exact (read.emit rfl).setWork
    · exact read.setWork
  · exact read

-- Deliveries

/-- By induction on the recipients. -/
theorem sendToEach (orderly : s.Orderly held) (member : id ∈ held) (pipes : List Pid)
    : (sendToEach id pipes s).Orderly held := by
  induction pipes generalizing s with
  | nil => exact orderly
  | cons pipe rest ih => exact ih (((orderly.emit rfl).setWork.setMsg member).emit rfl)

theorem fanOut (orderly : s.Orderly held) (parser : MqttParser) (isHeld : s.work.msg = some id)
    (member : id ∈ held)
    : (fanOut parser s).Orderly held := by
  unfold NanoMQ.fanOut
  rw [isHeld]
  dsimp only
  unfold encodeAndSend
  split
  · exact orderly.readFields
  · dsimp only
    split
    · exact ((orderly.readBoth member).setMsg member).setWork.sendToEach member _
    · exact ((orderly.readBoth member).setMsg member).setWork

/-- By induction on the filters. -/
theorem bridgeForwards (orderly : s.Orderly held) (lib : Library) (env : Env)
    (msg : BridgeMsg) (node : Nat) (filters : List Topic) (asked : Nat)
    : (bridgeForwards lib env msg node filters asked s).2.Orderly held := by
  induction filters generalizing asked s with
  | nil => exact orderly
  | cons filter rest ih =>
      unfold NanoMQ.bridgeForwards
      split
      · dsimp only
        split
        · exact ih orderly.setWork _
        · exact ih (orderly.setWork.emit rfl) _
      · exact ih orderly _

/-- By induction on the nodes. -/
theorem bridgeNodes (orderly : s.Orderly held) (lib : Library) (env : Env)
    (msg : BridgeMsg) (nodes : List BridgeNode) (index asked : Nat)
    : (bridgeNodes lib env msg nodes index asked s).Orderly held := by
  induction nodes generalizing index asked s with
  | nil => exact orderly
  | cons node rest ih =>
      unfold NanoMQ.bridgeNodes
      split
      · exact ih (orderly.bridgeForwards lib env msg index node.forwards asked) _ _
      · exact ih orderly _ _

theorem forwardToBridges (orderly : s.Orderly held) (lib : Library) (env : Env)
    : (forwardToBridges lib env s).Orderly held := by
  have forwarded : (bridgeHandler lib env s).Orderly held :=
    orderly.readFields.bridgeNodes lib env _ _ _ _
  unfold NanoMQ.forwardToBridges
  split
  · dsimp only
    split
    · exact forwarded.emit rfl
    · exact forwarded
  · exact orderly.readFields

/-- The retained messages up to the first that has expired are cloned, changed and sent; that
one is only looked at. By induction on the messages.
-/
theorem sendRetained (orderly : s.Orderly held) (clock : Nat) (pid : Pid)
    {msgRet : List MsgId} (members : ∀ id ∈ msgRet, id ∈ held)
    : (sendRetained clock pid msgRet s).Orderly held := by
  induction msgRet generalizing s with
  | nil => exact orderly
  | cons id rest ih =>
      obtain ⟨member, others⟩ := List.forall_mem_cons.mp members
      unfold NanoMQ.sendRetained
      split
      · have cloned : ((s.read [.contents id]).emit (.msgClone id)).Orderly held :=
          (orderly.readMsg member).emit rfl
        exact ih ((cloned.setMsg member).emit rfl) others
      · exact orderly.readMsg member

-- handle_pub

theorem freeRetained (orderly : s.Orderly held) (old : Option RetainMsg)
    : (s.freeRetained old).Orderly held := by
  cases old with
  | none => exact orderly
  | some entry => exact orderly.emit rfl

theorem handlePubRetain (orderly : s.Orderly held) (member : id ∈ held) (packet : PubPacket)
    (topic : Topic)
    : (handlePubRetain id packet topic s).Orderly held := by
  have cloned : (s.emit (.msgClone id)).Orderly held := orderly.emit rfl
  unfold NanoMQ.handlePubRetain
  dsimp only
  split
  · split
    · refine Orderly.freeRetained (Orderly.setWorld ?_) _
      split
      · exact cloned.readFields.setMsg member
      · exact cloned.readFields
    · exact orderly.setWorld.freeRetained _
  · exact orderly

theorem handlePub (orderly : s.Orderly held) (lib : Library) (env : Env) (proto : Nat)
    (member : id ∈ held)
    : (handlePub lib env proto id s).2.Orderly held := by
  unfold NanoMQ.handlePub
  dsimp only
  split
  · exact (orderly.readBoth member).setWork.emit rfl
  · refine Orderly.emit ?_ rfl
    unfold routePub
    dsimp only
    split
    · exact (orderly.readBoth member).setWork.setWorld
    · exact (orderly.readBoth member).setWork.setWorld.setWork.handlePubRetain member _ _

end Cb.Orderly

end NanoMQ
