import NanoMQ.Broker.Reference
import NanoMQ.Broker.Completion

/-! Ownership of message objects.
Every message that a context obtains is given back once for each reference to it, by freeing
or by sending it. What is left at any time are the message that a context works on and the
messages in `db_ret`.
-/

namespace NanoMQ

open Contexts References

-- Calls on messages

def msgAccesses (calls : List Effect) : List Access :=
  calls.filterMap Effect.msgAccess

/-- The messages in `db_ret`. -/
def storedMsgs (retained : Topic → Option RetainMsg) (topic : Topic) : Option MsgId :=
  (retained topic).map RetainMsg.message

/-- The books of a context. -/
def books (work : Work) (world : World) : Books Topic :=
  { hand := work.hand.toList, stored := storedMsgs world.retained, next := world.nextMsg }

section Blocks

variable {effects more : List Effect} {start : Books Topic}

@[simp]
theorem msgAccesses_append
    : msgAccesses (effects ++ more) = msgAccesses effects ++ msgAccesses more :=
  List.filterMap_append

/-- Without the looks the accesses are those of the calls. By induction on the steps. -/
theorem filter_stepAccesses (steps : List Step)
    : (stepAccesses steps).filter Access.counts
      = msgAccesses (steps.filterMap Step.effect) := by
  unfold stepAccesses msgAccesses
  rw [List.filter_filterMap, List.filterMap_filterMap]
  congr 1
  funext step
  cases step with
  | call effect =>
      cases isAccess : effect.msgAccess with
      | none => simp [Step.msgAccess, Step.effect, isAccess]
      | some access =>
          simp [Step.msgAccess, Step.effect, isAccess, Effect.msgAccess_counts isAccess]
  | fields => rfl
  | contents id => rfl

theorem plays_quiet (valid : start.Valid) (quiet : msgAccesses effects = [])
    : start.Plays (msgAccesses effects) start := by
  rw [quiet]
  exact .refl valid

theorem Hooks.msgAccesses (reports : Hooks effects) : msgAccesses effects = [] :=
  reports.filterMap_eq_nil rfl fun _ _ => rfl

theorem Forwards.msgAccesses (bridges : Forwards effects) : msgAccesses effects = [] :=
  bridges.filterMap_eq_nil (fun _ _ => rfl) rfl

theorem Records.msgAccesses (records : Records effects) : msgAccesses effects = [] := by
  cases records with
  | nothing => rfl
  | inserted => rfl

theorem Attaches.msgAccesses (attaches : Attaches effects) : msgAccesses effects = [] := by
  cases attaches with
  | nothing => rfl
  | will _ _ => rfl

/-- Every message that is delivered is cloned for it, by induction on the deliveries. -/
theorem Deliveries.plays {allowed : MsgId → Prop} (valid : start.Valid)
    (deliveries : Deliveries allowed effects) (known : ∀ id, allowed id → start.Known id)
    : start.Plays (msgAccesses effects) start := by
  induction deliveries with
  | nil => exact .refl valid
  | @cons id rest isAllowed msg _ ih =>
      have cloned := Books.Plays.clone valid (known id isAllowed)
      have sent := Books.Plays.release_head cloned.valid rfl
      exact (cloned.trans sent).trans ih

theorem Deliveries.plays_held {id : MsgId} (valid : start.Valid)
    (deliveries : Deliveries (· = id) effects) (member : id ∈ start.hand)
    : start.Plays (msgAccesses effects) start :=
  deliveries.plays valid fun _ same => Or.inl (same ▸ member)

theorem freeHeld_plays {held : Option MsgId} (hand : List MsgId) (valid : start.Valid)
    (isHeld : start.hand = held.toList ++ hand)
    : start.Plays (msgAccesses (freeHeld held)) { start with hand } := by
  cases held with
  | none =>
      have same : { start with hand } = start := by
        rw [← show start.hand = hand from isHeld]
      rw [same]
      exact .refl valid
  | some id => exact Books.Plays.release_head valid isHeld

theorem storedMsgs_update (retained : Topic → Option RetainMsg) (topic : Topic)
    (entry : Option RetainMsg)
    : storedMsgs (Function.update retained topic entry)
      = Function.update (storedMsgs retained) topic (entry.map RetainMsg.message) := by
  funext other
  unfold storedMsgs
  rcases eq_or_ne other topic with rfl | different
  · rw [Function.update_self, Function.update_self]
  · rw [Function.update_of_ne different, Function.update_of_ne different]

/-- Storing a message clones it for `db_ret`; the message of a replaced entry is freed. -/
theorem Keeps.plays {id : MsgId} {before after : Topic → Option RetainMsg}
    (valid : start.Valid) (keeps : Keeps id before after effects)
    (stored : start.stored = storedMsgs before) (member : id ∈ start.hand)
    (unstored : ¬∃ topic, start.stored topic = some id)
    : start.Plays (msgAccesses effects) { start with stored := storedMsgs after } := by
  cases keeps with
  | nothing =>
      rw [← stored]
      exact .refl valid
  | stored topic qos =>
      have cloned := Books.Plays.clone valid (Or.inl member)
      have put := Books.Plays.replace cloned.valid topic rfl unstored
      have freed := freeHeld_plays start.hand put.valid rfl
      have played := (cloned.trans put).trans freed
      rw [storedMsgs_update, ← stored]
      rw [stored] at played ⊢
      exact played
  | deleted topic =>
      have taken := Books.Plays.take valid topic
      have freed := freeHeld_plays start.hand taken.valid rfl
      have played := taken.trans freed
      rw [storedMsgs_update, ← stored]
      rw [stored] at played ⊢
      exact played

theorem Handles.plays {id : MsgId} {before after : Topic → Option RetainMsg}
    (valid : start.Valid) (handles : Handles id before after effects)
    (stored : start.stored = storedMsgs before) (member : id ∈ start.hand)
    (unstored : ¬∃ topic, start.stored topic = some id)
    : start.Plays (msgAccesses effects) { start with stored := storedMsgs after } := by
  obtain ⟨keeps, proto, msg, packet, code, topic⟩ := handles
  have played := keeps.plays valid stored member unstored
  rw [msgAccesses_append]
  exact played.trans (.refl played.valid)

theorem unstored_next (valid : start.Valid) : ¬∃ topic, start.stored topic = some start.next := by
  rintro ⟨topic, kept⟩
  exact Nat.lt_irrefl _ (valid.stored topic _ kept)

end Blocks

-- Activations

section Activations

variable {lib : Library} {env : Env} {work : Work} {world : World} {t : Cb}

theorem Leaves.books_eq {state : WorkState} {held : Option MsgId} {packet : Bool}
    {cparam : ConnParam} (leaves : Leaves work t.work state held packet cparam)
    : books t.work t.world
      = {
          hand := (handIn state held).toList
          stored := storedMsgs t.world.retained
          next := t.world.nextMsg
        } := by
  unfold books Work.hand
  rw [leaves.entered, leaves.held]

/-- The books of a context that has just taken over a message. -/
def holding (id : MsgId) (world : World) : Books Topic :=
  { hand := [id], stored := storedMsgs world.retained, next := world.nextMsg }

theorem Passes.plays {id : MsgId} {calls : List Effect} {start : Books Topic}
    (valid : start.Valid) (passes : Passes id calls) (member : id ∈ start.hand)
    : start.Plays (msgAccesses calls) start := by
  cases passes with
  | nothing => exact .refl valid
  | returned msg =>
      have cloned := Books.Plays.clone valid (Or.inl member)
      exact cloned.trans (.release_head cloned.valid rfl)

/-- A reply is obtained and sent at once. -/
theorem Resumes.plays {arrived : World} {count : Nat} {arm : Effect} {start : Books Topic}
    (valid : start.Valid) (resumes : Resumes arrived count arm)
    (next : start.next = arrived.nextMsg)
    : start.Plays (msgAccesses [arm]) { start with next := start.next + count } := by
  cases resumes with
  | finish => exact .refl valid
  | reply msg =>
      have obtained := Books.Plays.obtain valid
      have sent := Books.Plays.release_head obtained.valid rfl
      rw [next] at sent
      exact obtained.trans sent

/-- A SUBSCRIBE leaves `db_ret` as it is. -/
theorem TakesOver.retained_eq {arrived : World} {id : MsgId} {msg : NngMsg} {calls : List Effect}
    (takes : TakesOver lib env work arrived id msg t calls) (kind : msg.cmdType = .SUBSCRIBE)
    : t.world.retained = arrived.retained := by
  cases takes with
  | refusedSubscribe _ _ obtains => exact obtains.retained
  | subscribed _ _ _ _ obtains => exact obtains.retained
  | unsubscribed _ other _ _ => cases kind.symm.trans other
  | published other _ _ _ _ _ _ => cases kind.symm.trans other
  | refusedPublish other _ _ _ => cases kind.symm.trans other
  | connected other _ _ _ _ _ _ => cases kind.symm.trans other
  | disconnected other _ _ _ _ _ => cases kind.symm.trans other
  | willLeft other _ _ _ _ _ _ => cases kind.symm.trans other
  | ignored notSubscribe _ _ _ _ _ _ _ => exact absurd kind notSubscribe

/-- A message that is taken over is given back, or still held afterwards. -/
theorem TakesOver.plays {arrived : World} {id : MsgId} {msg : NngMsg} {calls : List Effect}
    (valid : (holding id arrived).Valid)
    (unstored : ¬∃ topic, storedMsgs arrived.retained topic = some id)
    (collects
      : msg.cmdType = .SUBSCRIBE
        → ∀ other ∈ collectedRetained lib env arrived msg,
            ∃ topic, storedMsgs arrived.retained topic = some other)
    (takes : TakesOver lib env work arrived id msg t calls)
    : (holding id arrived).Plays (msgAccesses calls) (books t.work t.world) := by
  have member : id ∈ (holding id arrived).hand := List.mem_cons_self
  cases takes with
  | refusedSubscribe kind leaves obtains =>
      rw [leaves.books_eq, obtains.retained, obtains.next]
      exact .refl valid
  | subscribed ack kind deliveries leaves obtains =>
      have sent := deliveries.plays valid fun other collected =>
        Or.inr (collects kind other collected)
      rw [leaves.books_eq, obtains.retained, obtains.next, msgAccesses_append]
      exact sent.trans (.release_head sent.valid rfl)
  | unsubscribed ack kind leaves obtains =>
      rw [leaves.books_eq, obtains.retained, obtains.next]
      exact .release_head valid rfl
  | @published state _ _ _ kind goesOn handles resumes leaves type next =>
      have handled := handles.plays valid rfl member unstored
      have resumed := resumes.plays handled.valid rfl
      have hand : handIn state (some id) = some id := by
        rcases goesOn with rfl | rfl
        · rfl
        · rfl
      rw [leaves.books_eq, next, hand, msgAccesses_append]
      exact handled.trans resumed
  | refusedPublish kind handles leaves next =>
      have handled := handles.plays valid rfl member unstored
      rw [leaves.books_eq, next, msgAccesses_append]
      exact handled.trans (.refl handled.valid)
  | connected kind passes reports handles leaves type next =>
      -- The notification takes the place of the CONNACK, which is freed before.
      have passed := passes.plays valid member
      have reported := plays_quiet valid reports.msgAccesses
      have freed := Books.Plays.release_head valid rfl
      have obtained := Books.Plays.obtain freed.valid
      have handled := handles.plays obtained.valid rfl List.mem_cons_self
        (unstored_next freed.valid)
      rw [leaves.books_eq, next]
      simp only [msgAccesses_append]
      exact ((passed.trans reported).trans (freed.trans (obtained.trans handled))).trans
        (.refl handled.valid)
  | disconnected kind reports handles leaves type next =>
      have reported := plays_quiet valid reports.msgAccesses
      have handled := handles.plays valid rfl member unstored
      rw [leaves.books_eq, next]
      simp only [msgAccesses_append]
      exact (reported.trans handled).trans (.refl handled.valid)
  | willLeft kind hasWill reports handles leaves type next =>
      have reported := plays_quiet valid reports.msgAccesses
      have handled := handles.plays valid rfl member unstored
      rw [leaves.books_eq, next]
      simp only [msgAccesses_append]
      exact (reported.trans handled).trans (.refl handled.valid)
  | ignored _ _ _ _ _ leaves type obtains =>
      rw [leaves.books_eq, obtains.retained, obtains.next]
      exact .refl valid

/-- The message that is taken over has been obtained, the one it was unpacked from freed. -/
theorem Arrives.plays {id : MsgId} {arrival : List Effect} {arrived : World}
    (valid : (books work world).Valid) (receiving : work.state = .RECV)
    (arrives : Arrives world id arrival) (next : arrived.nextMsg = id + 1)
    (retained : arrived.retained = world.retained)
    : (books work world).Plays (msgAccesses arrival) (holding id arrived)
      ∧ ¬∃ topic, storedMsgs arrived.retained topic = some id := by
  have empty : (books work world).hand = [] := by
    unfold books Work.hand
    rw [receiving]
    rfl
  have obtained := Books.Plays.obtain valid
  have same : (books work world).obtain = holding world.nextMsg
      { world with nextMsg := world.nextMsg + 1 } := by
    unfold Books.obtain
    rw [empty]
    rfl
  rw [same] at obtained
  unfold holding
  rw [next, retained]
  cases arrives with
  | received => exact ⟨obtained, unstored_next valid⟩
  | upstream cparam => exact ⟨obtained, unstored_next valid⟩
  | unpacked =>
      have freed := Books.Plays.release_head obtained.valid rfl
      exact ⟨obtained.trans (freed.trans (.obtain freed.valid)), unstored_next freed.valid⟩

/-- An activation that gives back what it obtains: what arrives from the HTTP server or the
AWS bridge is a PUBLISH, and the retained messages that a SUBSCRIBE collects are those of
`db_ret`.
-/
structure Releasing (lib : Library) (env : Env) (work : Work) (world : World) : Prop where
  permitted : Permitted lib env work world
  unpacks
    : work.state = .RECV
      → work.proto = .HTTP_SERVER ∨ work.proto = .AWS_BRIDGE
      → ∀ msg, env.aioMsg = some msg
        → (decodeCommonMqttMsg lib env.freshCparam env.stray msg).value.type = PUBLISH
  collects
    : work.state = .RECV
      → ∀ msg, takenOver lib env work = some msg
        → msg.cmdType = .SUBSCRIBE
        → ∀ id ∈ collectedRetained lib env world msg,
            ∃ topic, storedMsgs world.retained topic = some id

theorem books_eq {state : WorkState} {msg : Option MsgId} (isIn : work.state = state)
    (held : work.msg = msg)
    : books work world
      = {
          hand := (handIn state msg).toList
          stored := storedMsgs world.retained
          next := world.nextMsg
        } := by
  unfold books Work.hand
  rw [isIn, held]

theorem plays_same {calls : List Effect} (valid : (books work world).Valid)
    (quiet : msgAccesses calls = []) (hand : t.work.hand = work.hand)
    (obtains : Obtains world t 0)
    : (books work world).Plays (msgAccesses calls) (books t.work t.world) := by
  have same : books t.work t.world = books work world := by
    unfold books
    rw [hand, obtains.retained, obtains.next]
    rfl
  rw [quiet, same]
  exact .refl valid

/-- The calls of one activation on messages. Witness: the cases of an activation; what it
obtains is obtained where it is needed.
-/
theorem Turn.plays (valid : (books work world).Valid)
    (releasing : Releasing lib env work world) (turn : Turn lib env work world t)
    : (books work world).Plays (msgAccesses t.trace) (books t.work t.world) := by
  cases turn with
  | idle extra state trace after obtains =>
      rw [trace]
      refine plays_same valid rfl ?_ obtains
      rw [after]
      rcases state with initial | ⟨receiving, _⟩
      · unfold Work.hand
        rw [initial]
        rfl
      · unfold Work.hand
        rw [receiving]
  | dropped extra state nothing trace after obtains =>
      have empty : (books work world).hand = [] := by rw [books_eq state rfl]; rfl
      have obtained := Books.Plays.obtain valid
      have freed := Books.Plays.release_head obtained.valid rfl
      have same : books t.work t.world = { (books work world).obtain with hand := [] } := by
        unfold books
        rw [after, obtains.retained, obtains.next]
        rw [← empty]
        rfl
      rw [trace, same]
      rw [empty] at freed
      exact obtained.trans freed
  | rejected extra cparam state inproc brings other nothing trace after obtains =>
      exact absurd (releasing.unpacks state inproc _ brings) other
  | @takes id msg arrival calls arrived state taken arrives next retained stores takes trace =>
      obtain ⟨received, unstored⟩ := arrives.plays valid state next retained
      have collected
          : collectedRetained lib env arrived msg = collectedRetained lib env world msg := by
        unfold collectedRetained
        rw [retained, stores]
      have handled := takes.plays received.valid unstored fun kind => by
        rw [collected, retained]
        exact releasing.collects state _ taken kind
      rw [trace, msgAccesses_append]
      exact received.trans handled
  | delivered state held publish deliveries bridges trace leaves obtains =>
      rw [books_eq state held] at valid ⊢
      have sent := deliveries.plays_held valid List.mem_cons_self
      have forwarded := plays_quiet valid bridges.msgAccesses
      rw [leaves.books_eq, obtains.retained, obtains.next, trace]
      simp only [msgAccesses_append]
      exact (sent.trans forwarded).trans (.refl valid)
  | finished extra state held publish deliveries bridges trace leaves obtains =>
      rw [books_eq state held] at valid ⊢
      have sent := deliveries.plays_held valid List.mem_cons_self
      have forwarded := plays_quiet valid bridges.msgAccesses
      have freed := Books.Plays.release_head valid rfl
      rw [leaves.books_eq, obtains.retained, obtains.next, trace]
      simp only [msgAccesses_append]
      exact (sent.trans forwarded).trans freed
  | nothingToDo state other trace leaves obtains =>
      rw [books_eq state rfl] at valid ⊢
      have freed := freeHeld_plays [] valid (List.append_nil _).symm
      rw [leaves.books_eq, obtains.retained, obtains.next, trace, msgAccesses_append]
      exact freed.trans (.refl freed.valid)
  | sent extra state records reports trace leaves obtains =>
      rw [books_eq state rfl] at valid ⊢
      have recorded := plays_quiet valid records.msgAccesses
      have reported := plays_quiet valid reports.msgAccesses
      have freed := freeHeld_plays [] valid (List.append_nil _).symm
      have packet
          : msgAccesses (if work.pubPacket.isSome then [.freePubPacket] else []) = [] := by
        split
        · rfl
        · rfl
      rw [leaves.books_eq, obtains.retained, obtains.next, trace]
      simp only [msgAccesses_append, packet]
      exact (((recorded.trans reported).trans freed).trans (.refl freed.valid)).trans
        (.refl freed.valid)
  | willPublished state held deliveries reports flagged handles attaches trace leaves _ _ next =>
      rw [books_eq state held] at valid ⊢
      have sent := deliveries.plays_held valid List.mem_cons_self
      have reported := plays_quiet valid reports.msgAccesses
      have freed := Books.Plays.release_head valid rfl
      have obtained := Books.Plays.obtain freed.valid
      have handled := handles.plays obtained.valid rfl List.mem_cons_self
        (unstored_next freed.valid)
      have attached := plays_quiet handled.valid attaches.msgAccesses
      rw [leaves.books_eq, next, trace]
      simp only [msgAccesses_append]
      exact ((((sent.trans reported).trans freed).trans (obtained.trans handled)).trans
        attached).trans (.refl handled.valid)
  | ended extra state held deliveries reports unflagged trace leaves obtains =>
      rw [books_eq state held] at valid ⊢
      have sent := deliveries.plays_held valid List.mem_cons_self
      have reported := plays_quiet valid reports.msgAccesses
      have freed := Books.Plays.release_head valid rfl
      rw [leaves.books_eq, obtains.retained, obtains.next, trace]
      simp only [msgAccesses_append]
      exact ((sent.trans reported).trans freed).trans (.refl freed.valid)
  | closed disconnect state trace leaves cleared obtains =>
      rw [books_eq state rfl] at valid ⊢
      have freed := freeHeld_plays [] valid (List.append_nil _).symm
      have obtained := Books.Plays.obtain freed.valid
      have sent := Books.Plays.release_head obtained.valid rfl
      rw [leaves.books_eq, obtains.retained, obtains.next, trace, msgAccesses_append]
      exact freed.trans (obtained.trans sent)

end Activations

-- Runs

/-- The messages in `db_ret` exist, each in one entry. -/
structure Filed (world : World) : Prop where
  obtained : ∀ topic id, storedMsgs world.retained topic = some id → id < world.nextMsg
  distinct : Distinct (storedMsgs world.retained)

section Runs

variable {Index : Type} {lib : Library} {first system : System Index Work World}
  {history : List Effect}

/-- The message that each context has to give back. -/
def hands (system : System Index Work World) (index : Index) : Option MsgId :=
  (system.locals index).hand

/-- The references to a message: one of the context that works on it and one of `db_ret`.
A message that will still be obtained comes with one reference.
-/
noncomputable def references (system : System Index Work World) : MsgId → Nat :=
  agentRefs (hands system) (storedMsgs system.shared.retained) system.shared.nextMsg

theorem Work.msg_of_hand {work : Work} {id : MsgId} (holds : work.hand = some id)
    : work.msg = some id := by
  unfold Work.hand handIn at holds
  split at holds
  · cases holds
  · cases holds
  all_goals exact holds

theorem Ready.books_valid {work : Work} {world : World} (ready : Ready work world)
    (filed : Filed world)
    : (books work world).Valid :=
  {
    hand := fun id member =>
      ready.holds.known id (Work.msg_of_hand (Option.mem_toList.mp member))
    stored := filed.obtained
    distinct := filed.distinct
  }

theorem hands_distinct {Global : World → List Effect → Prop}
    (invariant : Invariant Global Ready Apart system history)
    : Distinct (hands system) := by
  intro left right id inLeft inRight
  by_contra different
  exact invariant.apart left right different id (Work.msg_of_hand inLeft)
    (Work.msg_of_hand inRight)

variable [DecidableEq Index]

theorem Ready.filed {env : Env} {work : Work} {world : World} (ready : Ready work world)
    (filed : Filed world) (releasing : Releasing lib env work world)
    : Filed (serverCb lib env work world).world := by
  have plays := (ready.turn releasing.permitted).plays (ready.books_valid filed) releasing
  exact { obtained := plays.valid.stored, distinct := plays.valid.distinct }

theorem Starts.releasing (starts : Starts first)
    (fresh : ∀ index, (first.locals index).Fresh) (notifies : lib.NotifiesPublish)
    (reached : Reach (activate lib) (fun _ => Releasing lib) first system history)
    : Invariant (fun world _ => Filed world) Ready Apart system history := by
  refine reached.invariant Apart.symm ?_ (starts.ready fresh ?_)
  · intro _ _ _ _ _ releasing filed ready
    exact ready.preserved notifies releasing.permitted (ready.filed filed releasing)
  · have empty : ∀ topic, storedMsgs first.shared.retained topic = none := fun topic =>
      congrArg (Option.map RetainMsg.message) (starts.retained topic)
    exact {
      obtained := fun topic _ kept => nomatch (empty topic).symm.trans kept
      distinct := fun topic _ _ kept => nomatch (empty topic).symm.trans kept
    }

theorem hands_step (index : Index) (env : Env)
    : hands (system.step (activate lib) index env)
      = Function.update (hands system) index
          (serverCb lib env (system.locals index) system.shared).work.hand := by
  funext other
  unfold hands System.step
  dsimp only
  rcases eq_or_ne other index with rfl | different
  · rw [Function.update_self, Function.update_self]
    rfl
  · rw [Function.update_of_ne different, Function.update_of_ne different]

section Activation

variable (index : Index) (env : Env)
  (invariant : Invariant (fun world _ => Filed world) Ready Apart system history)
  (stillDistinct : Distinct (hands (system.step (activate lib) index env)))
  (releasing : Releasing lib env (system.locals index) system.shared)

include invariant stillDistinct releasing

/-- The calls of one activation lead from the references before it to those after it. -/
theorem references_step
    : replay (references system)
        (msgAccesses (activate lib env (system.locals index) system.shared).events)
      = some (references (system.step (activate lib) index env)) := by
  have ready := invariant.own index
  have plays := (ready.turn releasing.permitted).plays
    (ready.books_valid invariant.globally) releasing
  rw [hands_step] at stillDistinct
  have known : ∀ agent id, hands system agent = some id → id < system.shared.nextMsg :=
    fun agent id held => (invariant.own agent).holds.known id (Work.msg_of_hand held)
  unfold references
  rw [hands_step]
  exact plays.agents rfl rfl (hands_distinct invariant) stillDistinct known

theorem accesses_step
    : replay (references system)
        (stepAccesses (serverCb lib env (system.locals index) system.shared).steps)
      = some (references (system.step (activate lib) index env)) := by
  obtain ⟨held, completed, hand⟩ := (invariant.own index).completed releasing.permitted
  have left : held ⊆ {id | 0 < references (system.step (activate lib) index env) id} := by
    have unpacks : Unpacks lib env (system.locals index) ∨ (system.locals index).state ≠ .RECV := by
      by_cases receiving : (system.locals index).state = .RECV
      · exact Or.inl (releasing.unpacks receiving)
      · exact Or.inr receiving
    intro id member
    rcases hand unpacks id member with isHand | ⟨receiving, msg, taken, kind, collected⟩
    · refine agentRefs_of_known (Or.inl ⟨index, ?_⟩)
      rw [hands_step, Function.update_self]
      exact isHand
    · obtain ⟨topic, kept⟩ := releasing.collects receiving msg taken kind id collected
      obtain ⟨_, _, _, _, _, before, takes, _⟩ :=
        ((invariant.own index).turn releasing.permitted).of_taken receiving taken
      refine agentRefs_of_known (Or.inr ⟨topic, ?_⟩)
      change storedMsgs (serverCb lib env _ system.shared).world.retained topic = some id
      rw [takes.retained_eq kind, before]
      exact kept
  refine replay_of_followed (completed.followed.mono left) ?_
  rw [filter_stepAccesses, completed.calls]
  exact references_step index env invariant stillDistinct releasing

end Activation

/-- The calls of a whole run lead from the references at its start to those at its end.
Witness: induction on the run.
-/
theorem references_replay (starts : Starts first)
    (fresh : ∀ index, (first.locals index).Fresh) (notifies : lib.NotifiesPublish)
    (reached : Reach (activate lib) (fun _ => Releasing lib) first system history)
    : replay (references first) (msgAccesses history) = some (references system) := by
  induction reached with
  | start => rfl
  | step index env before releasing ih =>
      have invariant := Starts.releasing starts fresh notifies before
      have after := Starts.releasing starts fresh notifies (.step index env before releasing)
      rw [msgAccesses_append, replay_append, ih]
      exact references_step index env invariant (hands_distinct after) releasing

/-- Before a run every message that it will obtain has one reference, and no other is used. -/
def unused (first : System Index Work World) (id : MsgId) : Nat :=
  if id < first.shared.nextMsg then 0 else 1

omit [DecidableEq Index] in
theorem Starts.references_eq (starts : Starts first) : references first = unused first := by
  have unheld : ∀ id, storedRefs (hands first) id = 0 := by
    intro id
    apply storedRefs_of_unstored
    rintro ⟨index, holds⟩
    exact nomatch (starts.idle index).symm.trans (Work.msg_of_hand holds)
  have unstored : ∀ id, storedRefs (storedMsgs first.shared.retained) id = 0 := by
    intro id
    apply storedRefs_of_unstored
    rintro ⟨topic, kept⟩
    unfold storedMsgs at kept
    rw [starts.retained topic] at kept
    cases kept
  funext id
  unfold references agentRefs unused
  rw [unheld, unstored]

/-- In every run no message is used after its last reference has been given back, what a
context works on is referenced, and a message has been released once more than it was cloned,
less the references that its context and `db_ret` still have. Nor does an activation look at a
message or change it after that: its accesses replay together with its calls.
-/
theorem messages_released (starts : Starts first)
    (fresh : ∀ index, (first.locals index).Fresh) (notifies : lib.NotifiesPublish)
    (reached : Reach (activate lib) (fun _ => Releasing lib) first system history)
    : replay (unused first) (msgAccesses history) = some (references system)
      ∧ (∀ index id, (system.locals index).hand = some id → 0 < references system id)
      ∧ (∀ id,
          first.shared.nextMsg ≤ id
          → (msgAccesses history).count (.release id) + references system id
            = 1 + (msgAccesses history).count (.clone id))
      ∧ ∀ index env,
          let work := system.locals index
          Releasing lib env work system.shared
          → replay (references system)
              (stepAccesses (serverCb lib env work system.shared).steps)
            = some (references (system.step (activate lib) index env)) := by
  have replayed := references_replay starts fresh notifies reached
  rw [starts.references_eq] at replayed
  refine ⟨replayed, fun index _ holds => agentRefs_of_known (Or.inl ⟨index, holds⟩), ?_, ?_⟩
  · intro id later
    have balance := replay_balance id replayed
    have one : unused first id = 1 := if_neg (Nat.not_lt.mpr later)
    rw [one] at balance
    exact balance
  · intro index env work releasing
    have after := Starts.releasing starts fresh notifies (.step index env reached releasing)
    exact accesses_step index env (Starts.releasing starts fresh notifies reached)
      (hands_distinct after) releasing

end Runs

/-- A PUBLISH that is retained. -/
def retainedPublish : NngMsg :=
  composePublish true 0 [97] [120] MQTT_PROTOCOL_VERSION_v311

theorem broker_releasing {lib : Library} {env : Env} {work : Work} {world : World}
    (permitted : Permitted lib env work world) (broker : work.proto = .MQTT_BROKER)
    (other : ∀ msg, takenOver lib env work = some msg → msg.cmdType ≠ .SUBSCRIBE)
    : Releasing lib env work world :=
  {
    permitted
    unpacks := fun _ inproc => by
      rw [broker] at inproc
      rcases inproc with http | aws
      · cases http
      · cases aws
    collects := fun _ msg taken kind => absurd kind (other msg taken)
  }

/-- A retained PUBLISH has been cloned for `db_ret` and released by its context, and
`db_ret` is left with a reference.
-/
theorem retainedPublish_released
    : let lib := referenceLibrary fun _ => none
      let schedule := completions [none, some retainedPublish, none]
      let calls := msgAccesses (oneContext.log (activate lib) schedule)
      calls = [.clone 0, .release 0]
      ∧ calls.count (.release 0)
          + references (oneContext.run (activate lib) schedule) 0
        = 1 + calls.count (.clone 0) := by
  have permits
      : oneContext.Permits (activate (referenceLibrary fun _ => none))
          (fun _ => Releasing (referenceLibrary fun _ => none))
          (completions [none, some retainedPublish, none]) :=
    ⟨broker_releasing (by decide) rfl (by decide), broker_releasing (by decide) rfl (by decide),
      broker_releasing (by decide) rfl (by decide), trivial⟩
  have released := messages_released oneContext_starts
    (fun _ => { packet := rfl, recipients := rfl, code := rfl })
    (referenceLibrary_notifies fun _ => none)
    (.run _ .start (completions [none, some retainedPublish, none]) permits)
  exact ⟨by decide, released.2.2.1 0 (Nat.zero_le _)⟩

/-- A broker with one context that serves the HTTP server. -/
def inprocContext : System Unit Work World :=
  { locals := fun _ => .idle .HTTP_SERVER, shared := .empty }

/-- An inproc message that packs a PINGREQ. -/
def packedPingreq : NngMsg :=
  .received (.other 0) [] [0, 0, 0, 2, 0xC0, 0, 0, 0, 0, 0, 0, 0, 0, 0, 4] 0 (.plain 4)

/-- The message that was unpacked is neither released nor held by anyone. -/
theorem packedPingreq_leaked
    : let lib := referenceLibrary fun _ => none
      let schedule := completions [none, some packedPingreq]
      let after := inprocContext.run (activate lib) schedule
      let calls := msgAccesses (inprocContext.log (activate lib) schedule)
      Starts inprocContext
      ∧ inprocContext.Permits (activate lib) (fun _ => Permitted lib) schedule
      ∧ after.shared.nextMsg = 2
      ∧ calls = [.release 0]
      ∧ (after.locals ()).hand = none
      ∧ (∀ topic, storedMsgs after.shared.retained topic = none)
      ∧ calls.count (.release 1) ≠ 1 + calls.count (.clone 1) := by
  refine ⟨?_, by decide, by decide, by decide, by decide, fun _ => rfl, by decide⟩
  exact {
    init := fun _ => rfl
    idle := fun _ => rfl
    aliases := fun _ _ => rfl
    retained := fun _ => rfl
  }

end NanoMQ
