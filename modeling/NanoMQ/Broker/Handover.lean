import NanoMQ.Broker.ConnParams
import NanoMQ.Broker.Completion
import NanoMQ.Library.Overlap

/-! What an activation does after it has handed its context over.
Once `nng_aio_finish` or `nng_ctx_recv` has been called, the next activation of the context may
run on another thread, while `server_cb` is still to return. Only the state END has something
left then: it frees `work->cparam`, whatever that is by now.
-/

namespace NanoMQ

open Contexts

section Activation

variable {lib : Library} {env : Env} {work : Work} {world : World} {t : Cb}

/-- A context keeps its connection parameters until it receives again. -/
theorem Turn.param_eq (turn : Turn lib env work world t) (busy : work.state ≠ .RECV)
    : t.work.cparam = work.cparam := by
  cases turn with
  | idle _ _ _ after _ => rw [after]
  | dropped _ state _ _ _ _ => exact absurd state busy
  | rejected _ _ state _ _ _ _ _ _ _ => exact absurd state busy
  | takes state _ _ _ _ _ _ _ => exact absurd state busy
  | delivered _ _ _ _ _ _ leaves _ => exact leaves.param
  | finished _ _ _ _ _ _ _ leaves _ => exact leaves.param
  | nothingToDo _ _ _ leaves _ => exact leaves.param
  | sent _ _ _ _ _ leaves _ => exact leaves.param
  | willPublished _ _ _ _ _ _ _ _ leaves _ _ _ => exact leaves.param
  | ended _ _ _ _ _ _ _ leaves _ => exact leaves.param
  | closed _ _ _ leaves _ _ => exact leaves.param

/-- Only the state END has a step behind the call that hands the context over: it frees the
parameters.
-/
theorem Ready.behind_eq (ready : Ready work world) (permitted : Permitted lib env work world)
    : behind (serverCb lib env work world).steps
      = if work.state = .END then [.call (.connParamFree work.cparam)] else [] := by
  obtain ⟨_, completed, _⟩ := ready.completed permitted
  rw [completed.behind]
  split
  · rename_i ending
    rw [(ready.turn permitted).param_eq (by rw [ending]; exact nofun)]
    rfl
  · rfl

end Activation

-- Overlapping activations

/-- An activation with all its steps. -/
def activateSteps (lib : Library) (env : Env) (work : Work) (world : World)
    : Activation Work World Step :=
  let s := serverCb lib env work world
  { own := s.work, shared := s.world, events := s.steps }

/-- The activations of a context may run whenever it has been handed over, except that it
takes over no message while an earlier activation of it still has a step to do.
-/
structure Timely {Index : Type} (lib : Library) (overlap : Overlap Index Work World Step)
    (index : Index) (env : Env)
    : Prop where
  permitted : Permitted lib env (overlap.system.locals index) overlap.system.shared
  finished
    : (overlap.system.locals index).state = .RECV
      → ∀ step, (index, step) ∉ overlap.unfinished

section Runs

variable {Index : Type} [DecidableEq Index] {lib : Library}
  {first : System Index Work World} {overlap : Overlap Index Work World Step}
  {log : List (Step × Work)}

theorem Overlaps.ready (starts : Starts first) (fresh : ∀ index, (first.locals index).Fresh)
    (notifies : lib.NotifiesPublish)
    (overlaps : Overlaps (activateSteps lib) behind (Timely lib) first overlap log)
    (index : Index)
    : Ready (overlap.system.locals index) overlap.system.shared := by
  obtain ⟨history, reached⟩ := overlaps.reach fun _ _ _ timely => timely.permitted
  have initially : Invariant (fun _ (_ : List Effect) => True) Ready Apart first [] :=
    starts.ready fresh trivial
  have invariant : Invariant (fun _ _ => True) Ready Apart overlap.system history := by
    refine reached.invariant Apart.symm ?_ { initially with globally := trivial }
    intro _ env work world _ permitted _ ready
    have preserved : Preserved (fun _ (_ : List Effect) => True) Ready Apart world [] work
        (activate lib env work world) :=
      ready.preserved notifies permitted trivial
    exact { preserved with globally := trivial }
  exact invariant.own index

/-- However the activations overlap, every step that is done behind a hand-over frees the
parameters of the message that its activation was started for, if no context takes over a
message before that. Behind its hand-over an activation has that step left in END, and nothing
in the other states.
-/
theorem context_handed_over (starts : Starts first)
    (fresh : ∀ index, (first.locals index).Fresh) (notifies : lib.NotifiesPublish)
    (overlaps : Overlaps (activateSteps lib) behind (Timely lib) first overlap log)
    : (∀ met ∈ log, met.1 = .call (.connParamFree met.2.cparam))
      ∧ ∀ index env,
          let work := overlap.system.locals index
          Permitted lib env work overlap.system.shared
          → behind (serverCb lib env work overlap.system.shared).steps
            = if work.state = .END then [.call (.connParamFree work.cparam)] else [] := by
  refine ⟨?_, ?_⟩
  · refine (overlaps.fits (fun step work => step = .call (.connParamFree work.cparam)) ?_ ?_).2
    · intro overlap log earlier index env timely result step left
      have ready := Overlaps.ready starts fresh notifies earlier index
      have steps : behind result.events = _ := ready.behind_eq timely.permitted
      rw [steps] at left
      split at left
      · rename_i ending
        have kept : result.own.cparam = (overlap.system.locals index).cparam :=
          (ready.turn timely.permitted).param_eq (by rw [ending]; exact nofun)
        rw [kept]
        exact List.mem_singleton.mp left
      · cases left
    · intro overlap log earlier index env timely own step pending same
      have ready := Overlaps.ready starts fresh notifies earlier index
      have kept : (activateSteps lib env own overlap.system.shared).own.cparam = own.cparam :=
        (ready.turn timely.permitted).param_eq fun receiving =>
          timely.finished receiving step pending
      rw [kept]
      exact same
  · intro index env work permitted
    exact (Overlaps.ready starts fresh notifies overlaps index).behind_eq permitted

end Runs

/-- The one context after these completions, none of whose activations has gone on behind its
hand-over.
-/
def overlapAfter (completed : List (Option NngMsg)) : Overlap Unit Work World Step :=
  completed.foldl
    (fun overlap msg =>
      overlap.activated (activateSteps (referenceLibrary fun _ => none)) behind ()
        (.brings msg))
    { system := oneContext, unfinished := [] }

theorem overlapAfter_nil (permitted : Overlap Unit Work World Step → Unit → Env → Prop)
    : Overlaps (activateSteps (referenceLibrary fun _ => none)) behind permitted oneContext
        (overlapAfter []) [] :=
  .start

theorem overlapAfter_step {permitted : Overlap Unit Work World Step → Unit → Env → Prop}
    {completed : List (Option NngMsg)} (msg : Option NngMsg)
    (overlaps
      : Overlaps (activateSteps (referenceLibrary fun _ => none)) behind permitted oneContext
          (overlapAfter completed) [])
    (allowed : permitted (overlapAfter completed) () (.brings msg))
    : Overlaps (activateSteps (referenceLibrary fun _ => none)) behind permitted oneContext
        (overlapAfter (completed ++ [msg])) [] := by
  unfold overlapAfter at overlaps allowed ⊢
  rw [List.foldl_append]
  exact .activated () (.brings msg) overlaps allowed

/-- The context of a disconnect event with a will is handed over in END, and the activation
frees the parameters when it goes on.
-/
theorem disconnectEvent_handed_over
    : ∃ overlap log,
        Overlaps (activateSteps (referenceLibrary fun _ => none)) behind
          (Timely (referenceLibrary fun _ => none)) oneContext overlap log
        ∧ log.map Prod.fst = [.call (.connParamFree willParam)]
        ∧ ∀ met ∈ log, met.1 = .call (.connParamFree met.2.cparam) := by
  let completed := [none, some disconnectEvent, none]
  have handedOver
      : Overlaps (activateSteps (referenceLibrary fun _ => none)) behind
          (Timely (referenceLibrary fun _ => none)) oneContext (overlapAfter completed) [] := by
    refine overlapAfter_step none (overlapAfter_step (some disconnectEvent)
      (overlapAfter_step none (overlapAfter_nil _) ?_) ?_) ?_
    · exact { permitted := by decide, finished := nofun }
    · exact { permitted := by decide, finished := fun _ _ => List.not_mem_nil }
    · exact { permitted := by decide, finished := nofun }
  have left
      : (overlapAfter completed).unfinished
        = [] ++ ((), .call (.connParamFree willParam)) :: [] := by
    decide
  have finished := Overlaps.finished () (.call (.connParamFree willParam)) handedOver left
  refine ⟨_, _, finished, rfl, ?_⟩
  exact (context_handed_over oneContext_starts
    (fun _ => { packet := rfl, recipients := rfl, code := rfl })
    (referenceLibrary_notifies _) finished).1

/-- A SUBSCRIBE of another client. -/
def otherSubscribe : NngMsg :=
  .received .SUBSCRIBE [0x82, 6] [0, 7, 0, 1, 97, 0] 2 { ConnParam.plain 4 with id := 5 }

/-- The activation in END is held up until the context has delivered the will and has taken
over a SUBSCRIBE of another client. It then frees the parameters of that client.
-/
theorem end_frees_another
    : ∃ overlap log,
        Overlaps (activateSteps (referenceLibrary fun _ => none)) behind
          (fun overlap index env =>
            Permitted (referenceLibrary fun _ => none) env (overlap.system.locals index)
              overlap.system.shared)
          oneContext overlap log
        ∧ log.map (fun met => (met.1, met.2.cparam))
          = [(.call (.connParamFree willParam), otherSubscribe.connParam)]
        ∧ willParam ≠ otherSubscribe.connParam := by
  let completed := [none, some disconnectEvent, none, none, some otherSubscribe]
  have held
      : Overlaps (activateSteps (referenceLibrary fun _ => none)) behind
          (fun overlap index env =>
            Permitted (referenceLibrary fun _ => none) env (overlap.system.locals index)
              overlap.system.shared)
          oneContext (overlapAfter completed) [] := by
    refine overlapAfter_step (some otherSubscribe) (overlapAfter_step none
      (overlapAfter_step none (overlapAfter_step (some disconnectEvent)
        (overlapAfter_step none (overlapAfter_nil _) ?_) ?_) ?_) ?_) ?_ <;> decide
  have left
      : (overlapAfter completed).unfinished
        = [] ++ ((), .call (.connParamFree willParam)) :: [] := by
    decide
  refine ⟨_, _, .finished () (.call (.connParamFree willParam)) held left, ?_, by decide⟩
  have met : ((overlapAfter completed).system.locals ()).cparam = otherSubscribe.connParam := by
    decide
  rw [List.nil_append, List.map_singleton, met]

end NanoMQ
