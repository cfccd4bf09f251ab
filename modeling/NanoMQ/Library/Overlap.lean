import NanoMQ.Library.Contexts

/-! Activations that overlap.
An activation may hand its context over before it has done everything. What is left is a duty
that it does later, when other activations of the same context may have run, on the state that
it then finds.
-/

namespace Contexts

variable {Index Local Shared Input Event Duty : Type}

/-- A system, and the duties that activations of its contexts still have to do. -/
structure Overlap (Index Local Shared Duty : Type) where
  system : System Index Local Shared
  unfinished : List (Index × Duty)

section Overlaps

variable [DecidableEq Index]
  (activate : Input → Local → Shared → Activation Local Shared Event)
  (duties : List Event → List Duty)
  (permitted : Overlap Index Local Shared Duty → Index → Input → Prop)

/-- The overlap after a context has been activated, up to the point where the activation hands
it over.
-/
def Overlap.activated (overlap : Overlap Index Local Shared Duty) (index : Index)
    (input : Input)
    : Overlap Index Local Shared Duty :=
  let result := activate input (overlap.system.locals index) overlap.system.shared
  {
    system := overlap.system.step activate index input
    unfinished := overlap.unfinished ++ (duties result.events).map (index, ·)
  }

/-- The interleavings of permitted activations with the duties that they leave. The log has
every duty that was done, with the state of its context that it met.
-/
inductive Overlaps (first : System Index Local Shared)
    : Overlap Index Local Shared Duty → List (Duty × Local) → Prop
  | start : Overlaps first { system := first, unfinished := [] } []
  | activated {overlap log} (index : Index) (input : Input)
    (overlaps : Overlaps first overlap log) (allowed : permitted overlap index input)
    : Overlaps first (overlap.activated activate duties index input) log
  | finished {overlap log} {before after : List (Index × Duty)} (index : Index) (duty : Duty)
    (overlaps : Overlaps first overlap log)
    (split : overlap.unfinished = before ++ (index, duty) :: after)
    : Overlaps first { overlap with unfinished := before ++ after }
        (log ++ [(duty, overlap.system.locals index)])

variable {activate duties permitted}

/-- Without its duties an overlap is a run of the system. By induction on the overlap. -/
theorem Overlaps.reach {allowed : Index → Input → Local → Shared → Prop}
    {first : System Index Local Shared} {overlap : Overlap Index Local Shared Duty}
    {log : List (Duty × Local)}
    (overlaps : Overlaps activate duties permitted first overlap log)
    (implies
      : ∀ overlap index input,
          permitted overlap index input
          → allowed index input (overlap.system.locals index) overlap.system.shared)
    : ∃ history, Reach activate allowed first overlap.system history := by
  induction overlaps with
  | start => exact ⟨[], .start⟩
  | activated index input _ permittedHere ih =>
      obtain ⟨history, reached⟩ := ih
      exact ⟨_, .step index input reached (implies _ index input permittedHere)⟩
  | finished _ _ _ _ ih => exact ih

/-- A duty that fits the state its activation leaves, and that every permitted activation of
its context keeps fitting, meets a state that it fits. By induction on the overlap.
-/
theorem Overlaps.fits {first : System Index Local Shared}
    {overlap : Overlap Index Local Shared Duty} {log : List (Duty × Local)}
    (overlaps : Overlaps activate duties permitted first overlap log)
    (Fits : Duty → Local → Prop)
    (leaves
      : ∀ {overlap log},
          Overlaps activate duties permitted first overlap log
          → ∀ {index input},
              permitted overlap index input
              → let result :=
                  activate input (overlap.system.locals index) overlap.system.shared
                ∀ duty ∈ duties result.events, Fits duty result.own)
    (keeps
      : ∀ {overlap log},
          Overlaps activate duties permitted first overlap log
          → ∀ {index input},
              permitted overlap index input
              → let own := overlap.system.locals index
                ∀ duty,
                  (index, duty) ∈ overlap.unfinished
                  → Fits duty own
                  → Fits duty (activate input own overlap.system.shared).own)
    : (∀ entry ∈ overlap.unfinished, Fits entry.2 (overlap.system.locals entry.1))
      ∧ ∀ met ∈ log, Fits met.1 met.2 := by
  induction overlaps with
  | start => exact ⟨List.forall_mem_nil _, List.forall_mem_nil _⟩
  | @activated overlap log index input earlier allowed ih =>
      refine ⟨?_, ih.2⟩
      intro entry member
      rcases List.mem_append.mp member with pending | fresh
      · by_cases same : entry.1 = index
        · obtain ⟨_, duty⟩ := entry
          dsimp only at same
          subst same
          have kept := keeps earlier allowed duty pending (ih.1 _ pending)
          simpa [Overlap.activated, System.step] using kept
        · have untouched := ih.1 entry pending
          simpa [Overlap.activated, System.step, same] using untouched
      · obtain ⟨duty, left, rfl⟩ := List.mem_map.mp fresh
        have fits := leaves earlier allowed duty left
        simpa [Overlap.activated, System.step] using fits
  | @finished overlap log before after index duty earlier split ih =>
      rw [split] at ih
      obtain ⟨pending, met⟩ := ih
      refine ⟨?_, ?_⟩
      · intro entry member
        refine pending entry ?_
        rcases List.mem_append.mp member with early | late
        · exact List.mem_append_left _ early
        · exact List.mem_append_right _ (List.mem_cons_of_mem _ late)
      · refine List.forall_mem_append.mpr ⟨met, List.forall_mem_singleton.mpr ?_⟩
        exact pending (index, duty) (List.mem_append_right _ List.mem_cons_self)

end Overlaps

end Contexts
