import Mathlib

/-! Contexts that take turns on a shared state and log what they do.
An activation of one context is atomic; between two of its activations the others may run.
-/

namespace Contexts

-- Logs

section Log

variable {Event View : Type} {allowed : Event → Prop} {before middle after : List Event}

/-- The log was extended by allowed events only. -/
def Grows (allowed : Event → Prop) (before after : List Event) : Prop :=
  ∃ added, after = before ++ added ∧ ∀ event ∈ added, allowed event

theorem Grows.refl (log : List Event) : Grows allowed log log :=
  ⟨[], (List.append_nil log).symm, List.forall_mem_nil _⟩

theorem Grows.trans (first : Grows allowed before middle)
    (second : Grows allowed middle after)
    : Grows allowed before after := by
  obtain ⟨added, rfl, addedAllowed⟩ := first
  obtain ⟨more, rfl, moreAllowed⟩ := second
  exact ⟨added ++ more, List.append_assoc _ _ _,
    List.forall_mem_append.mpr ⟨addedAllowed, moreAllowed⟩⟩

theorem Grows.snoc {event : Event} (grown : Grows allowed before after)
    (permitted : allowed event)
    : Grows allowed before (after ++ [event]) :=
  grown.trans ⟨[event], rfl, List.forall_mem_singleton.mpr permitted⟩

theorem Grows.mono {wider : Event → Prop} (grown : Grows allowed before after)
    (implies : ∀ event, allowed event → wider event)
    : Grows wider before after := by
  obtain ⟨added, extended, addedAllowed⟩ := grown
  exact ⟨added, extended, fun event member => implies event (addedAllowed event member)⟩

theorem Grows.filterMap_eq {view : Event → Option View} (grown : Grows allowed before after)
    (ignored : ∀ event, allowed event → view event = none)
    : after.filterMap view = before.filterMap view := by
  obtain ⟨added, rfl, addedAllowed⟩ := grown
  rw [List.filterMap_append,
    List.filterMap_eq_nil_iff.mpr fun event member =>
      ignored event (addedAllowed event member),
    List.append_nil]

theorem Grows.findSome_eq {view : Event → Option View} (grown : Grows allowed before after)
    (ignored : ∀ event, allowed event → view event = none)
    : after.findSome? view = before.findSome? view := by
  obtain ⟨added, rfl, addedAllowed⟩ := grown
  rw [List.findSome?_append,
    List.findSome?_eq_none_iff.mpr fun event member =>
      ignored event (addedAllowed event member),
    Option.or_none]

theorem Grows.filter_eq {seen : Event → Bool} (grown : Grows allowed before after)
    (ignored : ∀ event, allowed event → seen event = false)
    : after.filter seen = before.filter seen := by
  obtain ⟨added, rfl, addedAllowed⟩ := grown
  have dropped : added.filter seen = [] := List.filter_eq_nil_iff.mpr fun event member => by
    rw [ignored event (addedAllowed event member)]
    exact Bool.false_ne_true
  rw [List.filter_append, dropped, List.append_nil]

theorem Grows.mem {event : Event} (grown : Grows allowed before after)
    (member : event ∈ before)
    : event ∈ after := by
  obtain ⟨added, rfl, _⟩ := grown
  exact List.mem_append_left added member

theorem Grows.mem_of_mem {event : Event} (grown : Grows allowed before after)
    (member : event ∈ after) (excluded : ¬allowed event)
    : event ∈ before := by
  obtain ⟨added, rfl, addedAllowed⟩ := grown
  rcases List.mem_append.mp member with old | new
  · exact old
  · exact absurd (addedAllowed event new) excluded

end Log

-- Systems of contexts

variable {Index Local Shared Input Event : Type}

/-- The contexts with their own states, and the state they share. -/
structure System (Index Local Shared : Type) where
  locals : Index → Local
  shared : Shared

/-- What an activation leaves behind, and what it logged. -/
structure Activation (Local Shared Event : Type) where
  own : Local
  shared : Shared
  events : List Event

section Runs

variable [DecidableEq Index]
  (activate : Input → Local → Shared → Activation Local Shared Event)
  (permitted : Index → Input → Local → Shared → Prop)

/-- The system after one context has been activated. -/
def System.step (system : System Index Local Shared) (index : Index) (input : Input)
    : System Index Local Shared :=
  let result := activate input (system.locals index) system.shared
  {
    locals := Function.update system.locals index result.own
    shared := result.shared
  }

/-- The systems that permitted activations can reach, with everything logged on the way. -/
inductive Reach (first : System Index Local Shared)
    : System Index Local Shared → List Event → Prop
  | start : Reach first first []
  | step {system history} (index : Index) (input : Input)
    (reached : Reach first system history)
    (allowed : permitted index input (system.locals index) system.shared)
    : Reach first (system.step activate index input)
        (history ++ (activate input (system.locals index) system.shared).events)

/-- The system after a schedule of activations. -/
def System.run (system : System Index Local Shared)
    : List (Index × Input) → System Index Local Shared
  | [] => system
  | (index, input) :: rest => (system.step activate index input).run rest

/-- Everything that a schedule logs. -/
def System.log (system : System Index Local Shared) : List (Index × Input) → List Event
  | [] => []
  | (index, input) :: rest =>
      (activate input (system.locals index) system.shared).events
      ++ (system.step activate index input).log rest

/-- What each activation of one context logs in a schedule. -/
def System.turns (system : System Index Local Shared) (index : Index)
    : List (Index × Input) → List (List Event)
  | [] => []
  | (other, input) :: rest =>
      let events := (activate input (system.locals other) system.shared).events
      (if other = index then [events] else [])
      ++ (system.step activate other input).turns index rest

/-- Every activation of a schedule is permitted. -/
def System.Permits (system : System Index Local Shared) : List (Index × Input) → Prop
  | [] => True
  | (index, input) :: rest =>
      permitted index input (system.locals index) system.shared
      ∧ (system.step activate index input).Permits rest

def System.decidePermits
    [decide : ∀ index input own shared, Decidable (permitted index input own shared)]
    (system : System Index Local Shared)
    : (schedule : List (Index × Input)) → Decidable (system.Permits activate permitted schedule)
  | [] => .isTrue trivial
  | (index, input) :: rest =>
      let _ := (system.step activate index input).decidePermits rest
      inferInstanceAs (Decidable (permitted index input _ _ ∧ System.Permits _ _ _ rest))

instance [∀ index input own shared, Decidable (permitted index input own shared)]
    (system : System Index Local Shared) (schedule : List (Index × Input))
    : Decidable (system.Permits activate permitted schedule) :=
  system.decidePermits activate permitted schedule

/-- A stretch of a run as one context sees it: what each of its own activations logged, with
any activations of the others between them.
-/
inductive Follows (index : Index) (first : System Index Local Shared)
    : System Index Local Shared → List (List Event) → Prop
  | start : Follows index first first []
  | own {system turns} (input : Input) (followed : Follows index first system turns)
    (allowed : permitted index input (system.locals index) system.shared)
    : Follows index first (system.step activate index input)
        (turns ++ [(activate input (system.locals index) system.shared).events])
  | other {system turns} (other : Index) (input : Input) (different : other ≠ index)
    (followed : Follows index first system turns)
    (allowed : permitted other input (system.locals other) system.shared)
    : Follows index first (system.step activate other input) turns

variable {permitted}

/-- A schedule of permitted activations extends a run. Witness: induction on the schedule. -/
theorem Reach.run {first system : System Index Local Shared} {history : List Event}
    (reached : Reach activate permitted first system history)
    (schedule : List (Index × Input)) (permits : system.Permits activate permitted schedule)
    : Reach activate permitted first (system.run activate schedule)
        (history ++ system.log activate schedule) := by
  induction schedule generalizing system history with
  | nil =>
      rw [System.log, List.append_nil]
      exact reached
  | cons activation rest ih =>
      obtain ⟨allowed, permits⟩ := permits
      rw [System.log, ← List.append_assoc]
      exact ih (.step activation.1 activation.2 reached allowed) permits

/-- A schedule of permitted activations extends what one context sees. Witness: induction on
the schedule.
-/
theorem Follows.run {index : Index} {first system : System Index Local Shared}
    {turns : List (List Event)}
    (followed : Follows activate permitted index first system turns)
    (schedule : List (Index × Input)) (permits : system.Permits activate permitted schedule)
    : Follows activate permitted index first (system.run activate schedule)
        (turns ++ system.turns activate index schedule) := by
  induction schedule generalizing system turns with
  | nil =>
      rw [System.turns, List.append_nil]
      exact followed
  | cons activation rest ih =>
      obtain ⟨other, input⟩ := activation
      obtain ⟨allowed, permits⟩ := permits
      rw [System.turns, ← List.append_assoc]
      refine ih ?_ permits
      rcases eq_or_ne other index with rfl | different
      · rw [if_pos rfl]
        exact .own input followed allowed
      · rw [if_neg different, List.append_nil]
        exact .other other input different followed allowed

variable {activate}

/-- An invariant in three parts: of the shared state and the log, of each context, and of
every two different contexts.
-/
structure Invariant (Global : Shared → List Event → Prop) (Own : Local → Shared → Prop)
    (Apart : Local → Local → Prop) (system : System Index Local Shared)
    (history : List Event)
    : Prop where
  globally : Global system.shared history
  own : ∀ index, Own (system.locals index) system.shared
  apart
    : ∀ left right, left ≠ right → Apart (system.locals left) (system.locals right)

/-- What an activation has to preserve: the shared part, its own part, and the part of any
other context that is apart from it.
-/
structure Preserved (Global : Shared → List Event → Prop) (Own : Local → Shared → Prop)
    (Apart : Local → Local → Prop) (shared : Shared) (history : List Event) (acting : Local)
    (result : Activation Local Shared Event)
    : Prop where
  globally : Global result.shared (history ++ result.events)
  own : Own result.own result.shared
  others
    : ∀ other,
        Own other shared
        → Apart acting other
        → Own other result.shared ∧ Apart result.own other

/-- Every permitted activation preserves the invariant. -/
abbrev Preserving (activate : Input → Local → Shared → Activation Local Shared Event)
    (permitted : Index → Input → Local → Shared → Prop) (Global : Shared → List Event → Prop)
    (Own : Local → Shared → Prop) (Apart : Local → Local → Prop)
    : Prop :=
  ∀ index input own shared history,
    permitted index input own shared
    → Global shared history
    → Own own shared
    → Preserved Global Own Apart shared history own (activate input own shared)

variable {Global : Shared → List Event → Prop} {Own : Local → Shared → Prop}
  {Apart : Local → Local → Prop}

/-- One activation keeps the invariant. Witness: whether an index is the one activated. -/
theorem Invariant.step {system : System Index Local Shared} {history : List Event}
    (symmetric : ∀ {left right}, Apart left right → Apart right left)
    (holds : Invariant Global Own Apart system history) (index : Index) (input : Input)
    (preserved
      : Preserved Global Own Apart system.shared history (system.locals index)
          (activate input (system.locals index) system.shared))
    : Invariant Global Own Apart (system.step activate index input)
        (history ++ (activate input (system.locals index) system.shared).events) := by
  have bystander : ∀ other, other ≠ index → _ := fun other different =>
    preserved.others (system.locals other) (holds.own other)
      (holds.apart index other different.symm)
  refine { globally := preserved.globally, own := ?_, apart := ?_ }
  · intro other
    change Own (Function.update system.locals index _ other) _
    rcases eq_or_ne other index with rfl | different
    · rw [Function.update_self]
      exact preserved.own
    · rw [Function.update_of_ne different]
      exact (bystander other different).1
  · intro left right different
    change Apart (Function.update system.locals index _ left)
      (Function.update system.locals index _ right)
    rcases eq_or_ne left index with rfl | leftOther
    · rw [Function.update_self, Function.update_of_ne different.symm]
      exact (bystander right different.symm).2
    · rcases eq_or_ne right index with rfl | rightOther
      · rw [Function.update_self, Function.update_of_ne leftOther]
        exact symmetric (bystander left leftOther).2
      · rw [Function.update_of_ne leftOther, Function.update_of_ne rightOther]
        exact holds.apart left right different

/-- What holds at the start and is preserved by every permitted activation holds of every
reachable system. Witness: induction on the run.
-/
theorem Reach.invariant {first system : System Index Local Shared} {history : List Event}
    (symmetric : ∀ {left right}, Apart left right → Apart right left)
    (preserved : Preserving activate permitted Global Own Apart)
    (initially : Invariant Global Own Apart first [])
    (reached : Reach activate permitted first system history)
    : Invariant Global Own Apart system history := by
  induction reached with
  | start => exact initially
  | step index input _ allowed ih =>
      exact ih.step symmetric index input
        (preserved index input _ _ _ allowed ih.globally (ih.own index))

/-- While only others are activated, a context stays as it is, and so does every property of
the shared state that no activation apart from it destroys.
-/
theorem Reach.bystander {first system : System Index Local Shared} {history : List Event}
    {index : Index} {Kept : Shared → Prop}
    (symmetric : ∀ {left right}, Apart left right → Apart right left)
    (preserved : Preserving activate permitted Global Own Apart)
    (initially : Invariant Global Own Apart first [])
    (others
      : ∀ other input own shared, permitted other input own shared → other ≠ index)
    (kept
      : ∀ other input own shared,
          permitted other input own shared
          → Own own shared
          → Own (first.locals index) shared
          → Apart own (first.locals index)
          → Kept shared
          → Kept (activate input own shared).shared)
    (holds : Kept first.shared)
    (reached : Reach activate permitted first system history)
    : system.locals index = first.locals index ∧ Kept system.shared := by
  induction reached with
  | start => exact ⟨rfl, holds⟩
  | step other input reachedBefore allowed ih =>
      obtain ⟨same, keptBefore⟩ := ih
      have invariant := reachedBefore.invariant symmetric preserved initially
      have different := others other input _ _ allowed
      refine ⟨?_, ?_⟩
      · exact (Function.update_of_ne different.symm _ _).trans same
      · apply kept other input _ _ allowed (invariant.own other) _ _ keptBefore
        · rw [← same]
          exact invariant.own index
        · rw [← same]
          exact invariant.apart other index different

theorem Follows.invariant {first system : System Index Local Shared} {history : List Event}
    {index : Index} {turns : List (List Event)}
    (symmetric : ∀ {left right}, Apart left right → Apart right left)
    (preserved : Preserving activate permitted Global Own Apart)
    (initially : Invariant Global Own Apart first history)
    (followed : Follows activate permitted index first system turns)
    : ∃ history, Invariant Global Own Apart system history := by
  induction followed with
  | start => exact ⟨history, initially⟩
  | own input _ allowed ih =>
      obtain ⟨before, holds⟩ := ih
      exact ⟨_, holds.step symmetric index input
        (preserved index input _ _ before allowed holds.globally (holds.own index))⟩
  | other other input _ _ allowed ih =>
      obtain ⟨before, holds⟩ := ih
      exact ⟨_, holds.step symmetric other input
        (preserved other input _ _ before allowed holds.globally (holds.own other))⟩

/-- A property of one context and of what it has logged holds throughout, if its own
activations keep it and those of the others do not touch it. Witness: induction on the
stretch.
-/
theorem Follows.track {first system : System Index Local Shared} {history : List Event}
    {index : Index} {turns : List (List Event)}
    (Track : Local → Shared → List (List Event) → Prop)
    (symmetric : ∀ {left right}, Apart left right → Apart right left)
    (preserved : Preserving activate permitted Global Own Apart)
    (initially : Invariant Global Own Apart first history)
    (kept
      : ∀ input own shared turns,
          permitted index input own shared
          → Own own shared
          → Track own shared turns
          → Track (activate input own shared).own (activate input own shared).shared
              (turns ++ [(activate input own shared).events]))
    (untouched
      : ∀ other input acting own shared turns,
          permitted other input acting shared
          → other ≠ index
          → Own acting shared
          → Own own shared
          → Apart acting own
          → Track own shared turns
          → Track own (activate input acting shared).shared turns)
    (holds : Track (first.locals index) first.shared [])
    (followed : Follows activate permitted index first system turns)
    : Track (system.locals index) system.shared turns := by
  induction followed with
  | start => exact holds
  | @own system turns input before allowed ih =>
      obtain ⟨_, invariant⟩ := before.invariant symmetric preserved initially
      change Track (Function.update system.locals index _ index) _ _
      rw [Function.update_self]
      exact kept input _ _ _ allowed (invariant.own index) ih
  | @other system turns other input different before allowed ih =>
      obtain ⟨_, invariant⟩ := before.invariant symmetric preserved initially
      change Track (Function.update system.locals other _ index) _ _
      rw [Function.update_of_ne different.symm]
      exact untouched other input _ _ _ _ allowed different (invariant.own other)
        (invariant.own index) (invariant.apart other index different) ih

end Runs

end Contexts
