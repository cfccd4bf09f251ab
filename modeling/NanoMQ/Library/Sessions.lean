import Mathlib

/-! Histories of things that are opened and closed one at a time. -/

namespace Sessions

variable {α : Type}

inductive Event (α : Type) where
  | opened (item : α)
  | closed (item : α)
  deriving DecidableEq, Repr

/-- Everything that was opened was closed once, before the next was opened; the last may still
be open.
-/
def Paired (events : List (Event α)) (held : Option α) : Prop :=
  ∃ items : List α,
    events
    = items.flatMap (fun item => [.opened item, .closed item]) ++ held.toList.map .opened

/-- The history is out of order, however it goes on. -/
def Broken (events : List (Event α)) : Prop :=
  ∀ more held, ¬Paired (events ++ more) held

theorem paired_nil : Paired ([] : List (Event α)) none :=
  ⟨[], rfl⟩

theorem Paired.opened {events : List (Event α)} (paired : Paired events none) (item : α)
    : Paired (events ++ [.opened item]) (some item) := by
  obtain ⟨items, rfl⟩ := paired
  exact ⟨items, by simp⟩

theorem Paired.closed {events : List (Event α)} {item : α} (paired : Paired events (some item))
    : Paired (events ++ [.closed item]) none := by
  obtain ⟨items, rfl⟩ := paired
  exact ⟨items ++ [item], by simp⟩

theorem Broken.not_paired {events : List (Event α)} (broken : Broken events) (held : Option α)
    : ¬Paired events held := by
  simpa using broken [] held

theorem Broken.append {events : List (Event α)} (broken : Broken events)
    (more : List (Event α))
    : Broken (events ++ more) := by
  intro further held
  rw [List.append_assoc]
  exact broken (more ++ further) held

/-- Closing while nothing is open breaks the history. By induction on what was opened so far:
both histories start with the same pairs.
-/
theorem Paired.broken_closed {events : List (Event α)} (paired : Paired events none)
    (item : α)
    : Broken (events ++ [.closed item]) := by
  obtain ⟨items, rfl⟩ := paired
  rintro more held ⟨others, same⟩
  induction items generalizing others with
  | nil =>
      cases others with
      | nil => cases held <;> simp at same
      | cons first rest => simp at same
  | cons first rest ih =>
      cases others with
      | nil => cases held <;> simp at same
      | cons other others =>
          simp only [List.flatMap_cons, List.append_assoc, List.cons_append, List.cons.injEq,
            List.nil_append] at same
          exact ih others (by simpa using same.2.2)

/-- The history is in order as long as nothing went wrong, and out of order from then on. -/
structure Tracks (sound : Prop) (events : List (Event α)) (held : Option α) : Prop where
  paired : sound → Paired events held
  broken : ¬sound → Broken events

section Tracks

variable {sound : Prop} {events : List (Event α)}

theorem Tracks.opened (tracks : Tracks sound events none) (item : α)
    : Tracks sound (events ++ [.opened item]) (some item) :=
  ⟨fun isSound => (tracks.paired isSound).opened item,
    fun unsound => (tracks.broken unsound).append _⟩

theorem Tracks.closed {item : α} (tracks : Tracks sound events (some item))
    : Tracks sound (events ++ [.closed item]) none :=
  ⟨fun isSound => (tracks.paired isSound).closed,
    fun unsound => (tracks.broken unsound).append _⟩

theorem Tracks.closed_again (tracks : Tracks sound events none) (item : α) {still : Prop}
    (unsound : ¬still)
    : Tracks still (events ++ [.closed item]) none := by
  refine ⟨fun isSound => absurd isSound unsound, fun _ => ?_⟩
  by_cases isSound : sound
  · exact (tracks.paired isSound).broken_closed item
  · exact (tracks.broken isSound).append _

end Tracks

end Sessions
