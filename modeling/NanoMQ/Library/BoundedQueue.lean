import Mathlib

/-! Bounded first-in first-out queues whose capacity can be changed. -/

namespace BoundedQueue

variable {α : Type}

/-- The items in order of arrival, never more than the capacity. -/
structure Queue (α : Type) where
  cap : Nat
  items : List α
  bounded : items.length ≤ cap

/-- The capacity that a resize settles on, for the one asked for and the number of items. All
items are kept, so it covers both.
-/
structure Resize where
  capacity : (asked length : Nat) → Nat
  covers_asked : ∀ asked length, asked ≤ capacity asked length
  covers_items : ∀ asked length, length ≤ capacity asked length

/-- The smallest such capacity. -/
def Resize.least : Resize where
  capacity := max
  covers_asked := Nat.le_max_left
  covers_items := Nat.le_max_right

namespace Queue

def new (cap : Nat) : Queue α :=
  { cap, items := [], bounded := Nat.zero_le cap }

def full (queue : Queue α) : Bool :=
  queue.cap ≤ queue.items.length

def empty (queue : Queue α) : Bool :=
  queue.items.isEmpty

theorem length_append_le {queue : Queue α} (item : α) (room : queue.items.length < queue.cap)
    : (queue.items ++ [item]).length ≤ queue.cap := by
  simpa using room

/-- Append an item; a full queue refuses it. -/
def put (queue : Queue α) (item : α) : Option (Queue α) :=
  if room : queue.items.length < queue.cap then
    some
      {
        queue with
        items := queue.items ++ [item]
        bounded := length_append_le item room
      }
  else none

theorem length_tail_le (queue : Queue α) : queue.items.tail.length ≤ queue.cap :=
  (List.tail_sublist _).length_le.trans queue.bounded

/-- The queue without its first item. -/
def dropFirst (queue : Queue α) : Queue α :=
  { queue with items := queue.items.tail, bounded := queue.length_tail_le }

/-- Take the first item. -/
def get (queue : Queue α) : Option (α × Queue α) :=
  queue.items.head?.map fun item => (item, queue.dropFirst)

def resize (settle : Resize) (queue : Queue α) (asked : Nat) : Queue α :=
  {
    cap := settle.capacity asked queue.items.length
    items := queue.items
    bounded := settle.covers_items asked queue.items.length
  }

-- What the operations do to items and capacity

@[simp]
theorem items_resize (settle : Resize) (queue : Queue α) (asked : Nat)
    : (queue.resize settle asked).items = queue.items :=
  rfl

theorem le_cap_resize (settle : Resize) (queue : Queue α) (asked : Nat)
    : asked ≤ (queue.resize settle asked).cap :=
  settle.covers_asked asked queue.items.length

theorem room_of_grown (settle : Resize) {queue : Queue α} (least : 2 ≤ queue.cap)
    : (queue.resize settle (queue.cap + queue.cap / 2)).items.length
      < (queue.resize settle (queue.cap + queue.cap / 2)).cap := by
  have grown := le_cap_resize settle queue (queue.cap + queue.cap / 2)
  have := queue.bounded
  rw [items_resize]
  omega

theorem put_of_room {queue : Queue α} (item : α) (room : queue.items.length < queue.cap)
    : queue.put item
      = some
          {
            queue with
            items := queue.items ++ [item]
            bounded := length_append_le item room
          } := by
  rw [put, dif_pos room]

theorem items_of_put {queue after : Queue α} {item : α} (added : queue.put item = some after)
    : after.items = queue.items ++ [item] := by
  rw [put] at added
  split at added
  · obtain rfl := Option.some.inj added
    rfl
  · cases added

theorem get_of_ne_nil {queue : Queue α} (nonempty : queue.items ≠ [])
    : ∃ first rest, queue.items = first :: rest ∧ queue.get = some (first, queue.dropFirst) := by
  obtain ⟨first, rest, shape⟩ := List.exists_cons_of_ne_nil nonempty
  exact ⟨first, rest, shape, by simp [get, shape]⟩

end Queue

end BoundedQueue
