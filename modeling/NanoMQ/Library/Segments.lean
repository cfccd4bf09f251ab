import Mathlib

/-! Arrays that are filled segment by segment: each loop has a counter of type `int`, while the
bounds are computed in 64 bits. Such an array is filled as it should be exactly if all of its
segments together are in the range of the counter.
-/

namespace Segments

variable {Slot : Type}

def INT_MAX : Nat := 2 ^ 31 - 1

/-- The conversion of a 64-bit value to `int` keeps the low 32 bits. -/
def toInt (value : Nat) : Int :=
  (value : Int).bmod (2 ^ 32)

/-- An `int` that is compared with a 64-bit value. -/
def toUnsigned (i : Int) : Nat :=
  (i % 2 ^ 64).toNat

/-- Write a slot at each value of the counter below the bound. There is no result once the
counter is incremented out of its range.
-/
def fillLoop (slot : Slot) (stop : Nat) (i : Int) : Option (List (Int × Slot)) :=
  if toUnsigned i < stop then
    if i < INT_MAX then (fillLoop slot stop (i + 1)).map ((i, slot) :: ·) else none
  else some []
termination_by (INT_MAX - i).toNat
decreasing_by omega

/-- So many equal slots; the number has 64 bits. -/
structure Segment (Slot : Type) where
  count : Nat
  slot : Slot
  fits : count < 2 ^ 64

/-- Fill the segments in turn, from an index on. -/
def fillSegments : List (Segment Slot) → (tmp : Nat) → Option (List (Int × Slot))
  | [], _ => some []
  | segment :: rest, tmp =>
      let stop := (tmp + segment.count) % 2 ^ 64
      (fillLoop segment.slot stop (toInt tmp)).bind fun first =>
        (fillSegments rest stop).map (first ++ ·)

/-- The number of slots in all segments. -/
def total (segments : List (Segment Slot)) : Nat :=
  (segments.map Segment.count).sum

/-- The slots of all segments, one after the other. -/
def plan (segments : List (Segment Slot)) : List Slot :=
  segments.flatMap fun segment => List.replicate segment.count segment.slot

/-- Each index of an array of this size occurs once, and no other index. -/
def EachOnce (indices : List Int) (size : Nat) : Prop :=
  ∀ index : Int, indices.count index = if 0 ≤ index ∧ index < size then 1 else 0

/-- The writes fill an array of this size: each index once, with the slot that belongs there,
and no index outside.
-/
structure Fills (segments : List (Segment Slot)) (size : Nat) (writes : List (Int × Slot))
    : Prop where
  once : EachOnce (writes.map Prod.fst) size
  slots : ∀ {index slot}, (index, slot) ∈ writes → (plan segments)[index.toNat]? = some slot

@[simp]
theorem total_nil : total ([] : List (Segment Slot)) = 0 :=
  rfl

@[simp]
theorem total_cons (segment : Segment Slot) (rest : List (Segment Slot))
    : total (segment :: rest) = segment.count + total rest := by
  simp [total]

@[simp]
theorem total_append (segments more : List (Segment Slot))
    : total (segments ++ more) = total segments + total more := by
  simp [total]

theorem length_plan (segments : List (Segment Slot))
    : (plan segments).length = total segments := by
  simp [plan, total, List.length_flatMap]

-- One loop

theorem toInt_of_lt {value : Nat} (small : value ≤ INT_MAX) : toInt value = value := by
  unfold toInt INT_MAX at *
  rw [Int.bmod_def]
  omega

theorem toUnsigned_natCast {i : Nat} (small : i ≤ INT_MAX) : toUnsigned i = i := by
  unfold toUnsigned INT_MAX at *
  omega

/-- Slots with the indices that they are written at. -/
def place (start : Nat) (slots : List Slot) : List (Int × Slot) :=
  (slots.zipIdx start).map fun (slot, index) => ((index : Int), slot)

theorem place_append (start : Nat) (slots more : List Slot)
    : place start (slots ++ more) = place start slots ++ place (start + slots.length) more := by
  unfold place
  rw [List.zipIdx_append, List.map_append]

theorem fillLoop_done (slot : Slot) {start stop : Nat} (small : start ≤ INT_MAX)
    (done : stop ≤ start)
    : fillLoop slot stop start = some [] := by
  rw [fillLoop, toUnsigned_natCast small, if_neg (Nat.not_lt.mpr done)]

/-- In the range of the counter the whole segment is written. By induction on the number of
slots.
-/
theorem fillLoop_eq (slot : Slot) (count : Nat) {start : Nat} (small : start + count ≤ INT_MAX)
    : fillLoop slot (start + count) start = some (place start (List.replicate count slot)) := by
  induction count generalizing start with
  | zero => exact fillLoop_done slot small (Nat.le_refl _)
  | succ count ih =>
      have later := @ih (start + 1) (by omega)
      rw [Nat.add_right_comm, Nat.add_assoc, Nat.cast_succ] at later
      rw [fillLoop, toUnsigned_natCast (by omega), if_pos (by omega), if_pos (by omega), later]
      simp [place, List.replicate_succ]

/-- A bound out of range is not reached. By induction on the distance to the end of the range.
-/
theorem fillLoop_overflows (slot : Slot) {stop : Nat} (large : INT_MAX < stop)
    (distance : Nat) {start : Nat} (isStart : start + distance = INT_MAX)
    : fillLoop slot stop start = none := by
  induction distance generalizing start with
  | zero =>
      rw [fillLoop, toUnsigned_natCast (by omega), if_pos (by omega), if_neg (by omega)]
  | succ distance ih =>
      have later := @ih (start + 1) (by omega)
      rw [Nat.cast_succ] at later
      rw [fillLoop, toUnsigned_natCast (by omega), if_pos (by omega), if_pos (by omega), later]
      rfl

theorem fillLoop_first (slot : Slot) {start stop : Nat} {writes : List (Int × Slot)}
    (forward : start < stop) (small : start ≤ INT_MAX)
    (filled : fillLoop slot stop start = some writes)
    : ∃ more, writes = ((start : Int), slot) :: more := by
  rw [fillLoop, toUnsigned_natCast small, if_pos forward] at filled
  split at filled
  · obtain ⟨more, _, rfl⟩ := Option.map_eq_some_iff.mp filled
    exact ⟨more, rfl⟩
  · cases filled

-- All loops

/-- Filling goes on where the first segments end. By induction on them. -/
theorem fillSegments_append (segments more : List (Segment Slot)) (tmp : Nat)
    (unsigned : tmp < 2 ^ 64)
    : fillSegments (segments ++ more) tmp
      = (fillSegments segments tmp).bind fun first =>
          (fillSegments more ((tmp + total segments) % 2 ^ 64)).map (first ++ ·) := by
  induction segments generalizing tmp with
  | nil =>
      rw [List.nil_append, total_nil, Nat.add_zero, Nat.mod_eq_of_lt unsigned]
      simp [fillSegments]
  | cons segment rest ih =>
      rw [List.cons_append, fillSegments, fillSegments, ih _ (Nat.mod_lt _ (by decide)),
        total_cons, Nat.mod_add_mod, Nat.add_assoc]
      cases fillLoop segment.slot ((tmp + segment.count) % 2 ^ 64) (toInt tmp) with
      | none => rfl
      | some first =>
          cases fillSegments rest ((tmp + segment.count) % 2 ^ 64) with
          | none => rfl
          | some others => simp [Function.comp_def]

/-- Segments in the range of the counter are written as planned. By induction on the segments.
-/
theorem fillSegments_eq {segments : List (Segment Slot)} {tmp : Nat}
    (small : tmp + total segments ≤ INT_MAX)
    : fillSegments segments tmp = some (place tmp (plan segments)) := by
  induction segments generalizing tmp with
  | nil => rfl
  | cons segment rest ih =>
      rw [total_cons] at small
      have unsigned : (tmp + segment.count) % 2 ^ 64 = tmp + segment.count := by
        unfold INT_MAX at small
        omega
      rw [fillSegments, unsigned, toInt_of_lt (by omega),
        fillLoop_eq segment.slot segment.count (by omega), ih (by omega)]
      simp [plan, place_append]

theorem indices_place (start : Nat) (slots : List Slot)
    : (place start slots).map Prod.fst = (List.range' start slots.length).map Int.ofNat := by
  rw [← List.zipIdx_map_snd, List.map_map, place, List.map_map]
  rfl

theorem fills_place (segments : List (Segment Slot))
    : Fills segments (total segments) (place 0 (plan segments)) := by
  refine { once := ?_, slots := ?_ }
  · intro index
    have distinct : ((List.range (total segments)).map Int.ofNat).Nodup :=
      List.nodup_range.map Int.ofNat_injective
    rw [indices_place, length_plan, ← List.range_eq_range', List.Nodup.count distinct]
    congr 1
    simp only [List.mem_map, List.mem_range, eq_iff_iff]
    constructor
    · rintro ⟨i, bound, rfl⟩
      exact ⟨Int.natCast_nonneg i, Int.ofNat_lt.mpr bound⟩
    · rintro ⟨positive, bound⟩
      exact ⟨index.toNat, by omega, by simp [positive]⟩
  · intro index slot written
    obtain ⟨⟨other, i⟩, member, same⟩ := List.mem_map.mp written
    cases same
    exact List.mk_mem_zipIdx_iff_getElem?.mp member

theorem EachOnce.of_mem {before after : List Int} {size i : Nat}
    (once : EachOnce (before ++ after) size) (written : (i : Int) ∈ before)
    : i < size ∧ (i : Int) ∉ after := by
  have counted : 0 < before.count (i : Int) := List.count_pos_iff.mpr written
  have total := once i
  rw [List.count_append] at total
  split at total
  · rename_i inside
    exact ⟨by omega, List.count_eq_zero.mp (by omega)⟩
  · omega

theorem fillSegments_cons {segment : Segment Slot} {rest : List (Segment Slot)} {tmp : Nat}
    {writes : List (Int × Slot)} (small : tmp ≤ INT_MAX)
    (ran : fillSegments (segment :: rest) tmp = some writes)
    : ∃ first others,
        fillLoop segment.slot ((tmp + segment.count) % 2 ^ 64) tmp = some first
        ∧ fillSegments rest ((tmp + segment.count) % 2 ^ 64) = some others
        ∧ writes = first ++ others := by
  obtain ⟨first, filled, later⟩ := Option.bind_eq_some_iff.mp ran
  obtain ⟨others, ranRest, rfl⟩ := Option.map_eq_some_iff.mp later
  rw [toInt_of_lt small] at filled
  exact ⟨first, others, filled, ranRest, rfl⟩

/-- Once a bound has wrapped below what is already written, an index is written twice or lies
outside of the array. By induction on the segments that are left.
-/
theorem not_once_of_wrapped {segments : List (Segment Slot)} {tmp seen : Nat}
    {before : List Int} {writes : List (Int × Slot)} (wrapped : tmp < seen)
    (inRange : seen ≤ INT_MAX) (written : ∀ i < seen, (i : Int) ∈ before)
    (ran : fillSegments segments tmp = some writes)
    : ¬EachOnce (before ++ writes.map Prod.fst) ((tmp + total segments) % 2 ^ 64) := by
  intro once
  induction segments generalizing tmp writes with
  | nil =>
      obtain ⟨inside, _⟩ := once.of_mem (written tmp wrapped)
      exact absurd (Nat.mod_le tmp (2 ^ 64)) (Nat.not_le.mpr inside)
  | cons segment rest ih =>
      obtain ⟨first, others, filled, ranRest, rfl⟩ := fillSegments_cons (by omega) ran
      obtain ⟨_, notAgain⟩ := once.of_mem (written tmp wrapped)
      rcases Nat.lt_or_ge tmp ((tmp + segment.count) % 2 ^ 64) with forward | back
      · -- The loop writes at `tmp`, which has been written before.
        obtain ⟨more, filledAt⟩ := fillLoop_first segment.slot forward (by omega) filled
        rw [filledAt] at notAgain
        simp at notAgain
      · rw [fillLoop_done segment.slot (by omega) back] at filled
        obtain rfl := Option.some.inj filled
        rw [total_cons, ← Nat.add_assoc, ← Nat.mod_add_mod] at once
        exact ih (by omega) ranRest once

/-- If each index is written once, all segments are in the range of the counter. By induction on
the segments.
-/
theorem total_le_of_once {segments : List (Segment Slot)} {tmp : Nat} {before : List Int}
    {writes : List (Int × Slot)} (small : tmp ≤ INT_MAX)
    (written : ∀ i < tmp, (i : Int) ∈ before) (ran : fillSegments segments tmp = some writes)
    (once : EachOnce (before ++ writes.map Prod.fst) ((tmp + total segments) % 2 ^ 64))
    : tmp + total segments ≤ INT_MAX := by
  induction segments generalizing tmp before writes with
  | nil => simpa using small
  | cons segment rest ih =>
      obtain ⟨first, others, filled, ranRest, rfl⟩ := fillSegments_cons small ran
      rw [List.map_append, ← List.append_assoc, total_cons, ← Nat.add_assoc] at once
      have unsigned := segment.fits
      rcases Nat.lt_or_ge (tmp + segment.count) (2 ^ 64) with kept | wraps
      · rw [Nat.mod_eq_of_lt kept] at filled ranRest
        rcases Nat.lt_or_ge INT_MAX (tmp + segment.count) with large | inRange
        · rw [fillLoop_overflows segment.slot large (INT_MAX - tmp) (by omega)] at filled
          cases filled
        · rw [fillLoop_eq segment.slot segment.count inRange] at filled
          obtain rfl := Option.some.inj filled
          rw [total_cons, ← Nat.add_assoc]
          refine ih inRange ?_ ranRest once
          intro i bound
          rw [indices_place, List.mem_append]
          rcases Nat.lt_or_ge i tmp with old | new
          · exact .inl (written i old)
          · exact .inr (List.mem_map.mpr ⟨i, by simp; omega, rfl⟩)
      · have stop : (tmp + segment.count) % 2 ^ 64 = tmp + segment.count - 2 ^ 64 := by
          unfold INT_MAX at small
          omega
        rw [← Nat.mod_add_mod] at once
        rw [stop] at filled ranRest once
        rw [fillLoop_done segment.slot small (by omega)] at filled
        obtain rfl := Option.some.inj filled
        rw [List.map_nil, List.append_nil] at once
        exact absurd once (not_once_of_wrapped (by omega) small written ranRest)

/-- The loops fill an array of the size that is computed in 64 bits exactly if the segments are
in the range of the counter.
-/
theorem fillSegments_fills_iff (segments : List (Segment Slot))
    : (∃ writes,
        fillSegments segments 0 = some writes
        ∧ Fills segments (total segments % 2 ^ 64) writes)
      ↔ total segments ≤ INT_MAX := by
  constructor
  · rintro ⟨writes, ran, fills⟩
    have inRange := @total_le_of_once _ segments 0 [] writes (Nat.zero_le _)
      (fun i negative => absurd negative (Nat.not_lt_zero i)) ran
    rw [Nat.zero_add] at inRange
    exact inRange fills.once
  · intro small
    refine ⟨_, fillSegments_eq (by omega), ?_⟩
    rw [Nat.mod_eq_of_lt (by unfold INT_MAX at small; omega)]
    exact fills_place segments

end Segments
