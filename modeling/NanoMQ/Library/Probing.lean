import Mathlib

/-! Tables with open addressing and a bounded probe. An entry lies within so many steps of the
position that its key hashes to. A slot is emptied without a trace, so a search looks at every
position of the probe.
-/

namespace Probing

variable {Key Value : Type}

/-- A slot is free or holds a key with its value. -/
abbrev Slots (Key Value : Type) := List (Option (Key × Value))

/-- What lies at a position. -/
def entryAt (slots : Slots Key Value) (position : Nat) : Option (Key × Value) :=
  slots[position]?.join

/-- The positions of a probe, from `start` on and around the end of the table. -/
def probe (size : Nat) : (start steps : Nat) → List Nat
  | _, 0 => []
  | start, steps + 1 => start :: probe size ((start + 1) % size) steps

/-- By induction on the steps. -/
theorem mem_probe {size start steps position : Nat} (inside : start < size)
    : position ∈ probe size start steps ↔ ∃ step < steps, position = (start + step) % size := by
  induction steps generalizing start with
  | zero => simp [probe]
  | succ steps ih =>
      rw [probe, List.mem_cons, ih (Nat.mod_lt _ (by omega))]
      constructor
      · rintro (rfl | ⟨step, bound, rfl⟩)
        · exact ⟨0, by omega, (Nat.mod_eq_of_lt inside).symm⟩
        · refine ⟨step + 1, by omega, ?_⟩
          rw [Nat.mod_add_mod, Nat.add_assoc, Nat.add_comm 1]
      · rintro ⟨step, bound, rfl⟩
        cases step with
        | zero => exact .inl (Nat.mod_eq_of_lt inside)
        | succ step =>
            refine .inr ⟨step, by omega, ?_⟩
            rw [Nat.mod_add_mod, Nat.add_assoc, Nat.add_comm 1]

theorem lt_of_mem_probe {size start steps position : Nat} (inside : start < size)
    (member : position ∈ probe size start steps)
    : position < size := by
  obtain ⟨step, _, rfl⟩ := (mem_probe inside).mp member
  exact Nat.mod_lt _ (by omega)

-- Slots

theorem lt_length_of_entryAt {slots : Slots Key Value} {position : Nat} {entry : Key × Value}
    (held : entryAt slots position = some entry)
    : position < slots.length := by
  by_contra outside
  rw [entryAt, List.getElem?_eq_none (Nat.not_lt.mp outside)] at held
  cases held

theorem entryAt_set {slots : Slots Key Value} {position : Nat} (inside : position < slots.length)
    (slot : Option (Key × Value)) (other : Nat)
    : entryAt (slots.set position slot) other
      = if other = position then slot else entryAt slots other := by
  unfold entryAt
  by_cases same : other = position
  · rw [if_pos same, same, List.getElem?_set_self inside]
    rfl
  · rw [if_neg same, List.getElem?_set_ne (Ne.symm same)]

theorem entryAt_replicate (size position : Nat)
    : entryAt (List.replicate size (none : Option (Key × Value))) position = none := by
  unfold entryAt
  rw [List.getElem?_replicate]
  split <;> rfl

/-- The number of slots in use. -/
def occupied (slots : Slots Key Value) : Nat :=
  slots.countP Option.isSome

theorem occupied_set {slots : Slots Key Value} {position : Nat}
    (inside : position < slots.length) (slot : Option (Key × Value))
    : occupied (slots.set position slot) + (if (entryAt slots position).isSome then 1 else 0)
      = occupied slots + if slot.isSome then 1 else 0 := by
  have held : entryAt slots position = slots[position] := by
    simp [entryAt, List.getElem?_eq_getElem inside]
  have here : slots[position].isSome = true → 0 < occupied slots := fun isSome =>
    List.countP_pos_iff.mpr ⟨_, List.getElem_mem inside, isSome⟩
  rw [held]
  unfold occupied at here ⊢
  rw [List.countP_set inside]
  split_ifs <;> grind

theorem occupied_fill {slots : Slots Key Value} {position : Nat}
    (inside : position < slots.length) (free : entryAt slots position = none)
    (entry : Key × Value)
    : occupied (slots.set position (some entry)) = occupied slots + 1 := by
  simpa [free] using occupied_set inside (some entry)

theorem occupied_replace {slots : Slots Key Value} {position : Nat} {old : Key × Value}
    (held : entryAt slots position = some old) (entry : Key × Value)
    : occupied (slots.set position (some entry)) = occupied slots := by
  simpa [held] using occupied_set (lt_length_of_entryAt held) (some entry)

theorem occupied_empty {slots : Slots Key Value} {position : Nat} {old : Key × Value}
    (held : entryAt slots position = some old)
    : occupied (slots.set position none) + 1 = occupied slots := by
  simpa [held] using occupied_set (lt_length_of_entryAt held) none

-- Tables that represent a map

/-- The slots hold exactly the entries of a map, each key once and within its probe. -/
structure Represents (hash : Key → Nat) (steps : Nat) (slots : Slots Key Value)
    (map : Key → Option Value)
    : Prop where
  nonempty : 0 < slots.length
  near
    : ∀ {position key value},
        entryAt slots position = some (key, value)
        → position ∈ probe slots.length (hash key % slots.length) steps
  unique
    : ∀ {position other key value otherValue},
        entryAt slots position = some (key, value)
        → entryAt slots other = some (key, otherValue)
        → position = other
  holds
    : ∀ key value, map key = some value ↔ ∃ position, entryAt slots position = some (key, value)

/-- A place for a key: the slot that holds it, or a free slot if none does. -/
def Suits (slots : Slots Key Value) (key : Key) (position : Nat) : Prop :=
  (∃ value, entryAt slots position = some (key, value))
  ∨ (entryAt slots position = none ∧ ∀ other value, entryAt slots other ≠ some (key, value))

section Represents

variable {hash : Key → Nat} {steps : Nat} {slots : Slots Key Value} {map : Key → Option Value}

theorem Represents.home_lt (table : Represents hash steps slots map) (key : Key)
    : hash key % slots.length < slots.length :=
  Nat.mod_lt _ table.nonempty

theorem Represents.absent_iff (table : Represents hash steps slots map) (key : Key)
    : map key = none ↔ ∀ position value, entryAt slots position ≠ some (key, value) := by
  constructor
  · intro absent position value held
    have present := (table.holds key value).mpr ⟨position, held⟩
    rw [absent] at present
    cases present
  · intro nowhere
    cases found : map key with
    | none => rfl
    | some value =>
        obtain ⟨position, held⟩ := (table.holds key value).mp found
        exact absurd held (nowhere position value)

theorem Represents.suits_only (table : Represents hash steps slots map) {key : Key}
    {position : Nat} (suits : Suits slots key position) {other : Nat} {value : Value}
    (held : entryAt slots other = some (key, value))
    : other = position := by
  rcases suits with ⟨old, holdsKey⟩ | ⟨_, nowhere⟩
  · exact table.unique held holdsKey
  · exact absurd held (nowhere other value)

/-- Storing an entry at a place that suits its key updates the map. -/
theorem Represents.store [DecidableEq Key] (table : Represents hash steps slots map) {key : Key}
    {position : Nat} (value : Value)
    (inProbe : position ∈ probe slots.length (hash key % slots.length) steps)
    (suits : Suits slots key position)
    : Represents hash steps (slots.set position (some (key, value)))
        (Function.update map key (some value)) := by
  have inside := lt_of_mem_probe (table.home_lt key) inProbe
  have entries := entryAt_set inside (some (key, value))
  exact {
    nonempty := by simpa using table.nonempty
    near := by
      intro other otherKey otherValue held
      rw [entries] at held
      rw [List.length_set]
      split at held
      · rename_i same
        cases held
        exact same ▸ inProbe
      · exact table.near held
    unique := by
      intro left right otherKey leftValue rightValue heldLeft heldRight
      rw [entries] at heldLeft heldRight
      split at heldLeft <;> split at heldRight
      · rename_i isLeft isRight
        rw [isLeft, isRight]
      · rename_i isLeft _
        cases heldLeft
        rw [isLeft, table.suits_only suits heldRight]
      · rename_i _ isRight
        cases heldRight
        rw [isRight, table.suits_only suits heldLeft]
      · exact table.unique heldLeft heldRight
    holds := by
      intro other otherValue
      by_cases same : other = key
      · subst same
        rw [Function.update_self, Option.some.injEq]
        constructor
        · rintro rfl
          exact ⟨position, by rw [entries, if_pos rfl]⟩
        · rintro ⟨place, held⟩
          rw [entries] at held
          split at held
          · exact congrArg Prod.snd (Option.some.inj held)
          · rename_i elsewhere
            exact absurd (table.suits_only suits held) elsewhere
      · rw [Function.update_of_ne same, table.holds]
        constructor
        · rintro ⟨place, held⟩
          refine ⟨place, ?_⟩
          rw [entries, if_neg]
          · exact held
          · -- The place that suits the stored key holds no other key.
            rintro rfl
            rcases suits with ⟨old, holdsKey⟩ | ⟨free, _⟩
            · rw [holdsKey] at held
              exact same (congrArg Prod.fst (Option.some.inj held)).symm
            · rw [free] at held
              cases held
        · rintro ⟨place, held⟩
          rw [entries] at held
          split at held
          · exact absurd (congrArg Prod.fst (Option.some.inj held)).symm same
          · exact ⟨place, held⟩
  }

theorem Represents.clear [DecidableEq Key] (table : Represents hash steps slots map) {key : Key}
    {position : Nat} {value : Value} (held : entryAt slots position = some (key, value))
    : Represents hash steps (slots.set position none) (Function.update map key none) := by
  have inside := lt_length_of_entryAt held
  have entries := entryAt_set inside none
  have kept {other : Nat} {entry : Key × Value}
      (left : entryAt (slots.set position none) other = some entry)
      : entryAt slots other = some entry := by
    rw [entries] at left
    split at left
    · cases left
    · exact left
  exact {
    nonempty := by simpa using table.nonempty
    near := by
      intro other otherKey otherValue left
      rw [List.length_set]
      exact table.near (kept left)
    unique := fun left right => table.unique (kept left) (kept right)
    holds := by
      intro other otherValue
      by_cases same : other = key
      · subst same
        rw [Function.update_self]
        refine ⟨fun stored => absurd stored (by simp), ?_⟩
        rintro ⟨place, left⟩
        have only := table.unique (kept left) held
        rw [entries, if_pos only] at left
        cases left
      · rw [Function.update_of_ne same, table.holds]
        constructor
        · rintro ⟨place, there⟩
          refine ⟨place, ?_⟩
          rw [entries, if_neg]
          · exact there
          · rintro rfl
            rw [held] at there
            exact same (congrArg Prod.fst (Option.some.inj there)).symm
        · rintro ⟨place, left⟩
          exact ⟨place, kept left⟩
  }

theorem represents_replicate (hash : Key → Nat) (steps : Nat) {size : Nat} (positive : 0 < size)
    : Represents hash steps (List.replicate size none) (fun _ => (none : Option Value)) := by
  have nothing {position : Nat} {entry : Key × Value}
      (held : entryAt (List.replicate size none) position = some entry)
      : False := by
    rw [entryAt_replicate] at held
    cases held
  exact {
    nonempty := by simpa using positive
    near := fun held => (nothing held).elim
    unique := fun held _ => (nothing held).elim
    holds := by
      intro key value
      refine ⟨fun stored => absurd stored (by simp), ?_⟩
      rintro ⟨_, held⟩
      exact (nothing held).elim
  }

end Represents

-- All entries of a table

/-- No two slots hold the same key. -/
def Distinct (slots : Slots Key Value) : Prop :=
  ∀ {position other key value otherValue},
    entryAt slots position = some (key, value)
    → entryAt slots other = some (key, otherValue)
    → position = other

theorem Distinct.tail {slot : Option (Key × Value)} {slots : Slots Key Value}
    (distinct : Distinct (slot :: slots))
    : Distinct slots := by
  intro position other key value otherValue held heldOther
  have same : position + 1 = other + 1 := distinct held heldOther
  exact Nat.succ.inj same

theorem Distinct.head {key : Key} {value : Value} {slots : Slots Key Value}
    (distinct : Distinct (some (key, value) :: slots)) (position : Nat) (otherValue : Value)
    : entryAt slots position ≠ some (key, otherValue) := by
  intro later
  have first : entryAt (some (key, value) :: slots) 0 = some (key, value) := rfl
  have same : 0 = position + 1 := distinct first later
  cases same

/-- Enter what a slot holds into a map. -/
def enter [DecidableEq Key] (map : Key → Option Value) : Option (Key × Value) → Key → Option Value
  | none => map
  | some (key, value) => Function.update map key (some value)

/-- A key that no slot holds keeps its value. By induction on the slots. -/
theorem foldl_enter_of_absent [DecidableEq Key] {slots : Slots Key Value} {key : Key}
    (nowhere : ∀ position value, entryAt slots position ≠ some (key, value))
    (map : Key → Option Value)
    : slots.foldl enter map key = map key := by
  induction slots generalizing map with
  | nil => rfl
  | cons slot slots ih =>
      rw [List.foldl_cons, ih fun position value => nowhere (position + 1) value]
      cases slot with
      | none => rfl
      | some entry =>
          apply Function.update_of_ne
          rintro rfl
          exact nowhere 0 entry.2 rfl

/-- A key of distinct slots gets its value. By induction on the slots. -/
theorem foldl_enter_of_held [DecidableEq Key] {slots : Slots Key Value} {key : Key}
    {value : Value} {position : Nat} (distinct : Distinct slots)
    (held : entryAt slots position = some (key, value)) (map : Key → Option Value)
    : slots.foldl enter map key = some value := by
  induction slots generalizing map position with
  | nil => cases held
  | cons slot slots ih =>
      rw [List.foldl_cons]
      cases position with
      | zero =>
          obtain rfl : slot = some (key, value) := held
          rw [foldl_enter_of_absent distinct.head]
          exact Function.update_self ..
      | succ position => exact ih distinct.tail held _

theorem Represents.foldl_enter [DecidableEq Key] {hash : Key → Nat} {steps : Nat}
    {slots : Slots Key Value} {map : Key → Option Value}
    (table : Represents hash steps slots map)
    : slots.foldl enter (fun _ => none) = map := by
  funext key
  cases found : map key with
  | none => exact foldl_enter_of_absent ((table.absent_iff key).mp found) _
  | some value =>
      obtain ⟨position, held⟩ := (table.holds key value).mp found
      exact foldl_enter_of_held table.unique held _

/-- Where entries have only been removed, the slots represent the map of those that are left. -/
theorem Represents.leave [DecidableEq Key] {hash : Key → Nat} {steps : Nat}
    {slots left : Slots Key Value} {map : Key → Option Value}
    (table : Represents hash steps slots map) (sameLength : left.length = slots.length)
    (kept
      : ∀ {position entry}, entryAt left position = some entry
        → entryAt slots position = some entry)
    : Represents hash steps left (left.foldl enter fun _ => none) := by
  have distinct : Distinct left := fun held heldOther => table.unique (kept held) (kept heldOther)
  refine {
    nonempty := sameLength ▸ table.nonempty
    near := fun held => sameLength ▸ table.near (kept held)
    unique := distinct
    holds := ?_
  }
  intro key value
  constructor
  · intro entered
    by_contra nowhere
    push Not at nowhere
    by_cases other : ∃ position otherValue, entryAt left position = some (key, otherValue)
    · obtain ⟨position, otherValue, held⟩ := other
      rw [foldl_enter_of_held distinct held] at entered
      obtain rfl := Option.some.inj entered
      exact nowhere position held
    · push Not at other
      rw [foldl_enter_of_absent other] at entered
      cases entered
  · rintro ⟨position, held⟩
    exact foldl_enter_of_held distinct held _

/-- The keys in use, slot by slot. -/
def keys (slots : Slots Key Value) : List Key :=
  slots.filterMap (Option.map Prod.fst)

theorem mem_keys {slots : Slots Key Value} {key : Key}
    : key ∈ keys slots ↔ ∃ position value, entryAt slots position = some (key, value) := by
  unfold keys
  rw [List.mem_filterMap]
  constructor
  · rintro ⟨slot, member, isKey⟩
    obtain ⟨entry, rfl, rfl⟩ := Option.map_eq_some_iff.mp isKey
    obtain ⟨position, found⟩ := List.mem_iff_getElem?.mp member
    exact ⟨position, entry.2, by rw [entryAt, found]; rfl⟩
  · rintro ⟨position, value, held⟩
    exact ⟨_, List.mem_of_getElem? (Option.join_eq_some_iff.mp held), rfl⟩

/-- By induction on the slots. -/
theorem nodup_keys {slots : Slots Key Value} (distinct : Distinct slots) : (keys slots).Nodup := by
  induction slots with
  | nil => exact List.nodup_nil
  | cons slot slots ih =>
      cases slot with
      | none => exact ih distinct.tail
      | some entry =>
          refine List.nodup_cons.mpr ⟨?_, ih distinct.tail⟩
          intro later
          obtain ⟨position, value, held⟩ := mem_keys.mp later
          exact distinct.head position value held

theorem Represents.occupied_eq [DecidableEq Key] {hash : Key → Nat} {steps : Nat}
    {slots : Slots Key Value} {map : Key → Option Value}
    (table : Represents hash steps slots map)
    : occupied slots = Set.ncard { key | (map key).isSome } := by
  have domain : { key | (map key).isSome } = ((keys slots).toFinset : Set Key) := by
    ext key
    simp only [Set.mem_ofPred_eq, List.coe_toFinset, mem_keys, Option.isSome_iff_exists,
      table.holds]
    exact exists_comm
  rw [domain, Set.ncard_coe_finset, List.toFinset_card_of_nodup (nodup_keys table.unique), keys,
    List.length_filterMap_eq_countP, occupied]
  congr 1
  funext slot
  cases slot <;> rfl

end Probing
