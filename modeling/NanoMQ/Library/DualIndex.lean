import Mathlib

/-! One relation kept in two redundant indexes: a set of pairs and a list per owner.
The lists append without looking and delete one occurrence, so the two indexes agree
only as long as no key enters an owner's list twice.
-/

namespace DualIndex

variable {Key Owner Data : Type}

/-- A set of key/owner pairs next to one list of keys, with attached data, per owner. -/
structure Index (Key Owner Data : Type) where
  pairs : Finset (Key × Owner)
  lists : Owner → List (Key × Data)

/-- The keys listed for one owner. -/
def Index.keys (index : Index Key Owner Data) (owner : Owner) : List Key :=
  (index.lists owner).map Prod.fst

/-- The index with no pair and only empty lists. -/
def Index.empty : Index Key Owner Data :=
  { pairs := ∅, lists := fun _ => [] }

@[simp]
theorem Index.keys_empty (owner : Owner)
    : (Index.empty : Index Key Owner Data).keys owner = [] :=
  rfl

/-- Both indexes hold the same relation and no owner lists a key twice. -/
structure Index.Agrees (index : Index Key Owner Data) : Prop where
  mem_iff : ∀ key owner, (key, owner) ∈ index.pairs ↔ key ∈ index.keys owner
  nodup : ∀ owner, (index.keys owner).Nodup

theorem Index.agrees_empty : (Index.empty : Index Key Owner Data).Agrees :=
  ⟨by simp [Index.empty, Index.keys], by simp⟩

-- Whole lists

section Lists

variable [DecidableEq Owner]

/-- Append a key to the owner's list without looking for an earlier occurrence. -/
def Index.append (index : Index Key Owner Data) (owner : Owner) (key : Key) (data : Data)
    : Index Key Owner Data :=
  {
    index with
    lists := Function.update index.lists owner (index.lists owner ++ [(key, data)])
  }

/-- Drop the owner's whole list. -/
def Index.dropList (index : Index Key Owner Data) (owner : Owner)
    : Index Key Owner Data :=
  { index with lists := Function.update index.lists owner [] }

@[simp]
theorem Index.pairs_append (index : Index Key Owner Data) (owner : Owner) (key : Key)
    (data : Data)
    : (index.append owner key data).pairs = index.pairs :=
  rfl

@[simp]
theorem Index.pairs_dropList (index : Index Key Owner Data) (owner : Owner)
    : (index.dropList owner).pairs = index.pairs :=
  rfl

theorem Index.keys_append (index : Index Key Owner Data) (owner other : Owner)
    (key : Key) (data : Data)
    : (index.append owner key data).keys other
      = if other = owner then index.keys owner ++ [key] else index.keys other := by
  by_cases same : other = owner
  · subst other
    simp [Index.append, Index.keys]
  · simp [Index.append, Index.keys, same]

theorem Index.keys_dropList (index : Index Key Owner Data) (owner other : Owner)
    : (index.dropList owner).keys other
      = if other = owner then [] else index.keys other := by
  by_cases same : other = owner
  · subst other
    simp [Index.dropList, Index.keys]
  · simp [Index.dropList, Index.keys, same]

end Lists

-- Pairs and entries

variable [DecidableEq Key] [DecidableEq Owner]

/-- Add one pair to the set and leave the lists alone. -/
def Index.addPair (index : Index Key Owner Data) (key : Key) (owner : Owner)
    : Index Key Owner Data :=
  { index with pairs := insert (key, owner) index.pairs }

/-- Remove one pair from the set and leave the lists alone. -/
def Index.removePair (index : Index Key Owner Data) (key : Key) (owner : Owner)
    : Index Key Owner Data :=
  { index with pairs := index.pairs.erase (key, owner) }

/-- Delete the first occurrence of a key from the owner's list. -/
def Index.deleteFirst (index : Index Key Owner Data) (owner : Owner) (key : Key)
    : Index Key Owner Data :=
  {
    index with
    lists :=
      Function.update index.lists owner
        ((index.lists owner).eraseP (fun entry => entry.1 == key))
  }

/-- Remove the pair of every key in a given list, the way a visitor is called on each. -/
def Index.removePairs (index : Index Key Owner Data) (keys : List Key) (owner : Owner)
    : Index Key Owner Data :=
  keys.foldl (fun current key => current.removePair key owner) index

@[simp]
theorem Index.mem_addPair (index : Index Key Owner Data) (key : Key) (owner : Owner)
    (pair : Key × Owner)
    : pair ∈ (index.addPair key owner).pairs ↔ pair = (key, owner) ∨ pair ∈ index.pairs :=
  Finset.mem_insert

@[simp]
theorem Index.mem_removePair (index : Index Key Owner Data) (key : Key) (owner : Owner)
    (pair : Key × Owner)
    : pair ∈ (index.removePair key owner).pairs
      ↔ pair ≠ (key, owner) ∧ pair ∈ index.pairs :=
  Finset.mem_erase

@[simp]
theorem Index.keys_addPair (index : Index Key Owner Data) (key : Key)
    (owner other : Owner)
    : (index.addPair key owner).keys other = index.keys other :=
  rfl

@[simp]
theorem Index.keys_removePair (index : Index Key Owner Data) (key : Key)
    (owner other : Owner)
    : (index.removePair key owner).keys other = index.keys other :=
  rfl

@[simp]
theorem Index.pairs_deleteFirst (index : Index Key Owner Data) (owner : Owner) (key : Key)
    : (index.deleteFirst owner key).pairs = index.pairs :=
  rfl

/-- Deleting the first entry with a key erases that key from the list of keys.
Witness: list induction, comparing the head's key with the deleted one.
-/
theorem map_fst_eraseP (entries : List (Key × Data)) (key : Key)
    : (entries.eraseP (fun entry => entry.1 == key)).map Prod.fst
      = (entries.map Prod.fst).erase key := by
  induction entries with
  | nil => rfl
  | cons head rest ih =>
      by_cases same : head.1 = key
      · simp [same]
      · have differ : (head.1 == key) = false := by simpa using same
        simp only [List.eraseP_cons, differ, cond_false, List.map_cons, ih]
        rw [List.erase_cons_tail (by simpa using same)]

theorem Index.keys_deleteFirst (index : Index Key Owner Data) (owner other : Owner)
    (key : Key)
    : (index.deleteFirst owner key).keys other
      = if other = owner then (index.keys owner).erase key else index.keys other := by
  by_cases same : other = owner
  · subst other
    simp [Index.deleteFirst, Index.keys, map_fst_eraseP]
  · simp [Index.deleteFirst, Index.keys, same]

theorem Index.mem_keys_deleteFirst {index : Index Key Owner Data} {owner other : Owner}
    {key deleted : Key} (listed : key ∈ index.keys other)
    (spared : other ≠ owner ∨ key ≠ deleted)
    : key ∈ (index.deleteFirst owner deleted).keys other := by
  rw [Index.keys_deleteFirst]
  split
  · rename_i same
    subst other
    exact (List.mem_erase_of_ne (spared.resolve_left (fun h => h rfl))).mpr listed
  · exact listed

/-- Visiting a list of keys leaves every owner's own list untouched, by list induction. -/
@[simp]
theorem Index.keys_removePairs (index : Index Key Owner Data) (keys : List Key)
    (owner other : Owner)
    : (index.removePairs keys owner).keys other = index.keys other := by
  induction keys generalizing index with
  | nil => rfl
  | cons key rest ih => exact ih (index.removePair key owner)

/-- A pair survives the visit unless it pairs the owner with a visited key.
Witness: list induction; each call erases one pair.
-/
theorem Index.mem_removePairs (index : Index Key Owner Data) (keys : List Key)
    (owner : Owner) (pair : Key × Owner)
    : pair ∈ (index.removePairs keys owner).pairs
      ↔ pair ∈ index.pairs ∧ ¬(pair.2 = owner ∧ pair.1 ∈ keys) := by
  induction keys generalizing index with
  | nil => simp [Index.removePairs]
  | cons key rest ih =>
      have step := ih (index.removePair key owner)
      simp only [Index.removePairs, List.foldl_cons] at step ⊢
      rw [step]
      obtain ⟨candidate, holder⟩ := pair
      simp only [Index.mem_removePair, ne_eq, Prod.mk.injEq, List.mem_cons]
      tauto

-- The operations keep the agreement

/-- Adding a pair to both indexes keeps the agreement when the key was not yet listed.
Witness: the appended key is fresh, so the list stays free of duplicates.
-/
theorem Index.Agrees.insert {index : Index Key Owner Data} (agrees : index.Agrees)
    {key : Key} {owner : Owner} (data : Data) (fresh : key ∉ index.keys owner)
    : ((index.addPair key owner).append owner key data).Agrees := by
  constructor
  · intro candidate holder
    have old := agrees.mem_iff candidate holder
    rw [Index.keys_append]
    by_cases same : holder = owner
    · subst holder
      simp [old, or_comm]
    · simp [same, old]
  · intro holder
    rw [Index.keys_append]
    by_cases same : holder = owner
    · subst holder
      simpa using List.nodup_append.mpr
        ⟨agrees.nodup owner, by simp, fun a ha b hb => by
          rintro rfl; exact fresh (by simpa [List.mem_singleton.mp hb] using ha)⟩
    · simpa [same] using agrees.nodup holder

/-- Removing a pair from both indexes keeps the agreement, listed or not.
Witness: deleting one occurrence removes the key because no list repeats it.
-/
theorem Index.Agrees.remove {index : Index Key Owner Data} (agrees : index.Agrees)
    (key : Key) (owner : Owner)
    : ((index.removePair key owner).deleteFirst owner key).Agrees := by
  constructor
  · intro candidate holder
    have old := agrees.mem_iff candidate holder
    rw [Index.keys_deleteFirst]
    by_cases same : holder = owner
    · subst holder
      simp [old, (agrees.nodup owner).mem_erase_iff]
    · simp [same, old]
  · intro holder
    rw [Index.keys_deleteFirst]
    by_cases same : holder = owner
    · subst holder
      simpa using (agrees.nodup owner).erase key
    · simpa [same] using agrees.nodup holder

/-- Visiting an owner's list and then dropping it clears the owner from both indexes. -/
theorem Index.Agrees.clear {index : Index Key Owner Data} (agrees : index.Agrees)
    (owner : Owner)
    : ((index.removePairs (index.keys owner) owner).dropList owner).Agrees := by
  constructor
  · intro candidate holder
    have old := agrees.mem_iff candidate holder
    rw [Index.keys_dropList, Index.pairs_dropList, Index.mem_removePairs]
    by_cases same : holder = owner
    · subst holder
      simp [old]
    · simp [same, old]
  · intro holder
    rw [Index.keys_dropList]
    by_cases same : holder = owner
    · simp [same]
    · simpa [same] using agrees.nodup holder

end DualIndex
