import NanoMQ.Hashmap.Refinement

/-! A failed insertion into the table of client ids. Doubling empties the old table entry by entry
while it fills the new one. Where the new table is too crowded for an entry it is doubled in
turn, and if that fails the entries that were moved are gone.
-/

namespace NanoMQ.Hashmap

open Probing

/-- Every key gives what it gave before, and the size is the same. -/
structure Intact (before after : Table) : Prop where
  get : ∀ key, hashmapGet after key = hashmapGet before key
  size : after.size = before.size

/-- The tables that operations lead to, under any failures of `calloc` and with insertions that
have failed.
-/
inductive Reachable : Table → Prop
  | create {calloc : Nat → Bool} {bits tick next : Nat} {created : Table} (unsigned : bits < 32)
    (success : hashmapCreate calloc (2 ^ bits) tick = (some created, next))
    : Reachable created
  | put {m : Table} (reachable : Reachable m) (calloc : Nat → Bool) (key : Key)
    (value : UInt32) (tick : Nat)
    : Reachable (hashmapPut calloc m key value tick).m
  | remove {m : Table} (reachable : Reachable m) (key : Key)
    : Reachable (hashmapRemove m key).2

-- What a rehash leaves behind

/-- Slots that are left of others: entries have only been removed, so many of them. -/
structure LeftOf (slots left : Slots Key UInt32) (removed : Nat) : Prop where
  length : left.length = slots.length
  kept
    : ∀ {position entry}, entryAt left position = some entry
      → entryAt slots position = some entry
  count : occupied left + removed = occupied slots

theorem LeftOf.refl (slots : Slots Key UInt32) : LeftOf slots slots 0 :=
  { length := rfl, kept := id, count := rfl }

theorem LeftOf.cons {slots left : Slots Key UInt32} {removed : Nat}
    (leaves : LeftOf slots left removed) (slot : Option (Key × UInt32))
    : LeftOf (slot :: slots) (none :: left) (removed + if slot.isSome then 1 else 0) :=
  {
    length := congrArg (· + 1) leaves.length
    kept := by
      intro position entry held
      cases position with
      | zero => cases held
      | succ position => exact @leaves.kept position entry held
    count := by
      have count := leaves.count
      cases slot with
      | none => simpa [occupied] using count
      | some entry =>
          simp only [occupied, List.countP_cons] at count ⊢
          simp
          omega
  }

/-- By induction on the slots. -/
theorem iteratePairs_leftOf (insert : Table → Key → UInt32 → Nat → Put)
    (slots : Slots Key UInt32) (newHash : Table) (tick : Nat)
    : LeftOf slots (iteratePairs insert slots newHash tick).data
        (iteratePairs insert slots newHash tick).removed := by
  induction slots generalizing newHash tick with
  | nil => exact .refl []
  | cons slot rest ih =>
      cases slot with
      | none => exact (ih newHash tick).cons none
      | some entry =>
          obtain ⟨key, value⟩ := entry
          rw [iteratePairs]
          dsimp only
          split
          · exact (ih _ _).cons (some (key, value))
          · exact .refl _

theorem Valid.leave {m : Table} {map : Key → Option UInt32} (valid : Valid m map)
    {left : Slots Key UInt32} {removed : Nat} (leaves : LeftOf m.data left removed)
    : ∃ smaller, Valid { m with data := left, size := m.size - removed } smaller := by
  refine ⟨_, {
    represents := valid.represents.leave leaves.length leaves.kept
    length := leaves.length.trans valid.length
    power := valid.power
    size := ?_
  }⟩
  have count := leaves.count
  have size := valid.size
  change m.size - removed = occupied left
  omega

section Rehash

variable {calloc : Nat → Bool} {m : Table} {map : Key → Option UInt32}

theorem Valid.rehash (valid : Valid m map) {insert : Table → Key → UInt32 → Nat → Put}
    (inserts : Inserts insert) (tick : Nat)
    : ∃ after, Valid (rehashHelper calloc insert m tick).m after := by
  by_cases success : (rehashHelper calloc insert m tick).rv = 0
  · exact ⟨map, (rehashHelper_valid inserts valid success).1⟩
  · unfold rehashHelper at success ⊢
    split
    · exact ⟨map, valid⟩
    · rename_i newHash next created
      dsimp only
      split
      · rename_i complete
        rw [created] at success
        dsimp only at success
        rw [if_pos complete] at success
        exact absurd rfl success
      · exact valid.leave (iteratePairs_leftOf insert m.data newHash next)

/-- By induction on the doublings. -/
theorem Valid.putWithin (valid : Valid m map) (doublings : Nat) (key : Key) (value : UInt32)
    (tick : Nat)
    : ∃ after, Valid (putWithin calloc doublings m key value tick).m after := by
  induction doublings generalizing m map tick with
  | zero =>
      rw [Hashmap.putWithin]
      split
      · rename_i index found
        exact ⟨_, valid.store found value⟩
      · exact ⟨map, valid⟩
  | succ doublings ih =>
      rw [Hashmap.putWithin]
      split
      · rename_i index found
        exact ⟨_, valid.store found value⟩
      · dsimp only
        have inserts := putWithin_inserts calloc doublings
        split
        · rename_i rehashed
          exact ih (rehashHelper_valid inserts valid rehashed).1 _
        · exact valid.rehash inserts tick

end Rehash

/-- Every table represents some map. By induction on the operations. -/
theorem Reachable.valid {m : Table} (reachable : Reachable m) : ∃ map, Valid m map := by
  induction reachable with
  | create unsigned success => exact ⟨_, (hashmapCreate_valid unsigned success).1⟩
  | put _ calloc key value tick ih =>
      obtain ⟨map, valid⟩ := ih
      exact valid.putWithin 32 key value tick
  | remove _ key ih =>
      obtain ⟨map, valid⟩ := ih
      exact ⟨_, valid.remove key⟩

-- Tables that can be doubled without a second doubling

def freeTable (size : Nat) : Table :=
  { tableSize := size, size := 0, data := List.replicate size none }

/-- Store the entries one after the other, each in the first place that its probe offers; none
if there is no place for one of them.
-/
def placeAll : Slots Key UInt32 → Table → Option Table
  | [], m => some m
  | none :: rest, m => placeAll rest m
  | some (key, value) :: rest, m =>
      (hashHelper m key).bind fun index => placeAll rest (m.store index key value)

/-- The table of double size, if all entries find a place in it. -/
def Table.doubled (m : Table) : Option Table :=
  placeAll m.data (freeTable (2 * m.tableSize))

/-- The table after so many doublings. -/
def Table.grown (m : Table) : Nat → Option Table
  | 0 => some m
  | times + 1 => (m.grown times).bind Table.doubled

/-- However often the table has to be doubled for a key: its entries find their places in the
table of double size, unless that is too large.
-/
def Roomy (m : Table) (key : Key) : Prop :=
  ∀ times t,
    m.grown times = some t
    → (∀ earlier ≤ times, ∀ before, m.grown earlier = some before → hashHelper before key = none)
    → 2 * t.tableSize < 2 ^ 32
    → t.doubled.isSome

/-- An insertion that stores an entry where there is a place for it. -/
def StoresFound (insert : Table → Key → UInt32 → Nat → Put) : Prop :=
  ∀ m key value tick index,
    hashHelper m key = some index
    → insert m key value tick = { rv := 0, m := m.store index key value, tick }

theorem putWithin_storesFound (calloc : Nat → Bool) (doublings : Nat)
    : StoresFound (putWithin calloc doublings) := by
  intro m key value tick index found
  cases doublings with
  | zero => rw [putWithin, found]
  | succ doublings => rw [putWithin, found]

section Iterate

variable {insert : Table → Key → UInt32 → Nat → Put}

/-- Where all entries find a place, they are all moved. By induction on the slots. -/
theorem iteratePairs_placed (stores : StoresFound insert) {slots : Slots Key UInt32}
    {newHash t : Table} (tick : Nat) (placed : placeAll slots newHash = some t)
    : (iteratePairs insert slots newHash tick).flag = 0
      ∧ (iteratePairs insert slots newHash tick).newHash = t
      ∧ (iteratePairs insert slots newHash tick).tick = tick := by
  induction slots generalizing newHash with
  | nil => exact ⟨rfl, Option.some.inj placed, rfl⟩
  | cons slot rest ih =>
      cases slot with
      | none => exact ih placed
      | some entry =>
          obtain ⟨key, value⟩ := entry
          obtain ⟨index, found, later⟩ := Option.bind_eq_some_iff.mp placed
          rw [iteratePairs, stores _ _ _ _ _ found]
          exact ih later

/-- Where an entry finds no place and the insertion is refused then, the iteration fails. By
induction on the slots.
-/
theorem iteratePairs_stuck (stores : StoresFound insert) {tick : Nat}
    (refuses : ∀ {m key value}, hashHelper m key = none → (insert m key value tick).rv ≠ 0)
    {slots : Slots Key UInt32} {newHash : Table} (stuck : placeAll slots newHash = none)
    : (iteratePairs insert slots newHash tick).flag ≠ 0 := by
  induction slots generalizing newHash with
  | nil => cases stuck
  | cons slot rest ih =>
      cases slot with
      | none => exact ih stuck
      | some entry =>
          obtain ⟨key, value⟩ := entry
          rw [iteratePairs]
          dsimp only
          cases found : hashHelper newHash key with
          | none =>
              rw [if_neg (refuses found)]
              exact Nat.one_ne_zero
          | some index =>
              rw [placeAll, found] at stuck
              rw [stores _ _ _ _ _ found]
              exact ih stuck

theorem isFree_freeTable (size index : Nat) : (freeTable size).isFree index = true := by
  unfold Table.isFree freeTable
  rw [entryAt_replicate]
  rfl

/-- By induction on the steps. -/
theorem totalInUse_freeTable (size steps curr : Nat)
    : (freeTable size).totalInUse steps curr = 0 := by
  induction steps generalizing curr with
  | zero => rfl
  | succ steps ih => rw [Table.totalInUse, ih, isFree_freeTable, if_pos rfl]

theorem hashHelper_freeTable {size : Nat} (positive : 0 < size) (key : Key)
    : hashHelper (freeTable size) key = some ((freeTable size).home key) := by
  have absent
      : (freeTable size).linearProbe ((freeTable size).holdsKey key) HASHMAP_MAX_CHAIN_LENGTH
          ((freeTable size).home key)
        = none := by
    rw [linearProbe_eq_find, List.find?_eq_none]
    intro index _ held
    obtain ⟨value, held⟩ := holdsKey_iff.mp held
    rw [freeTable, entryAt_replicate] at held
    cases held
  have notFull : ¬(freeTable size).tableSize ≤ (freeTable size).size := Nat.not_le.mpr positive
  unfold hashHelper
  rw [if_neg notFull, absent, totalInUse_freeTable]
  dsimp only
  rw [if_pos (by decide), HASHMAP_MAX_CHAIN_LENGTH, Table.linearProbe, isFree_freeTable,
    if_pos rfl]

/-- A failed iteration into a free table has moved something. By induction on the slots. -/
theorem iteratePairs_removed_pos (stores : StoresFound insert) {size : Nat}
    (positive : 0 < size) {slots : Slots Key UInt32} {tick : Nat}
    (failed : (iteratePairs insert slots (freeTable size) tick).flag ≠ 0)
    : 0 < (iteratePairs insert slots (freeTable size) tick).removed := by
  induction slots with
  | nil => exact absurd rfl failed
  | cons slot rest ih =>
      cases slot with
      | none => exact ih failed
      | some entry =>
          obtain ⟨key, value⟩ := entry
          rw [iteratePairs, stores _ _ _ _ _ (hashHelper_freeTable positive key)]
          exact Nat.succ_pos _

end Iterate

section Doubling

variable {calloc : Nat → Bool} {m t : Table} {map : Key → Option UInt32} {tick : Nat}

theorem hashmapCreate_some {size next : Nat} {created : Table}
    (success : hashmapCreate calloc size tick = (some created, next))
    : created = freeTable size ∧ next = tick + 1 := by
  unfold hashmapCreate at success
  split at success
  · cases success
  · split at success
    · cases success
      exact ⟨rfl, rfl⟩
    · cases success

theorem hashmapCreate_refused (refused : calloc tick = false) (size : Nat)
    : (hashmapCreate calloc size tick).1 = none := by
  unfold hashmapCreate
  rw [refused]
  split <;> rfl

theorem Valid.double_lt (valid : Valid m map) {next : Nat} {created : Table}
    (success : hashmapCreate calloc (2 * m.tableSize % 2 ^ 32) tick = (some created, next))
    : 2 * m.tableSize < 2 ^ 32 := by
  obtain ⟨fresh, doubled⟩ := hashmapCreate_double valid success
  obtain ⟨bits, unsigned, isPower⟩ := fresh.power
  rw [← doubled, isPower]
  exact Nat.pow_lt_pow_right (by decide) unsigned

theorem Valid.create_granted (valid : Valid m map) (small : 2 * m.tableSize < 2 ^ 32)
    (granted : calloc tick = true)
    : hashmapCreate calloc (2 * m.tableSize % 2 ^ 32) tick
      = (some (freeTable (2 * m.tableSize)), tick + 1) := by
  obtain ⟨bits, _, isPower⟩ := valid.power
  have power : 2 * m.tableSize = 2 ^ (bits + 1) := by rw [isPower, pow_succ']
  have single : 2 ^ (bits + 1) &&& (2 ^ (bits + 1) - 1) = 0 := by
    rw [Nat.and_two_pow_sub_one_eq_mod, Nat.mod_self]
  unfold hashmapCreate
  rw [Nat.mod_eq_of_lt small, power, single, granted, if_neg (by simp), if_pos rfl]
  rfl

theorem rehashHelper_placed {insert : Table → Key → UInt32 → Nat → Put}
    (stores : StoresFound insert) {newHash : Table} {next : Nat} (valid : Valid m map)
    (created
      : hashmapCreate calloc (2 * m.tableSize % 2 ^ 32) tick = (some newHash, next))
    (placed : m.doubled = some t)
    : rehashHelper calloc insert m tick = { rv := 0, m := t, tick := tick + 1 } := by
  have small := valid.double_lt created
  obtain ⟨rfl, rfl⟩ := hashmapCreate_some created
  obtain ⟨complete, isTable, isTick⟩ := iteratePairs_placed stores (tick + 1) placed
  unfold rehashHelper
  rw [created, Nat.mod_eq_of_lt small]
  dsimp only
  rw [if_pos complete, isTable, isTick]

/-- By induction on the slots. -/
theorem placeAll_tableSize {slots : Slots Key UInt32} (placed : placeAll slots m = some t)
    : t.tableSize = m.tableSize := by
  induction slots generalizing m with
  | nil => rw [Option.some.inj placed]
  | cons slot rest ih =>
      cases slot with
      | none => exact ih placed
      | some entry =>
          obtain ⟨index, _, later⟩ := Option.bind_eq_some_iff.mp placed
          have kept := ih later
          exact kept

theorem Valid.doubled (valid : Valid m map) (small : 2 * m.tableSize < 2 ^ 32)
    (placed : m.doubled = some t)
    : Valid t map := by
  have created : hashmapCreate (fun _ => true) (2 * m.tableSize % 2 ^ 32) 0 = _ :=
    valid.create_granted small rfl
  have moved :=
    rehashHelper_placed (putWithin_storesFound (fun _ => true) 0) valid created placed
  have kept := rehashHelper_valid (putWithin_inserts (fun _ => true) 0) valid
    (congrArg Put.rv moved)
  rw [moved] at kept
  exact kept.1

/-- By induction on the doublings. -/
theorem grown_tableSize {times : Nat} (grown : m.grown times = some t)
    : t.tableSize = 2 ^ times * m.tableSize := by
  induction times generalizing t with
  | zero => rw [← Option.some.inj grown, pow_zero, Nat.one_mul]
  | succ times ih =>
      obtain ⟨before, isBefore, doubled⟩ := Option.bind_eq_some_iff.mp grown
      rw [placeAll_tableSize doubled, pow_succ', Nat.mul_assoc, ← ih isBefore]
      rfl

/-- By induction on the doublings that follow. -/
theorem grown_earlier {earlier : Nat} (more : Nat) (grown : m.grown (earlier + more) = some t)
    : ∃ before, m.grown earlier = some before := by
  induction more generalizing t with
  | zero => exact ⟨t, grown⟩
  | succ more ih =>
      obtain ⟨before, isBefore, _⟩ := Option.bind_eq_some_iff.mp grown
      exact ih isBefore

end Doubling

-- Failed insertions

theorem Intact.of_valid {before after : Table} {map : Key → Option UInt32}
    (valid : Valid before map) (kept : Valid after map)
    : Intact before after :=
  {
    get := fun key => by rw [kept.get, valid.get]
    size := by
      rw [kept.size, valid.size, kept.represents.occupied_eq, valid.represents.occupied_eq]
  }

section Failed

variable {m : Table} {key : Key} {map : Key → Option UInt32}

/-- There was no place for the key before these doublings. -/
def NoPlace (m : Table) (key : Key) (times : Nat) : Prop :=
  ∀ earlier < times, ∀ before, m.grown earlier = some before → hashHelper before key = none

theorem NoPlace.succ {times : Nat} {t : Table} (noPlace : NoPlace m key times)
    (grown : m.grown times = some t) (none : hashHelper t key = none)
    : NoPlace m key (times + 1) := by
  intro earlier bound before isBefore
  rcases Nat.lt_or_ge earlier times with less | last
  · exact noPlace earlier less before isBefore
  · obtain rfl : earlier = times := by omega
    rw [grown] at isBefore
    exact Option.some.inj isBefore ▸ none

/-- In a roomy table the doublings succeed completely or not at all, and a failed insertion
leaves the map as it was. By induction on the doublings that are left.
-/
theorem Roomy.failed_valid (roomy : Roomy m key) {calloc : Nat → Bool} {value : UInt32}
    {doublings times tick : Nat} {t : Table} (grown : m.grown times = some t)
    (noPlace : NoPlace m key times) (valid : Valid t map)
    (failed : (putWithin calloc doublings t key value tick).rv ≠ 0)
    : Valid (putWithin calloc doublings t key value tick).m map := by
  induction doublings generalizing times t tick with
  | zero =>
      rw [putWithin] at failed ⊢
      cases found : hashHelper t key with
      | none => exact valid
      | some index =>
          rw [found] at failed
          exact absurd rfl failed
  | succ doublings ih =>
      rw [putWithin] at failed ⊢
      cases found : hashHelper t key with
      | some index =>
          rw [found] at failed
          exact absurd rfl failed
      | none =>
          rw [found] at failed
          have nextNoPlace := noPlace.succ grown found
          cases create : hashmapCreate calloc (2 * t.tableSize % 2 ^ 32) tick with
          | mk created next =>
              cases created with
              | none =>
                  have refused
                      : rehashHelper calloc (putWithin calloc doublings) t tick
                        = { rv := 1, m := t, tick := next } := by
                    rw [rehashHelper, create]
                  dsimp only
                  rw [refused]
                  exact valid
              | some newHash =>
                  have small := valid.double_lt create
                  obtain ⟨t', doubled⟩ := Option.isSome_iff_exists.mp
                    (roomy times t grown
                      (fun earlier bound => nextNoPlace earlier (Nat.lt_succ_of_le bound)) small)
                  have moved := rehashHelper_placed (putWithin_storesFound calloc doublings)
                    valid create doubled
                  dsimp only at failed ⊢
                  rw [moved] at failed ⊢
                  dsimp only at failed ⊢
                  rw [if_pos rfl] at failed ⊢
                  have nextGrown : m.grown (times + 1) = some t' := by
                    rw [Table.grown, grown]
                    exact doubled
                  exact ih nextGrown nextNoPlace (valid.doubled small doubled) failed

/-- Without memory an insertion fails where there is no place. -/
theorem putWithin_refused {calloc : Nat → Bool} {tick : Nat} (refused : calloc tick = false)
    (doublings : Nat) {t : Table} (value : UInt32) (none : hashHelper t key = none)
    : (putWithin calloc doublings t key value tick).rv ≠ 0 := by
  have notCreated := hashmapCreate_refused refused (2 * t.tableSize % 2 ^ 32)
  cases doublings with
  | zero =>
      rw [putWithin, none]
      exact Nat.one_ne_zero
  | succ doublings =>
      have failed : (rehashHelper calloc (putWithin calloc doublings) t tick).rv = 1 := by
        unfold rehashHelper
        cases create : hashmapCreate calloc (2 * t.tableSize % 2 ^ 32) tick with
        | mk created next =>
            rw [create] at notCreated
            obtain rfl : created = Option.none := notCreated
            rfl
      rw [putWithin, none]
      dsimp only
      rw [failed, if_neg Nat.one_ne_zero, failed]
      exact Nat.one_ne_zero

/-- If an entry finds no place in the table of double size and memory ends there, then those
that were moved before it are lost.
-/
theorem rehashHelper_stuck {calloc : Nat → Bool} {tick : Nat} {t : Table} (valid : Valid t map)
    (small : 2 * t.tableSize < 2 ^ 32) (stuck : t.doubled = none)
    (granted : calloc tick = true) (refused : calloc (tick + 1) = false) (doublings : Nat)
    : (rehashHelper calloc (putWithin calloc doublings) t tick).rv ≠ 0
      ∧ (rehashHelper calloc (putWithin calloc doublings) t tick).m.size < t.size := by
  have stores := putWithin_storesFound calloc doublings
  have positive : 0 < 2 * t.tableSize := by
    have nonempty := valid.represents.nonempty
    rw [valid.length] at nonempty
    omega
  have failed := iteratePairs_stuck stores
    (fun none => putWithin_refused refused doublings _ none) stuck
  have moved := iteratePairs_removed_pos stores positive failed
  have leaves := iteratePairs_leftOf (putWithin calloc doublings) t.data
    (freeTable (2 * t.tableSize)) (tick + 1)
  have count := leaves.count
  have size := valid.size
  unfold rehashHelper
  rw [valid.create_granted small granted]
  dsimp only
  rw [if_neg failed]
  refine ⟨Nat.one_ne_zero, ?_⟩
  change t.size - _ < t.size
  omega

/-- Memory for the doublings up to this one. -/
def grants (times tick : Nat) : Bool :=
  tick ≤ times

/-- A table that gets stuck after some doublings loses entries when memory ends there. By
induction on the doublings before that.
-/
theorem lost_of_stuck {times : Nat} {t : Table} (grown : m.grown times = some t)
    (noPlace : NoPlace m key (times + 1)) (small : 2 * t.tableSize < 2 ^ 32)
    (stuck : t.doubled = none) (value : UInt32) (rest : Nat) {now doublings : Nat}
    {current : Table} (isNow : now + rest = times) (enough : rest < doublings)
    (isCurrent : m.grown now = some current) (valid : Valid current map)
    : (putWithin (grants times) doublings current key value now).rv ≠ 0
      ∧ (putWithin (grants times) doublings current key value now).m.size < current.size := by
  induction rest generalizing now doublings current with
  | zero =>
      obtain ⟨fuel, rfl⟩ : ∃ fuel, doublings = fuel + 1 := ⟨doublings - 1, by omega⟩
      obtain rfl : now = times := isNow
      obtain rfl : t = current := Option.some.inj (grown.symm.trans isCurrent)
      have granted : grants now now = true := by simp [grants]
      have refused : grants now (now + 1) = false := by simp [grants]
      obtain ⟨failed, lost⟩ := rehashHelper_stuck valid small stuck granted refused fuel
      rw [putWithin, noPlace now (Nat.lt_succ_self now) t grown]
      dsimp only
      rw [if_neg failed]
      exact ⟨failed, lost⟩
  | succ rest ih =>
      obtain ⟨fuel, rfl⟩ : ∃ fuel, doublings = fuel + 1 := ⟨doublings - 1, by omega⟩
      obtain ⟨next, isNext⟩ : ∃ next, m.grown (now + 1) = some next :=
        grown_earlier rest (by rw [← grown, ← isNow]; congr 1; omega)
      have doubled : current.doubled = some next := by
        rw [Table.grown, isCurrent] at isNext
        exact isNext
      have smaller : 2 * current.tableSize < 2 ^ 32 := by
        have earlier : 2 ^ now * m.tableSize ≤ 2 ^ times * m.tableSize :=
          Nat.mul_le_mul_right _ (Nat.pow_le_pow_right (by decide) (by omega))
        rw [← grown_tableSize grown, ← grown_tableSize isCurrent] at earlier
        omega
      have granted : grants times now = true := decide_eq_true (by omega)
      have moved := rehashHelper_placed (putWithin_storesFound (grants times) fuel) valid
        (valid.create_granted smaller granted) doubled
      have nextValid := valid.doubled smaller doubled
      obtain ⟨failed, lost⟩ := @ih (now + 1) fuel next (by omega) (by omega) isNext nextValid
      rw [putWithin, noPlace now (by omega) current isCurrent]
      dsimp only
      rw [moved]
      dsimp only
      rw [if_pos rfl]
      exact ⟨failed, (Intact.of_valid valid nextValid).size ▸ lost⟩

end Failed

/-- A failed insertion of a key is harmless under all failures of memory exactly if the table is
roomy for it.
-/
theorem failed_put_harmless_iff {m : Table} (reachable : Reachable m) (key : Key)
    : (∀ (calloc : Nat → Bool) (value : UInt32) (tick : Nat),
        (hashmapPut calloc m key value tick).rv ≠ 0
        → Intact m (hashmapPut calloc m key value tick).m)
      ↔ Roomy m key := by
  obtain ⟨map, valid⟩ := reachable.valid
  have start : m.grown 0 = some m := rfl
  constructor
  · intro harmless times t grown noPlace small
    by_contra stuck
    rw [Option.not_isSome_iff_eq_none] at stuck
    have few : times < 32 := by
      have positive : 1 ≤ m.tableSize := valid.length ▸ valid.represents.nonempty
      have power : 2 ^ times < 2 ^ 32 := by
        calc
          2 ^ times
          _ ≤ 2 ^ times * m.tableSize := Nat.le_mul_of_pos_right _ positive
          _ = t.tableSize := (grown_tableSize grown).symm
          _ < 2 ^ 32 := by omega
      exact (Nat.pow_lt_pow_iff_right (by decide)).mp power
    have nowhere : NoPlace m key (times + 1) := fun earlier bound =>
      noPlace earlier (Nat.le_of_lt_succ bound)
    obtain ⟨failed, lost⟩ :=
      lost_of_stuck grown nowhere small stuck 0 times (Nat.zero_add times) few start valid
    exact Nat.lt_irrefl _ ((harmless (grants times) 0 0 failed).size ▸ lost)
  · intro roomy calloc value tick failed
    have none : NoPlace m key 0 := fun earlier negative => absurd negative (Nat.not_lt_zero _)
    exact Intact.of_valid valid (roomy.failed_valid start none valid failed)

/-- A table of one slot that is taken. -/
def oneEntry : Table :=
  { tableSize := 1, size := 1, data := [some ([97], 1)] }

theorem oneEntry_reachable : Reachable oneEntry := by
  have created : hashmapCreate (fun _ => true) (2 ^ 0) 0 = (some (freeTable 1), 1) := rfl
  have filled : (hashmapPut (fun _ => true) (freeTable 1) [97] 1 1).m = oneEntry := rfl
  exact filled ▸ (Reachable.create (Nat.zero_lt_succ 31) created).put (fun _ => true) [97] 1 1

theorem oneEntry_roomy : Roomy oneEntry [98] := by
  intro times t grown noPlace _
  cases times with
  | zero =>
      obtain rfl := Option.some.inj grown
      decide +kernel
  | succ times =>
      obtain ⟨doubled, isDoubled⟩ : ∃ doubled, oneEntry.grown 1 = some doubled :=
        grown_earlier times (Nat.add_comm times 1 ▸ grown)
      have none := noPlace 1 (Nat.le_add_left 1 times) doubled isDoubled
      have found : ((oneEntry.grown 1).bind fun t => hashHelper t [98]).isSome := by
        decide +kernel
      rw [isDoubled, Option.bind_some, none] at found
      cases found

/-- Witness: there is no memory for the second slot, and the first one keeps its key. -/
theorem failed_put_one_entry
    : (hashmapPut (fun _ => false) oneEntry [98] 2 0).rv ≠ 0
      ∧ Intact oneEntry (hashmapPut (fun _ => false) oneEntry [98] 2 0).m := by
  have failed : (hashmapPut (fun _ => false) oneEntry [98] 2 0).rv ≠ 0 := by decide +kernel
  exact
    ⟨failed,
      (failed_put_harmless_iff oneEntry_reachable [98]).mpr oneEntry_roomy (fun _ => false) 2 0
        failed⟩

/-- The client ids ca, ch, dq, ef, eg, fp, gr, it and ae. The hashes of the first eight are 8
modulo 32, so they fill all places of such a hash. The last one is stored in front of them in a
table of 16 slots.
-/
def crowdingIds : List Key :=
  [[99, 97], [99, 104], [100, 113], [101, 102], [101, 103], [102, 112], [103, 114], [105, 116],
    [97, 101]]

theorem Reachable.runOps {calloc : Nat → Bool} {ops : List Op} {state after : Table × Nat}
    (reachable : Reachable state.1) (ran : runOps calloc ops state = some after)
    : Reachable after.1 := by
  induction ops generalizing state with
  | nil =>
      obtain rfl := Option.some.inj ran
      exact reachable
  | cons op rest ih =>
      obtain ⟨next, first, later⟩ := Option.bind_eq_some_iff.mp ran
      refine ih ?_ later
      cases op with
      | put key value =>
          rw [Op.run] at first
          split at first
          · obtain rfl := Option.some.inj first
            exact reachable.put calloc key value state.2
          · cases first
      | get key =>
          obtain rfl := Option.some.inj first
          exact reachable
      | remove key =>
          obtain rfl := Option.some.inj first
          exact reachable.remove key

/-- The id mj belongs in the same places. The first table of double size has no place for the
last of the other eight, and there is no memory for a second one: the call fails and one id of
nine is left.
-/
theorem crowded_put_loses
    : ∃ m,
        Reachable m
        ∧ ∃ key calloc value tick,
            (hashmapPut calloc m key value tick).rv ≠ 0
            ∧ m.size = 9
            ∧ (hashmapPut calloc m key value tick).m.size = 1
            ∧ hashmapGet m [99, 97] = 1
            ∧ hashmapGet (hashmapPut calloc m key value tick).m [99, 97] = 0 := by
  have created : hashmapCreate (fun _ => true) (2 ^ 4) 0 = (some (freeTable 16), 1) := rfl
  have ran
      : (runOps (fun _ => true) (crowdingIds.map fun id => .put id 1) (freeTable 16, 1)).map
          (fun after =>
            let put := hashmapPut (fun tick => tick == 0) after.1 [109, 106] 1 0
            (put.rv, after.1.size, put.m.size, hashmapGet after.1 [99, 97],
              hashmapGet put.m [99, 97]))
        = some (1, 9, 1, 1, 0) := by
    decide +kernel
  obtain ⟨after, isRun, values⟩ := Option.map_eq_some_iff.mp ran
  simp only [Prod.mk.injEq] at values
  obtain ⟨failed, size, left, held, lost⟩ := values
  refine
    ⟨after.1, (Reachable.create (by decide) created).runOps isRun, [109, 106],
      fun tick => tick == 0, 1, 0, ?_, size, left, held, lost⟩
  rw [failed]
  exact Nat.one_ne_zero

end NanoMQ.Hashmap
