import NanoMQ.Hashmap.Table

/-! The table of client ids is a finite map: every sequence of operations whose insertions
succeed gives what the same sequence gives on a map.
-/

namespace NanoMQ.Hashmap

open Probing

-- What the probes find

/-- By induction on the steps. -/
theorem linearProbe_eq_find (m : Table) (test : Nat → Bool) (steps curr : Nat)
    : m.linearProbe test steps curr = (probe m.tableSize curr steps).find? test := by
  induction steps generalizing curr with
  | zero => rfl
  | succ steps ih =>
      rw [Table.linearProbe, probe, List.find?_cons, ih]
      cases test curr <;> rfl

theorem holdsKey_iff {m : Table} {key : Key} {index : Nat}
    : m.holdsKey key index = true ↔ ∃ value, entryAt m.data index = some (key, value) := by
  unfold Table.holdsKey
  cases entryAt m.data index with
  | none => simp
  | some entry =>
      obtain ⟨other, value⟩ := entry
      simp

/-- The table represents a map, and its sizes are those of the slots. -/
structure Valid (m : Table) (map : Key → Option UInt32) : Prop where
  represents : Represents hashKey HASHMAP_MAX_CHAIN_LENGTH m.data map
  length : m.data.length = m.tableSize
  power : ∃ bits < 32, m.tableSize = 2 ^ bits
  size : m.size = occupied m.data

section Valid

variable {m : Table} {map : Key → Option UInt32}

theorem Valid.near (valid : Valid m map) {key : Key} {value : UInt32} {index : Nat}
    (held : entryAt m.data index = some (key, value))
    : index ∈ probe m.tableSize (m.home key) HASHMAP_MAX_CHAIN_LENGTH := by
  have member := valid.represents.near held
  rw [valid.length] at member
  exact member

theorem Valid.probe_present (valid : Valid m map) {key : Key} {value : UInt32}
    (present : map key = some value)
    : ∃ index,
        m.linearProbe (m.holdsKey key) HASHMAP_MAX_CHAIN_LENGTH (m.home key) = some index
        ∧ entryAt m.data index = some (key, value) := by
  obtain ⟨index, held⟩ := (valid.represents.holds key value).mp present
  rw [linearProbe_eq_find]
  have found
      : ((probe m.tableSize (m.home key) HASHMAP_MAX_CHAIN_LENGTH).find?
          (m.holdsKey key)).isSome := by
    rw [List.find?_isSome]
    exact ⟨index, valid.near held, holdsKey_iff.mpr ⟨value, held⟩⟩
  obtain ⟨first, isFirst⟩ := Option.isSome_iff_exists.mp found
  obtain ⟨other, heldFirst⟩ := holdsKey_iff.mp (List.find?_some isFirst)
  refine ⟨first, isFirst, ?_⟩
  rw [valid.represents.unique heldFirst held]
  exact held

theorem Valid.probe_absent (valid : Valid m map) {key : Key} (absent : map key = none)
    : m.linearProbe (m.holdsKey key) HASHMAP_MAX_CHAIN_LENGTH (m.home key) = none := by
  rw [linearProbe_eq_find, List.find?_eq_none]
  intro index _ held
  obtain ⟨value, held⟩ := holdsKey_iff.mp held
  exact (valid.represents.absent_iff key).mp absent index value held

theorem Valid.get (valid : Valid m map) (key : Key) : hashmapGet m key = (map key).getD 0 := by
  unfold hashmapGet
  cases found : map key with
  | none => rw [valid.probe_absent found]; rfl
  | some value =>
      obtain ⟨index, isIndex, held⟩ := valid.probe_present found
      rw [isIndex]
      simp [held]

theorem Valid.remove_rv (valid : Valid m map) (key : Key)
    : (hashmapRemove m key).1 = 0 ↔ (map key).isSome := by
  unfold hashmapRemove
  cases found : map key with
  | none =>
      rw [valid.probe_absent found]
      simp
  | some value =>
      obtain ⟨index, isIndex, held⟩ := valid.probe_present found
      rw [isIndex]
      simp

theorem Valid.remove (valid : Valid m map) (key : Key)
    : Valid (hashmapRemove m key).2 (Function.update map key none) := by
  unfold hashmapRemove
  cases found : map key with
  | none =>
      rw [valid.probe_absent found, ← found, Function.update_eq_self]
      exact valid
  | some value =>
      obtain ⟨index, isIndex, held⟩ := valid.probe_present found
      have counted := occupied_empty held
      have isSize := valid.size
      rw [isIndex]
      exact {
        represents := valid.represents.clear held
        length := by simpa using valid.length
        power := valid.power
        size := by
          rw [← counted] at isSize
          exact Nat.sub_eq_of_eq_add isSize
      }

theorem Valid.hashHelper_suits (valid : Valid m map) {key : Key} {index : Nat}
    (found : hashHelper m key = some index)
    : index ∈ probe m.data.length (hashKey key % m.data.length) HASHMAP_MAX_CHAIN_LENGTH
      ∧ Suits m.data key index := by
  rw [valid.length]
  unfold hashHelper at found
  split at found
  · cases found
  · cases present : map key with
    | some value =>
        obtain ⟨place, isPlace, held⟩ := valid.probe_present present
        rw [isPlace] at found
        obtain rfl := Option.some.inj found
        exact ⟨valid.near held, .inl ⟨value, held⟩⟩
    | none =>
        rw [valid.probe_absent present] at found
        dsimp only at found
        split at found
        · rw [linearProbe_eq_find] at found
          refine ⟨List.mem_of_find?_eq_some found, .inr ⟨?_, ?_⟩⟩
          · have free : m.isFree index = true := List.find?_some found
            exact Option.isNone_iff_eq_none.mp free
          · exact (valid.represents.absent_iff key).mp present
        · cases found

theorem Valid.store (valid : Valid m map) {key : Key} {index : Nat}
    (found : hashHelper m key = some index) (value : UInt32)
    : Valid (m.store index key value) (Function.update map key (some value)) := by
  obtain ⟨inProbe, suits⟩ := valid.hashHelper_suits found
  have inside := lt_of_mem_probe (valid.represents.home_lt key) inProbe
  exact {
    represents := valid.represents.store value inProbe suits
    length := by simpa [Table.store] using valid.length
    power := valid.power
    size := by
      simp only [Table.store, Table.isFree, valid.size]
      rcases suits with ⟨old, held⟩ | ⟨free, _⟩
      · simp [held, occupied_replace held]
      · simp [free, occupied_fill inside free]
  }

end Valid

theorem hashmapCreate_valid {calloc : Nat → Bool} {bits tick next : Nat} {created : Table}
    (unsigned : bits < 32) (success : hashmapCreate calloc (2 ^ bits) tick = (some created, next))
    : Valid created (fun _ => none) ∧ created.tableSize = 2 ^ bits := by
  unfold hashmapCreate at success
  split at success
  · cases success
  · split at success
    · cases success
      refine ⟨{
        represents := represents_replicate _ _ (Nat.two_pow_pos bits)
        length := List.length_replicate
        power := ⟨bits, unsigned, rfl⟩
        size := by simp [occupied, List.countP_replicate]
      }, rfl⟩
    · cases success

-- Rehashing and hashmap_put

/-- An insertion that succeeds updates the map and does not shrink the table. -/
def Inserts (insert : Table → Key → UInt32 → Nat → Put) : Prop :=
  ∀ (m : Table) (map : Key → Option UInt32) (key : Key) (value : UInt32) (tick : Nat),
    Valid m map
    → (insert m key value tick).rv = 0
    → Valid (insert m key value tick).m (Function.update map key (some value))
      ∧ m.tableSize ≤ (insert m key value tick).m.tableSize

section Rehash

variable {calloc : Nat → Bool} {insert : Table → Key → UInt32 → Nat → Put}

/-- A complete iteration enters all slots into the map of the new table. By induction on the
slots.
-/
theorem iteratePairs_valid (inserts : Inserts insert) {slots : Slots Key UInt32}
    {newHash : Table} {map : Key → Option UInt32} {tick : Nat} (valid : Valid newHash map)
    (complete : (iteratePairs insert slots newHash tick).flag = 0)
    : Valid (iteratePairs insert slots newHash tick).newHash (slots.foldl enter map)
      ∧ newHash.tableSize ≤ (iteratePairs insert slots newHash tick).newHash.tableSize := by
  induction slots generalizing newHash map tick with
  | nil => exact ⟨valid, Nat.le_refl _⟩
  | cons slot rest ih =>
      cases slot with
      | none => exact ih valid complete
      | some entry =>
          obtain ⟨key, value⟩ := entry
          rw [iteratePairs] at complete ⊢
          dsimp only at complete ⊢
          split at complete
          · rename_i success
            obtain ⟨inserted, grows⟩ := inserts _ _ key value tick valid success
            rw [if_pos success]
            obtain ⟨all, growsMore⟩ := ih inserted complete
            exact ⟨all, grows.trans growsMore⟩
          · cases complete

theorem hashmapCreate_double {m : Table} {map : Key → Option UInt32} {tick next : Nat}
    {created : Table} (valid : Valid m map)
    (success : hashmapCreate calloc (2 * m.tableSize % 2 ^ 32) tick = (some created, next))
    : Valid created (fun _ => none) ∧ created.tableSize = 2 * m.tableSize := by
  obtain ⟨bits, unsigned, isPower⟩ := valid.power
  have small : bits < 31 := by
    by_contra large
    obtain rfl : bits = 31 := by omega
    rw [isPower] at success
    cases success
  have doubled : 2 * m.tableSize % 2 ^ 32 = 2 ^ (bits + 1) := by
    rw [isPower, ← pow_succ', Nat.mod_eq_of_lt]
    exact Nat.pow_lt_pow_right (by decide) (by omega)
  rw [doubled] at success
  obtain ⟨fresh, freshSize⟩ := hashmapCreate_valid (by omega) success
  exact ⟨fresh, by rw [freshSize, isPower, pow_succ']⟩

/-- A rehash that succeeds keeps the map, in a table of at least double size. -/
theorem rehashHelper_valid (inserts : Inserts insert) {m : Table}
    {map : Key → Option UInt32} {tick : Nat} (valid : Valid m map)
    (success : (rehashHelper calloc insert m tick).rv = 0)
    : Valid (rehashHelper calloc insert m tick).m map
      ∧ 2 * m.tableSize ≤ (rehashHelper calloc insert m tick).m.tableSize := by
  unfold rehashHelper at success ⊢
  cases create : hashmapCreate calloc (2 * m.tableSize % 2 ^ 32) tick with
  | mk created next =>
      rw [create] at success
      cases created with
      | none => cases success
      | some newHash =>
          dsimp only at success ⊢
          split at success
          · rename_i complete
            rw [if_pos complete]
            obtain ⟨fresh, freshSize⟩ := hashmapCreate_double valid create
            obtain ⟨all, grows⟩ := iteratePairs_valid inserts fresh complete
            rw [valid.represents.foldl_enter] at all
            exact ⟨all, freshSize ▸ grows⟩
          · cases success

end Rehash

/-- By induction on the doublings; the entries of a new table are inserted with fewer. -/
theorem putWithin_inserts (calloc : Nat → Bool) (doublings : Nat)
    : Inserts (putWithin calloc doublings) := by
  induction doublings with
  | zero =>
      intro m map key value tick valid success
      rw [putWithin] at success ⊢
      cases found : hashHelper m key with
      | some index => exact ⟨valid.store found value, Nat.le_refl _⟩
      | none =>
          rw [found] at success
          cases success
  | succ doublings ih =>
      intro m map key value tick valid success
      rw [putWithin] at success ⊢
      cases found : hashHelper m key with
      | some index => exact ⟨valid.store found value, Nat.le_refl _⟩
      | none =>
          rw [found] at success
          dsimp only at success ⊢
          split at success
          · rename_i rehashed
            rw [if_pos rehashed]
            obtain ⟨kept, doubled⟩ := rehashHelper_valid ih valid rehashed
            obtain ⟨inserted, grows⟩ := ih _ _ key value _ kept success
            exact ⟨inserted, by omega⟩
          · rename_i failed
            exact absurd success failed

-- The bound on the doublings is never met

/-- Two insertions do the same on valid tables of some size or larger. -/
def Agree (least : Nat) (insert other : Table → Key → UInt32 → Nat → Put) : Prop :=
  ∀ (m : Table) (map : Key → Option UInt32) (key : Key) (value : UInt32) (tick : Nat),
    Valid m map → least ≤ m.tableSize → insert m key value tick = other m key value tick

section Agree

variable {calloc : Nat → Bool} {least : Nat} {insert other : Table → Key → UInt32 → Nat → Put}

/-- By induction on the slots; the new table only grows. -/
theorem Agree.iteratePairs_eq (agree : Agree least insert other) (inserts : Inserts insert)
    (slots : Slots Key UInt32) {newHash : Table} {map : Key → Option UInt32} (tick : Nat)
    (valid : Valid newHash map) (large : least ≤ newHash.tableSize)
    : iteratePairs insert slots newHash tick = iteratePairs other slots newHash tick := by
  induction slots generalizing newHash map tick with
  | nil => rfl
  | cons slot rest ih =>
      cases slot with
      | none => rw [iteratePairs, iteratePairs, ih tick valid large]
      | some entry =>
          obtain ⟨key, value⟩ := entry
          rw [iteratePairs, iteratePairs, ← agree _ _ key value tick valid large]
          dsimp only
          split
          · rename_i success
            obtain ⟨inserted, grows⟩ := inserts _ _ key value tick valid success
            rw [ih _ inserted (large.trans grows)]
          · rfl

theorem Agree.rehashHelper_eq {m : Table} {map : Key → Option UInt32}
    (agree : Agree (2 * m.tableSize) insert other) (inserts : Inserts insert)
    (valid : Valid m map) (tick : Nat)
    : rehashHelper calloc insert m tick = rehashHelper calloc other m tick := by
  unfold rehashHelper
  cases create : hashmapCreate calloc (2 * m.tableSize % 2 ^ 32) tick with
  | mk created next =>
      cases created with
      | none => rfl
      | some newHash =>
          obtain ⟨fresh, freshSize⟩ := hashmapCreate_double valid create
          dsimp only
          rw [agree.iteratePairs_eq inserts m.data next fresh freshSize.ge]

end Agree

/-- One doubling more makes no difference where the table would not fit 32 bits any more. By
induction on the doublings.
-/
theorem putWithin_agree (calloc : Nat → Bool) {doublings least : Nat}
    (enough : 2 ^ 32 ≤ 2 ^ doublings * least)
    : Agree least (putWithin calloc (doublings + 1)) (putWithin calloc doublings) := by
  induction doublings generalizing least with
  | zero =>
      intro m map key value tick valid large
      obtain ⟨bits, unsigned, isPower⟩ := valid.power
      have small : 2 ^ bits < 2 ^ 32 := Nat.pow_lt_pow_right (by decide) unsigned
      omega
  | succ doublings ih =>
      intro m map key value tick valid large
      have agree : Agree (2 * m.tableSize) (putWithin calloc (doublings + 1))
          (putWithin calloc doublings) := by
        apply ih
        calc
          2 ^ 32
          _ ≤ 2 ^ (doublings + 1) * least := enough
          _ ≤ 2 ^ (doublings + 1) * m.tableSize := Nat.mul_le_mul_left _ large
          _ = 2 ^ doublings * (2 * m.tableSize) := by rw [pow_succ, Nat.mul_assoc]
      have inserts := putWithin_inserts calloc (doublings + 1)
      rw [putWithin, putWithin, agree.rehashHelper_eq inserts valid]
      split
      · rfl
      · dsimp only
        split
        · rename_i rehashed
          obtain ⟨kept, doubled⟩ :=
            rehashHelper_valid (putWithin_inserts calloc doublings) valid rehashed
          exact agree _ _ key value _ kept doubled
        · rfl

/-- `hashmap_put` is not cut off: any higher bound gives the same. By induction on it. -/
theorem putWithin_eq_hashmapPut (calloc : Nat → Bool) {m : Table} {map : Key → Option UInt32}
    (valid : Valid m map) (more : Nat) (key : Key) (value : UInt32) (tick : Nat)
    : putWithin calloc (32 + more) m key value tick = hashmapPut calloc m key value tick := by
  induction more with
  | zero => rfl
  | succ more ih =>
      obtain ⟨bits, _, isPower⟩ := valid.power
      have enough : 2 ^ 32 ≤ 2 ^ (32 + more) * 1 := by
        rw [Nat.mul_one]
        exact Nat.pow_le_pow_right (by decide) (by omega)
      have positive : 1 ≤ m.tableSize := by
        rw [isPower]
        exact Nat.two_pow_pos bits
      rw [← ih, ← putWithin_agree calloc enough m map key value tick valid positive]
      rfl

-- Sequences of operations

inductive Op where
  | put (key : Key) (value : UInt32)
  | get (key : Key)
  | remove (key : Key)

/-- What an operation does to a map. -/
def Op.apply (map : Key → Option UInt32) : Op → Key → Option UInt32
  | .put key value => Function.update map key (some value)
  | .get _ => map
  | .remove key => Function.update map key none

/-- The latest value of each key that was put and not removed since. -/
def latest (ops : List Op) : Key → Option UInt32 :=
  ops.foldl Op.apply fun _ => none

/-- The table after one operation; none where `hashmap_put` fails. -/
def Op.run (calloc : Nat → Bool) (state : Table × Nat) : Op → Option (Table × Nat)
  | .put key value =>
      let put := hashmapPut calloc state.1 key value state.2
      if put.rv = 0 then some (put.m, put.tick) else none
  | .get _ => some state
  | .remove key => some ((hashmapRemove state.1 key).2, state.2)

/-- The table after a sequence of operations whose insertions all return 0. -/
def runOps (calloc : Nat → Bool) : List Op → Table × Nat → Option (Table × Nat)
  | [], state => some state
  | op :: rest, state => (op.run calloc state).bind (runOps calloc rest)

theorem Op.run_valid {calloc : Nat → Bool} {op : Op} {state after : Table × Nat}
    {map : Key → Option UInt32} (valid : Valid state.1 map)
    (ran : op.run calloc state = some after)
    : Valid after.1 (op.apply map) := by
  cases op with
  | put key value =>
      rw [Op.run] at ran
      split at ran
      · rename_i success
        obtain rfl := Option.some.inj ran
        exact (putWithin_inserts calloc 32 _ _ key value _ valid success).1
      · cases ran
  | get key =>
      obtain rfl := Option.some.inj ran
      exact valid
  | remove key =>
      obtain rfl := Option.some.inj ran
      exact valid.remove key

/-- By induction on the operations. -/
theorem runOps_valid {calloc : Nat → Bool} {ops : List Op} {state after : Table × Nat}
    {map : Key → Option UInt32} (valid : Valid state.1 map)
    (ran : runOps calloc ops state = some after)
    : Valid after.1 (ops.foldl Op.apply map) := by
  induction ops generalizing state map with
  | nil =>
      obtain rfl := Option.some.inj ran
      exact valid
  | cons op rest ih =>
      obtain ⟨next, first, later⟩ := Option.bind_eq_some_iff.mp ran
      exact ih (op.run_valid valid first) later

theorem Valid.one_slot {m : Table} {map : Key → Option UInt32} (valid : Valid m map) {key : Key}
    (present : (map key).isSome)
    : (∃! index, m.holdsKey key index = true)
      ∧ ∀ index,
          m.holdsKey key index = true
          → ∃ step < HASHMAP_MAX_CHAIN_LENGTH, index = (hashKey key + step) % m.tableSize := by
  obtain ⟨value, isValue⟩ := Option.isSome_iff_exists.mp present
  obtain ⟨index, held⟩ := (valid.represents.holds key value).mp isValue
  have positive : 0 < m.tableSize := valid.length ▸ valid.represents.nonempty
  refine ⟨⟨index, holdsKey_iff.mpr ⟨value, held⟩, ?_⟩, ?_⟩
  · intro other holds
    obtain ⟨_, heldOther⟩ := holdsKey_iff.mp holds
    exact valid.represents.unique heldOther held
  · intro other holds
    obtain ⟨_, heldOther⟩ := holdsKey_iff.mp holds
    obtain ⟨step, bound, rfl⟩ :=
      (mem_probe (Nat.mod_lt _ positive)).mp (valid.near heldOther)
    exact ⟨step, bound, Nat.mod_add_mod ..⟩

/-- The table as a finite map, after every sequence of operations on a new table of any size
that is a power of two, as long as the insertions return 0.
-/
theorem client_table_is_map (calloc : Nat → Bool) {bits : Nat} (unsigned : bits < 32)
    {created : Table} {tick : Nat}
    (success : hashmapCreate calloc (2 ^ bits) 0 = (some created, tick)) (ops : List Op)
    {m : Table} {last : Nat} (ran : runOps calloc ops (created, tick) = some (m, last))
    : (∀ key, hashmapGet m key = (latest ops key).getD 0)
      ∧ (∀ key, (hashmapRemove m key).1 = 0 ↔ (latest ops key).isSome)
      ∧ m.size = Set.ncard { key | (latest ops key).isSome }
      ∧ ∀ key,
          (latest ops key).isSome
          → (∃! index, m.holdsKey key index = true)
            ∧ ∀ index,
                m.holdsKey key index = true
                → ∃ step < HASHMAP_MAX_CHAIN_LENGTH,
                    index = (hashKey key + step) % m.tableSize := by
  have valid : Valid m (latest ops) :=
    runOps_valid (hashmapCreate_valid unsigned success).1 ran
  refine ⟨valid.get, valid.remove_rv, ?_, fun key present => valid.one_slot present⟩
  rw [valid.size, valid.represents.occupied_eq]

/-- Two keys in a table that starts with one slot: the second insertion doubles it. -/
theorem client_table_two_keys
    : ∃ m last,
        runOps (fun _ => true)
            [.put [97] 1, .put [98] 2, .put [97] 3, .put [99] 4, .remove [98]]
            ({ tableSize := 1, size := 0, data := [none] }, 1)
          = some (m, last)
        ∧ hashmapGet m [97] = 3
        ∧ hashmapGet m [98] = 0
        ∧ (hashmapRemove m [98]).1 ≠ 0 := by
  have ran
      : (runOps (fun _ => true)
          [.put [97] 1, .put [98] 2, .put [97] 3, .put [99] 4, .remove [98]]
          ({ tableSize := 1, size := 0, data := [none] }, 1)).isSome := by
    decide +kernel
  obtain ⟨⟨m, last⟩, isRun⟩ := Option.isSome_iff_exists.mp ran
  have created
      : hashmapCreate (fun _ => true) (2 ^ 0) 0
        = (some { tableSize := 1, size := 0, data := [none] }, 1) :=
    rfl
  obtain ⟨gets, removes, _⟩ :=
    client_table_is_map (fun _ => true) (Nat.zero_lt_succ 31) created _ isRun
  refine ⟨m, last, isRun, ?_, ?_, ?_⟩
  · rw [gets]
    decide
  · rw [gets]
    decide
  · rw [ne_eq, removes]
    decide

end NanoMQ.Hashmap
