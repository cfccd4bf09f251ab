import Mathlib

/-! Reference counts of objects that are obtained one after another.
An agent holds references in its hand, slots keep some objects, and other agents hold the
rest. The calls of the agent are replayed on the counts, where a call on an object without
references is a fault; a step of the agent is right if the replay ends with the counts that
its hand and the slots have afterwards.
-/

namespace References

-- Replaying calls

/-- A call on an object: look at it, take another reference, or give one back. -/
inductive Access where
  | inspect (id : Nat)
  | clone (id : Nat)
  | release (id : Nat)
  deriving DecidableEq, Repr

namespace Access

def id : Access → Nat
  | .inspect id | .clone id | .release id => id

/-- The count of the object after the call. -/
def after (count : Nat) : Access → Nat
  | .inspect _ => count
  | .clone _ => count + 1
  | .release _ => count - 1

end Access

/-- One call; an object without references must not be used. -/
def access (counts : Nat → Nat) (call : Access) : Option (Nat → Nat) :=
  if 0 < counts call.id then
    some (Function.update counts call.id (call.after (counts call.id)))
  else none

def replay (counts : Nat → Nat) (calls : List Access) : Option (Nat → Nat) :=
  calls.foldlM access counts

theorem replay_append (counts : Nat → Nat) (calls more : List Access)
    : replay counts (calls ++ more) = (replay counts calls).bind (replay · more) := by
  unfold replay
  rw [List.foldlM_append]
  rfl

theorem replay_single {counts after : Nat → Nat} (call : Access)
    (referenced : 0 < counts call.id) (self : after call.id = call.after (counts call.id))
    (others : ∀ id, id ≠ call.id → after id = counts id)
    : replay counts [call] = some after := by
  have updated : Function.update counts call.id (call.after (counts call.id)) = after := by
    funext id
    rcases eq_or_ne id call.id with rfl | different
    · rw [Function.update_self, self]
    · rw [Function.update_of_ne different, others id different]
  change (access counts call).bind pure = _
  unfold access
  rw [if_pos referenced, updated]
  rfl

-- Books

/-- The references in the hand of an agent, the objects in the slots, and the next object
that will be obtained.
-/
structure Books (Slot : Type) where
  hand : List Nat
  stored : Slot → Option Nat
  next : Nat

section Books

variable {Slot : Type}

open Classical in
/-- A slot keeps this object. -/
noncomputable def storedRefs (stored : Slot → Option Nat) (id : Nat) : Nat :=
  if ∃ slot, stored slot = some id then 1 else 0

theorem storedRefs_of_stored {stored : Slot → Option Nat} {id : Nat}
    (isStored : ∃ slot, stored slot = some id)
    : storedRefs stored id = 1 :=
  if_pos isStored

theorem storedRefs_of_unstored {stored : Slot → Option Nat} {id : Nat}
    (unstored : ¬∃ slot, stored slot = some id)
    : storedRefs stored id = 0 :=
  if_neg unstored

theorem storedRefs_congr {stored after : Slot → Option Nat} {id : Nat}
    (same : (∃ slot, stored slot = some id) ↔ ∃ slot, after slot = some id)
    : storedRefs stored id = storedRefs after id := by
  by_cases kept : ∃ slot, stored slot = some id
  · rw [storedRefs_of_stored kept, storedRefs_of_stored (same.mp kept)]
  · rw [storedRefs_of_unstored kept, storedRefs_of_unstored (mt same.mpr kept)]

/-- No object is in two slots. -/
def Distinct (stored : Slot → Option Nat) : Prop :=
  ∀ slot other id, stored slot = some id → stored other = some id → slot = other

section Take

variable [DecidableEq Slot]

theorem update_none_eq_some {stored : Slot → Option Nat} {slot other : Slot} {id : Nat}
    : Function.update stored slot none other = some id
      ↔ other ≠ slot ∧ stored other = some id := by
  rcases eq_or_ne other slot with rfl | different
  · simp
  · simp [different]

/-- The reference that one slot keeps, counted apart from those of the others. -/
theorem storedRefs_take {stored : Slot → Option Nat} (slot : Slot) (id : Nat)
    (distinct : Distinct stored)
    : storedRefs stored id
      = (stored slot).toList.count id
        + storedRefs (Function.update stored slot none) id := by
  by_cases here : stored slot = some id
  · have gone : ¬∃ other, Function.update stored slot none other = some id := by
      rintro ⟨other, kept⟩
      obtain ⟨different, inOther⟩ := update_none_eq_some.mp kept
      exact different (distinct other slot id inOther here)
    rw [storedRefs_of_stored ⟨slot, here⟩, storedRefs_of_unstored gone, here]
    simp
  · have absent : (stored slot).toList.count id = 0 :=
      List.count_eq_zero.mpr fun member => here (Option.mem_toList.mp member)
    rw [absent, Nat.zero_add]
    refine storedRefs_congr (exists_congr fun other => ?_)
    rw [update_none_eq_some]
    refine ⟨fun kept => ⟨?_, kept⟩, And.right⟩
    rintro rfl
    exact here kept

end Take

namespace Books

/-- Everything in the hand and in the slots has been obtained, and no object is in two
slots.
-/
structure Valid (books : Books Slot) : Prop where
  hand : ∀ id ∈ books.hand, id < books.next
  stored : ∀ slot id, books.stored slot = some id → id < books.next
  distinct : Distinct books.stored

/-- The references to an object, with those that other agents hold. An object is obtained
with one reference.
-/
noncomputable def refs (books : Books Slot) (rest : Nat → Nat) (id : Nat) : Nat :=
  if id < books.next then books.hand.count id + storedRefs books.stored id + rest id else 1

/-- The calls lead from one state of the books to another, whatever other agents hold. -/
structure Plays (books : Books Slot) (calls : List Access) (after : Books Slot) : Prop where
  valid : after.Valid
  next : books.next ≤ after.next
  counts
    : ∀ rest,
        (∀ id, books.next ≤ id → rest id = 0)
        → replay (books.refs rest) calls = some (after.refs rest)

variable {books middle after : Books Slot}

theorem Plays.refl (valid : books.Valid) : books.Plays [] books :=
  { valid, next := Nat.le_refl _, counts := fun _ _ => rfl }

theorem Plays.trans {calls more : List Access} (first : books.Plays calls middle)
    (second : middle.Plays more after)
    : books.Plays (calls ++ more) after := by
  refine { valid := second.valid, next := Nat.le_trans first.next second.next, counts := ?_ }
  intro rest unheld
  rw [replay_append, first.counts rest unheld]
  exact second.counts rest fun id later => unheld id (Nat.le_trans first.next later)

theorem Plays.of_refs (valid : after.Valid) (next : books.next ≤ after.next)
    (same
      : ∀ rest id,
          (∀ id, books.next ≤ id → rest id = 0) → books.refs rest id = after.refs rest id)
    : books.Plays [] after :=
  {
    valid
    next
    counts := fun rest unheld => congrArg some (funext fun id => same rest id unheld)
  }

theorem refs_of_lt {rest : Nat → Nat} {id : Nat} (obtained : id < books.next)
    : books.refs rest id
      = books.hand.count id + storedRefs books.stored id + rest id :=
  if_pos obtained

theorem refs_of_le {rest : Nat → Nat} {id : Nat} (later : books.next ≤ id)
    : books.refs rest id = 1 :=
  if_neg (Nat.not_lt.mpr later)

theorem Valid.perm {hand : List Nat} (valid : books.Valid) (perm : books.hand.Perm hand)
    : ({ books with hand } : Books Slot).Valid :=
  { valid with hand := fun id member => valid.hand id (perm.mem_iff.mpr member) }

theorem refs_perm {hand : List Nat} (perm : books.hand.Perm hand) (rest : Nat → Nat)
    : ({ books with hand } : Books Slot).refs rest = books.refs rest := by
  funext id
  simp only [refs, perm.count_eq id]

theorem Plays.perm {calls : List Access} {hand : List Nat} (plays : books.Plays calls after)
    (perm : after.hand.Perm hand)
    : books.Plays calls { after with hand } := by
  refine { valid := plays.valid.perm perm, next := plays.next, counts := ?_ }
  intro rest unheld
  rw [refs_perm perm]
  exact plays.counts rest unheld

theorem Plays.single {call : Access} {rest : Nat → Nat} (plays : books.Plays [call] after)
    (unheld : ∀ id, books.next ≤ id → rest id = 0)
    : 0 < books.refs rest call.id
      ∧ Function.update (books.refs rest) call.id (call.after (books.refs rest call.id))
        = after.refs rest := by
  have replayed := plays.counts rest unheld
  change (access (books.refs rest) call).bind pure = some (after.refs rest) at replayed
  unfold access at replayed
  split at replayed
  · rename_i referenced
    exact ⟨referenced, Option.some.inj replayed⟩
  · cases replayed

/-- Obtain an object. -/
def obtain (books : Books Slot) : Books Slot :=
  { books with hand := books.next :: books.hand, next := books.next + 1 }

/-- Obtaining an object is no call: its reference is there from the start. -/
theorem Plays.obtain (valid : books.Valid) : books.Plays [] books.obtain := by
  refine .of_refs ?_ (Nat.le_succ _) ?_
  · refine { hand := ?_, stored := ?_, distinct := valid.distinct }
    · intro id member
      rcases List.mem_cons.mp member with rfl | older
      · exact Nat.lt_succ_self _
      · exact Nat.lt_succ_of_lt (valid.hand id older)
    · exact fun slot id kept => Nat.lt_succ_of_lt (valid.stored slot id kept)
  · intro rest id unheld
    rcases Nat.lt_trichotomy id books.next with older | rfl | later
    · rw [refs_of_lt older, refs_of_lt (Nat.lt_succ_of_lt older)]
      have counted : books.obtain.hand.count id = books.hand.count id :=
        List.count_cons_of_ne (Nat.ne_of_gt older)
      rw [counted]
      rfl
    · have unstored : ¬∃ slot, books.stored slot = some books.next := by
        rintro ⟨slot, kept⟩
        exact Nat.lt_irrefl _ (valid.stored slot _ kept)
      have absent : books.hand.count books.next = 0 :=
        List.count_eq_zero.mpr fun member => Nat.lt_irrefl _ (valid.hand _ member)
      have counted : books.obtain.hand.count books.next = 1 := by
        rw [Books.obtain, List.count_cons_self, absent]
      have kept : storedRefs books.obtain.stored books.next = 0 :=
        storedRefs_of_unstored unstored
      rw [refs_of_le (Nat.le_refl _), refs_of_lt (Nat.lt_succ_self _), counted, kept,
        unheld _ (Nat.le_refl _)]
    · rw [refs_of_le (Nat.le_of_lt later), refs_of_le (Nat.succ_le_of_lt later)]

/-- The object is in the hand or in a slot. -/
def Known (books : Books Slot) (id : Nat) : Prop :=
  id ∈ books.hand ∨ ∃ slot, books.stored slot = some id

theorem Known.obtained {id : Nat} (valid : books.Valid) (known : books.Known id)
    : id < books.next := by
  rcases known with member | ⟨slot, kept⟩
  · exact valid.hand id member
  · exact valid.stored slot id kept

theorem Known.referenced {id : Nat} (valid : books.Valid) (known : books.Known id)
    (rest : Nat → Nat)
    : 0 < books.refs rest id := by
  rw [refs_of_lt (known.obtained valid)]
  rcases known with member | kept
  · have positive := List.count_pos_iff.mpr member
    omega
  · rw [storedRefs_of_stored kept]
    omega

theorem Plays.inspect {id : Nat} (valid : books.Valid) (known : books.Known id)
    : books.Plays [.inspect id] books := by
  refine { valid, next := Nat.le_refl _, counts := fun rest _ => ?_ }
  exact replay_single (.inspect id) (known.referenced valid rest) rfl fun _ _ => rfl

theorem Plays.clone {id : Nat} (valid : books.Valid) (known : books.Known id)
    : books.Plays [.clone id] { books with hand := id :: books.hand } := by
  have obtained := known.obtained valid
  refine { valid := ?_, next := Nat.le_refl _, counts := fun rest _ => ?_ }
  · refine { valid with hand := ?_ }
    intro other member
    rcases List.mem_cons.mp member with rfl | older
    · exact obtained
    · exact valid.hand other older
  · refine replay_single (.clone id) (known.referenced valid rest) ?_ ?_
    · change refs _ rest id = books.refs rest id + 1
      simp only [refs, if_pos obtained, List.count_cons_self]
      omega
    · intro other different
      change other ≠ id at different
      simp only [refs, List.count_cons_of_ne different.symm]

theorem Plays.release {id : Nat} (valid : books.Valid) (member : id ∈ books.hand)
    : books.Plays [.release id] { books with hand := books.hand.erase id } := by
  have obtained := valid.hand id member
  have positive := List.count_pos_iff.mpr member
  refine { valid := ?_, next := Nat.le_refl _, counts := fun rest _ => ?_ }
  · exact { valid with hand := fun other kept => valid.hand other (List.mem_of_mem_erase kept) }
  · refine replay_single (.release id)
      (Known.referenced valid (Or.inl member) rest) ?_ ?_
    · change refs _ rest id = books.refs rest id - 1
      simp only [refs, if_pos obtained, List.count_erase_self]
      omega
    · intro other different
      change other ≠ id at different
      simp only [refs, List.count_erase_of_ne different]

theorem Plays.release_head {id : Nat} {hand : List Nat} (valid : books.Valid)
    (held : books.hand = id :: hand)
    : books.Plays [.release id] { books with hand } := by
  have member : id ∈ books.hand := by
    rw [held]
    exact List.mem_cons_self
  have released := Plays.release valid member
  rw [held, List.erase_cons_head] at released
  exact released

section Slots

variable [DecidableEq Slot]

theorem Plays.take (valid : books.Valid) (slot : Slot)
    : books.Plays []
        {
          books with
          hand := (books.stored slot).toList ++ books.hand
          stored := Function.update books.stored slot none
        } := by
  refine .of_refs ?_ (Nat.le_refl _) ?_
  · refine { hand := ?_, stored := ?_, distinct := ?_ }
    · intro id member
      rcases List.mem_append.mp member with kept | held
      · exact valid.stored slot id (Option.mem_toList.mp kept)
      · exact valid.hand id held
    · intro other id kept
      exact valid.stored other id (update_none_eq_some.mp kept).2
    · intro left right id inLeft inRight
      exact valid.distinct left right id (update_none_eq_some.mp inLeft).2
        (update_none_eq_some.mp inRight).2
  · intro rest id _
    have counted := storedRefs_take slot id valid.distinct
    simp only [refs, List.count_append, counted]
    split
    · omega
    · rfl

/-- Putting an object into an empty slot moves its reference out of the hand. -/
theorem Plays.put {slot : Slot} {id : Nat} (valid : books.Valid) (member : id ∈ books.hand)
    (unstored : ¬∃ slot, books.stored slot = some id) (empty : books.stored slot = none)
    : books.Plays []
        {
          books with
          hand := books.hand.erase id
          stored := Function.update books.stored slot (some id)
        } := by
  have stays {other : Slot} {key : Nat} (kept : books.stored other = some key)
      : Function.update books.stored slot (some id) other = some key := by
    have different : other ≠ slot := by
      rintro rfl
      cases empty.symm.trans kept
    rw [Function.update_of_ne different, kept]
  have stored_cases {other : Slot} {key : Nat}
      (kept : Function.update books.stored slot (some id) other = some key)
      : (other = slot ∧ key = id) ∨ (books.stored other = some key ∧ key ≠ id) := by
    rcases eq_or_ne other slot with rfl | different
    · rw [Function.update_self] at kept
      exact Or.inl ⟨rfl, (Option.some.inj kept).symm⟩
    · rw [Function.update_of_ne different] at kept
      refine Or.inr ⟨kept, ?_⟩
      rintro rfl
      exact unstored ⟨other, kept⟩
  refine .of_refs ?_ (Nat.le_refl _) ?_
  · refine { hand := ?_, stored := ?_, distinct := ?_ }
    · exact fun other kept => valid.hand other (List.mem_of_mem_erase kept)
    · intro other key kept
      rcases stored_cases kept with ⟨_, rfl⟩ | ⟨older, _⟩
      · exact valid.hand key member
      · exact valid.stored other key older
    · intro left right key inLeft inRight
      rcases stored_cases inLeft with ⟨rfl, rfl⟩ | ⟨olderLeft, different⟩
      · rcases stored_cases inRight with ⟨rfl, _⟩ | ⟨_, different⟩
        · rfl
        · exact absurd rfl different
      · rcases stored_cases inRight with ⟨_, same⟩ | ⟨olderRight, _⟩
        · exact absurd same different
        · exact valid.distinct left right key olderLeft olderRight
  · intro rest key _
    have positive := List.count_pos_iff.mpr member
    rcases eq_or_ne key id with rfl | different
    · have kept : storedRefs (Function.update books.stored slot (some key)) key = 1 :=
        storedRefs_of_stored ⟨slot, Function.update_self _ _ _⟩
      simp only [refs, List.count_erase_self, kept, storedRefs_of_unstored unstored]
      split
      · omega
      · rfl
    · have kept
          : storedRefs books.stored key
            = storedRefs (Function.update books.stored slot (some id)) key := by
        refine storedRefs_congr (exists_congr fun other => ⟨stays, fun after => ?_⟩)
        rcases stored_cases after with ⟨_, same⟩ | ⟨older, _⟩
        · exact absurd same different
        · exact older
      simp only [refs, List.count_erase_of_ne different, kept]

theorem Plays.replace {id : Nat} {hand : List Nat} (valid : books.Valid) (slot : Slot)
    (held : books.hand = id :: hand) (unstored : ¬∃ slot, books.stored slot = some id)
    : books.Plays []
        {
          books with
          hand := (books.stored slot).toList ++ hand
          stored := Function.update books.stored slot (some id)
        } := by
  have taken := Plays.take valid slot
  have member : id ∈ (books.stored slot).toList ++ books.hand := by
    rw [held]
    exact List.mem_append_right _ List.mem_cons_self
  have stillUnstored : ¬∃ other, Function.update books.stored slot none other = some id := by
    rintro ⟨other, kept⟩
    exact unstored ⟨other, (update_none_eq_some.mp kept).2⟩
  have put := Plays.put taken.valid member stillUnstored
    (Function.update_self slot none books.stored)
  have notOld : id ∉ (books.stored slot).toList :=
    fun old => unstored ⟨slot, Option.mem_toList.mp old⟩
  have left
      : ((books.stored slot).toList ++ books.hand).erase id
        = (books.stored slot).toList ++ hand := by
    rw [held, List.erase_append_right _ notOld, List.erase_cons_head]
  have played := taken.trans put
  dsimp only at played
  rw [Function.update_idem, left] at played
  exact played

end Slots

end Books

end Books

-- Agents

section Agents

variable {Agent Slot : Type}

/-- The references to an object where every agent holds at most one, and slots keep some. -/
noncomputable def agentRefs (held : Agent → Option Nat) (stored : Slot → Option Nat)
    (next id : Nat)
    : Nat :=
  if id < next then storedRefs held id + storedRefs stored id else 1

theorem agentRefs_of_known {held : Agent → Option Nat} {stored : Slot → Option Nat}
    {next id : Nat}
    (known : (∃ agent, held agent = some id) ∨ ∃ slot, stored slot = some id)
    : 0 < agentRefs held stored next id := by
  unfold agentRefs
  split
  · rcases known with isHeld | kept
    · rw [storedRefs_of_stored isHeld]
      omega
    · rw [storedRefs_of_stored kept]
      omega
  · exact Nat.one_pos

variable [DecidableEq Agent]

/-- The counts of the system are those of the books of one agent, next to what the others
hold.
-/
theorem Books.refs_eq_agentRefs {held : Agent → Option Nat} {books : Books Slot}
    (agent : Agent) (distinct : Distinct held) (own : books.hand = (held agent).toList)
    : books.refs (storedRefs (Function.update held agent none))
      = agentRefs held books.stored books.next := by
  funext id
  unfold Books.refs agentRefs
  rw [storedRefs_take agent id distinct, own]
  split
  · omega
  · rfl

theorem Books.Plays.agents {held : Agent → Option Nat} {books after : Books Slot}
    {calls : List Access} {agent : Agent} {own : Option Nat}
    (plays : books.Plays calls after) (before : books.hand = (held agent).toList)
    (left : after.hand = own.toList) (distinct : Distinct held)
    (stillDistinct : Distinct (Function.update held agent own))
    (known : ∀ agent id, held agent = some id → id < books.next)
    : replay (agentRefs held books.stored books.next) calls
      = some (agentRefs (Function.update held agent own) after.stored after.next) := by
  have unheld : ∀ id, books.next ≤ id → storedRefs (Function.update held agent none) id = 0 := by
    intro id later
    apply storedRefs_of_unstored
    rintro ⟨other, holds⟩
    exact absurd (known other id (update_none_eq_some.mp holds).2) (Nat.not_lt.mpr later)
  have others
      : Function.update held agent none
        = Function.update (Function.update held agent own) agent none := by
    rw [Function.update_idem]
  have owned : after.hand = (Function.update held agent own agent).toList := by
    rw [Function.update_self, left]
  rw [← Books.refs_eq_agentRefs agent distinct before, plays.counts _ unheld, others,
    Books.refs_eq_agentRefs agent stillDistinct owned]

end Agents

/-- What was cloned is still there or has been released. Witness: induction on the calls. -/
theorem replay_balance {counts after : Nat → Nat} {calls : List Access} (id : Nat)
    (replayed : replay counts calls = some after)
    : calls.count (.release id) + after id = counts id + calls.count (.clone id) := by
  induction calls generalizing counts with
  | nil =>
      cases replayed
      simp
  | cons call rest ih =>
      change (access counts call).bind (replay · rest) = some after at replayed
      unfold access at replayed
      split at replayed
      · rename_i referenced
        have balance := ih replayed
        rcases eq_or_ne id call.id with rfl | different
        · cases call with
          | inspect key =>
              simpa [Access.id, Access.after] using balance
          | clone key =>
              simp [Access.id, Access.after] at balance ⊢
              omega
          | release key =>
              simp [Access.id, Access.after] at balance referenced ⊢
              omega
        · rw [Function.update_of_ne different] at balance
          have noRelease : call ≠ .release id := by
            rintro rfl
            exact different rfl
          have noClone : call ≠ .clone id := by
            rintro rfl
            exact different rfl
          rw [List.count_cons_of_ne noRelease, List.count_cons_of_ne noClone]
          exact balance
      · cases replayed

-- Looks

/-- The call changes a count. -/
def Access.counts : Access → Bool
  | .inspect _ => false
  | .clone _ | .release _ => true

/-- One of the calls changes the count of the object. -/
def Counted (calls : List Access) (id : Nat) : Prop :=
  ∃ call ∈ calls, call.counts ∧ call.id = id

/-- Every look at an object is followed by a call that changes its count, unless the object
is held in the end.
-/
def Followed (held : Set Nat) : List Access → Prop
  | [] => True
  | call :: rest =>
      (call.counts = false → call.id ∈ held ∨ Counted rest call.id) ∧ Followed held rest

section Followed

variable {held after : Set Nat} {calls more : List Access}

/-- Behind further calls other objects can be held. By induction on the calls in front. -/
theorem Followed.append (first : Followed held calls) (second : Followed after more)
    (still : ∀ id ∈ held, id ∈ after ∨ Counted more id)
    : Followed after (calls ++ more) := by
  induction calls with
  | nil => exact second
  | cons call rest ih =>
      refine ⟨fun looks => ?_, ih first.2⟩
      rcases first.1 looks with isHeld | ⟨later, member, changes⟩
      · rcases still _ isHeld with stillHeld | ⟨later, member, changes⟩
        · exact Or.inl stillHeld
        · exact Or.inr ⟨later, List.mem_append_right _ member, changes⟩
      · exact Or.inr ⟨later, List.mem_append_left _ member, changes⟩

theorem Followed.of_held (all : ∀ call ∈ calls, call.id ∈ held) : Followed held calls := by
  induction calls with
  | nil => trivial
  | cons call rest ih =>
      obtain ⟨here, later⟩ := List.forall_mem_cons.mp all
      exact ⟨fun _ => Or.inl here, ih later⟩

theorem Followed.mono (followed : Followed held calls) (still : held ⊆ after)
    : Followed after calls := by
  rw [← List.append_nil calls]
  exact followed.append (show Followed after [] from trivial) fun _ isHeld =>
    Or.inl (still isHeld)

/-- An object that has no reference is not used and gets none. By induction on the calls. -/
theorem replay_referenced {counts final : Nat → Nat} {id : Nat}
    (replayed : replay counts calls = some final)
    (used : 0 < final id ∨ ∃ call ∈ calls, call.id = id)
    : 0 < counts id := by
  induction calls generalizing counts with
  | nil =>
      cases replayed
      simpa using used
  | cons call rest ih =>
      change (access counts call).bind (replay · rest) = some final at replayed
      unfold access at replayed
      split at replayed
      · rename_i referenced
        rcases eq_or_ne call.id id with rfl | different
        · exact referenced
        · have later : 0 < final id ∨ ∃ call ∈ rest, call.id = id := by
            rcases used with left | ⟨other, member, same⟩
            · exact Or.inl left
            · rcases List.mem_cons.mp member with rfl | inRest
              · exact absurd same different
              · exact Or.inr ⟨other, inRest, same⟩
          have positive := ih replayed later
          rwa [Function.update_of_ne different.symm] at positive
      · cases replayed

/-- If the calls that change counts replay, so do the looks between them that are followed.
By induction on the calls.
-/
theorem replay_of_followed {counts final : Nat → Nat}
    (followed : Followed {id | 0 < final id} calls)
    (replayed : replay counts (calls.filter Access.counts) = some final)
    : replay counts calls = some final := by
  induction calls generalizing counts with
  | nil => exact replayed
  | cons call rest ih =>
      cases changes : call.counts with
      | true =>
          rw [List.filter_cons_of_pos changes] at replayed
          change (access counts call).bind (replay · _) = some final at replayed
          obtain ⟨next, called, replayedRest⟩ := Option.bind_eq_some_iff.mp replayed
          change (access counts call).bind (replay · rest) = some final
          rw [called]
          exact ih followed.2 replayedRest
      | false =>
          have looks : ¬call.counts = true := by
            rw [changes]
            exact nofun
          rw [List.filter_cons_of_neg looks] at replayed
          have used
              : 0 < final call.id ∨ ∃ later ∈ rest.filter Access.counts, later.id = call.id := by
            rcases followed.1 changes with isHeld | ⟨later, member, counted, same⟩
            · exact Or.inl isHeld
            · exact Or.inr ⟨later, List.mem_filter.mpr ⟨member, counted⟩, same⟩
          have unchanged : access counts call = some counts := by
            unfold access
            rw [if_pos (replay_referenced replayed used)]
            cases call with
            | inspect id => rw [Access.after, Function.update_eq_self]
            | clone _ => cases changes
            | release _ => cases changes
          change (access counts call).bind (replay · rest) = some final
          rw [unchanged]
          exact ih followed.2 replayed

end Followed

end References
