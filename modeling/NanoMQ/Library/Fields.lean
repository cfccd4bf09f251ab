import NanoMQ.Library.Reading

/-! Fields that are assigned and read.
A structure from an allocator that does not clear holds whatever was there. A log of the
accesses to its fields shows whether a field is ever read before it is assigned.
-/

namespace Fields

variable {Field : Type}

inductive FieldAccess (Field : Type) where
  | assign (field : Field)
  | read (field : Field)
  deriving DecidableEq, Repr

abbrev Accessing (Field : Type) := Traced (FieldAccess Field)

def assign (field : Field) : Accessing Field Unit :=
  { value := (), events := [.assign field] }

def read (field : Field) : Accessing Field Unit :=
  { value := (), events := [.read field] }

@[simp]
theorem events_assign (field : Field) : (assign field).events = [.assign field] :=
  rfl

@[simp]
theorem events_read (field : Field) : (read field).events = [.read field] :=
  rfl

/-- The fields that are set after a log. -/
def setAfter (set : Set Field) (log : List (FieldAccess Field)) : Set Field :=
  set ∪ { field | .assign field ∈ log }

/-- Every read is of a field that was set before the log, or is assigned earlier in it. -/
def NoUnsetRead (set : Set Field) : List (FieldAccess Field) → Prop
  | [] => True
  | .assign field :: rest => NoUnsetRead (insert field set) rest
  | .read field :: rest => field ∈ set ∧ NoUnsetRead set rest

@[simp]
theorem setAfter_nil (set : Set Field) : setAfter set [] = set := by
  simp [setAfter]

@[simp]
theorem setAfter_assign (set : Set Field) (field : Field) (log : List (FieldAccess Field))
    : setAfter set (.assign field :: log) = setAfter (insert field set) log := by
  ext other
  simp only [setAfter, Set.mem_union, Set.mem_ofPred_eq, List.mem_cons,
    FieldAccess.assign.injEq, Set.mem_insert_iff]
  tauto

@[simp]
theorem setAfter_read (set : Set Field) (field : Field) (log : List (FieldAccess Field))
    : setAfter set (.read field :: log) = setAfter set log := by
  simp [setAfter]

theorem setAfter_append (set : Set Field) (first second : List (FieldAccess Field))
    : setAfter set (first ++ second) = setAfter (setAfter set first) second := by
  ext other
  simp [setAfter, or_assoc]

theorem mem_setAfter {set : Set Field} {field : Field} (member : field ∈ set)
    (log : List (FieldAccess Field))
    : field ∈ setAfter set log :=
  Or.inl member

/-- A sequence reads no unset field exactly if neither part does, the second one with what
the first one has set. By induction on the first part.
-/
@[simp]
theorem noUnsetRead_append (set : Set Field) (first second : List (FieldAccess Field))
    : NoUnsetRead set (first ++ second)
      ↔ NoUnsetRead set first ∧ NoUnsetRead (setAfter set first) second := by
  induction first generalizing set with
  | nil => simp [NoUnsetRead]
  | cons access rest ih =>
      cases access with
      | assign field => simp [NoUnsetRead, ih]
      | read field => simp [NoUnsetRead, ih, and_assoc]

/-- A log is clean if all that it reads is set before. By induction on the log. -/
theorem noUnsetRead_of_set {set : Set Field} {log : List (FieldAccess Field)}
    (all : ∀ field, .read field ∈ log → field ∈ set)
    : NoUnsetRead set log := by
  induction log generalizing set with
  | nil => trivial
  | cons access rest ih =>
      have later : ∀ field, .read field ∈ rest → field ∈ set :=
        fun field member => all field (List.mem_cons_of_mem _ member)
      cases access with
      | assign field => exact ih fun other member => Or.inr (later other member)
      | read field => exact ⟨all field List.mem_cons_self, ih later⟩

/-- More fields that are set do no harm. By induction on the log. -/
theorem NoUnsetRead.mono {set more : Set Field} {log : List (FieldAccess Field)}
    (subset : set ⊆ more) (clean : NoUnsetRead set log)
    : NoUnsetRead more log := by
  induction log generalizing set more with
  | nil => trivial
  | cons access rest ih =>
      cases access with
      | assign field => exact ih (Set.insert_subset_insert subset) clean
      | read field => exact ⟨subset clean.1, ih subset clean.2⟩

/-- A field that is read has been set. By induction on the log. -/
theorem NoUnsetRead.set_of_read {set : Set Field} {log : List (FieldAccess Field)}
    {field : Field} (clean : NoUnsetRead set log) (member : .read field ∈ log)
    : field ∈ setAfter set log := by
  induction log generalizing set with
  | nil => cases member
  | cons access rest ih =>
      cases access with
      | assign other =>
          rw [setAfter_assign]
          exact ih clean (List.mem_of_ne_of_mem (by simp) member)
      | read other =>
          rw [setAfter_read]
          rcases List.mem_cons.mp member with same | later
          · obtain rfl := FieldAccess.read.inj same
            exact mem_setAfter clean.1 rest
          · exact ih clean.2 later

theorem not_noUnsetRead {log : List (FieldAccess Field)} (field : Field)
    (isRead : .read field ∈ log) (unassigned : .assign field ∉ log)
    : ¬NoUnsetRead ∅ log := by
  intro clean
  rcases clean.set_of_read isRead with early | assigned
  · exact early
  · exact unassigned assigned

end Fields
