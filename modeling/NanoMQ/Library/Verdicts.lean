import Mathlib

/-! Conditions that are checked one after the other until one is rejected. A check can also fault,
and then there is no verdict. The verdict is right although single checks are wrong, if a wrong
rejection comes with some condition that does not hold.
-/

namespace Verdicts

variable {Condition : Type}

/-- The verdict over the checks in turn: the first one that does not pass decides. -/
def judgeAll : List (Option Bool) → Option Bool
  | [] => some true
  | none :: _ => none
  | some false :: _ => some false
  | some true :: rest => judgeAll rest

theorem judgeAll_cons (check : Option Bool) (rest : List (Option Bool))
    : judgeAll (check :: rest)
      = check.bind fun passed => if passed then judgeAll rest else some false := by
  cases check with
  | none => rfl
  | some passed => cases passed <;> rfl

theorem judgeAll_append (checks rest : List (Option Bool))
    : judgeAll (checks ++ rest)
      = (judgeAll checks).bind fun passed => if passed then judgeAll rest else some false := by
  induction checks with
  | nil => rfl
  | cons check checks ih =>
      rw [List.cons_append, judgeAll_cons, judgeAll_cons, ih]
      cases check with
      | none => rfl
      | some passed => cases passed <;> rfl

/-- A faulty check is not reached, because a condition before it is rejected. -/
def NoFaultReached (faulty rejected : Condition → Prop) (conditions : List Condition) : Prop :=
  ∀ before condition after,
    conditions = before ++ condition :: after
    → faulty condition
    → ∃ earlier ∈ before, rejected earlier

theorem noFaultReached_of_forall {faulty rejected : Condition → Prop} {conditions : List Condition}
    (none : ∀ condition ∈ conditions, ¬faulty condition)
    : NoFaultReached faulty rejected conditions := by
  rintro before condition after rfl isFaulty
  exact absurd isFaulty (none condition (by simp))

theorem noFaultReached_cons_rejected {faulty rejected : Condition → Prop} {first : Condition}
    (isRejected : rejected first) (notFaulty : ¬faulty first) (rest : List Condition)
    : NoFaultReached faulty rejected (first :: rest) := by
  intro before condition after parts isFaulty
  cases before with
  | nil =>
      obtain ⟨rfl, _⟩ := List.cons.inj parts
      exact absurd isFaulty notFaulty
  | cons head before =>
      obtain ⟨rfl, _⟩ := List.cons.inj parts
      exact ⟨first, List.mem_cons_self, isRejected⟩

theorem noFaultReached_cons_passed {faulty rejected : Condition → Prop} {first : Condition}
    (notRejected : ¬rejected first) (notFaulty : ¬faulty first) {rest : List Condition}
    : NoFaultReached faulty rejected (first :: rest) ↔ NoFaultReached faulty rejected rest := by
  constructor
  · intro noFault before condition after parts isFaulty
    obtain ⟨earlier, member, isRejected⟩ :=
      noFault (first :: before) condition after (by rw [parts]; rfl) isFaulty
    rcases List.mem_cons.mp member with rfl | member
    · exact absurd isRejected notRejected
    · exact ⟨earlier, member, isRejected⟩
  · intro noFault before condition after parts isFaulty
    cases before with
    | nil =>
        obtain ⟨rfl, _⟩ := List.cons.inj parts
        exact absurd isFaulty notFaulty
    | cons head before =>
        obtain ⟨_, later⟩ := List.cons.inj parts
        obtain ⟨earlier, member, isRejected⟩ := noFault before condition after later isFaulty
        exact ⟨earlier, List.mem_cons_of_mem _ member, isRejected⟩

/-- The verdict, where there is one: it is positive exactly if no check rejects. -/
theorem judgeAll_eq_some_iff (check : Condition → Option Bool) (conditions : List Condition)
    (verdict : Bool)
    : judgeAll (conditions.map check) = some verdict
      ↔ NoFaultReached (fun condition => check condition = none)
          (fun condition => check condition = some false) conditions
        ∧ (verdict = false ↔ ∃ condition ∈ conditions, check condition = some false) := by
  induction conditions with
  | nil => simp [judgeAll, NoFaultReached, eq_comm]
  | cons first rest ih =>
      cases checked : check first with
      | none =>
          have faultReached
              : ¬NoFaultReached (fun condition => check condition = none)
                  (fun condition => check condition = some false) (first :: rest) := by
            intro noFault
            obtain ⟨_, member, _⟩ := noFault [] first rest rfl checked
            cases member
          simp [judgeAll, checked, faultReached]
      | some passed =>
          cases passed with
          | false =>
              have noFault :=
                @noFaultReached_cons_rejected Condition (fun condition => check condition = none)
                  (fun condition => check condition = some false) first checked
                  (by simp [checked]) rest
              simp [judgeAll, checked, noFault, eq_comm]
          | true =>
              have noFault :=
                @noFaultReached_cons_passed Condition (fun condition => check condition = none)
                  (fun condition => check condition = some false) first (by simp [checked])
                  (by simp [checked]) rest
              simp [judgeAll, checked, ih, noFault]

/-- The verdict is that of the conditions exactly if no fault is reached, and all checks are right
or some condition does not hold and some is rejected.
-/
theorem judgeAll_right_iff (check : Condition → Option Bool) (holds : Condition → Bool)
    (conditions : List Condition)
    : judgeAll (conditions.map check) = some (conditions.all holds)
      ↔ NoFaultReached (fun condition => check condition = none)
          (fun condition => check condition = some false) conditions
        ∧ ((∀ condition ∈ conditions, check condition = some (holds condition))
          ∨ (∃ condition ∈ conditions, holds condition = false)
            ∧ ∃ condition ∈ conditions, check condition = some false) := by
  have fails_iff
      : conditions.all holds = false ↔ ∃ condition ∈ conditions, holds condition = false := by
    simp
  rw [judgeAll_eq_some_iff, fails_iff]
  refine and_congr_right fun noFault => ?_
  constructor
  · intro same
    by_cases rejects : ∃ condition ∈ conditions, check condition = some false
    · exact Or.inr ⟨same.mpr rejects, rejects⟩
    · refine Or.inl fun condition member => ?_
      have isHeld : holds condition = true := by
        by_contra fails
        exact rejects (same.mp ⟨condition, member, Bool.not_eq_true _ ▸ fails⟩)
      rw [isHeld]
      cases checked : check condition with
      | none =>
          -- Nothing is rejected in front of a fault.
          obtain ⟨before, after, parts⟩ := List.append_of_mem member
          obtain ⟨earlier, isBefore, isRejected⟩ := noFault before condition after parts checked
          exact absurd ⟨earlier, by simp [parts, isBefore], isRejected⟩ rejects
      | some passed =>
          cases passed with
          | true => rfl
          | false => exact absurd ⟨condition, member, checked⟩ rejects
  · rintro (allRight | ⟨fails, rejects⟩)
    · constructor
      · rintro ⟨condition, member, fails⟩
        exact ⟨condition, member, by rw [allRight condition member, fails]⟩
      · rintro ⟨condition, member, isRejected⟩
        rw [allRight condition member] at isRejected
        exact ⟨condition, member, Option.some.inj isRejected⟩
    · exact ⟨fun _ => rejects, fun _ => fails⟩

end Verdicts
