import Mathlib

/-! Numbers written in a base, most significant digit first, and codes whose words can be
split off the front of a text.
-/

namespace Digits

-- Positional values

/-- The number that these digits write. -/
def value (base : Nat) (digits : List Nat) : Nat :=
  Nat.ofDigits base digits.reverse

@[simp]
theorem value_nil (base : Nat) : value base [] = 0 :=
  rfl

@[simp]
theorem value_snoc (base digit : Nat) (digits : List Nat)
    : value base (digits ++ [digit]) = value base digits * base + digit := by
  simp [value, Nat.ofDigits_cons, Nat.mul_comm, Nat.add_comm]

theorem value_append (base : Nat) (digits more : List Nat)
    : value base (digits ++ more)
      = value base digits * base ^ more.length + value base more := by
  simp [value, Nat.ofDigits_append, Nat.mul_comm, Nat.add_comm]

theorem value_injective {base : Nat} {left right : List Nat} (positive : 1 < base)
    (length : left.length = right.length) (leftDigits : ∀ digit ∈ left, digit < base)
    (rightDigits : ∀ digit ∈ right, digit < base) (same : value base left = value base right)
    : left = right := by
  apply List.reverse_injective
  apply Nat.ofDigits_inj_of_len_eq positive
  · simpa using length
  · simpa using leftDigits
  · simpa using rightDigits
  · exact same

-- Codes

section Codes

variable {Symbol Letter : Type}

/-- Which word a text begins with can be told from the text. -/
structure Splits (code : Symbol → List Letter) : Prop where
  nonempty : ∀ symbol, code symbol ≠ []
  unique
    : ∀ left right leftRest rightRest,
        code left ++ leftRest = code right ++ rightRest
        → left = right ∧ leftRest = rightRest

/-- A text in such a code is read in one way only. Witness: induction on one of the texts,
one word at a time.
-/
theorem Splits.flatMap_injective {code : Symbol → List Letter} (splits : Splits code)
    : Function.Injective (fun text : List Symbol => text.flatMap code) := by
  intro left
  induction left with
  | nil =>
      intro right same
      cases right with
      | nil => rfl
      | cons symbol rest =>
          simp [splits.nonempty symbol] at same
  | cons symbol rest ih =>
      intro right same
      cases right with
      | nil =>
          simp [splits.nonempty symbol] at same
      | cons other more =>
          simp only [List.flatMap_cons] at same
          obtain ⟨rfl, sameRest⟩ := splits.unique symbol other _ _ same
          rw [ih sameRest]

end Codes

end Digits
