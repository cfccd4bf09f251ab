import Mathlib.Data.Nat.ModEq
import Mathlib.Logic.Function.Iterate

/-! Building blocks of hash functions on words: the register of a cyclic redundancy check, with
its bits in reflected order, and mixing steps that lose nothing.
-/

namespace Hashing

open Function

-- The register of a cyclic redundancy check

section Register

variable {w : Nat} (poly : BitVec w)

/-- One bit: the register moves down, and the polynomial is added if a one falls out. -/
def shift (crc : BitVec w) : BitVec w :=
  crc >>> 1 ^^^ bif crc.getLsbD 0 then poly else 0#w

/-- One byte. -/
def feed (crc : BitVec w) (byte : BitVec 8) : BitVec w :=
  (shift poly)^[8] (crc ^^^ byte.setWidth w)

/-- The octets of a word, least significant first. -/
def octets : Nat → BitVec w → List (BitVec 8)
  | 0, _ => []
  | n + 1, word => word.setWidth 8 :: octets n (word >>> 8)

/-- The register is linear in exclusive or. -/
theorem shift_xor (left right : BitVec w)
    : shift poly (left ^^^ right) = shift poly left ^^^ shift poly right := by
  unfold shift
  rw [BitVec.getLsbD_xor, BitVec.ushiftRight_xor_distrib]
  ext i
  cases left.getLsbD 0 <;> cases right.getLsbD 0 <;> simp <;> grind

theorem iterate_shift_xor (n : Nat) (left right : BitVec w)
    : (shift poly)^[n] (left ^^^ right) = (shift poly)^[n] left ^^^ (shift poly)^[n] right := by
  induction n generalizing left right with
  | zero => rfl
  | succ n ih => rw [iterate_succ_apply, shift_xor, ih, ← iterate_succ_apply, ← iterate_succ_apply]

/-- Zeros that fall out only move the register down. -/
theorem iterate_shift_clear (n : Nat) (crc : BitVec w) (clear : ∀ i < n, crc.getLsbD i = false)
    : (shift poly)^[n] crc = crc >>> n := by
  induction n generalizing crc with
  | zero => exact (BitVec.ushiftRight_zero crc).symm
  | succ n ih =>
      have moved : shift poly crc = crc >>> 1 := by
        rw [shift, clear 0 (Nat.succ_pos n)]
        exact BitVec.xor_zero
      rw [iterate_succ_apply, moved, ih, ← BitVec.shiftRight_add, Nat.add_comm]
      intro i inside
      rw [BitVec.getLsbD_ushiftRight]
      exact clear (1 + i) (by omega)

theorem iterate_shift_shiftLeft (n : Nat) (crc : BitVec w)
    : (shift poly)^[n] (crc >>> n <<< n) = crc >>> n := by
  rw [iterate_shift_clear]
  · ext i
    simp
    grind
  · intro i inside
    simp [inside]

/-- A byte is fed at once, given what its eight bits make of an empty register. -/
theorem feed_eq (crc : BitVec w) (byte : BitVec 8)
    : feed poly crc byte
      = (shift poly)^[8] ((crc.setWidth 8 ^^^ byte).setWidth w) ^^^ crc >>> 8 := by
  have parts : crc ^^^ byte.setWidth w
      = (crc.setWidth 8 ^^^ byte).setWidth w ^^^ crc >>> 8 <<< 8 := by
    ext i
    simp
    grind
  rw [feed, parts, iterate_shift_xor, iterate_shift_shiftLeft]

/-- The octets of a word are fed at once. -/
theorem foldl_feed_octets (n : Nat) (crc word : BitVec w) (fits : word >>> (8 * n) = 0#w)
    : (octets n word).foldl (feed poly) crc = (shift poly)^[8 * n] (crc ^^^ word) := by
  induction n generalizing crc word with
  | zero =>
      rw [Nat.mul_zero, BitVec.ushiftRight_zero] at fits
      rw [fits, BitVec.xor_zero]
      rfl
  | succ n ih =>
      have higher : word >>> 8 >>> (8 * n) = 0#w := by
        rw [← fits, ← BitVec.shiftRight_add, Nat.mul_succ, Nat.add_comm]
      have parts : crc ^^^ (word.setWidth 8).setWidth w ^^^ word >>> 8 <<< 8 = crc ^^^ word := by
        ext i
        simp
        grind
      have fed
          : feed poly crc (word.setWidth 8) ^^^ word >>> 8
            = (shift poly)^[8] (crc ^^^ word) := by
        rw [← parts, iterate_shift_xor, iterate_shift_shiftLeft, feed]
      rw [octets, List.foldl_cons, ih _ _ higher, fed, ← iterate_add_apply, Nat.mul_succ]

/-- A polynomial of full degree loses nothing. -/
theorem shift_injective (full : poly.getLsbD (w - 1) = true)
    : Injective (shift poly) := by
  intro left right same
  have zero : shift poly (left ^^^ right) = 0#w := by
    rw [shift_xor, same, BitVec.xor_self]
  have bits (i : Nat)
      : ((left ^^^ right).getLsbD (1 + i) ^^ ((left ^^^ right).getLsbD 0 && poly.getLsbD i))
        = false := by
    have bit := congrArg (BitVec.getLsbD · i) zero
    cases low : (left ^^^ right).getLsbD 0 <;>
      simpa [shift, low] using bit
  have outside : (left ^^^ right).getLsbD (1 + (w - 1)) = false :=
    BitVec.getLsbD_of_ge _ _ (by omega)
  have low : (left ^^^ right).getLsbD 0 = false := by
    have last := bits (w - 1)
    rwa [outside, full, Bool.and_true, Bool.false_xor] at last
  refine BitVec.xor_eq_zero_iff.mp (BitVec.eq_of_getLsbD_eq ?_)
  intro i _
  rw [BitVec.getLsbD_zero]
  cases i with
  | zero => exact low
  | succ i =>
      have bit := bits i
      rwa [low, Bool.false_and, Bool.xor_false, Nat.add_comm] at bit

theorem feed_injective (full : poly.getLsbD (w - 1) = true) (byte : BitVec 8)
    : Injective (feed poly · byte) := by
  intro left right same
  exact (BitVec.xor_left_inj _).mp ((shift_injective poly full).iterate 8 same)

theorem foldl_feed_injective (full : poly.getLsbD (w - 1) = true) (bytes : List (BitVec 8))
    : Injective (bytes.foldl (feed poly)) := by
  induction bytes with
  | nil => exact injective_id
  | cons byte bytes ih => exact ih.comp (feed_injective poly full byte)

end Register

-- Division of polynomials modulo 2

/-- Take the divisor, of degree `w`, off the `n` bits above the remainder, from the top down. -/
def mod2 {m : Nat} (w : Nat) (divisor : BitVec m) : Nat → BitVec m → BitVec m
  | 0, dividend => dividend
  | n + 1, dividend =>
      mod2 w divisor n
        (if dividend.getLsbD (w + n) then dividend ^^^ divisor <<< n else dividend)

/-- The register holds the remainder in reflected order. -/
theorem mod2_reverse {w room : Nat} {poly : BitVec w} {divisor : BitVec (w + room)}
    (wide : 0 < w)
    (isDivisor : divisor = BitVec.twoPow (w + room) w ^^^ poly.reverse.setWidth (w + room))
    (n : Nat) (fits : n ≤ room) (crc : BitVec w)
    : mod2 w divisor n (crc.reverse.setWidth (w + room) <<< n)
      = ((shift poly)^[n] crc).reverse.setWidth (w + room) := by
  induction n generalizing crc with
  | zero => exact BitVec.shiftLeft_zero _
  | succ n ih =>
      have top : (crc.reverse.setWidth (w + room) <<< (n + 1)).getLsbD (w + n) = crc.getLsbD 0 := by
        simp [BitVec.getLsbD_reverse, BitVec.getMsbD]
        grind
      rw [mod2, top, iterate_succ_apply, ← ih (by omega)]
      congr 1
      ext i inside
      cases low : crc.getLsbD 0
      · simp [BitVec.getLsbD_reverse, BitVec.getMsbD, shift, low]
        grind
      · simp [BitVec.getLsbD_reverse, BitVec.getMsbD, shift, low, isDivisor]
        grind

-- Mixing

section Mixing

variable {w : Nat}

/-- Multiplication by an odd number loses nothing. -/
theorem injective_of_product {f : BitVec w → BitVec w} {factor : Nat} (odd : factor % 2 = 1)
    (product : ∀ word, (f word).toNat = word.toNat * factor % 2 ^ w)
    : Injective f := by
  intro left right same
  have coprime : Nat.Coprime 2 factor := by
    rw [Nat.Coprime, Nat.gcd_rec, odd, Nat.gcd_one_left]
  have cancelled : left.toNat ≡ right.toNat [MOD 2 ^ w] := by
    refine Nat.ModEq.cancel_right_of_coprime (coprime.pow_left w) ?_
    rw [Nat.ModEq, ← product, ← product, same]
  exact BitVec.eq_of_toNat_eq (cancelled.eq_of_lt_of_lt left.isLt right.isLt)

theorem addShifted_injective {distance : Nat} (moves : 0 < distance)
    : Injective fun word : BitVec w => word + word <<< distance := by
  have odd : (1 + 2 ^ distance) % 2 = 1 := by
    rw [Nat.add_mod, Nat.two_pow_mod_two_eq_zero.mpr moves]
  refine injective_of_product odd ?_
  intro word
  rw [BitVec.toNat_add, BitVec.toNat_shiftLeft, Nat.add_mod_mod, Nat.shiftLeft_eq, Nat.mul_add,
    Nat.mul_one]

theorem xorShifted_injective {distance : Nat} (moves : 0 < distance)
    : Injective fun word : BitVec w => word ^^^ word >>> distance := by
  intro left right same
  -- What the two differ in is its own shift, so there is nothing of it.
  have zero : left ^^^ right ^^^ (left ^^^ right) >>> distance = 0#w := by
    calc
      _ = (left ^^^ left >>> distance) ^^^ (right ^^^ right >>> distance) := by
        rw [BitVec.ushiftRight_xor_distrib]
        ac_rfl
      _ = 0#w := BitVec.xor_eq_zero_iff.mpr same
  refine BitVec.xor_eq_zero_iff.mp (BitVec.eq_of_toNat_eq ?_)
  have size := congrArg BitVec.toNat (BitVec.xor_eq_zero_iff.mp zero)
  rw [BitVec.toNat_ushiftRight, Nat.shiftRight_eq_div_pow] at size
  by_contra something
  have smaller := Nat.div_lt_self (Nat.pos_of_ne_zero something)
    (Nat.one_lt_two_pow (Nat.ne_of_gt moves))
  omega

end Mixing

end Hashing
