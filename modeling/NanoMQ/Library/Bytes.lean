import Mathlib

/-! Byte strings: C strings, big-endian 16-bit fields and variable-length integers. -/

namespace Bytes

/-- A C string read from memory: the bytes in front of the first NUL. -/
def cstr (bytes : List UInt8) : List UInt8 :=
  bytes.takeWhile (fun byte => byte != 0)

theorem cstr_of_not_mem {bytes : List UInt8} (free : (0 : UInt8) ∉ bytes)
    : cstr bytes = bytes := by
  apply List.takeWhile_eq_self_iff.mpr
  intro byte member
  have nonzero : byte ≠ 0 := ne_of_mem_of_not_mem member free
  simpa using nonzero

theorem zero_not_mem_cstr (bytes : List UInt8) : (0 : UInt8) ∉ cstr bytes := by
  intro member
  have kept := List.mem_takeWhile_imp member
  simp at kept

theorem cstr_isPrefix (bytes : List UInt8) : cstr bytes <+: bytes :=
  List.takeWhile_prefix _

/-- A C string as a value: bytes without a NUL, the terminator left out. -/
structure CString where
  bytes : List UInt8
  nulFree : (0 : UInt8) ∉ bytes
  deriving DecidableEq

/-- The C string at the start of a memory area. -/
def CString.ofBytes (memory : List UInt8) : CString :=
  { bytes := cstr memory, nulFree := zero_not_mem_cstr memory }

/-- The bytes of an ASCII text. -/
def ascii (text : List Char) : List UInt8 :=
  text.map (fun char => UInt8.ofNat char.toNat)

theorem toNat_digit {n : Nat} {char : Char} (member : char ∈ Nat.toDigits 10 n)
    : (UInt8.ofNat char.toNat).toNat = char.toNat ∧ 48 ≤ char.toNat ∧ char.toNat ≤ 57 := by
  have digit := Nat.isDigit_of_mem_toDigits (by decide) (by decide) member
  have range : 48 ≤ char.val.toNat ∧ char.val.toNat ≤ 57 := by
    simpa [Char.isDigit, UInt32.le_iff_toNat_le] using digit
  refine ⟨?_, range⟩
  rw [UInt8.toNat_ofNat']
  exact Nat.mod_eq_of_lt (Nat.lt_of_le_of_lt range.2 (by decide))

/-- `isspace` of the C locale. -/
def isSpace (byte : UInt8) : Bool :=
  byte == 32 || (9 ≤ byte.toNat && byte.toNat ≤ 13)

/-- `strncmp(a, b, limit) == 0`: compare up to the limit or to a common NUL. Memory past
the given bytes reads as NUL.
-/
def strncmpEq : Nat → List UInt8 → List UInt8 → Bool
  | 0, _, _ => true
  | limit + 1, left, right =>
      let a := left.headD 0
      let b := right.headD 0
      a == b && (a == 0 || strncmpEq limit left.tail right.tail)

theorem strncmpEq_cons (limit : Nat) (a b : UInt8) (left right : List UInt8)
    : strncmpEq (limit + 1) (a :: left) (b :: right)
      = (a == b && (a == 0 || strncmpEq limit left right)) :=
  rfl

/-- A NUL-free string matches exactly the memory that begins with it. Witness: induction on
the string, one comparison per byte.
-/
theorem strncmpEq_isPrefix {text : List UInt8} (free : (0 : UInt8) ∉ text)
    (memory : List UInt8)
    : strncmpEq text.length memory text = true ↔ text <+: memory := by
  induction text generalizing memory with
  | nil => simp [strncmpEq]
  | cons byte text ih =>
      simp only [List.mem_cons, not_or] at free
      cases memory with
      | nil => simp [strncmpEq, free.1]
      | cons head rest =>
          rw [List.length_cons, strncmpEq_cons, List.cons_prefix_cons, ← ih free.2 rest]
          by_cases same : head = byte
          · have nonzero : (byte == 0) = false := by simpa using Ne.symm free.1
            simp [same, nonzero]
          · simp [same, Ne.symm same]

/-- A NUL-free string compared with its terminator matches exactly the memory that starts
with it and a NUL. Witness: induction on the string, one comparison per byte.
-/
theorem strncmpEq_terminated {text : List UInt8} (free : (0 : UInt8) ∉ text)
    (memory : List UInt8) (enough : text.length < memory.length)
    : strncmpEq (text.length + 1) (text ++ [0]) memory = true
      ↔ memory.take (text.length + 1) = text ++ [0] := by
  induction text generalizing memory with
  | nil =>
      cases memory with
      | nil => simp at enough
      | cons head rest =>
          rw [List.nil_append, List.length_nil, Nat.zero_add, strncmpEq_cons,
            List.take_succ_cons, List.take_zero, Bool.and_eq_true, beq_iff_eq]
          constructor
          · rintro ⟨same, _⟩
            rw [same]
          · intro same
            exact ⟨(List.cons.inj same).1.symm, by simp⟩
  | cons byte text ih =>
      simp only [List.mem_cons, not_or] at free
      cases memory with
      | nil => simp at enough
      | cons head rest =>
          have tail := ih free.2 rest (by simpa using enough)
          have nonzero : (byte == 0) = false := by simpa using Ne.symm free.1
          rw [List.cons_append, List.length_cons, strncmpEq_cons, List.take_succ_cons,
            nonzero, Bool.false_or, Bool.and_eq_true, beq_iff_eq, List.cons.injEq, tail]
          exact and_congr_left (fun _ => eq_comm)

-- Cutting at a separator

/-- The strings in front of each separator, and what is left behind the last. The argument
`current` holds the bytes since the previous separator, in reverse.
-/
def cutAt (separator : UInt8) : List UInt8 → List UInt8 → List (List UInt8) × List UInt8
  | current, [] => ([], current.reverse)
  | current, byte :: rest =>
      if byte = separator then
        let (pieces, last) := cutAt separator [] rest
        (current.reverse :: pieces, last)
      else cutAt separator (byte :: current) rest

theorem splitOn_cons (separator byte : UInt8) (text : List UInt8)
    : (byte :: text).splitOn separator
      = if byte = separator then [] :: text.splitOn separator
        else (text.splitOn separator).modifyHead (byte :: ·) := by
  simp [List.splitOn, List.splitOnP_cons_eq_if_modifyHead]

/-- The pieces are those of `splitOn`. By induction on the text; the bytes since the last
separator belong in front of the first piece.
-/
theorem cutAt_pieces (separator : UInt8) (current text : List UInt8)
    : (cutAt separator current text).1 ++ [(cutAt separator current text).2]
      = (text.splitOn separator).modifyHead (current.reverse ++ ·) := by
  induction text generalizing current with
  | nil => simp [cutAt]
  | cons byte rest ih =>
      rw [cutAt, splitOn_cons]
      split
      · have pieces := ih []
        simp only [List.cons_append, pieces, List.modifyHead_cons, List.append_nil]
        cases rest.splitOn separator <;> simp
      · rw [ih (byte :: current)]
        cases rest.splitOn separator <;> simp

theorem cutAt_all (separator : UInt8) (text : List UInt8)
    : (cutAt separator [] text).1 ++ [(cutAt separator [] text).2] = text.splitOn separator := by
  rw [cutAt_pieces]
  cases text.splitOn separator <;> simp

-- Buffers on the heap

/-- A fresh buffer: the allocator does not clear it, so it holds what was there. -/
def alloc (heap : Nat → UInt8) (size : Nat) : List UInt8 :=
  (List.range size).map heap

/-- Copy bytes to the start of a buffer; what does not fit lands outside of it. -/
def overwrite (buffer bytes : List UInt8) : List UInt8 :=
  bytes.take buffer.length ++ buffer.drop bytes.length

@[simp]
theorem length_alloc (heap : Nat → UInt8) (size : Nat) : (alloc heap size).length = size := by
  simp [alloc]

-- Big-endian 16-bit fields

/-- The two bytes of a 16-bit value, most significant first. -/
def putU16 (value : Nat) : List UInt8 :=
  [UInt8.ofNat (value / 256), UInt8.ofNat value]

/-- The value of two bytes, most significant first. -/
def getU16 (high low : UInt8) : Nat :=
  high.toNat * 256 + low.toNat

@[simp]
theorem length_putU16 (value : Nat) : (putU16 value).length = 2 :=
  rfl

theorem getU16_lt (high low : UInt8) : getU16 high low < 65536 := by
  have := high.toNat_lt
  have := low.toNat_lt
  simp only [getU16]
  omega

theorem getU16_put {value : Nat} (bound : value < 65536)
    : getU16 (UInt8.ofNat (value / 256)) (UInt8.ofNat value) = value := by
  simp only [getU16, UInt8.toNat_ofNat']
  omega

theorem putU16_get (high low : UInt8) : putU16 (getU16 high low) = [high, low] := by
  have highBound := high.toNat_lt
  have lowBound := low.toNat_lt
  have top : UInt8.ofNat ((high.toNat * 256 + low.toNat) / 256) = high := by
    apply UInt8.toNat_inj.mp
    rw [UInt8.toNat_ofNat']
    omega
  have bottom : UInt8.ofNat (high.toNat * 256 + low.toNat) = low := by
    apply UInt8.toNat_inj.mp
    rw [UInt8.toNat_ofNat']
    omega
  simp only [putU16, getU16, top, bottom]

-- Big-endian 32-bit fields

/-- The four bytes of a value taken to 32 bits, most significant first. -/
def putU32 (value : Nat) : List UInt8 :=
  putU16 (value / 65536) ++ putU16 value

/-- Read four bytes, most significant first, with the unread rest. -/
def takeU32 : List UInt8 → Option (Nat × List UInt8)
  | a :: b :: c :: d :: rest => some (getU16 a b * 65536 + getU16 c d, rest)
  | _ => none

theorem takeU32_putU32 (value : Nat) (rest : List UInt8)
    : takeU32 (putU32 value ++ rest) = some (value % 2 ^ 32, rest) := by
  simp only [putU32, putU16, List.cons_append, List.nil_append, takeU32, getU16,
    UInt8.toNat_ofNat', Option.some.injEq, Prod.mk.injEq, and_true]
  omega

-- Variable-length integers: seven bits per byte, least significant group first

/-- The variable-length form of a value, cut off after `room` bytes. -/
def putVarint : Nat → Nat → List UInt8
  | 0, _ => []
  | room + 1, value =>
      if value < 128 then [UInt8.ofNat value]
      else UInt8.ofNat (value % 128 + 128) :: putVarint room (value / 128)

/-- Read a variable-length value of at most `room` bytes, with the unread rest. -/
def getVarint : Nat → List UInt8 → Option (Nat × List UInt8)
  | 0, _ => none
  | _ + 1, [] => none
  | room + 1, byte :: rest =>
      if byte.toNat < 128 then some (byte.toNat, rest)
      else (getVarint room rest).map (fun out => (byte.toNat - 128 + 128 * out.1, out.2))

/-- A value that fits in `room` groups of seven bits is read back exactly.
Witness: induction on the room; each byte carries the lowest seven bits.
-/
theorem getVarint_putVarint (room value : Nat) (rest : List UInt8)
    (fits : value < 128 ^ (room + 1))
    : getVarint (room + 1) (putVarint (room + 1) value ++ rest) = some (value, rest) := by
  induction room generalizing value with
  | zero =>
      have small : value < 128 := by simpa using fits
      have byte : (UInt8.ofNat value).toNat = value := by
        rw [UInt8.toNat_ofNat']
        omega
      simp [putVarint, getVarint, small, byte]
  | succ room ih =>
      by_cases small : value < 128
      · have byte : (UInt8.ofNat value).toNat = value := by
          rw [UInt8.toNat_ofNat']
          omega
        simp [putVarint, getVarint, small, byte]
      · have higher : value / 128 < 128 ^ (room + 1) := by
          rw [Nat.div_lt_iff_lt_mul (by decide)]
          simpa [Nat.pow_succ] using fits
        have byte : (UInt8.ofNat (value % 128 + 128)).toNat = value % 128 + 128 := by
          rw [UInt8.toNat_ofNat']
          omega
        rw [putVarint, if_neg small, List.cons_append, getVarint, byte,
          if_neg (by omega), ih _ higher]
        simp only [Option.map_some, Option.some.injEq, Prod.mk.injEq, and_true]
        omega

end Bytes
