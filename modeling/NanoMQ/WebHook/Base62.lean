import NanoMQ.Library.Digits
import NanoMQ.Library.Reading

/-! The base62 encoder of `webhook_post.c`.
Bytes are regrouped into table indices of six bits. Three of the 64 characters are escaped,
so that only letters and digits are stored.
-/

namespace NanoMQ

open Bytes Digits

-- set_char and base62_encode

/-- What the encoder does: assign the accumulator, look up the table, store a character. -/
inductive Base62Event where
  | accumulate (val : Nat)
  | lookup (index : Nat)
  | store (index : Nat) (char : UInt8)
  deriving DecidableEq, Repr

abbrev Encoder := Traced Base62Event

def letter (char : Char) : UInt8 :=
  UInt8.ofNat char.toNat

def base62en : List UInt8 :=
  ascii
    [
      'A', 'B', 'C', 'D', 'E', 'F', 'G', 'H', 'I', 'J', 'K', 'L', 'M',
      'N', 'O', 'P', 'Q', 'R', 'S', 'T', 'U', 'V', 'W', 'X', 'Y', 'Z',
      'a', 'b', 'c', 'd', 'e', 'f', 'g', 'h', 'i', 'j', 'k', 'l', 'm',
      'n', 'o', 'p', 'q', 'r', 's', 't', 'u', 'v', 'w', 'x', 'y', 'z',
      '0', '1', '2', '3', '4', '5', '6', '7', '8', '9', '+', '/'
    ]

/-- The character at an index of the table, whose last byte is the NUL of the literal. -/
def base62Char (index : Nat) : UInt8 :=
  (base62en[index]?).getD 0

def base62Lookup (index : Nat) : Encoder UInt8 :=
  { value := base62Char index, events := [.lookup index] }

/-- `out[idx++] = c`. -/
def storeChar (index : Nat) (char : UInt8) : Encoder Nat :=
  { value := (index + 1) % 2 ^ 32, events := [.store index char] }

/-- Store a character; `i` announces an escaped one. -/
def setChar (index : Nat) (char : UInt8) : Encoder Nat :=
  if char = letter 'i' then do
    let index ← storeChar index (letter 'i')
    storeChar index (letter 'a')
  else if char = letter '+' then do
    let index ← storeChar index (letter 'i')
    storeChar index (letter 'b')
  else if char = letter '/' then do
    let index ← storeChar index (letter 'i')
    storeChar index (letter 'c')
  else
    storeChar index char

/-- The variables `val`, `pos` and `j` of the encoder. -/
structure Base62 where
  val : Nat
  pos : Nat
  index : Nat
  deriving DecidableEq, Repr

/-- The loop `while (pos > 5)`: take six bits off the accumulator. -/
def base62Drain : Nat → Nat → Nat → Encoder Base62
  | pos + 6, val, index => do
      let char ← base62Lookup (val >>> pos)
      let index ← setChar index char
      base62Drain pos (val &&& (1 <<< pos - 1)) index
  | pos, val, index => pure { val, pos, index }

def accumulate (val : Nat) : Encoder Nat :=
  { value := val, events := [.accumulate val] }

/-- One iteration of the loop over the bytes. -/
def base62Byte (byte : UInt8) (s : Base62) : Encoder Base62 := do
  let val ← accumulate ((s.val <<< 8) % 2 ^ 32 ||| byte.toNat)
  base62Drain (s.pos + 8) val s.index

def base62Loop : List UInt8 → Base62 → Encoder Base62
  | [], s => pure s
  | byte :: rest, s => do
      let s ← base62Byte byte s
      base62Loop rest s

/-- The bits that are left at the end are filled up to six. -/
def base62Finish (s : Base62) : Encoder Nat :=
  if 0 < s.pos then do
    let char ← base62Lookup ((s.val <<< (6 - s.pos)) % 2 ^ 32)
    setChar s.index char
  else pure s.index

def base62Encode (payload : List UInt8) : Encoder Nat := do
  let s ← base62Loop payload { val := 0, pos := 0, index := 0 }
  base62Finish s

/-- The macro `BASE62_ENCODE_OUT_SIZE` for a 32-bit length. -/
def BASE62_ENCODE_OUT_SIZE (size : Nat) : Nat :=
  (size * 8 % 2 ^ 32 / 6 + 2) % 2 ^ 32

-- Views of what the encoder does

namespace Base62Event

def lookedUp : Base62Event → Option Nat
  | .lookup index => some index
  | .accumulate _ | .store _ _ => none

def storedChar : Base62Event → Option UInt8
  | .store _ char => some char
  | .accumulate _ | .lookup _ => none

def storedIndex : Base62Event → Option Nat
  | .store index _ => some index
  | .accumulate _ | .lookup _ => none

def assigned : Base62Event → Option Nat
  | .accumulate val => some val
  | .lookup _ | .store _ _ => none

end Base62Event

/-- The table indices, in order. -/
def lookups (events : List Base62Event) : List Nat :=
  events.filterMap Base62Event.lookedUp

/-- The characters that are stored, in order. -/
def storedChars (events : List Base62Event) : List UInt8 :=
  events.filterMap Base62Event.storedChar

/-- The places where they are stored. -/
def storedIndices (events : List Base62Event) : List Nat :=
  events.filterMap Base62Event.storedIndex

/-- The values of the accumulator. -/
def accumulated (events : List Base62Event) : List Nat :=
  events.filterMap Base62Event.assigned

section Views

variable (events more : List Base62Event)

@[simp]
theorem lookups_append : lookups (events ++ more) = lookups events ++ lookups more :=
  List.filterMap_append

@[simp]
theorem storedChars_append
    : storedChars (events ++ more) = storedChars events ++ storedChars more :=
  List.filterMap_append

@[simp]
theorem storedIndices_append
    : storedIndices (events ++ more) = storedIndices events ++ storedIndices more :=
  List.filterMap_append

@[simp]
theorem accumulated_append
    : accumulated (events ++ more) = accumulated events ++ accumulated more :=
  List.filterMap_append

variable (val : Nat)

@[simp]
theorem lookups_accumulate : lookups [.accumulate val] = [] :=
  rfl

@[simp]
theorem storedChars_accumulate : storedChars [.accumulate val] = [] :=
  rfl

@[simp]
theorem storedIndices_accumulate : storedIndices [.accumulate val] = [] :=
  rfl

end Views

/-- What is stored for a character. -/
def escape (char : UInt8) : List UInt8 :=
  if char = letter 'i' then [letter 'i', letter 'a']
  else if char = letter '+' then [letter 'i', letter 'b']
  else if char = letter '/' then [letter 'i', letter 'c']
  else [char]

/-- The character is one of the three that take two places. -/
def escaped (char : UInt8) : Bool :=
  char == letter 'i' || char == letter '+' || char == letter '/'

theorem length_escape (char : UInt8)
    : (escape char).length = if escaped char then 2 else 1 := by
  unfold escape escaped
  split_ifs <;> simp_all

/-- The places behind the first `count` ones. -/
def places (count more : Nat) : List Nat :=
  (List.range more).map fun i => (count + i) % 2 ^ 32

/-- `set_char` behind `count` characters: it stores one or two more and does nothing else. -/
theorem setChar_spec (count : Nat) (char : UInt8)
    : let run := setChar (count % 2 ^ 32) char
      storedChars run.events = escape char
      ∧ storedIndices run.events = places count (escape char).length
      ∧ run.value = (count + (escape char).length) % 2 ^ 32
      ∧ lookups run.events = []
      ∧ accumulated run.events = [] := by
  have range : List.range 2 = [0, 1] := rfl
  unfold setChar escape
  split_ifs
  all_goals
    simp [storeChar, storedChars, storedIndices, lookups, accumulated, places, range,
      Base62Event.storedChar, Base62Event.storedIndex, Base62Event.lookedUp,
      Base62Event.assigned]

-- The invariant of the loops

/-- What has been stored: the characters of the table indices so far, escaped, behind one
another.
-/
structure Written (events : List Base62Event) (index : Nat) : Prop where
  chars : storedChars events = (lookups events).flatMap fun digit => escape (base62Char digit)
  indices : storedIndices events = places 0 (storedChars events).length
  next : index = (storedChars events).length % 2 ^ 32

theorem Written.emit {events : List Base62Event} {index : Nat} (written : Written events index)
    (digit : Nat)
    : let run := base62Lookup digit >>= setChar index
      Written (events ++ run.events) run.value
      ∧ lookups run.events = [digit]
      ∧ accumulated run.events = [] := by
  intro run
  obtain ⟨chars, indices, value, noLookup, noAccumulate⟩ :=
    setChar_spec (storedChars events).length (base62Char digit)
  rw [← written.next] at chars indices value noLookup noAccumulate
  have events_eq : run.events = .lookup digit :: (setChar index (base62Char digit)).events := rfl
  have looked : lookups run.events = [digit] := by
    rw [events_eq]
    change digit :: lookups _ = _
    rw [noLookup]
  have charsHere : storedChars run.events = escape (base62Char digit) := chars
  refine ⟨{ chars := ?_, indices := ?_, next := ?_ }, looked, noAccumulate⟩
  · rw [storedChars_append, lookups_append, written.chars, looked, charsHere]
    simp
  · have here : storedIndices run.events = _ := indices
    rw [storedIndices_append, storedChars_append, written.indices, here, charsHere,
      List.length_append]
    simp [places, List.range_add]
  · rw [storedChars_append, charsHere, List.length_append]
    exact value

/-- The bytes so far are the digits that have been emitted and the bits that are left in the
accumulator.
-/
structure Encodes (bytes : List UInt8) (s : Base62) (events : List Base62Event) : Prop where
  val : s.val < 2 ^ s.pos
  bits : 8 * bytes.length = 6 * (lookups events).length + s.pos
  digits : ∀ digit ∈ lookups events, digit < 64
  number
    : value 256 (bytes.map UInt8.toNat) = value 64 (lookups events) * 2 ^ s.pos + s.val
  accumulator : ∀ val ∈ accumulated events, val < 2 ^ 13
  written : Written events s.index

section Loops

variable {bytes : List UInt8} {events : List Base62Event}

/-- The upper six bits of the accumulator are emitted. -/
theorem Encodes.emit {val pos index : Nat}
    (encodes : Encodes bytes { val, pos := pos + 6, index } events)
    : let run := base62Lookup (val >>> pos) >>= setChar index
      Encodes bytes { val := val &&& (1 <<< pos - 1), pos, index := run.value }
        (events ++ run.events) := by
  intro run
  obtain ⟨written, looked, noAccumulate⟩ := encodes.written.emit (val >>> pos)
  have upper : val >>> pos = val / 2 ^ pos := Nat.shiftRight_eq_div_pow val pos
  have lower : val &&& (1 <<< pos - 1) = val % 2 ^ pos := by
    rw [Nat.one_shiftLeft, Nat.and_two_pow_sub_one_eq_mod]
  have size : val < 2 ^ pos * 64 := by
    have bound := encodes.val
    rw [pow_add] at bound
    exact bound
  have digit : val / 2 ^ pos < 64 := Nat.div_lt_of_lt_mul size
  have split : val = 2 ^ pos * (val / 2 ^ pos) + val % 2 ^ pos := (Nat.div_add_mod _ _).symm
  refine {
    val := ?_
    bits := ?_
    digits := ?_
    number := ?_
    accumulator := ?_
    written
  }
  · dsimp only
    rw [lower]
    exact Nat.mod_lt _ (Nat.two_pow_pos pos)
  · have bits := encodes.bits
    rw [lookups_append, looked, List.length_append]
    dsimp only at bits ⊢
    simp only [List.length_singleton]
    omega
  · rw [lookups_append, looked, upper]
    exact List.forall_mem_append.mpr
      ⟨encodes.digits, List.forall_mem_singleton.mpr digit⟩
  · have number := encodes.number
    rw [lookups_append, looked, value_snoc, number, upper]
    dsimp only
    rw [lower, pow_add]
    nth_rewrite 1 [split]
    ring
  · rw [accumulated_append, noAccumulate, List.append_nil]
    exact encodes.accumulator

/-- Six bits are taken off the accumulator until fewer are left. Witness: induction on the
number of bits, as the loop recurses.
-/
theorem Encodes.drain {pos val index : Nat} (encodes : Encodes bytes { val, pos, index } events)
    : let run := base62Drain pos val index
      Encodes bytes run.value (events ++ run.events) ∧ run.value.pos ≤ 5 := by
  fun_induction base62Drain pos val index generalizing events with
  | case1 pos val index ih =>
      have rest := ih _ encodes.emit
      simpa [List.append_assoc] using rest
  | case2 pos val index small =>
      have few : pos ≤ 5 := by
        by_contra many
        exact small (pos - 6) (by omega)
      simpa using ⟨encodes, few⟩

/-- One byte. -/
theorem Encodes.byte {s : Base62} (encodes : Encodes bytes s events) (few : s.pos ≤ 5)
    (byte : UInt8)
    : let run := base62Byte byte s
      Encodes (bytes ++ [byte]) run.value (events ++ run.events) ∧ run.value.pos ≤ 5 := by
  have byteBound : byte.toNat < 2 ^ 8 := byte.toNat_lt
  have power : 2 ^ s.pos ≤ 2 ^ 5 := Nat.pow_le_pow_right (by decide) few
  have valBound := encodes.val
  have grown : (s.val <<< 8) % 2 ^ 32 ||| byte.toNat = s.val * 256 + byte.toNat := by
    have shifted : s.val <<< 8 = s.val * 256 := Nat.shiftLeft_eq s.val 8
    rw [Nat.mod_eq_of_lt (by omega), ← Nat.shiftLeft_add_eq_or_of_lt byteBound, shifted]
  have accumulates
      : Encodes (bytes ++ [byte])
          { val := (s.val <<< 8) % 2 ^ 32 ||| byte.toNat, pos := s.pos + 8, index := s.index }
          (events ++ [.accumulate ((s.val <<< 8) % 2 ^ 32 ||| byte.toNat)]) := by
    rw [grown]
    refine {
      val := ?_
      bits := ?_
      digits := ?_
      number := ?_
      accumulator := ?_
      written := ?_
    }
    · dsimp only
      rw [pow_add]
      omega
    · have bits := encodes.bits
      simp at bits ⊢
      omega
    · simpa using encodes.digits
    · have number := encodes.number
      rw [List.map_append, List.map_singleton, value_snoc, number, lookups_append,
        lookups_accumulate, List.append_nil, pow_add]
      ring
    · rw [accumulated_append]
      refine List.forall_mem_append.mpr ⟨encodes.accumulator, ?_⟩
      exact List.forall_mem_singleton.mpr (by omega)
    · have written := encodes.written
      exact {
        chars := by simpa using written.chars
        indices := by simpa using written.indices
        next := by simpa using written.next
      }
  have drained := accumulates.drain
  simpa [base62Byte, accumulate, List.append_assoc] using drained

/-- The loop over the bytes. Witness: induction on the bytes that are left. -/
theorem Encodes.loop {s : Base62} (encodes : Encodes bytes s events) (few : s.pos ≤ 5)
    (rest : List UInt8)
    : let run := base62Loop rest s
      Encodes (bytes ++ rest) run.value (events ++ run.events) ∧ run.value.pos ≤ 5 := by
  induction rest generalizing bytes s events with
  | nil => simpa [base62Loop] using ⟨encodes, few⟩
  | cons byte rest ih =>
      obtain ⟨encodesByte, fewer⟩ := encodes.byte few byte
      have encodesRest := ih encodesByte fewer
      simpa [base62Loop, List.append_assoc] using encodesRest

end Loops

-- The whole encoder

/-- The table indices of a payload. -/
def base62Indices (payload : List UInt8) : List Nat :=
  lookups (base62Encode payload).events

/-- The characters of a payload. -/
def base62Chars (payload : List UInt8) : List UInt8 :=
  storedChars (base62Encode payload).events

/-- What the encoder does as a whole: the payload is written in base 64, behind it up to five
zero bits.
-/
structure Base62Encoded (payload : List UInt8) (padding : Nat) : Prop where
  few : padding ≤ 5
  bits : 8 * payload.length + padding = 6 * (base62Indices payload).length
  digits : ∀ digit ∈ base62Indices payload, digit < 64
  number
    : value 64 (base62Indices payload)
      = value 256 (payload.map UInt8.toNat) * 2 ^ padding
  accumulator : ∀ val ∈ accumulated (base62Encode payload).events, val < 2 ^ 13
  written : Written (base62Encode payload).events (base62Encode payload).value

/-- The bits that are left become one more digit. -/
theorem Encodes.finish {payload : List UInt8} {s : Base62} {events : List Base62Event}
    (encodes : Encodes payload s events) (few : s.pos ≤ 5)
    (encodeEvents : (base62Encode payload).events = events ++ (base62Finish s).events)
    (encodeValue : (base62Encode payload).value = (base62Finish s).value)
    : ∃ padding, Base62Encoded payload padding := by
  have valBound := encodes.val
  have bits := encodes.bits
  have number := encodes.number
  unfold base62Finish at encodeEvents encodeValue
  split at encodeEvents
  · rename_i left
    rw [if_pos left] at encodeValue
    have power : 2 ^ s.pos * 2 ^ (6 - s.pos) = 64 := by
      rw [← pow_add, Nat.add_sub_cancel' (by omega)]
      rfl
    have shifted : (s.val <<< (6 - s.pos)) % 2 ^ 32 = s.val * 2 ^ (6 - s.pos) := by
      have small : s.val * 2 ^ (6 - s.pos) < 64 := by
        rw [← power]
        exact Nat.mul_lt_mul_of_pos_right valBound (Nat.two_pow_pos _)
      rw [Nat.shiftLeft_eq, Nat.mod_eq_of_lt (by omega)]
    obtain ⟨written, looked, noAccumulate⟩ :=
      encodes.written.emit ((s.val <<< (6 - s.pos)) % 2 ^ 32)
    have indices
        : base62Indices payload = lookups events ++ [s.val * 2 ^ (6 - s.pos)] := by
      unfold base62Indices
      rw [encodeEvents, lookups_append]
      exact (congrArg (lookups events ++ ·) looked).trans (by rw [shifted])
    refine ⟨6 - s.pos, ?_⟩
    refine {
      few := by omega
      bits := ?_
      digits := ?_
      number := ?_
      accumulator := ?_
      written := ?_
    }
    · rw [indices, List.length_append, List.length_singleton]
      omega
    · rw [indices]
      refine List.forall_mem_append.mpr ⟨encodes.digits, List.forall_mem_singleton.mpr ?_⟩
      rw [← power]
      exact Nat.mul_lt_mul_of_pos_right valBound (Nat.two_pow_pos _)
    · rw [indices, value_snoc, number, ← power]
      ring
    · rw [encodeEvents, accumulated_append]
      refine List.forall_mem_append.mpr ⟨encodes.accumulator, ?_⟩
      exact fun val member => nomatch (congrArg (val ∈ ·) noAccumulate).mp member
    · rw [encodeEvents, encodeValue]
      exact written
  · rename_i nothing
    rw [if_neg nothing] at encodeValue
    have noBits : s.pos = 0 := by omega
    have noVal : s.val = 0 := by
      rw [noBits] at valBound
      omega
    rw [Traced.events_pure, List.append_nil] at encodeEvents
    have indices : base62Indices payload = lookups events := congrArg lookups encodeEvents
    refine ⟨0, ?_⟩
    refine {
      few := by omega
      bits := ?_
      digits := ?_
      number := ?_
      accumulator := ?_
      written := ?_
    }
    · rw [indices]
      omega
    · rw [indices]
      exact encodes.digits
    · rw [indices, number, noBits, noVal]
      ring
    · rw [encodeEvents]
      exact encodes.accumulator
    · rw [encodeEvents, encodeValue]
      exact encodes.written

theorem base62Encode_encoded (payload : List UInt8) : ∃ padding, Base62Encoded payload padding := by
  have start : Encodes [] { val := 0, pos := 0, index := 0 } [] :=
    {
      val := by decide
      bits := rfl
      digits := List.forall_mem_nil _
      number := rfl
      accumulator := List.forall_mem_nil _
      written := { chars := rfl, indices := rfl, next := rfl }
    }
  obtain ⟨encodes, few⟩ := start.loop (by decide) payload
  exact Encodes.finish encodes few rfl rfl

-- The size of the output

/-- The bits of a payload in groups of six, the last group filled up with zeros. -/
def sixBitGroups : List UInt8 → List Nat
  | [] => []
  | [a] => [a.toNat / 4, a.toNat % 4 * 16]
  | [a, b] => [a.toNat / 4, a.toNat % 4 * 16 + b.toNat / 16, b.toNat % 16 * 4]
  | a :: b :: c :: rest =>
      [
        a.toNat / 4,
        a.toNat % 4 * 16 + b.toNat / 16,
        b.toNat % 16 * 4 + c.toNat / 64,
        c.toNat % 64
      ]
      ++ sixBitGroups rest

/-- How many groups of the payload stand for one of the three characters that are escaped: 34
for `i`, 62 for `+`, 63 for `/`.
-/
def base62Escapes (payload : List UInt8) : Nat :=
  (sixBitGroups payload).countP fun group => group == 34 || group == 62 || group == 63

/-- The groups write the payload in base 64, with the bits that fill up the last one. By
induction on the payload, three bytes at a time.
-/
theorem value_sixBitGroups (payload : List UInt8)
    : ∃ padding ≤ 5,
        8 * payload.length + padding = 6 * (sixBitGroups payload).length
        ∧ (∀ group ∈ sixBitGroups payload, group < 64)
        ∧ value 64 (sixBitGroups payload)
          = value 256 (payload.map UInt8.toNat) * 2 ^ padding := by
  have small (byte : UInt8) : byte.toNat < 256 := byte.toNat_lt
  fun_induction sixBitGroups payload with
  | case1 => exact ⟨0, by decide, rfl, List.forall_mem_nil _, rfl⟩
  | case2 a =>
      have := small a
      refine ⟨4, by decide, rfl, ?_, ?_⟩
      · simp
        omega
      · simp [value, Nat.ofDigits_cons]
        omega
  | case3 a b =>
      have := small a
      have := small b
      refine ⟨2, by decide, rfl, ?_, ?_⟩
      · simp
        omega
      · simp [value, Nat.ofDigits_cons]
        omega
  | case4 a b c rest ih =>
      obtain ⟨padding, few, bits, groups, number⟩ := ih
      have := small a
      have := small b
      have := small c
      refine ⟨padding, few, ?_, ?_, ?_⟩
      · simp only [List.length_append, List.length_cons, List.length_nil]
        omega
      · refine List.forall_mem_append.mpr ⟨?_, groups⟩
        simp
        omega
      · have powers : 64 ^ (sixBitGroups rest).length = 256 ^ rest.length * 2 ^ padding := by
          rw [show (64 : Nat) = 2 ^ 6 from rfl, show (256 : Nat) = 2 ^ 8 from rfl, ← pow_mul,
            ← pow_mul, ← pow_add, bits]
        have first
            : value 64
                [
                  a.toNat / 4,
                  a.toNat % 4 * 16 + b.toNat / 16,
                  b.toNat % 16 * 4 + c.toNat / 64,
                  c.toNat % 64
                ]
              = value 256 [a.toNat, b.toNat, c.toNat] := by
          simp [value, Nat.ofDigits_cons]
          omega
        have bytes : (a :: b :: c :: rest).map UInt8.toNat
            = [a.toNat, b.toNat, c.toNat] ++ rest.map UInt8.toNat := rfl
        rw [value_append, first, number, powers, bytes, value_append, List.length_map]
        ring

/-- The encoder looks up the groups of the payload. Witness: both lists write the same number
with as many digits.
-/
theorem base62Indices_eq (payload : List UInt8)
    : base62Indices payload = sixBitGroups payload := by
  obtain ⟨padding, encoded⟩ := base62Encode_encoded payload
  obtain ⟨filled, few, bits, groups, number⟩ := value_sixBitGroups payload
  have sameBits := encoded.bits
  have fewBits := encoded.few
  obtain rfl : padding = filled := by omega
  exact value_injective (by decide) (by omega) encoded.digits groups
    (encoded.number.trans number.symm)

theorem escaped_base62Char {group : Nat} (bound : group < 64)
    : escaped (base62Char group) = (group == 34 || group == 62 || group == 63) := by
  have table
      : ∀ group < 64,
          escaped (base62Char group) = (group == 34 || group == 62 || group == 63) := by
    decide
  exact table group bound

/-- The buffer that the web hook allocates holds the characters and a NUL, and every store
is inside.
-/
def Base62Fits (payload : List UInt8) : Prop :=
  (base62Chars payload).length < BASE62_ENCODE_OUT_SIZE payload.length
  ∧ ∀ index ∈ storedIndices (base62Encode payload).events,
      index < BASE62_ENCODE_OUT_SIZE payload.length

/-- Every digit takes one place, an escaped one another. By induction on the digits. -/
theorem length_flatMap_escape (digits : List Nat)
    : (digits.flatMap fun digit => escape (base62Char digit)).length
      = digits.length + digits.countP fun digit => escaped (base62Char digit) := by
  induction digits with
  | nil => rfl
  | cons digit rest ih =>
      rw [List.flatMap_cons, List.length_append, ih, length_escape, List.length_cons,
        List.countP_cons]
      split
      · omega
      · omega

theorem length_base62Chars (payload : List UInt8)
    : (base62Chars payload).length
      = (base62Indices payload).length + base62Escapes payload := by
  obtain ⟨_, encoded⟩ := base62Encode_encoded payload
  have chars := encoded.written.chars
  have escapes
      : (base62Indices payload).countP (fun digit => escaped (base62Char digit))
        = base62Escapes payload := by
    rw [base62Escapes, ← base62Indices_eq]
    refine List.countP_congr fun digit member => ?_
    rw [escaped_base62Char (encoded.digits digit member)]
  unfold base62Chars
  rw [chars, length_flatMap_escape, ← escapes]
  rfl

/-- The output fits exactly if no group of the payload is escaped, or one is and no bits are
filled up.
-/
theorem base62_fits_iff (payload : List UInt8) (noOverflow : payload.length * 8 < 2 ^ 32)
    : Base62Fits payload
      ↔ base62Escapes payload = 0 ∨ (base62Escapes payload = 1 ∧ 3 ∣ payload.length) := by
  obtain ⟨padding, encoded⟩ := base62Encode_encoded payload
  have size : BASE62_ENCODE_OUT_SIZE payload.length = payload.length * 8 / 6 + 2 := by
    unfold BASE62_ENCODE_OUT_SIZE
    rw [Nat.mod_eq_of_lt noOverflow, Nat.mod_eq_of_lt (by omega)]
  have count := length_base62Chars payload
  have bits := encoded.bits
  have few := encoded.few
  have places := encoded.written.indices
  unfold Base62Fits
  rw [size, count]
  -- The number of bytes modulo 3 decides how many bits are filled up.
  have remainder : payload.length % 3 = 0 ∨ payload.length % 3 = 1 ∨ payload.length % 3 = 2 := by
    omega
  constructor
  · rintro ⟨fits, _⟩
    rcases remainder with whole | one | two
    · omega
    · omega
    · omega
  · intro condition
    refine ⟨by omega, ?_⟩
    intro index member
    rw [places] at member
    obtain ⟨i, inRange, rfl⟩ := List.mem_map.mp member
    have bound : i < (base62Chars payload).length := List.mem_range.mp inRange
    omega

/-- Three zero bytes are four characters in a buffer of six. -/
theorem base62_fits_zeros : Base62Fits [0, 0, 0] :=
  (base62_fits_iff [0, 0, 0] (by decide)).mpr (Or.inl (by decide))

/-- Three bytes of ones are eight characters, the last two behind a buffer of six. -/
theorem base62_ones_overflow
    : BASE62_ENCODE_OUT_SIZE 3 = 6
      ∧ (base62Chars [255, 255, 255]).length = 8
      ∧ .store 6 (letter 'i') ∈ (base62Encode [255, 255, 255]).events
      ∧ .store 7 (letter 'c') ∈ (base62Encode [255, 255, 255]).events
      ∧ ¬Base62Fits [255, 255, 255] := by
  refine ⟨by decide, by decide, by decide, by decide, ?_⟩
  rintro ⟨fits, _⟩
  exact absurd fits (by decide)

-- Payloads from characters

def isAlnum (char : UInt8) : Bool :=
  (letter 'A' ≤ char && char ≤ letter 'Z')
  || (letter 'a' ≤ char && char ≤ letter 'z')
  || (letter '0' ≤ char && char ≤ letter '9')

/-- An `i` announces which character was escaped; any other one stands for itself. -/
theorem escape_splits : Splits escape := by
  refine { nonempty := ?_, unique := ?_ }
  · intro char
    have length := length_escape char
    intro empty
    rw [empty] at length
    split at length <;> cases length
  · intro left right leftRest rightRest same
    have ab : letter 'a' ≠ letter 'b' := by decide
    have ac : letter 'a' ≠ letter 'c' := by decide
    have bc : letter 'b' ≠ letter 'c' := by decide
    unfold escape at same
    split_ifs at same <;> simp_all [ab.symm, ac.symm, bc.symm]

theorem base62Char_injective {digit : Nat} (bound : digit < 64)
    : base62en.idxOf (base62Char digit) = digit := by
  have table : ∀ digit < 64, base62en.idxOf (base62Char digit) = digit := by decide
  exact table digit bound

theorem base62Indices_injective {left right : List UInt8}
    (same : base62Chars left = base62Chars right)
    : base62Indices left = base62Indices right := by
  obtain ⟨_, leftEncoded⟩ := base62Encode_encoded left
  obtain ⟨_, rightEncoded⟩ := base62Encode_encoded right
  have readBack {payload : List UInt8} (digits : ∀ digit ∈ base62Indices payload, digit < 64)
      : ((base62Indices payload).map base62Char).map base62en.idxOf
        = base62Indices payload := by
    rw [List.map_map]
    exact (List.map_congr_left fun digit member =>
      base62Char_injective (digits digit member)).trans (List.map_id _)
  have texts
      : (base62Indices left).map base62Char = (base62Indices right).map base62Char := by
    apply escape_splits.flatMap_injective
    simp only [List.flatMap_map]
    exact leftEncoded.written.chars.symm.trans (same.trans rightEncoded.written.chars)
  rw [← readBack leftEncoded.digits, texts, readBack rightEncoded.digits]

/-- Different payloads have different characters, all of them letters and digits; the table
is read inside, and the accumulator never has more than 13 bits.
-/
theorem base62_lossless
    : Function.Injective base62Chars
      ∧ ∀ payload,
          (∀ char ∈ base62Chars payload, isAlnum char)
          ∧ (∀ index ∈ lookups (base62Encode payload).events, index < 64)
          ∧ ∀ val ∈ accumulated (base62Encode payload).events, val < 2 ^ 13 := by
  refine ⟨?_, ?_⟩
  · intro left right same
    obtain ⟨leftPadding, leftEncoded⟩ := base62Encode_encoded left
    obtain ⟨rightPadding, rightEncoded⟩ := base62Encode_encoded right
    have indices := base62Indices_injective same
    have leftBits := leftEncoded.bits
    have rightBits := rightEncoded.bits
    have leftFew := leftEncoded.few
    have rightFew := rightEncoded.few
    rw [indices] at leftBits
    have length : left.length = right.length := by omega
    obtain rfl : leftPadding = rightPadding := by omega
    have numbers := leftEncoded.number
    rw [indices, rightEncoded.number] at numbers
    have values := Nat.eq_of_mul_eq_mul_right (Nat.two_pow_pos _) numbers
    have byteBound {payload : List UInt8} : ∀ digit ∈ payload.map UInt8.toNat, digit < 256 := by
      intro digit member
      obtain ⟨byte, _, rfl⟩ := List.mem_map.mp member
      exact byte.toNat_lt
    have bytes := value_injective (by decide) (by simpa using length) byteBound byteBound
      values.symm
    exact List.map_injective_iff.mpr (fun _ _ => UInt8.toNat_inj.mp) bytes
  · intro payload
    obtain ⟨_, encoded⟩ := base62Encode_encoded payload
    refine ⟨?_, encoded.digits, encoded.accumulator⟩
    have table : ∀ digit < 64, (escape (base62Char digit)).all isAlnum := by decide
    intro char member
    have chars := encoded.written.chars
    unfold base62Chars at member
    rw [chars] at member
    obtain ⟨digit, isDigit, inWord⟩ := List.mem_flatMap.mp member
    exact List.all_eq_true.mp (table digit (encoded.digits digit isDigit)) char inWord

end NanoMQ
