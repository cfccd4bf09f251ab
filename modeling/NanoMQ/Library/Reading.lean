import NanoMQ.Library.Bytes

/-! Decoders over a buffer that lies in a larger memory.
A decoder may read past the end of its buffer. Every read is recorded, and so is every
unsigned subtraction, so that staying inside is a property of the recorded accesses.
-/

/-- A computation that records events on its way to a value. -/
structure Traced (Event : Type) (α : Type) where
  value : α
  events : List Event

namespace Traced

variable {Event α β : Type}

instance : Monad (Traced Event) where
  pure value := { value, events := [] }
  bind first next :=
    {
      value := (next first.value).value
      events := first.events ++ (next first.value).events
    }

@[simp]
theorem value_pure (value : α) : (pure value : Traced Event α).value = value :=
  rfl

@[simp]
theorem value_bind (first : Traced Event α) (next : α → Traced Event β)
    : (first >>= next).value = (next first.value).value :=
  rfl

@[simp]
theorem events_pure (value : α) : (pure value : Traced Event α).events = [] :=
  rfl

@[simp]
theorem events_bind (first : Traced Event α) (next : α → Traced Event β)
    : (first >>= next).events = first.events ++ (next first.value).events :=
  rfl

theorem bind_congr {first : Traced Event α} {next other : α → Traced Event β}
    (same : next first.value = other first.value)
    : first >>= next = first >>= other := by
  change Traced.mk _ _ = Traced.mk _ _
  rw [same]

/-- Every recorded event is allowed. -/
def Always (allowed : Event → Prop) (run : Traced Event α) : Prop :=
  ∀ event ∈ run.events, allowed event

@[simp]
theorem always_pure (allowed : Event → Prop) (value : α)
    : Always allowed (pure value : Traced Event α) := by
  intro event member
  cases member

@[simp]
theorem always_bind (allowed : Event → Prop) (first : Traced Event α)
    (next : α → Traced Event β)
    : Always allowed (first >>= next)
      ↔ Always allowed first ∧ Always allowed (next first.value) :=
  List.forall_mem_append

end Traced

namespace Reading

open Bytes

/-- What a decoder does: read the byte at an offset, or subtract unsigned integers. -/
inductive Access where
  | read (offset : Nat)
  | minus (left right : Nat)
  deriving DecidableEq, Repr

/-- An access is safe for a buffer of this size. -/
def Access.Inside (size : Nat) : Access → Prop
  | .read offset => offset < size
  | .minus left right => right ≤ left

abbrev Reader := Traced Access

/-- A buffer and what a read past its end returns. -/
structure Buffer where
  bytes : List UInt8
  stray : Nat → UInt8

def Buffer.byteAt (buffer : Buffer) (offset : Nat) : UInt8 :=
  (buffer.bytes[offset]?).getD (buffer.stray offset)

/-- Read one byte. -/
def Buffer.get8 (buffer : Buffer) (pos : Nat) : Reader UInt8 :=
  { value := buffer.byteAt pos, events := [.read pos] }

/-- Read a big-endian 16-bit field. -/
def Buffer.get16 (buffer : Buffer) (pos : Nat) : Reader Nat :=
  {
    value := getU16 (buffer.byteAt pos) (buffer.byteAt (pos + 1))
    events := [.read pos, .read (pos + 1)]
  }

/-- Read a big-endian 32-bit field. -/
def Buffer.get32 (buffer : Buffer) (pos : Nat) : Reader Nat := do
  let high ← buffer.get16 pos
  let low ← buffer.get16 (pos + 2)
  pure (high * 65536 + low)

/-- Read a run of bytes. -/
def Buffer.span (buffer : Buffer) (pos count : Nat) : Reader (List UInt8) :=
  {
    value := (List.range count).map (fun i => buffer.byteAt (pos + i))
    events := (List.range count).map (fun i => .read (pos + i))
  }

/-- Read a string: a 16-bit length and that many bytes. -/
def Buffer.getString (buffer : Buffer) (pos : Nat) : Reader (List UInt8) := do
  let count ← buffer.get16 pos
  buffer.span (pos + 2) count

/-- Subtract in `size_t`, which wraps below zero. -/
def sizeMinus (left right : Nat) : Reader Nat :=
  {
    value := if right ≤ left then left - right else left + 2 ^ 64 - right
    events := [.minus left right]
  }

-- Reads that stay inside

@[simp]
theorem always_get8 (buffer : Buffer) (size pos : Nat)
    : Traced.Always (Access.Inside size) (buffer.get8 pos) ↔ pos < size := by
  simp [Traced.Always, Buffer.get8, Access.Inside]

@[simp]
theorem always_get16 (buffer : Buffer) (size pos : Nat)
    : Traced.Always (Access.Inside size) (buffer.get16 pos) ↔ pos + 2 ≤ size := by
  simp only [Traced.Always, Buffer.get16, Access.Inside, List.forall_mem_cons,
    List.not_mem_nil, false_implies, implies_true, and_true]
  omega

@[simp]
theorem always_span (buffer : Buffer) (size pos count : Nat)
    : Traced.Always (Access.Inside size) (buffer.span pos count)
      ↔ count = 0 ∨ pos + count ≤ size := by
  simp only [Traced.Always, Buffer.span, List.forall_mem_map, Access.Inside,
    List.mem_range]
  constructor
  · intro inside
    cases count with
    | zero => exact Or.inl rfl
    | succ count =>
        have last := inside count (Nat.lt_succ_self count)
        exact Or.inr (by omega)
  · rintro (rfl | fits) i bound
    · omega
    · omega

@[simp]
theorem always_sizeMinus (size left right : Nat)
    : Traced.Always (Access.Inside size) (sizeMinus left right) ↔ right ≤ left := by
  simp [Traced.Always, sizeMinus, Access.Inside]

theorem value_sizeMinus {left right : Nat} (ordered : right ≤ left)
    : (sizeMinus left right).value = left - right :=
  if_pos ordered

-- What reads inside return

theorem value_get8 {buffer : Buffer} {pos : Nat} {byte : UInt8} {rest : List UInt8}
    (left : buffer.bytes.drop pos = byte :: rest)
    : (buffer.get8 pos).value = byte := by
  have first : buffer.bytes[pos]? = some byte := by
    have := congrArg (fun bytes => bytes[0]?) left
    simpa using this
  simp only [Buffer.get8, Buffer.byteAt, first, Option.getD_some]

theorem value_get16 {buffer : Buffer} {pos : Nat} {high low : UInt8} {rest : List UInt8}
    (left : buffer.bytes.drop pos = high :: low :: rest)
    : (buffer.get16 pos).value = getU16 high low := by
  have first : buffer.bytes[pos]? = some high := by
    have := congrArg (fun bytes => bytes[0]?) left
    simpa using this
  have second : buffer.bytes[pos + 1]? = some low := by
    have := congrArg (fun bytes => bytes[1]?) left
    simpa using this
  simp only [Buffer.get16, Buffer.byteAt, first, second, Option.getD_some]

theorem value_get16_put {buffer : Buffer} {pos value : Nat} {rest : List UInt8}
    (bound : value < 65536) (left : buffer.bytes.drop pos = putU16 value ++ rest)
    : (buffer.get16 pos).value = value := by
  rw [value_get16 left, getU16_put bound]

theorem value_get16_lt (buffer : Buffer) (pos : Nat) : (buffer.get16 pos).value < 65536 :=
  getU16_lt _ _

theorem drop_eq_putU16 {buffer : Buffer} {pos : Nat}
    (inside : pos + 2 ≤ buffer.bytes.length)
    : buffer.bytes.drop pos
      = putU16 (buffer.get16 pos).value ++ buffer.bytes.drop (pos + 2) := by
  have high := List.drop_eq_getElem_cons (show pos < buffer.bytes.length by omega)
  have low := List.drop_eq_getElem_cons (show pos + 1 < buffer.bytes.length by omega)
  rw [low] at high
  rw [value_get16 high, putU16_get, high]
  rfl

theorem value_span {buffer : Buffer} {pos count : Nat}
    (fits : pos + count ≤ buffer.bytes.length)
    : (buffer.span pos count).value = (buffer.bytes.drop pos).take count := by
  apply List.ext_getElem?
  intro i
  simp only [Buffer.span, List.getElem?_map, List.getElem?_take, List.getElem?_drop]
  by_cases inside : i < count
  · have present : pos + i < buffer.bytes.length := by omega
    simp [inside, Buffer.byteAt, List.getElem?_eq_getElem present]
  · simp [inside]

-- Strings with a length in front

/-- These bytes begin with the length of a text and the text. -/
structure StringField (bytes text rest : List UInt8) : Prop where
  bytes_eq : bytes = putU16 text.length ++ (text ++ rest)
  short : text.length < 65536

namespace StringField

variable {buffer : Buffer} {pos : Nat} {text rest : List UInt8}
  (field : StringField (buffer.bytes.drop pos) text rest)

include field

theorem value_get16 : (buffer.get16 pos).value = text.length :=
  value_get16_put field.short field.bytes_eq

theorem length_eq : buffer.bytes.length = pos + 2 + text.length + rest.length := by
  have size := congrArg List.length field.bytes_eq
  simp only [List.length_drop, List.length_append, length_putU16] at size
  omega

theorem drop_text : buffer.bytes.drop (pos + (2 + text.length)) = rest := by
  rw [← List.drop_drop, field.bytes_eq, ← List.append_assoc]
  exact List.drop_left' (by simp)

theorem value_getString : (buffer.getString pos).value = text := by
  have size := field.length_eq
  rw [Buffer.getString, Traced.value_bind, field.value_get16, value_span (by omega),
    ← List.drop_drop, field.bytes_eq, List.drop_left' (length_putU16 _)]
  exact List.take_left

end StringField

theorem always_getString (buffer : Buffer) (pos : Nat)
    : Traced.Always (Access.Inside buffer.bytes.length) (buffer.getString pos)
      ↔ ∃ text rest, StringField (buffer.bytes.drop pos) text rest := by
  rw [Buffer.getString, Traced.always_bind, always_get16, always_span]
  constructor
  · rintro ⟨lengthInside, textInside⟩
    let count := (buffer.get16 pos).value
    refine ⟨(buffer.bytes.drop (pos + 2)).take count,
      (buffer.bytes.drop (pos + 2)).drop count, ?_, ?_⟩
    · have size : ((buffer.bytes.drop (pos + 2)).take count).length = count := by
        rw [List.length_take, List.length_drop]
        omega
      rw [List.take_append_drop, size]
      exact drop_eq_putU16 lengthInside
    · exact Nat.lt_of_le_of_lt (List.length_take_le _ _) (value_get16_lt buffer pos)
  · rintro ⟨text, rest, field⟩
    have size := field.length_eq
    rw [field.value_get16]
    exact ⟨by omega, Or.inr (by omega)⟩

end Reading
