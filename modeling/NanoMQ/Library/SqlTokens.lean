import NanoMQ.Library.Bytes

/-! The tokens of SQL text: words, strings and the symbols of lists. In a string a quote is
doubled, and in MySQL a backslash escapes the next byte. What a text loses when it is read is
counted by its quotes and backslashes.
-/

namespace Sql

open Bytes

inductive Dialect where
  | standard
  | mysql
  deriving DecidableEq

inductive Token where
  | word (text : List UInt8)
  | string (text : List UInt8)
  | symbol (byte : UInt8)
  deriving DecidableEq

/-- A bracket, a comma or a semicolon. -/
def isSymbol (byte : UInt8) : Bool :=
  byte == 40 || byte == 41 || byte == 44 || byte == 59

/-- A byte of a word. -/
def isWordByte (byte : UInt8) : Bool :=
  byte != 0 && byte != 39 && !isSpace byte && !isSymbol byte

/-- What MySQL reads for a backslash and this byte; two patterns keep the backslash. -/
def unescape (byte : UInt8) : List UInt8 :=
  if byte = 48 then [0]
  else if byte = 98 then [8]
  else if byte = 110 then [10]
  else if byte = 114 then [13]
  else if byte = 116 then [9]
  else if byte = 90 then [26]
  else if byte = 37 ∨ byte = 95 then [92, byte]
  else [byte]

-- The scanner

/-- Where the scanner is: behind a quote it does not know yet whether the string goes on. -/
inductive Mode where
  | between
  | word (text : List UInt8)
  | string (text : List UInt8)
  | quote (text : List UInt8)
  | escape (text : List UInt8)
  deriving DecidableEq

/-- The first byte of a token. -/
def start (byte : UInt8) : List Token × Mode :=
  if isSpace byte then ([], .between)
  else if byte = 39 then ([], .string [])
  else if isSymbol byte then ([.symbol byte], .between)
  else ([], .word [byte])

/-- The tokens that a byte completes, and the mode behind it. -/
def step (dialect : Dialect) (mode : Mode) (byte : UInt8) : List Token × Mode :=
  match mode with
  | .between => start byte
  | .word text =>
      if isSpace byte || byte == 39 || isSymbol byte then
        (.word text :: (start byte).1, (start byte).2)
      else ([], .word (text ++ [byte]))
  | .string text =>
      if byte = 39 then ([], .quote text)
      else if dialect = .mysql ∧ byte = 92 then ([], .escape text)
      else ([], .string (text ++ [byte]))
  | .quote text =>
      if byte = 39 then ([], .string (text ++ [39]))
      else (.string text :: (start byte).1, (start byte).2)
  | .escape text => ([], .string (text ++ unescape byte))

def scan (dialect : Dialect) (mode : Mode) : List UInt8 → List Token × Mode
  | [] => ([], mode)
  | byte :: rest =>
      let next := step dialect mode byte
      let later := scan dialect next.2 rest
      (next.1 ++ later.1, later.2)

/-- The end of the text completes a token; a string must be closed. -/
def finish : Mode → Option (List Token)
  | .between => some []
  | .word text => some [.word text]
  | .quote text => some [.string text]
  | .string _ => none
  | .escape _ => none

def tokens (dialect : Dialect) (text : List UInt8) : Option (List Token) :=
  (finish (scan dialect .between text).2).map fun last =>
    (scan dialect .between text).1 ++ last

section Scan

variable {dialect : Dialect}

theorem scan_append (mode : Mode) (first second : List UInt8)
    : scan dialect mode (first ++ second)
      = ((scan dialect mode first).1 ++ (scan dialect (scan dialect mode first).2 second).1,
        (scan dialect (scan dialect mode first).2 second).2) := by
  induction first generalizing mode with
  | nil => rfl
  | cons byte rest ih => simp only [List.cons_append, scan, ih, List.append_assoc]

theorem scan_append_of {mode next : Mode} {first : List UInt8} {emitted : List Token}
    (scanned : scan dialect mode first = (emitted, next)) (second : List UInt8)
    : scan dialect mode (first ++ second)
      = (emitted ++ (scan dialect next second).1, (scan dialect next second).2) := by
  rw [scan_append, scanned]

-- Words and plain strings

def IsWord (text : List UInt8) : Prop :=
  text ≠ [] ∧ ∀ byte ∈ text, isWordByte byte = true

theorem IsWord.nulFree {text : List UInt8} (isWord : IsWord text) : 0 ∉ text := by
  intro member
  cases isWord.2 0 member

theorem isWordByte_iff (byte : UInt8)
    : isWordByte byte = true
      ↔ byte ≠ 0 ∧ byte ≠ 39 ∧ isSpace byte = false ∧ isSymbol byte = false := by
  simp [isWordByte, and_assoc]

theorem scan_word_bytes {text rest : List UInt8} (bytes : ∀ byte ∈ rest, isWordByte byte = true)
    : scan dialect (.word text) rest = ([], .word (text ++ rest)) := by
  induction rest generalizing text with
  | nil => simp [scan]
  | cons byte rest ih =>
      obtain ⟨first, others⟩ := List.forall_mem_cons.mp bytes
      obtain ⟨_, noQuote, noSpace, noSymbol⟩ := (isWordByte_iff byte).mp first
      simp [scan, step, noQuote, noSpace, noSymbol, ih others]

theorem scan_word {text : List UInt8} (isWord : IsWord text)
    : scan dialect .between text = ([], .word text) := by
  obtain ⟨nonempty, bytes⟩ := isWord
  cases text with
  | nil => exact absurd rfl nonempty
  | cons byte rest =>
      obtain ⟨first, others⟩ := List.forall_mem_cons.mp bytes
      obtain ⟨_, noQuote, noSpace, noSymbol⟩ := (isWordByte_iff byte).mp first
      have started : step dialect .between byte = ([], .word [byte]) := by
        simp [step, start, noQuote, noSpace, noSymbol]
      simp [scan, started, scan_word_bytes others]

/-- A text that stands for itself in a string: without quotes, and in MySQL without backslashes
other than those of the two patterns.
-/
inductive Plain (dialect : Dialect) : List UInt8 → Prop where
  | nil : Plain dialect []
  | byte {text : List UInt8} {byte : UInt8} (plain : Plain dialect text) (noQuote : byte ≠ 39)
      (noEscape : ¬(dialect = .mysql ∧ byte = 92))
      : Plain dialect (text ++ [byte])
  | pattern {text : List UInt8} {byte : UInt8} (plain : Plain dialect text)
      (mysql : dialect = .mysql) (kept : unescape byte = [92, byte])
      : Plain dialect (text ++ [92, byte])

theorem plain_of_not_mem {text : List UInt8} (noQuote : 39 ∉ text)
    (noEscape : dialect = .mysql → 92 ∉ text)
    : Plain dialect text := by
  induction text using List.reverseRecOn with
  | nil => exact .nil
  | append_singleton text byte ih =>
      simp only [List.mem_append, List.mem_singleton, not_or] at noQuote noEscape
      refine .byte (ih noQuote.1 fun mysql => (noEscape mysql).1) (Ne.symm noQuote.2) ?_
      rintro ⟨mysql, rfl⟩
      exact (noEscape mysql).2 rfl

theorem plain_standard_iff {text : List UInt8} : Plain .standard text ↔ 39 ∉ text := by
  constructor
  · intro plain
    induction plain with
    | nil => simp
    | byte plain noQuote _ ih => simp [ih, Ne.symm noQuote]
    | pattern plain mysql => cases mysql
  · exact fun noQuote => plain_of_not_mem noQuote fun mysql => by cases mysql

theorem scan_plain {text : List UInt8} (plain : Plain dialect text)
    : scan dialect (.string []) text = ([], .string text) := by
  induction plain with
  | nil => rfl
  | byte plain noQuote noEscape ih =>
      rw [scan_append_of ih]
      simp [scan, step, noQuote, noEscape]
  | pattern plain mysql kept ih =>
      rw [scan_append_of ih]
      simp [scan, step, mysql, kept]

theorem scan_quoted {text : List UInt8} (plain : Plain dialect text)
    : scan dialect .between (39 :: (text ++ [39])) = ([], .quote text) := by
  have opened : step dialect .between 39 = ([], .string []) := rfl
  have closed : step dialect (.string text) 39 = ([], .quote text) := rfl
  simp [scan, opened, scan_append_of (scan_plain plain), closed]

-- Special bytes

/-- The number of quotes and backslashes. -/
def special (text : List UInt8) : Nat :=
  text.countP fun byte => byte == 39 || byte == 92

@[simp] theorem special_nil : special [] = 0 :=
  rfl

@[simp] theorem special_append (first second : List UInt8)
    : special (first ++ second) = special first + special second :=
  List.countP_append

theorem special_cons (byte : UInt8) (rest : List UInt8)
    : special (byte :: rest) = special [byte] + special rest := by
  rw [← special_append]
  rfl

/-- The quotes around a string count as well. -/
def Token.special : Token → Nat
  | .word text => Sql.special text
  | .string text => 2 + Sql.special text
  | .symbol _ => 0

def Mode.special : Mode → Nat
  | .between => 0
  | .word text => Sql.special text
  | .string text => 1 + Sql.special text
  | .quote text => 2 + Sql.special text
  | .escape text => 2 + Sql.special text

/-- One special byte is lost where a byte of a string was escaped. -/
def loss (mode : Mode) (byte : UInt8) : Nat :=
  match mode with
  | .quote _ => if byte = 39 then 1 else 0
  | .escape _ => if unescape byte = [92, byte] then 0 else 1
  | _ => 0

def losses (dialect : Dialect) (mode : Mode) : List UInt8 → Nat
  | [] => 0
  | byte :: rest => loss mode byte + losses dialect (step dialect mode byte).2 rest

theorem special_of_ne {byte : UInt8} (noQuote : byte ≠ 39) (noEscape : byte ≠ 92)
    : special [byte] = 0 := by
  simp [special, noQuote, noEscape]

theorem special_start (byte : UInt8)
    : special [byte] = ((start byte).1.map Token.special).sum + (start byte).2.special := by
  unfold start
  split
  · rename_i space
    refine special_of_ne ?_ ?_
    · rintro rfl
      cases space
    · rintro rfl
      cases space
  split
  · rename_i isQuote
    subst isQuote
    rfl
  split
  · rename_i noQuote symbol
    refine special_of_ne noQuote ?_
    rintro rfl
    cases symbol
  · simp [Mode.special]

theorem special_unescape (byte : UInt8)
    : 1 + special [byte]
      = special (unescape byte) + if unescape byte = [92, byte] then 0 else 1 := by
  by_cases replaced : byte ∈ [48, 98, 110, 114, 116, 90]
  · fin_cases replaced <;> decide
  simp only [List.mem_cons, List.not_mem_nil, or_false, not_or] at replaced
  by_cases pattern : byte = 37 ∨ byte = 95
  · have kept : unescape byte = [92, byte] := by simp [unescape, replaced, pattern]
    rw [kept, special_cons 92, if_pos rfl]
    rfl
  · have dropped : unescape byte = [byte] := by simp [unescape, replaced, pattern]
    rw [dropped, if_neg (by simp)]
    exact Nat.add_comm _ _

/-- One step keeps the special bytes, apart from those that are lost. -/
theorem special_step (mode : Mode) (byte : UInt8)
    : mode.special + special [byte]
      = ((step dialect mode byte).1.map Token.special).sum + (step dialect mode byte).2.special
        + loss mode byte := by
  have started := special_start byte
  cases mode with
  | between => simp [step, Mode.special, loss, started]
  | word text =>
      simp only [step]
      split
      · simp [Mode.special, Token.special, loss, started, Nat.add_assoc]
      · simp [Mode.special, loss]
  | string text =>
      simp only [step]
      split
      · rename_i isQuote
        subst isQuote
        simp [Mode.special, loss, special]
        omega
      split
      · rename_i escaped
        obtain ⟨_, rfl⟩ := escaped
        simp [Mode.special, loss, special]
        omega
      · simp [Mode.special, loss, Nat.add_assoc]
  | quote text =>
      simp only [step]
      split
      · rename_i isQuote
        subst isQuote
        simp [Mode.special, loss, special]
        omega
      · rename_i noQuote
        simp [Mode.special, Token.special, loss, started, noQuote, Nat.add_assoc]
  | escape text =>
      have kept := special_unescape byte
      simp only [step, Mode.special, loss, special_append, List.map_nil, List.sum_nil]
      omega

/-- By induction on the text. -/
theorem special_scan (mode : Mode) (text : List UInt8)
    : mode.special + special text
      = ((scan dialect mode text).1.map Token.special).sum + (scan dialect mode text).2.special
        + losses dialect mode text := by
  induction text generalizing mode with
  | nil => simp [scan, losses]
  | cons byte rest ih =>
      have first := @special_step dialect mode byte
      have later := ih (step dialect mode byte).2
      simp only [scan, losses, List.map_append, List.sum_append]
      rw [special_cons]
      omega

/-- The special bytes of a text are those of its tokens and those that were lost. -/
theorem special_tokens {text : List UInt8} {read : List Token}
    (isRead : tokens dialect text = some read)
    : special text = (read.map Token.special).sum + losses dialect .between text := by
  obtain ⟨last, finished, rfl⟩ := Option.map_eq_some_iff.mp isRead
  have scanned := @special_scan dialect .between text
  have empty : Mode.between.special = 0 := rfl
  have ended : (scan dialect .between text).2.special = (last.map Token.special).sum := by
    cases mode : (scan dialect .between text).2 with
    | between => rw [mode] at finished; cases finished; rfl
    | word text => rw [mode] at finished; cases finished; rfl
    | quote text => rw [mode] at finished; cases finished; rfl
    | string text => rw [mode] at finished; cases finished
    | escape text => rw [mode] at finished; cases finished
  rw [List.map_append, List.sum_append, ← ended]
  omega

-- Texts that lose nothing

def Token.Clean (dialect : Dialect) : Token → Prop
  | .word text => 0 ∉ text
  | .string text => Plain dialect text ∧ 0 ∉ text
  | .symbol _ => True

def Mode.Clean (dialect : Dialect) : Mode → Prop
  | .between => True
  | .word text => 0 ∉ text
  | .string text => Plain dialect text ∧ 0 ∉ text
  | .quote text => Plain dialect text ∧ 0 ∉ text
  | .escape text => Plain dialect text ∧ 0 ∉ text ∧ dialect = .mysql

theorem start_clean {byte : UInt8} (nonzero : byte ≠ 0)
    : (∀ token ∈ (start byte).1, token.Clean dialect) ∧ (start byte).2.Clean dialect := by
  unfold start
  split
  · simp [Mode.Clean]
  split
  · simp [Mode.Clean, Plain.nil]
  split
  · simp [Token.Clean, Mode.Clean]
  · simp [Mode.Clean, Ne.symm nonzero]

theorem step_clean {mode : Mode} {byte : UInt8} (clean : mode.Clean dialect)
    (nonzero : byte ≠ 0) (noLoss : loss mode byte = 0)
    : (∀ token ∈ (step dialect mode byte).1, token.Clean dialect)
      ∧ (step dialect mode byte).2.Clean dialect := by
  obtain ⟨startTokens, startMode⟩ := @start_clean dialect byte nonzero
  cases mode with
  | between => exact ⟨startTokens, startMode⟩
  | word text =>
      simp only [step]
      split
      · exact ⟨List.forall_mem_cons.mpr ⟨clean, startTokens⟩, startMode⟩
      · have nulFree : 0 ∉ text := clean
        simp [Mode.Clean, nulFree, Ne.symm nonzero]
  | string text =>
      obtain ⟨plain, nulFree⟩ := clean
      simp only [step]
      split
      · simp [Mode.Clean, plain, nulFree]
      split
      · rename_i escaped
        exact ⟨by simp, plain, nulFree, escaped.1⟩
      · rename_i noQuote noEscape
        simp [Mode.Clean, plain.byte noQuote noEscape, nulFree, Ne.symm nonzero]
  | quote text =>
      have noQuote : byte ≠ 39 := by
        rintro rfl
        cases noLoss
      simp only [step, if_neg noQuote]
      exact ⟨List.forall_mem_cons.mpr ⟨clean, startTokens⟩, startMode⟩
  | escape text =>
      obtain ⟨plain, nulFree, mysql⟩ := clean
      have kept : unescape byte = [92, byte] := by
        by_contra other
        simp [loss, other] at noLoss
      simp only [step, kept]
      simp [Mode.Clean, plain.pattern mysql kept, nulFree, Ne.symm nonzero]

/-- By induction on the text. -/
theorem scan_clean {mode : Mode} {text : List UInt8} (clean : mode.Clean dialect)
    (nulFree : 0 ∉ text) (noLoss : losses dialect mode text = 0)
    : (∀ token ∈ (scan dialect mode text).1, token.Clean dialect)
      ∧ (scan dialect mode text).2.Clean dialect := by
  induction text generalizing mode with
  | nil => exact ⟨by simp [scan], clean⟩
  | cons byte rest ih =>
      rw [List.mem_cons, not_or] at nulFree
      obtain ⟨first, later⟩ := Nat.add_eq_zero_iff.mp noLoss
      obtain ⟨stepTokens, stepMode⟩ := step_clean clean (Ne.symm nulFree.1) first
      obtain ⟨laterTokens, laterMode⟩ := ih stepMode nulFree.2 later
      exact ⟨List.forall_mem_append.mpr ⟨stepTokens, laterTokens⟩, laterMode⟩

theorem tokens_clean {text : List UInt8} {read : List Token}
    (isRead : tokens dialect text = some read) (nulFree : 0 ∉ text)
    (noLoss : losses dialect .between text = 0)
    : ∀ token ∈ read, token.Clean dialect := by
  obtain ⟨last, finished, rfl⟩ := Option.map_eq_some_iff.mp isRead
  obtain ⟨scanned, ended⟩ := @scan_clean dialect .between text trivial nulFree noLoss
  refine List.forall_mem_append.mpr ⟨scanned, ?_⟩
  cases mode : (scan dialect .between text).2 with
  | between => rw [mode] at finished; cases finished; simp
  | word text =>
      rw [mode] at finished ended
      cases finished
      exact List.forall_mem_singleton.mpr ended
  | quote text =>
      rw [mode] at finished ended
      cases finished
      exact List.forall_mem_singleton.mpr ended
  | string text => rw [mode] at finished; cases finished
  | escape text => rw [mode] at finished; cases finished

end Scan

end Sql
