import NanoMQ.Library.SqlTokens

/-! INSERT statements: a table, a list of columns and a list of literals. The text of a list has a
comma behind each element but the last, which a bracket follows.
-/

namespace Sql

open Bytes

inductive Literal where
  | integer (value : Int)
  | string (text : List UInt8)
  deriving DecidableEq

structure Insert where
  table : List UInt8
  columns : List (List UInt8)
  values : List Literal
  deriving DecidableEq

/-- Which words name tables and columns. -/
structure Names where
  isTable : List UInt8 → Bool
  isColumn : List UInt8 → Bool
  table_word : ∀ text, isTable text = true → IsWord text
  column_word : ∀ text, isColumn text = true → IsWord text

def keyword (text : String) : List UInt8 :=
  ascii text.toList

-- Reading a statement

section Read

variable (names : Names) (integer : List UInt8 → Option Int) {Item : Type}

def Token.column : Token → Option (List UInt8)
  | .word text => if names.isColumn text then some text else none
  | _ => none

def Token.literal : Token → Option Literal
  | .word text => (integer text).map .integer
  | .string text => some (.string text)
  | .symbol _ => none

/-- Elements up to the closing bracket, and the tokens behind it. -/
def readList (item : Token → Option Item) : List Token → Option (List Item × List Token)
  | token :: .symbol byte :: rest =>
      (item token).bind fun first =>
        if byte = 44 then (readList item rest).map fun (others, rest) => (first :: others, rest)
        else if byte = 41 then some ([first], rest)
        else none
  | _ => none

def readValues : List Token → Option (List Literal)
  | .word values :: .symbol bracket :: rest =>
      if values = keyword "VALUES" ∧ bracket = 40 then
        (readList (Token.literal integer) rest).bind fun (literals, rest) =>
          if rest = [.symbol 59] then some literals else none
      else none
  | _ => none

def readInsert : List Token → Option Insert
  | .word insert :: .word into :: .word table :: .symbol bracket :: rest =>
      if insert = keyword "INSERT" ∧ into = keyword "INTO" ∧ names.isTable table ∧ bracket = 40 then
        (readList (Token.column names) rest).bind fun (columns, rest) =>
          (readValues integer rest).map fun values => { table, columns, values }
      else none
  | _ => none

/-- The statement that a text is. -/
def parseInsert (dialect : Dialect) (text : List UInt8) : Option Insert :=
  (tokens dialect text).bind (readInsert names integer)

end Read

-- What was read

section Inversion

variable {names : Names} {integer : List UInt8 → Option Int} {Item : Type}

def specials (read : List Token) : Nat :=
  (read.map Token.special).sum

theorem specials_cons (token : Token) (rest : List Token)
    : specials (token :: rest) = token.special + specials rest := by
  simp [specials]

/-- The tokens of the elements, which are all there is in the list apart from symbols. By
induction on the list.
-/
theorem readList_inv {item : Token → Option Item} {read rest : List Token} {elements : List Item}
    (isRead : readList item read = some (elements, rest))
    : ∃ elementTokens,
        List.Forall₂ (fun token element => item token = some element) elementTokens elements
        ∧ specials read = specials elementTokens + specials rest
        ∧ ∀ token, token ∈ elementTokens ∨ token ∈ rest → token ∈ read := by
  induction read using readList.induct generalizing elements rest with
  | case1 token byte others ih =>
      rw [readList] at isRead
      obtain ⟨first, isFirst, isRead⟩ := Option.bind_eq_some_iff.mp isRead
      split at isRead
      · obtain ⟨⟨later, behind⟩, readLater, parts⟩ := Option.map_eq_some_iff.mp isRead
        cases parts
        obtain ⟨laterTokens, pairs, special, inside⟩ := ih readLater
        refine ⟨token :: laterTokens, .cons isFirst pairs, ?_, ?_⟩
        · simp only [specials_cons, special, Token.special]
          omega
        · intro other member
          have later := inside other
          simp only [List.mem_cons] at member ⊢
          tauto
      split at isRead
      · cases isRead
        refine ⟨[token], .cons isFirst .nil, ?_, ?_⟩
        · simp [specials, Token.special]
        · intro other member
          simp only [List.mem_cons, List.not_mem_nil, or_false] at member ⊢
          tauto
      · cases isRead
  | case2 read notList =>
      rw [readList] at isRead
      · cases isRead
      · exact notList

def Literal.special : Literal → Nat
  | .integer _ => 0
  | .string text => 2 + Sql.special text

theorem special_columns {read : List Token} {columns : List (List UInt8)}
    (pairs : List.Forall₂ (fun token column => token.column names = some column) read columns)
    : specials read = (columns.map special).sum ∧ ∀ column ∈ columns, names.isColumn column := by
  induction pairs with
  | nil => simp [specials]
  | @cons token column read columns pair pairs ih =>
      cases token with
      | word text =>
          simp only [Token.column] at pair
          split at pair
          · rename_i isColumn
            cases pair
            obtain ⟨sums, areColumns⟩ := ih
            refine ⟨?_, List.forall_mem_cons.mpr ⟨isColumn, areColumns⟩⟩
            simp [specials_cons, Token.special, sums]
          · cases pair
      | string text => cases pair
      | symbol byte => cases pair

theorem special_literals {read : List Token} {values : List Literal}
    (numbers : ∀ text value, integer text = some value → special text = 0)
    (pairs : List.Forall₂ (fun token value => token.literal integer = some value) read values)
    : specials read = (values.map Literal.special).sum
      ∧ ∀ text, .string text ∈ values → .string text ∈ read := by
  induction pairs with
  | nil => simp [specials]
  | @cons token value read values pair pairs ih =>
      obtain ⟨sums, strings⟩ := ih
      cases token with
      | word text =>
          obtain ⟨number, isNumber, rfl⟩ := Option.map_eq_some_iff.mp pair
          have none := numbers text number isNumber
          simp only [specials_cons, Token.special, Literal.special, none, List.map_cons,
            List.sum_cons, sums, true_and]
          intro other member
          exact List.mem_cons_of_mem _ (strings other (by simpa using member))
      | string text =>
          cases pair
          simp only [specials_cons, Token.special, Literal.special, List.map_cons, List.sum_cons,
            sums, true_and]
          intro other member
          rcases List.mem_cons.mp member with same | member
          · cases same
            exact List.mem_cons_self
          · exact List.mem_cons_of_mem _ (strings other member)
      | symbol byte => cases pair

/-- The quotes and backslashes of a statement. -/
def Insert.special (insert : Insert) : Nat :=
  Sql.special insert.table + (insert.columns.map Sql.special).sum
    + (insert.values.map Literal.special).sum

/-- What a statement says of its tokens. -/
structure ReadFrom (names : Names) (insert : Insert) (read : List Token) : Prop where
  table : names.isTable insert.table = true
  columns : ∀ column ∈ insert.columns, names.isColumn column = true
  strings : ∀ text, .string text ∈ insert.values → .string text ∈ read
  special : specials read = insert.special

theorem readValues_inv {read : List Token} {values : List Literal}
    (numbers : ∀ text value, integer text = some value → special text = 0)
    (isRead : readValues integer read = some values)
    : specials read = (values.map Literal.special).sum
      ∧ ∀ text, .string text ∈ values → .string text ∈ read := by
  unfold readValues at isRead
  split at isRead
  swap
  · cases isRead
  rename_i word bracket rest
  split at isRead
  swap
  · cases isRead
  rename_i shape
  obtain ⟨rfl, rfl⟩ := shape
  obtain ⟨⟨literals, behind⟩, readLiterals, isRead⟩ := Option.bind_eq_some_iff.mp isRead
  dsimp only at isRead
  split at isRead
  swap
  · cases isRead
  rename_i isEnd
  obtain rfl : literals = values := Option.some.inj isRead
  obtain ⟨literalTokens, pairs, sums, inside⟩ := readList_inv readLiterals
  obtain ⟨literalSpecials, strings⟩ := special_literals numbers pairs
  have noneInKeyword : special (keyword "VALUES") = 0 := by decide
  refine ⟨?_, ?_⟩
  · rw [specials_cons, specials_cons, sums, literalSpecials, isEnd]
    simp [Token.special, noneInKeyword, specials]
  · intro text member
    have found := inside _ (Or.inl (strings text member))
    exact List.mem_cons_of_mem _ (List.mem_cons_of_mem _ found)

theorem readInsert_inv {read : List Token} {insert : Insert}
    (numbers : ∀ text value, integer text = some value → special text = 0)
    (isRead : readInsert names integer read = some insert)
    : ReadFrom names insert read := by
  unfold readInsert at isRead
  split at isRead
  swap
  · cases isRead
  rename_i insertWord into table bracket rest
  split at isRead
  swap
  · cases isRead
  rename_i shape
  obtain ⟨rfl, rfl, isTable, rfl⟩ := shape
  obtain ⟨⟨columns, behind⟩, readColumns, isRead⟩ := Option.bind_eq_some_iff.mp isRead
  obtain ⟨values, isValues, rfl⟩ := Option.map_eq_some_iff.mp isRead
  obtain ⟨columnTokens, columnPairs, columnSums, inside⟩ := readList_inv readColumns
  obtain ⟨columnSpecials, areColumns⟩ := special_columns columnPairs
  obtain ⟨valueSpecials, strings⟩ := readValues_inv numbers isValues
  have noneInKeywords : special (keyword "INSERT") = 0 ∧ special (keyword "INTO") = 0 := by
    decide
  refine { table := isTable, columns := areColumns, strings := ?_, special := ?_ }
  · intro text member
    have found := inside _ (Or.inr (strings text member))
    simp [found]
  · simp only [specials_cons, columnSums, columnSpecials, valueSpecials, Token.special,
      noneInKeywords, Insert.special]
    omega

end Inversion

-- Texts of single tokens and of lists

section Text

variable {dialect : Dialect} {Item : Type}

/-- The token that the next space or symbol completes. -/
def Mode.pending : Mode → Option Token
  | .word text => some (.word text)
  | .quote text => some (.string text)
  | _ => none

/-- A text that is one token. -/
def Scans (dialect : Dialect) (text : List UInt8) (token : Token) : Prop :=
  ∃ mode, scan dialect .between text = ([], mode) ∧ mode.pending = some token

theorem Scans.word {text : List UInt8} (isWord : IsWord text) : Scans dialect text (.word text) :=
  ⟨_, scan_word isWord, rfl⟩

theorem Scans.quoted {text : List UInt8} (plain : Plain dialect text)
    : Scans dialect (39 :: (text ++ [39])) (.string text) :=
  ⟨_, scan_quoted plain, rfl⟩

theorem step_pending {mode : Mode} {token : Token} {byte : UInt8}
    (pending : mode.pending = some token) (delimiter : isSpace byte = true ∨ isSymbol byte = true)
    : step dialect mode byte = (token :: (start byte).1, (start byte).2) := by
  have noQuote : byte ≠ 39 := by
    rintro rfl
    rcases delimiter with space | symbol
    · cases space
    · cases symbol
  cases mode with
  | word text =>
      cases pending
      simp only [step]
      rcases delimiter with space | symbol
      · simp [space]
      · simp [symbol]
  | quote text =>
      cases pending
      simp [step, noQuote]
  | between => cases pending
  | string text => cases pending
  | escape text => cases pending

theorem Scans.symbol {text : List UInt8} {token : Token} {byte : UInt8}
    (scans : Scans dialect text token) (symbol : isSymbol byte = true)
    : scan dialect .between (text ++ [byte, 32]) = ([token, .symbol byte], .between) := by
  obtain ⟨mode, scanned, pending⟩ := scans
  have started : start byte = ([.symbol byte], .between) := by
    have noQuote : byte ≠ 39 := by
      rintro rfl
      cases symbol
    have noSpace : isSpace byte = false := by
      simp only [isSymbol, Bool.or_eq_true, beq_iff_eq] at symbol
      rcases symbol with ((rfl | rfl) | rfl) | rfl <;> rfl
    simp [start, noQuote, noSpace, symbol]
  have space : step dialect .between 32 = ([], .between) := rfl
  rw [scan_append_of scanned]
  simp [scan, step_pending pending (Or.inr symbol), started, space]

theorem Scans.space {text : List UInt8} {token : Token} (scans : Scans dialect text token)
    : scan dialect .between (text ++ [32]) = ([token], .between) := by
  obtain ⟨mode, scanned, pending⟩ := scans
  have delimiter : isSpace 32 = true ∨ isSymbol 32 = true := Or.inl rfl
  have started : start 32 = ([], .between) := rfl
  rw [scan_append_of scanned]
  simp [scan, step_pending pending delimiter, started]

theorem scan_parts {first second : List UInt8} {read more : List Token}
    (scanned : scan dialect .between first = (read, .between))
    (next : scan dialect .between second = (more, .between))
    : scan dialect .between (first ++ second) = (read ++ more, .between) := by
  rw [scan_append_of scanned, next]

/-- The text of a list, behind its opening bracket. -/
def listText : List (List UInt8) → List UInt8
  | [] => []
  | [text] => text ++ [41, 32]
  | text :: next :: rest => text ++ [44, 32] ++ listText (next :: rest)

def listTokens : List Token → List Token
  | [] => []
  | [token] => [token, .symbol 41]
  | token :: next :: rest => token :: .symbol 44 :: listTokens (next :: rest)

/-- By induction on the elements. -/
theorem scan_listText {texts : List (List UInt8)} {read : List Token}
    (pairs : List.Forall₂ (Scans dialect) texts read)
    : scan dialect .between (listText texts) = (listTokens read, .between) := by
  induction pairs with
  | nil => rfl
  | @cons text token texts read pair pairs ih =>
      cases pairs with
      | nil => exact pair.symbol rfl
      | cons next others =>
          rw [listText, scan_append_of (pair.symbol rfl), ih]
          rfl

/-- Elements that all have a comma behind them. By induction on them. -/
theorem scan_commas {texts : List (List UInt8)} {read : List Token}
    (pairs : List.Forall₂ (Scans dialect) texts read)
    : scan dialect .between (texts.flatMap (fun text => text ++ [44, 32]))
      = (read.flatMap (fun token => [token, .symbol 44]), .between) := by
  induction pairs with
  | nil => rfl
  | @cons text token texts read pair pairs ih =>
      rw [List.flatMap_cons, scan_append_of (pair.symbol rfl), ih]
      rfl

/-- By induction on the elements. -/
theorem readList_listTokens {item : Token → Option Item} {read : List Token}
    {elements : List Item}
    (pairs : List.Forall₂ (fun token element => item token = some element) read elements)
    (nonempty : elements ≠ []) (rest : List Token)
    : readList item (listTokens read ++ rest) = some (elements, rest) := by
  induction pairs with
  | nil => exact absurd rfl nonempty
  | @cons token element read elements pair pairs ih =>
      cases pairs with
      | nil => simp [listTokens, readList, pair]
      | cons next others =>
          have later := ih (by simp)
          simp [listTokens, readList, pair, later]

/-- Behind a comma there must be another element. By induction on the elements. -/
theorem readList_stuck {item : Token → Option Item} {read : List Token} {byte : UInt8}
    (noItem : item (.symbol byte) = none) (rest : List Token)
    : readList item (read.flatMap (fun token => [token, .symbol 44]) ++ .symbol byte :: rest)
      = none := by
  induction read with
  | nil =>
      cases rest with
      | nil => rfl
      | cons next rest => cases next <;> simp [readList, noItem]
  | cons token read ih =>
      simp only [List.flatMap_cons, List.cons_append, List.nil_append, readList, if_true]
      rw [ih]
      cases item token <;> rfl

end Text

-- Texts of statements

section Statement

variable {dialect : Dialect} {names : Names} {integer : List UInt8 → Option Int}

/-- A statement up to its values. -/
def insertHead (table : List UInt8) (columns : List (List UInt8)) : List UInt8 :=
  keyword "INSERT INTO " ++ (table ++ [32]) ++ keyword "(" ++ listText columns ++ keyword "VALUES ("

def headTokens (table : List UInt8) (columns : List (List UInt8)) : List Token :=
  [Token.word (keyword "INSERT"), Token.word (keyword "INTO"), Token.word table, Token.symbol 40]
    ++ (listTokens (columns.map Token.word)
      ++ [Token.word (keyword "VALUES"), Token.symbol 40])

theorem scan_insertHead {table : List UInt8} {columns : List (List UInt8)}
    (isTable : IsWord table) (areColumns : ∀ column ∈ columns, IsWord column)
    : scan dialect .between (insertHead table columns) = (headTokens table columns, .between) := by
  have opening
      : scan dialect .between (keyword "INSERT INTO ")
        = ([.word (keyword "INSERT"), .word (keyword "INTO")], .between) := by
    cases dialect <;> decide
  have bracket : scan dialect .between (keyword "(") = ([.symbol 40], .between) := by
    cases dialect <;> decide
  have values
      : scan dialect .between (keyword "VALUES (")
        = ([.word (keyword "VALUES"), .symbol 40], .between) := by
    cases dialect <;> decide
  have pairs : List.Forall₂ (Scans dialect) columns (columns.map .word) := by
    rw [List.forall₂_map_right_iff, List.forall₂_same]
    exact fun column member => .word (areColumns column member)
  have named := scan_parts (scan_parts opening (Scans.word isTable).space) bracket
  have whole := scan_parts (scan_parts named (scan_listText pairs)) values
  rw [insertHead, whole]
  simp [headTokens]

/-- Bytes that the fixed parts of a statement do not have. -/
def Foreign (counted : UInt8 → Bool) : Prop :=
  ∀ byte ∈ keyword "INSERT INTO (VALUES,);", counted byte = false

theorem Foreign.of_all {counted : UInt8 → Bool}
    (all : (keyword "INSERT INTO (VALUES,);").all (fun byte => !counted byte) = true)
    : Foreign counted := by
  intro byte member
  simpa using List.all_eq_true.mp all byte member

theorem Foreign.keyword {counted : UInt8 → Bool} (isForeign : Foreign counted)
    {text : List UInt8} (fixed : text ⊆ keyword "INSERT INTO (VALUES,);")
    : text.countP counted = 0 := by
  refine List.countP_eq_zero.mpr fun byte member => ?_
  simp [isForeign byte (fixed member)]

/-- By induction on the elements. -/
theorem countP_listText {counted : UInt8 → Bool} (isForeign : Foreign counted)
    (texts : List (List UInt8))
    : (listText texts).countP counted = (texts.map (List.countP counted)).sum := by
  have comma : [44, 32].countP counted = 0 := isForeign.keyword (by decide)
  have bracket : [41, 32].countP counted = 0 := isForeign.keyword (by decide)
  induction texts with
  | nil => rfl
  | cons text rest ih =>
      cases rest with
      | nil => simp [listText, List.countP_append, bracket]
      | cons next rest =>
          rw [listText, List.countP_append, List.countP_append, comma, ih]
          simp

theorem countP_insertHead {counted : UInt8 → Bool} (isForeign : Foreign counted)
    (table : List UInt8) (columns : List (List UInt8))
    : (insertHead table columns).countP counted
      = table.countP counted + (columns.map (List.countP counted)).sum := by
  have opening : (Sql.keyword "INSERT INTO ").countP counted = 0 := isForeign.keyword (by decide)
  have space : [32].countP counted = 0 := isForeign.keyword (by decide)
  have bracket : (Sql.keyword "(").countP counted = 0 := isForeign.keyword (by decide)
  have values : (Sql.keyword "VALUES (").countP counted = 0 := isForeign.keyword (by decide)
  simp only [insertHead, List.countP_append, opening, space, bracket, values,
    countP_listText isForeign]
  omega

theorem tokens_of_scan {first second : List UInt8} {emitted read : List Token} {mode : Mode}
    (scanned : scan dialect .between first = (emitted, mode))
    (isRead : tokens dialect (first ++ second) = some read)
    : ∃ more, read = emitted ++ more := by
  obtain ⟨last, _, rfl⟩ := Option.map_eq_some_iff.mp isRead
  rw [scan_append_of scanned, List.append_assoc]
  exact ⟨_, rfl⟩

variable {table : List UInt8} {columns : List (List UInt8)}
  (isTable : names.isTable table = true)
  (areColumns : ∀ column ∈ columns, names.isColumn column = true) (nonempty : columns ≠ [])

include isTable areColumns nonempty

theorem readInsert_head (rest : List Token)
    : readInsert names integer (headTokens table columns ++ rest)
      = ((readList (Token.literal integer) rest).bind fun (literals, rest) =>
          if rest = [.symbol 59] then some literals else none).map
          fun values => { table, columns, values } := by
  have pairs
      : List.Forall₂ (fun token column => Token.column names token = some column)
          (columns.map .word) columns := by
    rw [List.forall₂_map_left_iff, List.forall₂_same]
    intro column member
    simp [Token.column, areColumns column member]
  have readColumns :=
    readList_listTokens pairs nonempty
      (.word (keyword "VALUES") :: .symbol 40 :: rest)
  simp [headTokens, readInsert, isTable, readColumns, readValues]

theorem parseInsert_of_list {text : List UInt8} {texts : List (List UInt8)}
    {values : List Literal} {read : List Token}
    (gap : scan dialect .between text = ([], .between))
    (scans : List.Forall₂ (Scans dialect) texts read)
    (literals : List.Forall₂ (fun token value => token.literal integer = some value) read values)
    (given : values ≠ [])
    : parseInsert names integer dialect
        (insertHead table columns ++ text ++ listText texts ++ keyword ";")
      = some { table, columns, values } := by
  have head :=
    @scan_insertHead dialect table columns (names.table_word _ isTable)
      fun column member => names.column_word _ (areColumns column member)
  have semicolon : scan dialect .between (keyword ";") = ([.symbol 59], .between) := by
    cases dialect <;> decide
  have whole := scan_parts (scan_parts (scan_parts head gap) (scan_listText scans)) semicolon
  have isRead
      : tokens dialect (insertHead table columns ++ text ++ listText texts ++ keyword ";")
        = some (headTokens table columns ++ (listTokens read ++ [Token.symbol 59])) := by
    rw [tokens, whole]
    simp [finish]
  rw [parseInsert, isRead, Option.bind_some, readInsert_head isTable areColumns nonempty,
    readList_listTokens literals given]
  rfl

/-- A symbol behind the last comma is no literal. -/
theorem parseInsert_stuck {rest : List UInt8} {texts : List (List UInt8)}
    {read : List Token} {byte : UInt8}
    (scans : List.Forall₂ (Scans dialect) texts read) (symbol : isSymbol byte = true)
    : parseInsert names integer dialect
        (insertHead table columns ++ texts.flatMap (fun text => text ++ [44, 32]) ++ byte :: rest)
      = none := by
  have head :=
    @scan_insertHead dialect table columns (names.table_word _ isTable)
      fun column member => names.column_word _ (areColumns column member)
  have single : scan dialect .between [byte] = ([.symbol byte], .between) := by
    simp only [isSymbol, Bool.or_eq_true, beq_iff_eq] at symbol
    rcases symbol with ((rfl | rfl) | rfl) | rfl <;> rfl
  have parts := scan_parts (scan_parts head (scan_commas scans)) single
  rw [parseInsert]
  cases isRead :
      tokens dialect
        (insertHead table columns ++ texts.flatMap (fun text => text ++ [44, 32])
          ++ byte :: rest) with
  | none => rfl
  | some all =>
      rw [List.append_cons] at isRead
      obtain ⟨more, rfl⟩ := tokens_of_scan parts isRead
      have noLiteral : Token.literal integer (.symbol byte) = none := rfl
      rw [Option.bind_some, List.append_assoc, List.append_assoc,
        readInsert_head isTable areColumns nonempty, List.singleton_append,
        readList_stuck noLiteral]
      rfl

end Statement

end Sql
