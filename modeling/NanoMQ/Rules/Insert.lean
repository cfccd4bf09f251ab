import NanoMQ.Library.SqlInsert
import NanoMQ.Rules.Conditions
import NanoMQ.Rules.History

/-! The INSERT statement of a rule against the columns that the rule selects. Values of fields have
their comma behind them and values of the payload in front, so the two do not go together, and
texts are put between quotes as they are.
-/

namespace NanoMQ.Rules

open Bytes Rest Sql

-- What a rule selects

/-- SQLite reads standard SQL. -/
def Rule.dialect (rule : Rule) : Dialect :=
  match rule.forwordType with
  | .MYSOL => .mysql
  | _ => .standard

/-- The value of a field as a literal, where the message has one. The packet id is a text. -/
def fieldLiteral (msg : RuleMessage) : RuleField → Option Literal
  | .QOS => some (.integer msg.qos.val)
  | .ID => some (.string (decimal msg.packetId.val))
  | .TOPIC => some (.string msg.topic)
  | .CLIENTID => msg.clientid.map .string
  | .USERNAME => msg.username.map .string
  | .PASSWORD => msg.password.map .string
  | .TIMESTAMP => some (.integer msg.time)
  | .PAYLOAD_ALL => msg.payload.map .string
  | .PAYLOAD_FIELD => none

/-- The literal for a value in a payload: a whole number, or a text. An object is its text. -/
def jsonLiteral (calls : OutputCalls) : CJson → Option Literal
  | .number (.finite value) => if value.den = 1 then some (.integer value.num) else none
  | .string text => some (.string text)
  | .object members => some (.string (calls.print (.object members)))
  | _ => none

/-- The literal for a stored value. -/
def storedLiteral (calls : OutputCalls) : Stored → Option Literal
  | .number value => some (.integer value)
  | .string text => some (.string text)
  | .object json => some (.string (calls.print json))
  | .nothing => none
  | .released => none

def fieldColumn (rule : Rule) (msg : RuleMessage) (field : RuleField) : Text × Option Literal :=
  ((rule.asName field).getD (sqlName field), fieldLiteral msg field)

def fieldColumns (rule : Rule) (msg : RuleMessage) : List (Text × Option Literal) :=
  (filterFields.filter rule.flag).map (fieldColumn rule msg)

/-- A payload field that the rule selects, under the name of its column. -/
def RulePayload.selected (entry : RulePayload) : Bool :=
  entry.isStore && entry.pas.isSome

/-- A payload field with its value in the payload of the message. -/
def payloadColumn (calls : OutputCalls) (msg : RuleMessage) (entry : RulePayload)
    : Text × Option Literal :=
  (entry.pas.getD [], (reach (msg.payload.bind calls.parse) entry.psa).bind (jsonLiteral calls))

def payloadColumns (calls : OutputCalls) (rule : Rule) (msg : RuleMessage)
    : List (Text × Option Literal) :=
  if rule.flag .PAYLOAD_FIELD then
    (rule.payload.filter RulePayload.selected).map (payloadColumn calls msg)
  else []

/-- The selected columns with the values that the message has for them, in their order. -/
def selectedColumns (calls : OutputCalls) (rule : Rule) (msg : RuleMessage)
    : List (Text × Option Literal) :=
  fieldColumns rule msg ++ payloadColumns calls rule msg

/-- A payload field with the value that is stored for it. -/
def storedColumn (calls : OutputCalls) (entry : RulePayload) : Text × Option Literal :=
  (entry.pas.getD [], storedLiteral calls entry.stored)

/-- The payload fields that are written. -/
def storedColumns (calls : OutputCalls) (rule : Rule) : List (Text × Option Literal) :=
  if rule.flag .PAYLOAD_FIELD then
    (rule.payload.filter RulePayload.contributes).map (storedColumn calls)
  else []

/-- A text that stands for itself between quotes and has no NUL. -/
def PlainLiteral (dialect : Dialect) : Literal → Prop
  | .integer _ => True
  | .string text => Plain dialect text ∧ 0 ∉ text

-- Numbers

theorem isDigit_iff (byte : UInt8) : isDigit byte = true ↔ 48 ≤ byte.toNat ∧ byte.toNat ≤ 57 := by
  simp [isDigit, UInt8.le_iff_toNat_le]

theorem isDigit_digits (n : Nat) : ∀ byte ∈ ascii (Nat.toDigits 10 n), isDigit byte = true := by
  intro byte member
  obtain ⟨char, isChar, rfl⟩ := List.mem_map.mp member
  obtain ⟨toNat, range⟩ := toNat_digit isChar
  rw [isDigit_iff, toNat]
  exact range

theorem digits_ne_nil (n : Nat) : ascii (Nat.toDigits 10 n) ≠ [] := by
  simp [ascii, Nat.toDigits_ne_nil]

theorem magnitude_digits (n : Nat) : magnitude (ascii (Nat.toDigits 10 n)) = n := by
  have chars
      : (Nat.toDigits 10 n).foldl
          (fun number char => 10 * number + ((UInt8.ofNat char.toNat).toNat - 48)) 0
        = Nat.ofDigitChars 10 (Nat.toDigits 10 n) 0 := by
    refine List.foldl_ext _ _ 0 fun number char member => ?_
    rw [(toNat_digit member).1]
    rfl
  rw [magnitude, ascii, List.foldl_map, chars]
  exact Nat.ofDigitChars_toDigits (by decide) (by decide)

theorem isDigit_facts {byte : UInt8} (digit : isDigit byte = true)
    : isWordByte byte = true ∧ byte ≠ 39 ∧ byte ≠ 92 ∧ byte ≠ 45 ∧ byte ≠ 43 := by
  obtain ⟨low, high⟩ := (isDigit_iff byte).mp digit
  have other (constant : UInt8) (outside : constant.toNat < 48 ∨ 57 < constant.toNat)
      : byte ≠ constant := by
    rintro rfl
    omega
  have noSpace : Bytes.isSpace byte = false := by
    simp [Bytes.isSpace, other 32 (by decide)]
    omega
  have noSymbol : isSymbol byte = false := by
    simp [isSymbol, other 40 (by decide), other 41 (by decide), other 44 (by decide),
      other 59 (by decide)]
  refine ⟨?_, other 39 (by decide), other 92 (by decide), other 45 (by decide),
    other 43 (by decide)⟩
  exact (isWordByte_iff byte).mpr ⟨other 0 (by decide), other 39 (by decide), noSpace, noSymbol⟩

theorem digits_all (n : Nat)
    : ascii (Nat.toDigits 10 n) ≠ [] ∧ (ascii (Nat.toDigits 10 n)).all isDigit = true :=
  ⟨digits_ne_nil n, List.all_eq_true.mpr (isDigit_digits n)⟩

theorem numeral_decimal (value : Int) : numeral (decimal value) = some value := by
  have digits := digits_all value.natAbs
  have number := magnitude_digits value.natAbs
  unfold decimal
  split
  · rename_i negative
    simp only [numeral, if_pos digits, number, Option.bind_eq_bind, Option.bind_some,
      Option.pure_def, Option.map_some, Option.some.injEq]
    omega
  · rename_i natural
    cases isDigits : ascii (Nat.toDigits 10 value.natAbs) with
    | nil => exact absurd isDigits digits.1
    | cons first rest =>
        rw [isDigits] at digits number
        have head : isDigit first = true := by
          have both := digits.2
          rw [List.all_cons, Bool.and_eq_true] at both
          exact both.1
        obtain ⟨_, _, _, noMinus, noPlus⟩ := isDigit_facts head
        unfold numeral
        split
        · rename_i same
          exact absurd (List.cons.inj same).1 noMinus
        · rename_i same
          exact absurd (List.cons.inj same).1 noPlus
        · simp only [if_pos digits, number, Option.bind_eq_bind, Option.bind_some,
            Option.pure_def, Option.map_some, Option.some.injEq]
          omega

theorem isWord_decimal (value : Int) : IsWord (decimal value) := by
  have bytes : ∀ byte ∈ ascii (Nat.toDigits 10 value.natAbs), isWordByte byte = true :=
    fun byte member => (isDigit_facts (isDigit_digits _ byte member)).1
  unfold decimal
  split
  · exact ⟨by simp, List.forall_mem_cons.mpr ⟨rfl, bytes⟩⟩
  · exact ⟨digits_ne_nil _, bytes⟩

theorem special_digits {digits : List UInt8} (all : digits.all isDigit = true)
    : special digits = 0 := by
  refine List.countP_eq_zero.mpr fun byte member => ?_
  obtain ⟨_, noQuote, noEscape, _⟩ := isDigit_facts (List.all_eq_true.mp all byte member)
  simp [noQuote, noEscape]

/-- A numeral is a sign, if there is one, and digits. -/
theorem numeral_digits {text : List UInt8} {value : Int} (isNumeral : numeral text = some value)
    : ∃ digits : List UInt8,
        digits.all isDigit = true
        ∧ (text = 45 :: digits ∨ text = 43 :: digits ∨ text = digits) := by
  have checked {digits : List UInt8} {number : Nat}
      (given
        : (if digits ≠ [] ∧ digits.all isDigit = true then some (magnitude digits) else none)
          = some number)
      : digits.all isDigit = true := by
    split at given
    · rename_i both
      exact both.2
    · cases given
  unfold numeral at isNumeral
  split at isNumeral
  · obtain ⟨_, natural, _⟩ := Option.map_eq_some_iff.mp isNumeral
    obtain ⟨_, given, _⟩ := Option.bind_eq_some_iff.mp natural
    exact ⟨_, checked given, Or.inl rfl⟩
  · obtain ⟨_, natural, _⟩ := Option.map_eq_some_iff.mp isNumeral
    obtain ⟨_, given, _⟩ := Option.bind_eq_some_iff.mp natural
    exact ⟨_, checked given, Or.inr (Or.inl rfl)⟩
  · obtain ⟨_, natural, _⟩ := Option.map_eq_some_iff.mp isNumeral
    obtain ⟨_, given, _⟩ := Option.bind_eq_some_iff.mp natural
    exact ⟨_, checked given, Or.inr (Or.inr rfl)⟩

theorem special_numeral (text : List UInt8) (value : Int) (isNumeral : numeral text = some value)
    : special text = 0 := by
  obtain ⟨digits, all, rfl | rfl | rfl⟩ := numeral_digits isNumeral
  · rw [special_cons, special_digits all]
    rfl
  · rw [special_cons, special_digits all]
    rfl
  · exact special_digits all

-- The clause as a text

/-- A column with its value. -/
abbrev Column := Text × Literal

/-- A column in a selection. -/
def given (column : Column) : Text × Option Literal :=
  (column.1, some column.2)

/-- How the code writes a literal. -/
def render : Literal → Text
  | .integer value => decimal value
  | .string text => quoted text

/-- Texts that all have a comma behind them. -/
def withCommas (texts : List Text) : Text :=
  texts.flatMap fun text => text ++ [44, 32]

theorem sqlValue_eq {calls : OutputCalls} {msg : RuleMessage} {field : RuleField}
    {literal : Literal} (isGiven : fieldLiteral msg field = some literal)
    : sqlValue calls msg field = render literal := by
  cases field with
  | QOS | ID | TOPIC | TIMESTAMP =>
      cases isGiven
      rfl
  | CLIENTID | USERNAME | PASSWORD | PAYLOAD_ALL =>
      obtain ⟨text, isText, rfl⟩ := Option.map_eq_some_iff.mp isGiven
      simp [sqlValue, render, isText]
  | PAYLOAD_FIELD => cases isGiven

/-- Names and values of columns, as the code writes them. -/
def keyTexts (columns : List Column) : List Text :=
  columns.map fun column => cstr column.1

def valueTexts (columns : List Column) : List Text :=
  columns.map fun column => render column.2

section Compose

variable {calls : OutputCalls} {rule : Rule} {msg : RuleMessage} {isNeedSet : Bool}

/-- The fields in front of the payload fields. By induction on them. -/
theorem compose_fields {fields : List RuleField} {columns : List Column}
    (plain : ∀ field ∈ fields, field ≠ .PAYLOAD_FIELD)
    (listed : (fields.filter rule.flag).map (fieldColumn rule msg) = columns.map given)
    (clause : SqlClause)
    : fields.foldlM (composeSqlClause calls rule msg isNeedSet) clause
      = some
          { clause with
            key := clause.key ++ withCommas (keyTexts columns)
            value := clause.value ++ withCommas (valueTexts columns)
          } := by
  induction fields generalizing columns clause with
  | nil =>
      obtain rfl : columns = [] := by simpa using listed.symm
      simp [keyTexts, valueTexts, withCommas]
  | cons field rest ih =>
      obtain ⟨notPayload, others⟩ := List.forall_mem_cons.mp plain
      rw [List.foldlM_cons]
      cases flag : rule.flag field with
      | false =>
          have step : composeSqlClause calls rule msg isNeedSet clause field = some clause := by
            simp [composeSqlClause, flag]
          rw [List.filter_cons_of_neg (by simp [flag])] at listed
          rw [step, Option.bind_eq_bind, Option.bind_some]
          exact ih others listed clause
      | true =>
          rw [List.filter_cons_of_pos flag, List.map_cons] at listed
          cases columns with
          | nil => cases listed
          | cons column columns =>
              obtain ⟨first, later⟩ := List.cons.inj listed
              have name : (rule.asName field).getD (sqlName field) = column.1 :=
                congrArg Prod.fst first
              have value : sqlValue calls msg field = render column.2 :=
                sqlValue_eq (congrArg Prod.snd first)
              have step
                  : composeSqlClause calls rule msg isNeedSet clause field
                    = some
                        { clause with
                          key := clause.key ++ cstr column.1 ++ lit ", "
                          value := clause.value ++ render column.2 ++ lit ", "
                        } := by
                unfold composeSqlClause
                rw [if_pos flag]
                cases field with
                | PAYLOAD_FIELD => exact absurd rfl notPayload
                | _ => simp only [name, value]
              rw [step, Option.bind_eq_bind, Option.bind_some, ih others later]
              have comma : lit ", " = [44, 32] := rfl
              simp [keyTexts, valueTexts, withCommas, comma]

/-- Values that have their separator in front of them. -/
def separated (first : Text) : List Text → Text
  | [] => []
  | text :: rest => first ++ text ++ rest.flatMap fun text => [44, 32] ++ text

theorem composeStored_column {entry : RulePayload} {column : Column}
    (contributes : entry.contributes = true) (isColumn : storedColumn calls entry = given column)
    (clause : SqlClause)
    : ∃ alter,
        composeStored calls rule isNeedSet clause entry
        = some (clause.addColumn column.1 (render column.2) alter) := by
  obtain ⟨isStore, isNamed, _⟩ := (contributes_iff entry).mp contributes
  obtain ⟨pas, isPas⟩ := Option.isSome_iff_exists.mp isNamed
  obtain ⟨name, literal⟩ := column
  have named : pas = name := by
    have same := congrArg Prod.fst isColumn
    simpa [storedColumn, given, isPas] using same
  have value : storedLiteral calls entry.stored = some literal := congrArg Prod.snd isColumn
  subst named
  unfold composeStored
  rw [if_pos isStore, isPas]
  cases stored : entry.stored with
  | number number =>
      rw [stored] at value
      cases value
      exact ⟨_, rfl⟩
  | string text =>
      rw [stored] at value
      cases value
      exact ⟨_, rfl⟩
  | object json =>
      rw [stored] at value
      cases value
      exact ⟨_, rfl⟩
  | nothing =>
      rw [stored] at value
      cases value
  | released =>
      rw [stored] at value
      cases value

/-- The payload fields. By induction on them. -/
theorem compose_stored {entries : List RulePayload} {columns : List Column}
    (listed
      : (entries.filter RulePayload.contributes).map (storedColumn calls) = columns.map given)
    {clause : SqlClause} (opened : 8 ≤ clause.value.length)
    : ∃ after,
        entries.foldlM (composeStored calls rule isNeedSet) clause = some after
        ∧ after.key = clause.key ++ withCommas (keyTexts columns)
        ∧ after.value
          = clause.value
            ++ separated (if 8 < clause.value.length then [44, 32] else [32])
                (valueTexts columns) := by
  induction entries generalizing columns clause with
  | nil =>
      obtain rfl : columns = [] := by simpa using listed.symm
      exact ⟨clause, rfl, by simp [keyTexts, withCommas], by simp [valueTexts, separated]⟩
  | cons entry rest ih =>
      rw [List.foldlM_cons]
      cases contributes : entry.contributes with
      | false =>
          rw [List.filter_cons_of_neg (by simp [contributes])] at listed
          rw [composeStored_skips contributes, Option.bind_eq_bind, Option.bind_some]
          exact ih listed opened
      | true =>
          rw [List.filter_cons_of_pos contributes, List.map_cons] at listed
          cases columns with
          | nil => cases listed
          | cons column columns =>
              obtain ⟨first, later⟩ := List.cons.inj listed
              obtain ⟨alter, step⟩ :=
                @composeStored_column calls rule isNeedSet entry column contributes first clause
              have start : (lit "VALUES (").length = 8 := rfl
              have comma : lit ", " = [44, 32] := rfl
              have blank : lit " " = [32] := rfl
              have longer
                  : 8 < (clause.addColumn column.1 (render column.2) alter).value.length := by
                simp only [SqlClause.addColumn, start, comma, blank]
                split <;> simp <;> omega
              obtain ⟨after, composed, key, value⟩ := ih later (Nat.le_of_lt longer)
              rw [step, Option.bind_eq_bind, Option.bind_some]
              refine ⟨after, composed, ?_, ?_⟩
              · rw [key]
                simp [SqlClause.addColumn, keyTexts, withCommas, comma]
              · rw [value, if_pos longer]
                cases columns with
                | nil => simp [SqlClause.addColumn, valueTexts, separated, start, comma, blank]
                | cons next columns =>
                    simp [SqlClause.addColumn, valueTexts, separated, start, comma, blank]

-- The last commas

theorem closeLast_comma (before : Text) {after : Text} (noComma : 44 ∉ after)
    : closeLast (before ++ 44 :: after) = some (before ++ 41 :: after) := by
  have nothing : closeLast after = none := by
    induction after with
    | nil => rfl
    | cons byte rest ih =>
        rw [List.mem_cons, not_or] at noComma
        simp [closeLast, ih noComma.2, Ne.symm noComma.1]
  induction before with
  | nil => simp [closeLast, nothing]
  | cons byte rest ih => simp [closeLast, ih]

theorem withCommas_eq_listText {texts : List Text} (nonempty : texts ≠ [])
    : ∃ before, withCommas texts = before ++ [44, 32] ∧ listText texts = before ++ [41, 32] := by
  induction texts with
  | nil => exact absurd rfl nonempty
  | cons text rest ih =>
      cases rest with
      | nil => exact ⟨text, by simp [withCommas], by simp [listText]⟩
      | cons next rest =>
          obtain ⟨before, commas, closed⟩ := ih (by simp)
          refine ⟨text ++ [44, 32] ++ before, ?_, ?_⟩
          · rw [withCommas, List.flatMap_cons, ← withCommas, commas]
            simp
          · rw [listText, closed]
            simp

theorem closeLast_withCommas (before : Text) {texts : List Text} (nonempty : texts ≠ [])
    : closeLast (before ++ withCommas texts) = some (before ++ listText texts) := by
  obtain ⟨inner, commas, closed⟩ := withCommas_eq_listText nonempty
  rw [commas, closed, ← List.append_assoc, ← List.append_assoc]
  exact closeLast_comma _ (by decide)

/-- A separator in front of each value is one behind each of them, but for the first. -/
theorem separated_comma (first : Text) {texts : List Text} (nonempty : texts ≠ [])
    : separated first texts ++ [44, 32] = first ++ withCommas texts := by
  have moved (rest : List Text)
      : (rest.flatMap fun text => [44, 32] ++ text) ++ [44, 32] = [44, 32] ++ withCommas rest := by
    induction rest with
    | nil => rfl
    | cons text rest ih =>
        rw [List.flatMap_cons, List.append_assoc, ih]
        simp [withCommas]
  cases texts with
  | nil => exact absurd rfl nonempty
  | cons text rest =>
      rw [separated, List.append_assoc, moved]
      simp [withCommas]

theorem composeClause_eq {fields payload : List Column}
    (fieldsListed : fieldColumns rule msg = fields.map given)
    (payloadListed : storedColumns calls rule = payload.map given)
    : ∃ clause,
        composeClause calls rule msg isNeedSet = some clause
        ∧ clause.key
          = cstr (rule.table.getD calls.nullText) ++ lit " ("
            ++ withCommas (keyTexts (fields ++ payload))
        ∧ clause.value
          = lit "VALUES (" ++ withCommas (valueTexts fields)
            ++ (if rule.flag .PAYLOAD_FIELD then
                  separated (if fields = [] then [32] else [44, 32]) (valueTexts payload)
                    ++ [44, 32]
                else []) := by
  have plain : ∀ field ∈ filterFields, field ≠ .PAYLOAD_FIELD := by decide
  have start : (lit "VALUES (").length = 8 := rfl
  have comma : lit ", " = [44, 32] := rfl
  have composed :=
    @compose_fields calls rule msg isNeedSet filterFields fields plain fieldsListed
      (openClause calls rule)
  unfold composeClause ruleFields
  rw [List.foldlM_append, composed, Option.bind_eq_bind, Option.bind_some, List.foldlM_cons]
  simp only [openClause]
  cases flag : rule.flag .PAYLOAD_FIELD with
  | false =>
      obtain rfl : payload = [] := by simpa [storedColumns, flag] using payloadListed.symm
      refine ⟨_, by simp [composeSqlClause, flag]; rfl, ?_, ?_⟩
      · simp
      · simp
  | true =>
      rw [storedColumns, if_pos flag] at payloadListed
      obtain ⟨after, stored, key, value⟩ :=
        @compose_stored calls rule isNeedSet rule.payload payload payloadListed
          {
            key :=
              cstr (rule.table.getD calls.nullText) ++ lit " (" ++ withCommas (keyTexts fields)
            value := lit "VALUES (" ++ withCommas (valueTexts fields)
            ret := []
          }
          (by simp [start])
      refine ⟨{ after with value := after.value ++ lit ", " }, ?_, ?_, ?_⟩
      · simp only [composeSqlClause, flag, if_true, stored, Option.map_some, Option.bind_eq_bind,
          Option.bind_some, List.foldlM_nil, Option.pure_def]
      · rw [key]
        simp [keyTexts, withCommas]
      · have long
            : 8 < (lit "VALUES (" ++ withCommas (valueTexts fields)).length ↔ ¬fields = [] := by
          rw [List.length_append, start]
          cases fields with
          | nil => simp [valueTexts, withCommas]
          | cons column rest => simp [valueTexts, withCommas]
        simp only [value, long, comma, if_true, ite_not, List.append_assoc]

-- The statement as a text

/-- The values of a statement: a list, or two separators between fields and payload. -/
inductive ValuesText (rule : Rule) (fields payload : List Column) : Text → Prop where
  | list {gap : Text} (blank : gap = [] ∨ gap = [32])
      (apart : rule.flag .PAYLOAD_FIELD = true → fields = [])
      : ValuesText rule fields payload (gap ++ listText (valueTexts (fields ++ payload)))
  | stuck (together : rule.flag .PAYLOAD_FIELD = true ∧ fields ≠ [])
      : ValuesText rule fields payload
          (withCommas (valueTexts fields) ++ (separated [44, 32] (valueTexts payload) ++ [41, 32]))

theorem closeLast_value {fields payload : List Column} (selects : fields ++ payload ≠ [])
    (noPayload : rule.flag .PAYLOAD_FIELD = false → payload = [])
    : ∃ values,
        ValuesText rule fields payload values
        ∧ closeLast
            (lit "VALUES (" ++ withCommas (valueTexts fields)
              ++ (if rule.flag .PAYLOAD_FIELD then
                    separated (if fields = [] then [32] else [44, 32]) (valueTexts payload)
                      ++ [44, 32]
                  else []))
          = some (lit "VALUES (" ++ values) := by
  cases flag : rule.flag .PAYLOAD_FIELD with
  | false =>
      obtain rfl := noPayload flag
      rw [List.append_nil] at selects
      refine ⟨[] ++ listText (valueTexts (fields ++ [])), .list (Or.inl rfl) (by simp [flag]), ?_⟩
      have given : valueTexts fields ≠ [] := by simpa [valueTexts] using selects
      rw [if_neg (by simp), List.append_nil, List.append_nil, List.nil_append,
        closeLast_withCommas _ given]
  | true =>
      rw [if_pos rfl]
      by_cases alone : fields = []
      · subst alone
        have given : valueTexts payload ≠ [] := by simpa [valueTexts] using selects
        refine
          ⟨[32] ++ listText (valueTexts ([] ++ payload)), .list (Or.inr rfl) (fun _ => rfl), ?_⟩
        rw [if_pos rfl, separated_comma _ given, ← List.append_assoc, closeLast_withCommas _ given]
        simp [valueTexts, withCommas]
      · refine ⟨_, .stuck ⟨flag, alone⟩, ?_⟩
        rw [if_neg alone]
        have text
            : lit "VALUES (" ++ withCommas (valueTexts fields)
                ++ (separated [44, 32] (valueTexts payload) ++ [44, 32])
              = (lit "VALUES (" ++ withCommas (valueTexts fields)
                  ++ separated [44, 32] (valueTexts payload))
                ++ 44 :: [32] := by
          simp
        rw [text, closeLast_comma _ (by decide)]
        simp

theorem insertStatement_eq {fields payload : List Column}
    (fieldsListed : fieldColumns rule msg = fields.map given)
    (payloadListed : storedColumns calls rule = payload.map given)
    (selects : fields ++ payload ≠ [])
    (fits : ∀ clause, composeClause calls rule msg isNeedSet = some clause → clause.Fits)
    : ∃ values,
        ValuesText rule fields payload values
        ∧ insertStatement calls rule msg isNeedSet
          = some
              (insertHead (cstr (rule.table.getD calls.nullText)) (keyTexts (fields ++ payload))
                ++ values ++ keyword ";") := by
  obtain ⟨clause, composed, key, value⟩ :=
    @composeClause_eq calls rule msg isNeedSet fields payload fieldsListed payloadListed
  have noPayload : rule.flag .PAYLOAD_FIELD = false → payload = [] := by
    intro flag
    simpa [storedColumns, flag] using payloadListed.symm
  obtain ⟨values, shape, closed⟩ := closeLast_value selects noPayload
  have named : keyTexts (fields ++ payload) ≠ [] := by simpa [keyTexts] using selects
  refine ⟨values, shape, ?_⟩
  have words
      : lit "INSERT INTO " = keyword "INSERT INTO "
        ∧ lit " (" = [32] ++ keyword "("
        ∧ lit "VALUES (" = keyword "VALUES ("
        ∧ lit ";" = keyword ";" :=
    ⟨rfl, rfl, rfl, rfl⟩
  rw [insertStatement, composed, Option.bind_some, if_pos (fits clause composed), key, value,
    closed, closeLast_withCommas _ named, Option.bind_some, Option.map_some]
  simp only [insertHead, words, List.append_assoc]

/-- What is counted in the values comes from the values themselves. -/
theorem ValuesText.countP {fields payload : List Column} {values : Text}
    (shape : ValuesText rule fields payload values) {counted : UInt8 → Bool}
    (isForeign : Foreign counted)
    : values.countP counted
      = ((valueTexts (fields ++ payload)).map (List.countP counted)).sum := by
  have comma : [44, 32].countP counted = 0 := isForeign.keyword (by decide)
  have bracket : [41, 32].countP counted = 0 := isForeign.keyword (by decide)
  have commas (texts : List Text)
      : (withCommas texts).countP counted = (texts.map (List.countP counted)).sum := by
    induction texts with
    | nil => rfl
    | cons text rest ih =>
        rw [withCommas, List.flatMap_cons, ← withCommas, List.countP_append, List.countP_append,
          comma, ih]
        simp
  cases shape with
  | @list gap blank _ =>
      have gapCount : gap.countP counted = 0 := by
        rcases blank with rfl | rfl
        · rfl
        · exact isForeign.keyword (by decide)
      rw [List.countP_append, gapCount, countP_listText isForeign, Nat.zero_add]
  | stuck _ =>
      have front (texts : List Text)
          : (separated [44, 32] texts).countP counted = (texts.map (List.countP counted)).sum := by
        cases texts with
        | nil => rfl
        | cons text rest =>
            have moved :=
              congrArg (List.countP counted)
                (@separated_comma [44, 32] (text :: rest) (List.cons_ne_nil _ _))
            rw [List.countP_append, List.countP_append, comma, commas] at moved
            omega
      rw [List.countP_append, List.countP_append, commas, front, bracket]
      simp [valueTexts]

end Compose

-- What the statement means

/-- The token that a literal is read from. -/
def literalToken : Literal → Token
  | .integer value => .word (decimal value)
  | .string text => .string text

theorem scans_render {dialect : Dialect} {literal : Literal}
    (plain : PlainLiteral dialect literal)
    : Scans dialect (render literal) (literalToken literal) := by
  cases literal with
  | integer value => exact .word (isWord_decimal value)
  | string text =>
      obtain ⟨plain, nulFree⟩ := plain
      rw [render, quoted, cstr_of_not_mem nulFree]
      exact .quoted plain

theorem literal_of_token (literal : Literal)
    : (literalToken literal).literal numeral = some literal := by
  cases literal with
  | integer value => simp [literalToken, Token.literal, numeral_decimal]
  | string text => rfl

theorem special_render_le (literal : Literal) : special (render literal) ≤ literal.special := by
  cases literal with
  | integer value =>
      have none := special_numeral _ _ (numeral_decimal value)
      simp [render, none]
  | string text =>
      have less : special (cstr text) ≤ special text := (cstr_isPrefix text).sublist.countP_le
      have around : special (quoted text) = 2 + special (cstr text) := by
        rw [quoted, special_cons, special_append]
        have quote : special [39] = 1 := rfl
        omega
      rw [render, around, Literal.special]
      omega

theorem nulFree_render (literal : Literal) : 0 ∉ render literal := by
  cases literal with
  | integer value => exact (isWord_decimal value).nulFree
  | string text =>
      have nulFree := zero_not_mem_cstr text
      simp [render, quoted, nulFree]

theorem foreign_special : Foreign fun byte => byte == 39 || byte == 92 :=
  .of_all rfl

theorem foreign_zero : Foreign fun byte => byte == 0 :=
  .of_all rfl

section Meaning

variable {names : Names} {rule : Rule} {fields payload : List Column} {table values : Text}

/-- The columns of a selection can be read back. -/
structure Readable (names : Names) (dialect : Dialect) (column : Column) : Prop where
  name : names.isColumn column.1 = true
  value : PlainLiteral dialect column.2

section Columns

variable {dialect : Dialect} {columns : List Column}
  (readable : ∀ column ∈ columns, Readable names dialect column)

include readable

theorem keyTexts_of_readable : keyTexts columns = columns.map Prod.fst := by
  refine List.map_congr_left fun column member => ?_
  exact cstr_of_not_mem (names.column_word _ (readable column member).name).nulFree

theorem names_of_readable
    : ∀ name ∈ columns.map Prod.fst, names.isColumn name = true :=
  List.forall_mem_map.mpr fun column member => (readable column member).name

theorem scans_of_readable
    : List.Forall₂ (Scans dialect) (valueTexts columns)
        (columns.map fun column => literalToken column.2) := by
  rw [valueTexts, List.forall₂_map_left_iff, List.forall₂_map_right_iff, List.forall₂_same]
  exact fun column member => scans_render (readable column member).value

end Columns

/-- Readable columns in one list make a statement that is read as they are. -/
theorem parse_list (shape : ValuesText rule fields payload values)
    (isTable : names.isTable table = true)
    (readable : ∀ column ∈ fields ++ payload, Readable names rule.dialect column)
    (selects : fields ++ payload ≠ []) (apart : rule.flag .PAYLOAD_FIELD = true → fields = [])
    : parseInsert names numeral rule.dialect
        (insertHead table (keyTexts (fields ++ payload)) ++ values ++ keyword ";")
      = some
          {
            table
            columns := (fields ++ payload).map Prod.fst
            values := (fields ++ payload).map Prod.snd
          } := by
  cases shape with
  | @list gap blank _ =>
      have literals
          : List.Forall₂ (fun token value => Token.literal numeral token = some value)
              ((fields ++ payload).map fun column => literalToken column.2)
              ((fields ++ payload).map Prod.snd) := by
        rw [List.forall₂_map_left_iff, List.forall₂_map_right_iff, List.forall₂_same]
        exact fun column _ => literal_of_token column.2
      have gapScan : scan rule.dialect .between gap = ([], .between) := by
        rcases blank with rfl | rfl
        · rfl
        · rfl
      rw [keyTexts_of_readable readable, ← List.append_assoc]
      exact parseInsert_of_list isTable (names_of_readable readable) (by simpa using selects)
        gapScan (scans_of_readable readable) literals (by simpa using selects)
  | stuck together => exact absurd (apart together.1) together.2

/-- Fields and payload together make a statement that is not read. -/
theorem parse_stuck (shape : ValuesText rule fields payload values)
    (isTable : names.isTable table = true)
    (readable : ∀ column ∈ fields ++ payload, Readable names rule.dialect column)
    (together : rule.flag .PAYLOAD_FIELD = true ∧ fields ≠ [])
    : parseInsert names numeral rule.dialect
        (insertHead table (keyTexts (fields ++ payload)) ++ values ++ keyword ";")
      = none := by
  cases shape with
  | list _ apart => exact absurd (apart together.1) together.2
  | stuck _ =>
      obtain ⟨byte, rest, text, symbol⟩
          : ∃ byte rest,
              separated [44, 32] (valueTexts payload) ++ [41, 32] = byte :: rest
              ∧ isSymbol byte = true := by
        cases valueTexts payload with
        | nil => exact ⟨41, [32], rfl, rfl⟩
        | cons first others => exact ⟨44, _, rfl, rfl⟩
      have fieldsReadable : ∀ column ∈ fields, Readable names rule.dialect column :=
        fun column member => readable column (List.mem_append_left _ member)
      have stuck :=
        @parseInsert_stuck rule.dialect names numeral table _ isTable
          (names_of_readable readable) (by simp [together.2]) (rest ++ keyword ";")
          (valueTexts fields) _ byte (scans_of_readable fieldsReadable) symbol
      rw [keyTexts_of_readable readable, text, ← stuck, withCommas]
      simp

theorem countP_statement (shape : ValuesText rule fields payload values)
    {counted : UInt8 → Bool} (isForeign : Foreign counted)
    : (insertHead table (keyTexts (fields ++ payload)) ++ values ++ keyword ";").countP counted
      = table.countP counted
        + ((fields ++ payload).map fun column => (cstr column.1).countP counted).sum
        + ((fields ++ payload).map fun column => (render column.2).countP counted).sum := by
  have semicolon : (keyword ";").countP counted = 0 := isForeign.keyword (by decide)
  rw [List.countP_append, List.countP_append, countP_insertHead isForeign,
    shape.countP isForeign, semicolon, keyTexts, valueTexts, List.map_map, List.map_map]
  rfl

theorem nulFree_iff_countP (text : Text) : 0 ∉ text ↔ text.countP (fun byte => byte == 0) = 0 := by
  rw [List.countP_eq_zero]
  constructor
  · rintro nulFree byte member isZero
    rw [beq_iff_eq] at isZero
    exact nulFree (isZero ▸ member)
  · intro none member
    exact none 0 member rfl

theorem nulFree_statement (shape : ValuesText rule fields payload values) (nulFree : 0 ∉ table)
    : 0 ∉ insertHead table (keyTexts (fields ++ payload)) ++ values ++ keyword ";" := by
  have inNames
      : ((fields ++ payload).map fun column =>
          (cstr column.1).countP fun byte => byte == 0).sum = 0 := by
    refine List.sum_eq_zero fun count member => ?_
    obtain ⟨column, _, rfl⟩ := List.mem_map.mp member
    exact (nulFree_iff_countP _).mp (zero_not_mem_cstr column.1)
  have inValues
      : ((fields ++ payload).map fun column =>
          (render column.2).countP fun byte => byte == 0).sum = 0 := by
    refine List.sum_eq_zero fun count member => ?_
    obtain ⟨column, _, rfl⟩ := List.mem_map.mp member
    exact (nulFree_iff_countP _).mp (nulFree_render column.2)
  rw [nulFree_iff_countP, countP_statement shape foreign_zero, inNames, inValues,
    (nulFree_iff_countP table).mp nulFree]

/-- A statement that is read as its columns, perhaps with more behind them, has lost nothing, so
its texts are plain.
-/
theorem readable_of_parse (shape : ValuesText rule fields payload values)
    (nulFree : 0 ∉ table) {more : List Column}
    (parsed
      : parseInsert names numeral rule.dialect
          (insertHead table (keyTexts (fields ++ payload)) ++ values ++ keyword ";")
        = some
            {
              table
              columns := (fields ++ payload ++ more).map Prod.fst
              values := (fields ++ payload ++ more).map Prod.snd
            })
    : names.isTable table = true
      ∧ ∀ column ∈ fields ++ payload, Readable names rule.dialect column := by
  obtain ⟨read, isRead, isInsert⟩ := Option.bind_eq_some_iff.mp parsed
  have readFrom := readInsert_inv special_numeral isInsert
  have noLoss
      : losses rule.dialect .between
          (insertHead table (keyTexts (fields ++ payload)) ++ values ++ keyword ";")
        = 0 := by
    have balance := special_tokens isRead
    have written
        : special (insertHead table (keyTexts (fields ++ payload)) ++ values ++ keyword ";")
          = special table + ((fields ++ payload).map fun column => special (cstr column.1)).sum
            + ((fields ++ payload).map fun column => special (render column.2)).sum :=
      countP_statement shape foreign_special
    have found
        : (read.map Token.special).sum
          = special table + ((fields ++ payload ++ more).map fun column => special column.1).sum
            + ((fields ++ payload ++ more).map fun column => column.2.special).sum := by
      have total := readFrom.special
      rw [Insert.special, List.map_map, List.map_map] at total
      exact total
    have behind (count : Column → Nat)
        : ((fields ++ payload ++ more).map count).sum
          = ((fields ++ payload).map count).sum + (more.map count).sum := by
      rw [List.map_append, List.sum_append]
    rw [behind, behind] at found
    have namesLess
        : ((fields ++ payload).map fun column => special (cstr column.1)).sum
          ≤ ((fields ++ payload).map fun column => special column.1).sum :=
      List.sum_le_sum fun column _ => (cstr_isPrefix column.1).sublist.countP_le
    have valuesLess
        : ((fields ++ payload).map fun column => special (render column.2)).sum
          ≤ ((fields ++ payload).map fun column => column.2.special).sum :=
      List.sum_le_sum fun column _ => special_render_le column.2
    omega
  have clean := tokens_clean isRead (nulFree_statement shape nulFree) noLoss
  refine ⟨readFrom.table, fun column isWritten => ?_⟩
  have member : column ∈ fields ++ payload ++ more := List.mem_append_left _ isWritten
  refine ⟨readFrom.columns _ (List.mem_map_of_mem member), ?_⟩
  obtain ⟨name, literal⟩ := column
  cases literal with
  | integer value => trivial
  | string text => exact clean _ (readFrom.strings text (List.mem_map_of_mem member))

end Meaning

-- The statement and the selection

section Selection

variable {selection : List (Text × Option Literal)} {columns : List Column}

theorem there_of_values {values : List Literal}
    (areValues : selection.map Prod.snd = values.map some)
    : ∀ column ∈ selection, ∃ literal, column.2 = some literal := by
  intro column member
  have value := List.mem_map_of_mem (f := Prod.snd) member
  rw [areValues] at value
  obtain ⟨literal, _, same⟩ := List.mem_map.mp value
  exact ⟨literal, same.symm⟩

/-- A selection whose values are all there. By induction on it. -/
theorem columns_of_there (there : ∀ column ∈ selection, ∃ literal, column.2 = some literal)
    : ∃ columns : List Column, selection = columns.map given := by
  induction selection with
  | nil => exact ⟨[], rfl⟩
  | cons column rest ih =>
      obtain ⟨⟨literal, isLiteral⟩, others⟩ := List.forall_mem_cons.mp there
      obtain ⟨columns, rfl⟩ := ih others
      exact ⟨(column.1, literal) :: columns, by simp [given, ← isLiteral]⟩

theorem names_given (columns : List Column)
    : (columns.map given).map Prod.fst = columns.map Prod.fst := by
  rw [List.map_map]
  rfl

theorem values_given (columns : List Column)
    : (columns.map given).map Prod.snd = (columns.map Prod.snd).map some := by
  rw [List.map_map, List.map_map]
  rfl

theorem readable_given_iff {names : Names} {dialect : Dialect}
    : (∀ column ∈ columns.map given,
        names.isColumn column.1 = true
        ∧ ∃ literal, column.2 = some literal ∧ PlainLiteral dialect literal)
      ↔ ∀ column ∈ columns, Readable names dialect column := by
  rw [List.forall_mem_map]
  refine forall₂_congr fun column _ => ?_
  constructor
  · rintro ⟨name, literal, same, plain⟩
    cases same
    exact ⟨name, plain⟩
  · rintro ⟨name, plain⟩
    exact ⟨name, column.2, rfl, plain⟩

end Selection

/-- The statement is one INSERT of the columns that a rule selects, with the values of the message
for them.
-/
def MeansSelection (calls : OutputCalls) (names : Names) (rule : Rule) (msg : RuleMessage)
    (statement : Text)
    : Prop :=
  ∃ values,
    (selectedColumns calls rule msg).map Prod.snd = values.map some
    ∧ parseInsert names numeral rule.dialect statement
      = some
          {
            table := cstr (rule.table.getD calls.nullText)
            columns := (selectedColumns calls rule msg).map Prod.fst
            values
          }

section Statement

variable {calls : OutputCalls} {names : Names} {rule after : Rule} {msg : RuleMessage}
  {isNeedSet : Bool}

theorem means_selection_of_stored (selects : selectedColumns calls rule msg ≠ [])
    (fits : ∀ clause, composeClause calls rule msg isNeedSet = some clause → clause.Fits)
    (there : ∀ column ∈ selectedColumns calls rule msg, ∃ literal, column.2 = some literal)
    (stored : storedColumns calls rule = payloadColumns calls rule msg)
    : (∃ statement,
        insertStatement calls rule msg isNeedSet = some statement
        ∧ MeansSelection calls names rule msg statement)
      ↔ names.isTable (cstr (rule.table.getD calls.nullText)) = true
        ∧ (∀ column ∈ selectedColumns calls rule msg,
            names.isColumn column.1 = true
            ∧ ∃ literal, column.2 = some literal ∧ PlainLiteral rule.dialect literal)
        ∧ (rule.flag .PAYLOAD_FIELD = true → fieldColumns rule msg = []) := by
  obtain ⟨columns, listed⟩ := columns_of_there there
  obtain ⟨fields, payload, rfl, fieldsListed, payloadListed⟩ :=
    List.map_eq_append_iff.mp listed.symm
  have nonempty : fields ++ payload ≠ [] := by
    intro empty
    rw [empty] at listed
    exact selects listed
  have fieldsEmpty : fieldColumns rule msg = [] ↔ fields = [] := by
    rw [← fieldsListed, List.map_eq_nil_iff]
  obtain ⟨text, shape, statement⟩ :=
    @insertStatement_eq calls rule msg isNeedSet fields payload fieldsListed.symm
      (stored.trans payloadListed.symm) nonempty fits
  unfold MeansSelection
  rw [listed, readable_given_iff, names_given, values_given, fieldsEmpty, statement]
  constructor
  · rintro ⟨_, same, values, areValues, parsed⟩
    cases same
    obtain rfl := List.map_injective_iff.mpr (Option.some_injective _) areValues
    have behind : fields ++ payload ++ [] = fields ++ payload := List.append_nil _
    obtain ⟨isTable, readable⟩ :=
      @readable_of_parse names rule fields payload _ text shape (zero_not_mem_cstr _) []
        (by rwa [behind])
    refine ⟨isTable, readable, fun flag => ?_⟩
    by_contra others
    rw [parse_stuck shape isTable readable ⟨flag, others⟩] at parsed
    cases parsed
  · rintro ⟨isTable, readable, apart⟩
    exact ⟨_, rfl, _, rfl, parse_list shape isTable readable nonempty apart⟩

theorem closeLast_word {word : Text} (isWord : IsWord word)
    : closeLast (word ++ lit " (") = none := by
  have bytes := isWord.2
  clear isWord
  induction word with
  | nil => rfl
  | cons byte rest ih =>
      obtain ⟨isByte, others⟩ := List.forall_mem_cons.mp bytes
      have noComma : byte ≠ 44 := by
        rintro rfl
        cases isByte
      rw [List.cons_append, closeLast, ih others, if_neg noComma]

/-- Where the selected payload fields are not stored, none of them is written. -/
theorem not_means_selection_of_unstored {statement : Text}
    (fits : ∀ clause, composeClause calls rule msg isNeedSet = some clause → clause.Fits)
    (stored : storedColumns calls rule = []) (selects : payloadColumns calls rule msg ≠ [])
    (composed : insertStatement calls rule msg isNeedSet = some statement)
    : ¬MeansSelection calls names rule msg statement := by
  rintro ⟨values, areValues, parsed⟩
  obtain ⟨columns, listed⟩ := columns_of_there (there_of_values areValues)
  obtain ⟨fields, more, rfl, fieldsListed, moreListed⟩ :=
    List.map_eq_append_iff.mp listed.symm
  rw [listed, values_given] at areValues
  obtain rfl := List.map_injective_iff.mpr (Option.some_injective _) areValues
  rw [listed, names_given] at parsed
  have flag : rule.flag .PAYLOAD_FIELD = true := by
    by_contra unset
    exact selects (if_neg unset)
  by_cases alone : fields = []
  · -- No column is written, so there is no comma to become the bracket.
    subst alone
    obtain ⟨clause, isClause, key, _⟩ :=
      @composeClause_eq calls rule msg isNeedSet [] [] fieldsListed.symm stored
    obtain ⟨read, _, isInsert⟩ := Option.bind_eq_some_iff.mp parsed
    have isWord := names.table_word _ (readInsert_inv special_numeral isInsert).table
    have noComma : closeLast clause.key = none := by
      rw [key, keyTexts, withCommas, List.append_nil, List.map_nil, List.flatMap_nil,
        List.append_nil]
      exact closeLast_word isWord
    rw [insertStatement, isClause, Option.bind_some, if_pos (fits clause isClause), noComma]
      at composed
    cases composed
  · obtain ⟨text, shape, isText⟩ :=
      @insertStatement_eq calls rule msg isNeedSet fields [] fieldsListed.symm stored
        (by rwa [List.append_nil]) fits
    obtain rfl := Option.some.inj (composed.symm.trans isText)
    have behind : fields ++ [] ++ more = fields ++ more := by rw [List.append_nil]
    rw [← behind] at parsed
    obtain ⟨isTable, readable⟩ := readable_of_parse shape (zero_not_mem_cstr _) parsed
    rw [parse_stuck shape isTable readable ⟨flag, alone⟩] at parsed
    cases parsed

-- What the filter has stored

/-- A step that passes stores the value of the message, where it has one. -/
theorem storedLiteral_of_step {entry after : RulePayload} {jp : CJson} {literal : Literal}
    (isStore : entry.isStore = true)
    (step : payloadStep calls.toRuleCalls entry jp = some (true, after))
    (isLiteral : jsonLiteral calls jp = some literal)
    : storedLiteral calls after.stored = some literal := by
  rw [payloadStep_stores isStore step]
  cases jp with
  | number value =>
      obtain ⟨num, isLong, _⟩ := Option.map_eq_some_iff.mp step
      cases value with
      | infinite negative => cases isLiteral
      | finite value =>
          rw [jsonLiteral] at isLiteral
          split at isLiteral
          swap
          · cases isLiteral
          rename_i whole
          cases isLiteral
          have part : (Double.finite value).truncate = some value.num := by
            rw [Double.truncate, ← Rat.den_eq_one_iff value |>.mp whole]
            simp
          have same : num = value.num := by
            rw [toLong, part] at isLong
            obtain ⟨given, _⟩ := Option.filter_eq_some_iff.mp isLong
            exact (Option.some.inj given).symm
          simp [Stored.ofJson, isLong, same, Stored.isNothing, storedLiteral]
  | string text =>
      cases isLiteral
      rfl
  | object members =>
      cases isLiteral
      rfl
  | null => cases isLiteral
  | bool value => cases isLiteral
  | array items => cases isLiteral

theorem contributes_of_literal {entry : RulePayload} {literal : Literal}
    (selected : entry.selected = true)
    (stored : storedLiteral calls entry.stored = some literal)
    : entry.contributes = true := by
  obtain ⟨isStore, isNamed⟩ := Bool.and_eq_true_iff.mp selected
  refine (contributes_iff entry).mpr ⟨isStore, isNamed, fun nothing => ?_⟩
  rw [nothing] at stored
  cases stored

theorem selected_of_contributes {entry : RulePayload} (contributes : entry.contributes = true)
    : entry.selected = true := by
  obtain ⟨isStore, isNamed, _⟩ := (contributes_iff entry).mp contributes
  exact Bool.and_eq_true_iff.mpr ⟨isStore, isNamed⟩

/-- After the filter of a rule with conditions, the values of the message are stored. -/
theorem storedColumns_of_fires (conditions : rule.filter.isSome = true)
    (fires : ruleEngineFilter calls.toRuleCalls rule msg = some (true, after))
    (there : ∀ column ∈ payloadColumns calls after msg, ∃ literal, column.2 = some literal)
    : storedColumns calls after = payloadColumns calls after msg := by
  rcases ruleEngineFilter_cases fires with ⟨isFalse, _⟩ | ⟨noFilter, _⟩ | ⟨_, payload, rfl, checked⟩
  · cases isFalse
  · rw [noFilter] at conditions
    cases conditions
  have kept
      : ∀ entry ∈ payload,
          entry.selected = true
          → ∀ literal,
              (payloadColumn calls msg entry).2 = some literal
              → storedLiteral calls entry.stored = some literal := by
    have pairs := (payloadFilter_steps checked).flip
    refine (forall₂_iff_forall pairs fun entry before pair => iff_of_true trivial ?_).mp
      (pairs.imp fun _ _ _ => trivial)
    obtain ⟨jp, reached, step⟩ := pair
    intro selected literal isLiteral
    have blank := payloadStep_blank step
    have psa : entry.psa = before.psa := (RulePayload.mk.inj blank).1
    have isStore : entry.isStore = before.isStore := (RulePayload.mk.inj blank).2.2.2.2.1
    rw [payloadColumn, psa, reached] at isLiteral
    exact storedLiteral_of_step (isStore ▸ (Bool.and_eq_true_iff.mp selected).1) step isLiteral
  unfold storedColumns payloadColumns
  split
  swap
  · rfl
  rename_i flag
  rw [payloadColumns, if_pos flag, List.forall_mem_map] at there
  have found
      : ∀ entry ∈ payload,
          entry.selected = true
          → ∃ literal,
              (payloadColumn calls msg entry).2 = some literal
              ∧ storedLiteral calls entry.stored = some literal := by
    intro entry member selected
    obtain ⟨literal, isLiteral⟩ := there entry (List.mem_filter.mpr ⟨member, selected⟩)
    exact ⟨literal, isLiteral, kept entry member selected literal isLiteral⟩
  have same : payload.filter RulePayload.contributes = payload.filter RulePayload.selected := by
    refine List.filter_congr fun entry member => Bool.eq_iff_iff.mpr ?_
    refine ⟨selected_of_contributes, fun selected => ?_⟩
    obtain ⟨_, _, stored⟩ := found entry member selected
    exact contributes_of_literal selected stored
  rw [same]
  refine List.map_congr_left fun entry member => ?_
  obtain ⟨member, selected⟩ := List.mem_filter.mp member
  obtain ⟨literal, isLiteral, stored⟩ := found entry member selected
  exact Prod.ext rfl (stored.trans isLiteral.symm)

theorem storedColumns_of_blank (fresh : rule.blank = rule) : storedColumns calls rule = [] := by
  have payload : rule.payload.map RulePayload.blank = rule.payload :=
    congrArg Rule.payload fresh
  have silent : rule.payload.filter RulePayload.contributes = [] := by
    rw [← payload]
    refine List.filter_eq_nil_iff.mpr fun entry member contributes => ?_
    obtain ⟨original, _, rfl⟩ := List.mem_map.mp member
    exact ((contributes_iff _).mp contributes).2.2 rfl
  unfold storedColumns
  rw [silent]
  exact ite_self _

theorem selectedColumns_blank
    : selectedColumns calls rule.blank msg = selectedColumns calls rule msg
      ∧ payloadColumns calls rule.blank msg = payloadColumns calls rule msg := by
  have payload : payloadColumns calls rule.blank msg = payloadColumns calls rule msg := by
    simp only [payloadColumns, Rule.blank, List.filter_map, List.map_map]
    rfl
  exact ⟨congrArg (fieldColumns rule msg ++ ·) payload, payload⟩

end Statement

/-- The statement for a message on which a rule fires, after any history of the rule that selects
some column and for texts that fit the buffers. It is one statement with the selected columns and
the values of the message exactly if the table and the columns have names, all values are there
and their texts are plain, payload fields are not selected together with other fields, and a rule
that selects some has conditions.
-/
theorem insert_means_selection_iff {calls : OutputCalls} {option : EngineOption}
    {rule state after : Rule} {history : List Turn} {msg : RuleMessage} {isNeedSet : Bool}
    (names : Names) (fresh : rule.blank = rule)
    (run : runHistory calls option rule history = some state)
    (fires : ruleEngineFilter calls.toRuleCalls state msg = some (true, after))
    (selects : selectedColumns calls rule msg ≠ [])
    (fits : ∀ clause, composeClause calls after msg isNeedSet = some clause → clause.Fits)
    : (∃ statement,
        insertStatement calls after msg isNeedSet = some statement
        ∧ MeansSelection calls names rule msg statement)
      ↔ names.isTable (cstr (rule.table.getD calls.nullText)) = true
        ∧ (∀ column ∈ selectedColumns calls rule msg,
            names.isColumn column.1 = true
            ∧ ∃ literal, column.2 = some literal ∧ PlainLiteral rule.dialect literal)
        ∧ (rule.flag .PAYLOAD_FIELD = true → fieldColumns rule msg = [])
        ∧ (payloadColumns calls rule msg ≠ [] → rule.filter.isSome = true) := by
  have start : ReachedFrom rule rule := ⟨fresh, fun _ => rfl⟩
  have reachedState := start.run run
  have reached := reachedState.filter fires
  have conditions : after.filter = state.filter := by
    rw [reached.filter_eq, reachedState.filter_eq]
  have idle := reached.idle
  obtain rfl := reached.blank
  obtain ⟨selection, payload⟩ := @selectedColumns_blank calls after msg
  have means (statement : Text)
      : MeansSelection calls names after.blank msg statement
        ↔ MeansSelection calls names after msg statement := by
    unfold MeansSelection
    rw [selection]
    rfl
  simp only [means]
  rw [selection] at selects ⊢
  rw [payload]
  -- Both sides say that the values are there.
  by_cases there : ∀ column ∈ selectedColumns calls after msg, ∃ literal, column.2 = some literal
  swap
  · constructor
    · rintro ⟨_, _, _, areValues, _⟩
      exact absurd (there_of_values areValues) there
    · rintro ⟨_, readable, _⟩
      refine absurd (fun column member => ?_) there
      obtain ⟨_, literal, isLiteral, _⟩ := readable column member
      exact ⟨literal, isLiteral⟩
  have unstored (noFilter : after.filter = none) : storedColumns calls after = [] :=
    storedColumns_of_blank (idle noFilter).symm
  by_cases stores : payloadColumns calls after msg ≠ [] → after.filter.isSome = true
  · have stored : storedColumns calls after = payloadColumns calls after msg := by
      cases isFilter : after.filter with
      | some filter =>
          refine storedColumns_of_fires ?_ fires fun column member => ?_
          · rw [← conditions, isFilter]
            rfl
          · exact there column (List.mem_append_right _ member)
      | none =>
          rw [unstored isFilter]
          by_contra selected
          have isSome := stores (Ne.symm selected)
          rw [isFilter] at isSome
          cases isSome
    rw [means_selection_of_stored selects fits there stored]
    constructor
    · rintro ⟨isTable, readable, apart⟩
      exact ⟨isTable, readable, apart, stores⟩
    · rintro ⟨isTable, readable, apart, _⟩
      exact ⟨isTable, readable, apart⟩
  · refine iff_of_false ?_ fun met => stores met.2.2.2
    obtain ⟨selected, noFilter⟩ := Classical.not_imp.mp stores
    have isNone : after.filter = none := by simpa using noFilter
    rintro ⟨statement, composed, isSelection⟩
    exact not_means_selection_of_unstored fits (unstored isNone) selected composed isSelection

-- A topic in a table

def isName (text : Text) : Bool :=
  !text.isEmpty && text.all isWordByte

theorem isWord_of_isName (text : Text) (isName : isName text = true) : IsWord text := by
  obtain ⟨nonempty, bytes⟩ := Bool.and_eq_true_iff.mp isName
  refine ⟨?_, List.all_eq_true.mp bytes⟩
  rintro rfl
  cases nonempty

/-- All words are names. -/
def wordNames : Names :=
  {
    isTable := isName
    isColumn := isName
    table_word := isWord_of_isName
    column_word := isWord_of_isName
  }

/-- A rule without conditions that selects the quality of service and the topic. -/
def topicRule : Rule :=
  { statusRule .nothing with
    topic := lit "it's"
    flag := fun field => field = .QOS ∨ field = .TOPIC
    filter := none }

def topicMessage : RuleMessage :=
  { statusMessage [] with topic := lit "it's" }

theorem statusRule_fits (clause : SqlClause)
    (composed
      : composeClause statusCalls (statusRule (.string (lit "a"))) textTurn.msg false
        = some clause)
    : clause.Fits := by
  cases composed
  decide

/-- Witness: a field of the payload, after a message that has left its value there. -/
theorem insert_of_text
    : ∃ statement,
        insertStatement statusCalls (statusRule (.string (lit "a"))) textTurn.msg false
          = some statement
        ∧ MeansSelection statusCalls wordNames (statusRule .nothing) textTurn.msg statement := by
  have run
      : runHistory statusCalls tableOption (statusRule .nothing) [textTurn]
        = some (statusRule (.string (lit "a"))) :=
    rfl
  have fires
      : ruleEngineFilter statusCalls.toRuleCalls (statusRule (.string (lit "a"))) textTurn.msg
        = some (true, statusRule (.string (lit "a"))) :=
    rfl
  have columns
      : selectedColumns statusCalls (statusRule .nothing) textTurn.msg
        = [(lit "v", some (.string (lit "a")))] :=
    rfl
  refine (insert_means_selection_iff wordNames rfl run fires (by simp [columns])
    statusRule_fits).mpr ⟨rfl, ?_, fun _ => rfl, fun _ => rfl⟩
  rw [columns]
  intro column member
  obtain rfl := List.mem_singleton.mp member
  exact ⟨rfl, _, rfl, plain_standard_iff.mpr (by decide), by decide⟩

/-- Counterexample: a quote in a topic ends its literal, and the rest is no list. -/
theorem insert_of_topic_with_quote
    : ruleEngineFilter statusCalls.toRuleCalls topicRule topicMessage = some (true, topicRule)
      ∧ selectedColumns statusCalls topicRule topicMessage
        = [(lit "Qos", some (.integer 0)), (lit "Topic", some (.string (lit "it's")))]
      ∧ insertStatement statusCalls topicRule topicMessage false
        = some (lit "INSERT INTO status (Qos, Topic) VALUES (0, 'it's') ;")
      ∧ ¬MeansSelection statusCalls wordNames topicRule topicMessage
          (lit "INSERT INTO status (Qos, Topic) VALUES (0, 'it's') ;") := by
  refine ⟨rfl, by decide +kernel, by decide +kernel, ?_⟩
  rintro ⟨values, _, parsed⟩
  have unread
      : parseInsert wordNames numeral topicRule.dialect
          (lit "INSERT INTO status (Qos, Topic) VALUES (0, 'it's') ;")
        = none := by
    decide +kernel
  rw [unread] at parsed
  cases parsed

end NanoMQ.Rules
