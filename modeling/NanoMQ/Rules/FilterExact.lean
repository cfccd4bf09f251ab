import NanoMQ.Rules.Conditions

/-! When the verdict of `rule_engine_filter` is that of the conditions. The checks are described
by the values that they compare, so that it can be read off a rule and a message which of them
are wrong, reject or fault.
-/

namespace NanoMQ.Rules

open Bytes Rest Verdicts

-- Comparisons

/-- A proper initial part of a string. -/
def ProperPrefix (left right : Text) : Prop :=
  left <+: right ∧ left ≠ right

theorem cstr_cons (byte : UInt8) (rest : Text)
    : cstr (byte :: rest) = if byte = 0 then [] else byte :: cstr rest := by
  by_cases zero : byte = 0 <;> simp [cstr, zero]

/-- One step of `strncmp` over a byte that is not the terminator. -/
theorem strncmpEq_cons_iff {n : Nat} {byte : UInt8} (nonzero : byte ≠ 0) (left right : Text)
    : strncmpEq (n + 1) (byte :: left) right = true
      ↔ ∃ rest, right = byte :: rest ∧ strncmpEq n left rest = true := by
  cases right with
  | nil => simp [strncmpEq, nonzero]
  | cons head rest =>
      simp only [strncmpEq, List.headD_cons, List.tail_cons, Bool.and_eq_true, Bool.or_eq_true,
        beq_iff_eq, nonzero, false_or, List.cons.injEq]
      constructor
      · rintro ⟨rfl, same⟩
        exact ⟨rest, ⟨rfl, rfl⟩, same⟩
      · rintro ⟨_, ⟨rfl, rfl⟩, same⟩
        exact ⟨rfl, same⟩

/-- Up to its length, a string is compared with the beginning of the other. By induction on it. -/
theorem strncmpEq_strlen_iff (left right : Text)
    : strncmpEq (strlen left) left right = true ↔ cstr left <+: cstr right := by
  induction left generalizing right with
  | nil => simp [strlen, cstr, strncmpEq]
  | cons byte left ih =>
      by_cases zero : byte = 0
      · simp [strlen, cstr_cons, zero, strncmpEq]
      · have length : strlen (byte :: left) = strlen left + 1 := by
          simp [strlen, cstr_cons, zero]
        rw [length, strncmpEq_cons_iff zero, cstr_cons, if_neg zero]
        constructor
        · rintro ⟨rest, rfl, same⟩
          rw [cstr_cons, if_neg zero, List.cons_prefix_cons]
          exact ⟨rfl, (ih rest).mp same⟩
        · intro isPrefix
          cases right with
          | nil => simp [cstr] at isPrefix
          | cons head rest =>
              rw [cstr_cons] at isPrefix
              split at isPrefix
              · simp at isPrefix
              · obtain ⟨rfl, later⟩ := List.cons_prefix_cons.mp isPrefix
                exact ⟨rest, rfl, (ih rest).mpr later⟩

/-- The payload is compared up to its length: with the beginning of the string, or with all of it
where the payload has a NUL.
-/
def PayloadMatches (data set : Text) : Prop :=
  if 0 ∈ data then cstr data = cstr set else data <+: cstr set

instance (data set : Text) : Decidable (PayloadMatches data set) := by
  unfold PayloadMatches
  infer_instance

theorem payloadMatches_zero (data set : Text)
    : PayloadMatches (0 :: data) set ↔ cstr set = [] := by
  simp [PayloadMatches, cstr_cons, eq_comm]

theorem payloadMatches_cons {byte : UInt8} (nonzero : byte ≠ 0) (data set : Text)
    : PayloadMatches (byte :: data) set
      ↔ ∃ rest, set = byte :: rest ∧ PayloadMatches data rest := by
  have mem : (0 : UInt8) ∈ byte :: data ↔ 0 ∈ data := by
    simp [nonzero.symm]
  unfold PayloadMatches
  simp only [mem, cstr_cons byte, if_neg nonzero]
  cases set with
  | nil => simp [cstr]
  | cons head rest =>
      rw [cstr_cons]
      by_cases zero : head = 0
      · simp [zero, nonzero.symm]
      · have tail (Matches : Text → Prop)
            : byte = head ∧ Matches rest
              ↔ ∃ other, (head = byte ∧ rest = other) ∧ Matches other := by
          constructor
          · rintro ⟨rfl, matched⟩
            exact ⟨rest, ⟨rfl, rfl⟩, matched⟩
          · rintro ⟨_, ⟨rfl, rfl⟩, matched⟩
            exact ⟨rfl, matched⟩
        simp only [if_neg zero, List.cons.injEq, List.cons_prefix_cons]
        split
        · exact tail fun other => cstr data = cstr other
        · exact tail fun other => data <+: cstr other

/-- By induction on the payload. -/
theorem strncmpEq_length_iff (data set : Text)
    : strncmpEq data.length data set = true ↔ PayloadMatches data set := by
  induction data generalizing set with
  | nil => simp [strncmpEq, PayloadMatches]
  | cons byte data ih =>
      by_cases zero : byte = 0
      · subst zero
        rw [payloadMatches_zero]
        cases set with
        | nil => simp [strncmpEq, cstr]
        | cons head rest =>
            by_cases isZero : head = 0
            · simp [strncmpEq, cstr_cons, isZero]
            · simp [strncmpEq, cstr_cons, isZero, Ne.symm isZero]
      · rw [List.length_cons, strncmpEq_cons_iff zero, payloadMatches_cons zero]
        simp only [ih]

theorem cmpInt_eq_relates (checked set : Int) (type : CmpType)
    : cmpInt checked set type = type.relates checked set := by
  cases type <;> simp [cmpInt, CmpType.relates, bne, Bool.beq_eq_decide_eq]

theorem cmpStr_eq_passes (checked : Text) (len : Nat) (set : Text) (type : CmpType)
    : cmpStr checked len set type = type.passes (strncmpEq len checked set) := by
  cases type <;> rfl

/-- `=` or `<>`, the comparisons that strings have. -/
def CmpType.IsEquality (type : CmpType) : Prop :=
  type = .EQUAL ∨ type = .UNEQUAL

theorem CmpType.passes_eq_iff {type : CmpType} {left right : Bool}
    : type.passes left = type.passes right ↔ (type.IsEquality → left = right) := by
  cases type <;> simp [CmpType.passes, CmpType.IsEquality]

theorem cmpStr_text (checked set : Text) (type : CmpType)
    : cmpStr checked (strlen checked) set type = type.passes (cstr checked <+: cstr set) := by
  rw [cmpStr_eq_passes]
  congr 1
  rw [Bool.eq_iff_iff, strncmpEq_strlen_iff, decide_eq_true_iff]

theorem cmpStr_payload (data set : Text) (type : CmpType)
    : cmpStr data data.length set type = type.passes (PayloadMatches data set) := by
  rw [cmpStr_eq_passes]
  congr 1
  rw [Bool.eq_iff_iff, strncmpEq_length_iff, decide_eq_true_iff]

/-- A string is compared as it should be, unless it is a proper initial part of the other. -/
theorem textHolds_eq_iff {checked set : Text} {type : CmpType}
    : type.passes (cstr checked <+: cstr set) = textHolds type checked set
      ↔ (type.IsEquality → ¬ProperPrefix (cstr checked) (cstr set)) := by
  rw [textHolds, CmpType.passes_eq_iff]
  refine imp_congr_right fun _ => ?_
  rw [decide_eq_decide, ProperPrefix]
  constructor
  · rintro same ⟨isPrefix, other⟩
    exact other (same.mp isPrefix)
  · intro proper
    constructor
    · intro isPrefix
      by_contra other
      exact proper ⟨isPrefix, other⟩
    · intro same
      rw [same]

-- Checks that fault, reject or are right

/-- The check faults: a NULL string is measured, a number is no `long`, or a text is to replace a
stored value that cannot be freed.
-/
def RuleCondition.Faulty : RuleCondition → Prop
  | .text checked _ _ => checked = none
  | .field true _ (some (.number value)) => toLong value = none
  | .field true entry (some (.string str)) =>
      entry.stored.freeable = false
      ∧ ∀ set, entry.filter = some set → entry.cmpType.passes (cstr str <+: cstr set) = true
  | _ => False

/-- The check rejects the message. -/
def RuleCondition.Rejected : RuleCondition → Prop
  | .topic matching => matching = false
  | .number checked set type => type.relates (toInt checked) (atoi set) = false
  | .text checked set type =>
      ∃ text, checked = some text ∧ type.passes (cstr text <+: cstr set) = false
  | .payload data set type => type.passes (PayloadMatches data set) = false
  | .field true _ none => True
  | .field true entry (some (.number value)) =>
      ∃ num set,
        toLong value = some num
        ∧ entry.filter = some set
        ∧ entry.cmpType.relates (toInt num) (atoi set) = false
  | .field true entry (some (.string str)) =>
      ∃ set, entry.filter = some set ∧ entry.cmpType.passes (cstr str <+: cstr set) = false
  | _ => False

/-- The check of a value of the payload gives what its condition asks for: numbers compare after
narrowing as they do before, strings are no proper initial parts, and other values satisfy the
condition, as they are not compared.
-/
def ValueExact (calls : RuleCalls) (entry : RulePayload) (set : Text) : CJson → Prop
  | .number (.finite value) =>
      ∀ num,
        toLong (.finite value) = some num
        → entry.cmpType.relates (toInt num) (atoi set) = numberHolds entry.cmpType value set
  | .number (.infinite _) => True
  | .string text => entry.cmpType.IsEquality → ¬ProperPrefix (cstr text) (cstr set)
  | jp => jsonHolds calls entry.cmpType jp set = true

/-- The check is right, where it does not fault. -/
def RuleCondition.Exact (calls : RuleCalls) : RuleCondition → Prop
  | .topic _ => True
  | .number checked set type =>
      type.relates (toInt checked) (atoi set) = numberHolds type checked set
  | .text checked set type =>
      ∀ text,
        checked = some text → type.IsEquality → ¬ProperPrefix (cstr text) (cstr set)
  | .payload data set type => type.IsEquality → (PayloadMatches data set ↔ data = cstr set)
  | .field false entry jp => fieldHolds calls entry jp = true
  | .field true entry none => entry.filter.isSome
  | .field true entry (some jp) => ∀ set, entry.filter = some set → ValueExact calls entry set jp

section Checks

variable {calls : RuleCalls}

theorem check_string (entry : RulePayload) (str : Text)
    : RuleCondition.check calls (.field true entry (some (.string str)))
      = if entry.filter.all fun set => entry.cmpType.passes (cstr str <+: cstr set) then
          if entry.stored.freeable then some true else none
        else some false := by
  simp only [RuleCondition.check, payloadStep, cmpStr_text]
  split
  · split <;> rfl
  · rfl

theorem check_number (entry : RulePayload) (value : Double)
    : RuleCondition.check calls (.field true entry (some (.number value)))
      = (toLong value).map fun num =>
          entry.filter.all fun set => entry.cmpType.relates (toInt num) (atoi set) := by
  simp only [RuleCondition.check, payloadStep, cmpInt_eq_relates, Option.map_map]
  refine congrArg (fun verdict => (toLong value).map verdict) (funext fun num => ?_)
  simp only [Function.comp]
  split
  · rename_i passed
    exact passed.symm
  · rename_i fails
    exact (Bool.not_eq_true _ ▸ fails).symm

theorem check_object (entry : RulePayload) (members : List (Text × CJson))
    : RuleCondition.check calls (.field true entry (some (.object members))) = some true := by
  simp only [RuleCondition.check, payloadStep]
  split <;> rfl

theorem check_eq_none_iff (condition : RuleCondition)
    : condition.check calls = none ↔ condition.Faulty := by
  cases condition with
  | topic matching => simp [RuleCondition.check, RuleCondition.Faulty]
  | number checked set type => simp [RuleCondition.check, RuleCondition.Faulty]
  | text checked set type => simp [RuleCondition.check, RuleCondition.Faulty]
  | payload data set type => simp [RuleCondition.check, RuleCondition.Faulty]
  | field checked entry jp =>
      cases checked with
      | false => simp [RuleCondition.check, RuleCondition.Faulty]
      | true =>
          cases jp with
          | none => simp [RuleCondition.check, RuleCondition.Faulty]
          | some jp =>
              cases jp with
              | number value => rw [check_number]; simp [RuleCondition.Faulty]
              | string str =>
                  rw [check_string, RuleCondition.Faulty, ← Option.all_eq_true]
                  split <;> cases entry.stored.freeable <;> simp_all
              | object members => simp [check_object, RuleCondition.Faulty]
              | null => simp [RuleCondition.check, RuleCondition.Faulty, payloadStep]
              | bool value => simp [RuleCondition.check, RuleCondition.Faulty, payloadStep]
              | array items => simp [RuleCondition.check, RuleCondition.Faulty, payloadStep]

theorem check_eq_false_iff (condition : RuleCondition)
    : condition.check calls = some false ↔ condition.Rejected := by
  cases condition with
  | topic matching => simp [RuleCondition.check, RuleCondition.Rejected]
  | number checked set type =>
      simp [RuleCondition.check, RuleCondition.Rejected, cmpInt_eq_relates]
  | text checked set type => simp [RuleCondition.check, RuleCondition.Rejected, cmpStr_text]
  | payload data set type => simp [RuleCondition.check, RuleCondition.Rejected, cmpStr_payload]
  | field checked entry jp =>
      cases checked with
      | false => simp [RuleCondition.check, RuleCondition.Rejected]
      | true =>
          cases jp with
          | none => simp [RuleCondition.check, RuleCondition.Rejected]
          | some jp =>
              cases jp with
              | number value =>
                  rw [check_number, RuleCondition.Rejected]
                  cases entry.filter <;> simp
              | string str =>
                  rw [check_string, RuleCondition.Rejected]
                  cases entry.filter <;> cases entry.stored.freeable <;> simp
              | object members => simp [check_object, RuleCondition.Rejected]
              | null => simp [RuleCondition.check, RuleCondition.Rejected, payloadStep]
              | bool value => simp [RuleCondition.check, RuleCondition.Rejected, payloadStep]
              | array items => simp [RuleCondition.check, RuleCondition.Rejected, payloadStep]

theorem check_right_number (entry : RulePayload) (value : Double)
    : RuleCondition.check calls (.field true entry (some (.number value)))
        = some (RuleCondition.holds calls (.field true entry (some (.number value))))
      ↔ ¬RuleCondition.Faulty (.field true entry (some (.number value)))
        ∧ RuleCondition.Exact calls (.field true entry (some (.number value))) := by
  rw [check_number, RuleCondition.Faulty, RuleCondition.Exact, RuleCondition.holds, fieldHolds]
  cases value with
  | infinite negative => simp [toLong, Double.truncate]
  | finite value =>
      cases isLong : toLong (.finite value) with
      | none => simp
      | some num => cases entry.filter <;> simp [ValueExact, jsonHolds, isLong]

theorem check_right_string (entry : RulePayload) (str : Text)
    : RuleCondition.check calls (.field true entry (some (.string str)))
        = some (RuleCondition.holds calls (.field true entry (some (.string str))))
      ↔ ¬RuleCondition.Faulty (.field true entry (some (.string str)))
        ∧ RuleCondition.Exact calls (.field true entry (some (.string str))) := by
  rw [check_string, RuleCondition.Faulty, RuleCondition.Exact, RuleCondition.holds, fieldHolds]
  cases entry.filter with
  | none => cases entry.stored.freeable <;> simp
  | some set =>
      simp only [Option.all_some, Option.any_some, jsonHolds, ValueExact, Option.some.injEq,
        forall_eq', ← textHolds_eq_iff]
      by_cases passed : entry.cmpType.passes (cstr str <+: cstr set) = true
      · cases entry.stored.freeable <;> simp [passed]
      · simp [passed]

theorem check_right_other {entry : RulePayload} {jp : CJson}
    (passes : RuleCondition.check calls (.field true entry (some jp)) = some true)
    (notFaulty : ¬RuleCondition.Faulty (.field true entry (some jp)))
    (exact_iff : ∀ set, ValueExact calls entry set jp ↔ jsonHolds calls entry.cmpType jp set = true)
    : RuleCondition.check calls (.field true entry (some jp))
        = some (RuleCondition.holds calls (.field true entry (some jp)))
      ↔ ¬RuleCondition.Faulty (.field true entry (some jp))
        ∧ RuleCondition.Exact calls (.field true entry (some jp)) := by
  rw [passes, RuleCondition.Exact, RuleCondition.holds, fieldHolds]
  cases entry.filter <;> simp [notFaulty, exact_iff, Bool.true_eq]

/-- A check gives what its condition asks for exactly if it does not fault and is exact. -/
theorem check_right_iff (condition : RuleCondition)
    : condition.check calls = some (condition.holds calls)
      ↔ ¬condition.Faulty ∧ condition.Exact calls := by
  cases condition with
  | topic matching => simp [RuleCondition.check, RuleCondition.holds, RuleCondition.Faulty,
      RuleCondition.Exact]
  | number checked set type =>
      simp [RuleCondition.check, RuleCondition.holds, RuleCondition.Faulty, RuleCondition.Exact,
        cmpInt_eq_relates]
  | text checked set type =>
      cases checked <;>
        simp [RuleCondition.check, RuleCondition.holds, RuleCondition.Faulty, RuleCondition.Exact,
          cmpStr_text, textHolds_eq_iff]
  | payload data set type =>
      simp [RuleCondition.check, RuleCondition.holds, RuleCondition.Faulty, RuleCondition.Exact,
        cmpStr_payload, CmpType.passes_eq_iff]
  | field checked entry jp =>
      cases checked with
      | false =>
          simp [RuleCondition.check, RuleCondition.holds, RuleCondition.Faulty,
            RuleCondition.Exact]
      | true =>
          cases jp with
          | none =>
              rw [RuleCondition.holds, fieldHolds]
              cases isSet : entry.filter <;>
                simp [RuleCondition.check, RuleCondition.Faulty, RuleCondition.Exact, isSet]
          | some jp =>
              cases jp with
              | number value => exact check_right_number entry value
              | string str => exact check_right_string entry str
              | object members =>
                  exact check_right_other (check_object entry members) id fun _ => Iff.rfl
              | null => exact check_right_other rfl id fun _ => Iff.rfl
              | bool value => exact check_right_other rfl id fun _ => Iff.rfl
              | array items => exact check_right_other rfl id fun _ => Iff.rfl

end Checks

-- The verdict

/-- For a JSON payload the verdict is that of the conditions exactly if no faulty check is
reached, and all checks are exact or some condition does not hold while some check rejects.
-/
theorem fires_exactly_iff {calls : RuleCalls} {rule : Rule} {msg : RuleMessage} {data : Text}
    {json : CJson} (emptyText : calls.parse [] = none) (target : rule.HasTarget)
    (given : msg.payload = some data) (parsed : calls.parse data = some json)
    : (ruleEngineFilter calls rule msg).map Prod.fst
        = some ((ruleConditions calls rule msg data json).all (RuleCondition.holds calls))
      ↔ NoFaultReached RuleCondition.Faulty RuleCondition.Rejected
          (ruleConditions calls rule msg data json)
        ∧ ((∀ condition ∈ ruleConditions calls rule msg data json,
            ¬condition.Faulty ∧ condition.Exact calls)
          ∨ (∃ condition ∈ ruleConditions calls rule msg data json,
              condition.holds calls = false)
            ∧ ∃ condition ∈ ruleConditions calls rule msg data json, condition.Rejected) := by
  have nonempty : data ≠ [] := by
    rintro rfl
    rw [emptyText] at parsed
    cases parsed
  rw [ruleEngineFilter_judges target given nonempty parsed, judgeAll_right_iff]
  simp only [check_eq_none_iff, check_eq_false_iff, check_right_iff]

/-- A rule for alarms of one sensor: a value above 30, with QoS 1. -/
def alarmRule : Rule :=
  {
    topic := lit "t"
    flag := fun _ => true
    asName := fun _ => none
    filter :=
      some fun field =>
        match field with
        | .QOS => some (lit "1")
        | .CLIENTID => some (lit "sensor")
        | _ => none
    cmpType := fun _ => .EQUAL
    payload :=
      [{
        psa := [lit "v"]
        pas := some (lit "v")
        filter := some (lit "30")
        cmpType := .GREATER
        isStore := true
        stored := .nothing
      }]
    rawSql := none
    enabled := true
    ruleId := 1
    forwordType := .SQLITE
    repub := none
    sqliteTable := some (lit "alarms")
    mysql := none
  }

def alarmData : Text :=
  lit "\x7b\"v\":31\x7d"

def alarmJson : CJson :=
  .object [(lit "v", .number (.finite 31))]

/-- Topics are compared, and there is one payload. -/
def alarmCalls : RuleCalls :=
  {
    topicFilter := fun pattern topic => pattern = topic
    parse := fun text => if text = alarmData then some alarmJson else none
    compare := fun _ _ => false
  }

def alarmMessage (clientid : Text) : RuleMessage :=
  {
    qos := 1
    packetId := 7
    topic := lit "t"
    clientid := some clientid
    username := none
    password := none
    time := 0
    payload := some alarmData
  }

/-- Witness: the rule fires on a message of the sensor. -/
theorem alarm_of_sensor
    : (ruleEngineFilter alarmCalls alarmRule (alarmMessage (lit "sensor"))).map Prod.fst
      = some
          ((ruleConditions alarmCalls alarmRule (alarmMessage (lit "sensor")) alarmData
              alarmJson).all (RuleCondition.holds alarmCalls)) := by
  have allRight
      : ∀ condition ∈
          ruleConditions alarmCalls alarmRule (alarmMessage (lit "sensor")) alarmData alarmJson,
          ¬condition.Faulty ∧ condition.Exact alarmCalls := by
    simp only [← check_right_iff]
    decide +kernel
  refine (fires_exactly_iff rfl (.of_sqlite rfl) rfl rfl).mpr ⟨?_, Or.inl allRight⟩
  exact noFaultReached_of_forall fun condition member => (allRight condition member).1

/-- Counterexample: the rule also fires for a client whose id is an initial part. -/
theorem alarm_of_other_client
    : (ruleEngineFilter alarmCalls alarmRule (alarmMessage (lit "s"))).map Prod.fst = some true
      ∧ (ruleConditions alarmCalls alarmRule (alarmMessage (lit "s")) alarmData alarmJson).all
            (RuleCondition.holds alarmCalls)
          = false := by
  decide +kernel

end NanoMQ.Rules
