import NanoMQ.Library.Verdicts
import NanoMQ.Rules.Filter

/-! The filter of a rule against its conditions. What the rule asks for is a list of conditions;
the filter checks them in order, and some of its checks are wrong: strings match on an initial
part, numbers are narrowed to `int`, and a mismatch of objects is lost.
-/

namespace NanoMQ.Rules

open Bytes Rest Verdicts

-- Conditions and what they mean

/-- The comparison of numbers. -/
def CmpType.relates (type : CmpType) (left right : ℚ) : Bool :=
  match type with
  | .EQUAL => left = right
  | .UNEQUAL => left ≠ right
  | .GREATER => right < left
  | .LESS => left < right
  | .GREATER_AND_EQUAL => right ≤ left
  | .LESS_AND_EQUAL => left ≤ right

/-- What has no order is only compared for equality; any other comparison passes. -/
def CmpType.passes (type : CmpType) (same : Bool) : Bool :=
  match type with
  | .EQUAL => same
  | .UNEQUAL => !same
  | _ => true

/-- The integer that a text denotes: digits with an optional sign. -/
def numeral (text : Text) : Option Int :=
  let natural (digits : Text) : Option Nat :=
    if digits ≠ [] ∧ digits.all isDigit then some (magnitude digits) else none
  match text with
  | 45 :: digits => (natural digits).map fun value => -(value : Int)
  | 43 :: digits => (natural digits).map fun value => (value : Int)
  | digits => (natural digits).map fun value => (value : Int)

/-- A number is compared with the integer of a text; it is different from any other text. -/
def numberHolds (type : CmpType) (value : ℚ) (set : Text) : Bool :=
  match numeral set with
  | some number => type.relates value number
  | none => type = .UNEQUAL

/-- Strings are compared completely. -/
def textHolds (type : CmpType) (checked set : Text) : Bool :=
  type.passes (cstr checked = cstr set)

/-- A condition on a value of the payload, in the way of its JSON type. -/
def jsonHolds (calls : RuleCalls) (type : CmpType) (jp : CJson) (set : Text) : Bool :=
  match jp with
  | .number (.finite value) => numberHolds type value set
  | .string text => textHolds type text set
  | .object members =>
      type.passes ((calls.parse set).any fun json => calls.compare (.object members) json)
  | _ => type.passes false

/-- A configured condition with the part of the message that it is about. A payload field is not
checked at all where the rule has no other filter.
-/
inductive RuleCondition where
  | topic (matching : Bool)
  | number (checked : Int) (set : Text) (type : CmpType)
  | text (checked : Option Text) (set : Text) (type : CmpType)
  | payload (data set : Text) (type : CmpType)
  | field (checked : Bool) (entry : RulePayload) (jp : Option CJson)

/-- The condition of a payload field, if it has one; its value must be there. -/
def fieldHolds (calls : RuleCalls) (entry : RulePayload) (jp : Option CJson) : Bool :=
  entry.filter.all fun set => jp.any fun jp => jsonHolds calls entry.cmpType jp set

/-- The condition holds. -/
def RuleCondition.holds (calls : RuleCalls) : RuleCondition → Bool
  | .topic matching => matching
  | .number checked set type => numberHolds type checked set
  | .text checked set type => checked.any fun text => textHolds type text set
  | .payload data set type => type.passes (data = cstr set)
  | .field _ entry jp => fieldHolds calls entry jp

/-- A republishing rule does not take the messages of its own client. -/
def ownConditions (rule : Rule) (msg : RuleMessage) : List RuleCondition :=
  if rule.forwordType = .REPUB then
    ((rule.repub.bind fun repub => repub.texts .clientid).map fun own =>
      .text msg.clientid own .UNEQUAL).toList
  else []

/-- The condition on a field of the message. -/
def fieldCondition (msg : RuleMessage) (data : Text) (field : RuleField) (val : Text)
    (type : CmpType)
    : RuleCondition :=
  match field with
  | .QOS => .number msg.qos.val val type
  | .ID => .number msg.packetId.val val type
  | .TOPIC => .text (some msg.topic) val type
  | .CLIENTID => .text msg.clientid val type
  | .USERNAME => .text msg.username val type
  | .PASSWORD => .text msg.password val type
  | .TIMESTAMP => .number msg.time val type
  | .PAYLOAD_ALL => .payload data val type
  | .PAYLOAD_FIELD => .topic true

def fieldConditions (rule : Rule) (msg : RuleMessage) (data : Text)
    (filter : RuleField → Option Text) (fields : List RuleField)
    : List RuleCondition :=
  fields.filterMap fun field =>
    (filter field).map fun val => fieldCondition msg data field val (rule.cmpType field)

def payloadConditions (rule : Rule) (json : CJson) (checked : Bool) : List RuleCondition :=
  rule.payload.map fun entry => .field checked entry (reach (some json) entry.psa)

/-- All conditions of a rule, for a message with these payload bytes and their JSON value. -/
def ruleConditions (calls : RuleCalls) (rule : Rule) (msg : RuleMessage) (data : Text)
    (json : CJson)
    : List RuleCondition :=
  ownConditions rule msg
    ++ .topic (calls.topicFilter rule.topic msg.topic)
      :: match rule.filter with
        | none => payloadConditions rule json false
        | some filter =>
            fieldConditions rule msg data filter filterFields ++ payloadConditions rule json true

-- The filter checks the conditions in order

/-- The check of a condition; none where it faults. -/
def RuleCondition.check (calls : RuleCalls) : RuleCondition → Option Bool
  | .topic matching => some matching
  | .number checked set type => some (cmpInt (toInt checked) (atoi set) type)
  | .text checked set type => checked.map fun text => cmpStr text (strlen text) set type
  | .payload data set type => some (cmpStr data data.length set type)
  | .field false _ _ => some true
  | .field true _ none => some false
  | .field true entry (some jp) => (payloadStep calls entry jp).map Prod.fst

section Checks

variable {calls : RuleCalls} {rule : Rule} {msg : RuleMessage} {data : Text} {json : CJson}

theorem toInt_of_small {value : Nat} (small : value < 2 ^ 31) : toInt value = value := by
  unfold toInt
  rw [Int.bmod_eq_of_le] <;> omega

/-- By induction on the payload fields. -/
theorem payloadFilter_judges (entries : List RulePayload)
    : (payloadFilter calls (some json) entries).map Prod.fst
      = judgeAll
          (entries.map fun entry =>
            RuleCondition.check calls (.field true entry (reach (some json) entry.psa))) := by
  induction entries with
  | nil => rfl
  | cons entry rest ih =>
      rw [List.map_cons, judgeAll_cons, payloadFilter, ← ih]
      cases reach (some json) entry.psa with
      | none => rfl
      | some jp =>
          simp only [RuleCondition.check]
          cases payloadStep calls entry jp with
          | none => rfl
          | some step =>
              obtain ⟨passed, stored⟩ := step
              cases passed with
              | false => rfl
              | true =>
                  cases payloadFilter calls (some json) rest with
                  | none => rfl
                  | some result => rfl

theorem checkField_judges (given : msg.payload = some data) (nonempty : data ≠ [])
    (field : RuleField) (val : Text) (type : CmpType)
    : checkField msg field val type
      = (fieldCondition msg data field val type).check calls := by
  have length : data.length ≠ 0 := fun empty => nonempty (List.length_eq_zero_iff.mp empty)
  have qos : toInt (msg.qos.val : Int) = msg.qos.val := toInt_of_small (by omega)
  have packetId : toInt (msg.packetId.val : Int) = msg.packetId.val := toInt_of_small (by omega)
  cases field with
  | QOS => simp only [checkField, fieldCondition, RuleCondition.check, qos]
  | ID => simp only [checkField, fieldCondition, RuleCondition.check, packetId]
  | PAYLOAD_ALL =>
      simp only [checkField, fieldCondition, RuleCondition.check, given, if_neg length]
  | TOPIC => rfl
  | CLIENTID => rfl
  | USERNAME => rfl
  | PASSWORD => rfl
  | TIMESTAMP => rfl
  | PAYLOAD_FIELD => rfl

/-- By induction on the fields. -/
theorem checkFields_judges (given : msg.payload = some data) (nonempty : data ≠ [])
    (filter : RuleField → Option Text) (fields : List RuleField)
    : checkFields rule msg filter fields
      = judgeAll
          ((fieldConditions rule msg data filter fields).map (RuleCondition.check calls)) := by
  induction fields with
  | nil => rfl
  | cons field rest ih =>
      rw [checkFields]
      cases isVal : filter field with
      | none =>
          have skipped
              : fieldConditions rule msg data filter (field :: rest)
                = fieldConditions rule msg data filter rest := by
            simp [fieldConditions, isVal]
          rw [skipped]
          exact ih
      | some val =>
          have listed
              : fieldConditions rule msg data filter (field :: rest)
                = fieldCondition msg data field val (rule.cmpType field)
                  :: fieldConditions rule msg data filter rest := by
            simp [fieldConditions, isVal]
          rw [listed, List.map_cons, judgeAll_cons, ← ih,
            ← @checkField_judges calls msg data given nonempty]

theorem cmpStr_unequal (checked : Text) (len : Nat) (set : Text)
    : cmpStr checked len set .UNEQUAL = !cmpStr checked len set .EQUAL :=
  rfl

theorem fromOwnClient_judges (target : rule.HasTarget)
    : ((fromOwnClient rule msg).map fun own => !own)
      = judgeAll ((ownConditions rule msg).map (RuleCondition.check calls)) := by
  unfold fromOwnClient ownConditions
  split
  · rename_i type
    obtain ⟨repub, isRepub⟩ := Option.isSome_iff_exists.mp (target.repub type)
    rw [isRepub, Option.bind_some, Option.bind_some]
    cases repub.texts .clientid with
    | none => rfl
    | some own =>
        cases isClient : msg.clientid with
        | none => simp [judgeAll, RuleCondition.check]
        | some cid =>
            simp only [Option.map_some, Option.toList_some, List.map_cons, List.map_nil,
              RuleCondition.check, judgeAll_cons, cmpStr_unequal]
            cases cmpStr cid (strlen cid) own .EQUAL <;> rfl
  · rfl

theorem unchecked_judges (rule : Rule) (json : CJson)
    : judgeAll ((payloadConditions rule json false).map (RuleCondition.check calls))
      = some true := by
  unfold payloadConditions
  induction rule.payload with
  | nil => rfl
  | cons entry rest ih =>
      rw [List.map_cons, List.map_cons, judgeAll_cons]
      exact ih

theorem checkPayload_judges (given : msg.payload = some data) (nonempty : data ≠ [])
    (parsed : calls.parse data = some json)
    : (checkPayload calls rule msg).map Prod.fst
      = judgeAll ((payloadConditions rule json true).map (RuleCondition.check calls)) := by
  have length : data.length ≠ 0 := fun empty => nonempty (List.length_eq_zero_iff.mp empty)
  rw [payloadConditions, List.map_map]
  refine Eq.trans ?_ (payloadFilter_judges rule.payload)
  unfold checkPayload
  rw [given]
  dsimp only
  rw [if_neg length, parsed, Option.map_map]
  rfl

/-- The filter is the verdict over the conditions in order. -/
theorem ruleEngineFilter_judges (target : rule.HasTarget) (given : msg.payload = some data)
    (nonempty : data ≠ []) (parsed : calls.parse data = some json)
    : (ruleEngineFilter calls rule msg).map Prod.fst
      = judgeAll ((ruleConditions calls rule msg data json).map (RuleCondition.check calls)) := by
  unfold ruleConditions ruleEngineFilter
  rw [List.map_append, judgeAll_append, ← fromOwnClient_judges target, List.map_cons,
    judgeAll_cons]
  cases fromOwnClient rule msg with
  | none => rfl
  | some own =>
      cases own with
      | true => rfl
      | false =>
          simp only [Option.bind_some, Option.map_some, Bool.not_false, if_true,
            RuleCondition.check, Bool.false_eq_true, if_false]
          cases calls.topicFilter rule.topic msg.topic with
          | false => rfl
          | true =>
              simp only [if_true]
              cases rule.filter with
              | none => exact (unchecked_judges rule json).symm
              | some filter =>
                  dsimp only
                  rw [List.map_append, judgeAll_append,
                    ← @checkFields_judges calls rule msg data given nonempty]
                  cases checkFields rule msg filter filterFields with
                  | none => rfl
                  | some passed =>
                      cases passed with
                      | false => rfl
                      | true => exact checkPayload_judges given nonempty parsed

end Checks

end NanoMQ.Rules
