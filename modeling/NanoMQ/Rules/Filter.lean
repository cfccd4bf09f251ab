import NanoMQ.Rules.Rule

/-! The filter of the rule engine: `rule_engine_filter` checks the conditions of a rule one after
the other, and `payload_filter` keeps the values of the payload fields in the rule.
-/

namespace NanoMQ.Rules

open Bytes Rest

/-- What the filter reads of a published message and its client. -/
structure RuleMessage where
  qos : Fin 4
  packetId : Fin 65536
  topic : Text
  clientid : Option Text
  username : Option Text
  password : Option Text
  time : Nat
  payload : Option Text

/-- The calls of the rule engine into other libraries. -/
structure RuleCalls where
  /-- `topic_filter`. -/
  topicFilter : Text → Text → Bool
  /-- `cJSON_Parse` and `cJSON_ParseWithLength`. -/
  parse : Text → Option CJson
  /-- `cJSON_Compare`. -/
  compare : CJson → CJson → Bool

-- cmp_int and cmp_str

/-- The conversion to `int`. -/
def toInt (value : Int) : Int :=
  value.bmod (2 ^ 32)

def isDigit (byte : UInt8) : Bool :=
  48 ≤ byte && byte ≤ 57

/-- The number that digits denote. -/
def magnitude (digits : Text) : Nat :=
  digits.foldl (fun number digit => 10 * number + (digit.toNat - 48)) 0

/-- `strtol`, which keeps to the range of `long`. -/
def strtol (text : Text) : Int :=
  match text.dropWhile isSpace with
  | 45 :: digits => max (-2 ^ 63) (-(magnitude (digits.takeWhile isDigit) : Int))
  | 43 :: digits => min (2 ^ 63 - 1) (magnitude (digits.takeWhile isDigit) : Int)
  | digits => min (2 ^ 63 - 1) (magnitude (digits.takeWhile isDigit) : Int)

def atoi (text : Text) : Int :=
  toInt (strtol text)

def cmpInt (valueChecked valueSeted : Int) (type : CmpType) : Bool :=
  match type with
  | .EQUAL => valueChecked == valueSeted
  | .UNEQUAL => valueChecked != valueSeted
  | .GREATER => valueChecked > valueSeted
  | .LESS => valueChecked < valueSeted
  | .GREATER_AND_EQUAL => valueChecked ≥ valueSeted
  | .LESS_AND_EQUAL => valueChecked ≤ valueSeted

def strlen (text : Text) : Nat :=
  (cstr text).length

/-- Strings are only compared for equality; any other comparison passes. -/
def cmpStr (valueChecked : Text) (len : Nat) (valueSeted : Text) (type : CmpType) : Bool :=
  match type with
  | .EQUAL => strncmpEq len valueChecked valueSeted
  | .UNEQUAL => !strncmpEq len valueChecked valueSeted
  | _ => true

-- payload_filter

/-- The value under a path of keys. -/
def reach : Option CJson → List Text → Option CJson
  | jp, [] => jp
  | jp, key :: rest => jp.bind fun jp => reach (jp.getObjectItem key) rest

/-- A double as a `long`, where it is in the range. -/
def toLong (valuedouble : Double) : Option Int :=
  valuedouble.truncate.filter fun value => -2 ^ 63 ≤ value && value < 2 ^ 63

/-- `free(payload->value)` is harmless. A number is no pointer, and 0 is the NULL pointer. -/
def Stored.freeable : Stored → Bool
  | .number value => value == 0
  | .released => false
  | _ => true

section Payload

variable (calls : RuleCalls)

/-- One payload field with the value that it has reached; none where it faults. For an object the
verdict is assigned to a variable of the same name.
-/
def payloadStep (entry : RulePayload) (jp : CJson) : Option (Bool × RulePayload) :=
  match jp with
  | .number valuedouble =>
      (toLong valuedouble).map fun num =>
        if entry.filter.all fun set => cmpInt (toInt num) (atoi set) entry.cmpType then
          (true, { entry with stored := .number num })
        else (false, entry)
  | .string str =>
      if entry.filter.all fun set => cmpStr str (strlen str) set entry.cmpType then
        if entry.stored.freeable then some (true, { entry with stored := .string str }) else none
      else some (false, entry)
  | .object members =>
      let filter := entry.filter.bind calls.parse
      if !entry.isStore && filter.any fun json => !calls.compare (.object members) json then
        some (true, entry)
      else some (true, { entry with stored := .object (.object members) })
  | _ => some (true, entry)

/-- The verdict and the fields with what they have stored. -/
def payloadFilter (json : Option CJson) : List RulePayload → Option (Bool × List RulePayload)
  | [] => some (true, [])
  | entry :: rest =>
      match reach json entry.psa with
      | none => some (false, entry :: rest)
      | some jp =>
          (payloadStep calls entry jp).bind fun (passed, entry) =>
            if passed then
              (payloadFilter json rest).map fun (verdict, rest) => (verdict, entry :: rest)
            else some (false, entry :: rest)

-- rule_engine_filter

/-- The message is from the client that the rule itself publishes with. -/
def fromOwnClient (rule : Rule) (msg : RuleMessage) : Option Bool :=
  if rule.forwordType = .REPUB then
    rule.repub.bind fun repub =>
      match repub.texts .clientid with
      | none => some false
      | some own => msg.clientid.map fun cid => cmpStr cid (strlen cid) own .EQUAL
  else some false

/-- The condition on one field; the length of a NULL string cannot be taken. -/
def checkField (msg : RuleMessage) (field : RuleField) (val : Text) (type : CmpType)
    : Option Bool :=
  match field with
  | .QOS => some (cmpInt msg.qos.val (atoi val) type)
  | .ID => some (cmpInt msg.packetId.val (atoi val) type)
  | .TOPIC => some (cmpStr msg.topic (strlen msg.topic) val type)
  | .CLIENTID => msg.clientid.map fun cid => cmpStr cid (strlen cid) val type
  | .USERNAME => msg.username.map fun username => cmpStr username (strlen username) val type
  | .PASSWORD => msg.password.map fun password => cmpStr password (strlen password) val type
  | .TIMESTAMP => some (cmpInt (toInt msg.time) (atoi val) type)
  | .PAYLOAD_ALL =>
      match msg.payload with
      | none => some false
      | some data =>
          if data.length = 0 then some false else some (cmpStr data data.length val type)
  | .PAYLOAD_FIELD => some true

/-- The fields that have a text to compare with, in the order of the loop. -/
def filterFields : List RuleField :=
  [.QOS, .ID, .TOPIC, .CLIENTID, .USERNAME, .PASSWORD, .TIMESTAMP, .PAYLOAD_ALL]

/-- The loop over the fields, up to the first condition that is rejected. -/
def checkFields (rule : Rule) (msg : RuleMessage) (filter : RuleField → Option Text)
    : List RuleField → Option Bool
  | [] => some true
  | field :: rest =>
      match filter field with
      | none => checkFields rule msg filter rest
      | some val =>
          (checkField msg field val (rule.cmpType field)).bind fun passed =>
            if passed then checkFields rule msg filter rest else some false

/-- The last round of the loop, for the payload fields. -/
def checkPayload (rule : Rule) (msg : RuleMessage) : Option (Bool × Rule) :=
  match msg.payload with
  | none => some (false, rule)
  | some data =>
      if data.length = 0 then some (false, rule)
      else
        (payloadFilter calls (calls.parse data) rule.payload).map fun (verdict, payload) =>
          (verdict, { rule with payload })

/-- The verdict on a message, and the rule with what its payload fields have stored. -/
def ruleEngineFilter (rule : Rule) (msg : RuleMessage) : Option (Bool × Rule) :=
  (fromOwnClient rule msg).bind fun own =>
    if own then some (false, rule)
    else if calls.topicFilter rule.topic msg.topic then
      match rule.filter with
      | none => some (true, rule)
      | some filter =>
          (checkFields rule msg filter filterFields).bind fun passed =>
            if passed then checkPayload calls rule msg else some (false, rule)
    else some (false, rule)

end Payload

end NanoMQ.Rules
