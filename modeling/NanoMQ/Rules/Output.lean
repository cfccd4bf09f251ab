import NanoMQ.Rules.Filter

/-! What the rule engine makes of a message on which a rule fires: the members of a JSON object
for another topic, or the columns of a statement for a table. The values of the payload fields
come from what the filter has stored in the rule. FDB is taken as not supported.
-/

namespace NanoMQ.Rules

open Bytes Rest

/-- The calls for the output. -/
structure OutputCalls extends RuleCalls where
  /-- `cJSON_PrintUnformatted`. -/
  print : CJson → Text
  /-- What `sprintf` writes for a NULL string. -/
  nullText : Text

/-- All fields, in the order of the loops. -/
def ruleFields : List RuleField :=
  filterFields ++ [.PAYLOAD_FIELD]

-- add_info_to_json

/-- The name of a member that has no other name. -/
def jsonName : RuleField → Text
  | .QOS => lit "qos"
  | .ID => lit "id"
  | .TOPIC => lit "topic"
  | .CLIENTID => lit "clientid"
  | .USERNAME => lit "username"
  | .PASSWORD => lit "password"
  | .TIMESTAMP => lit "timestamp"
  | .PAYLOAD_ALL => lit "payload"
  | .PAYLOAD_FIELD => []

/-- The value of a member; there is none for a NULL string. -/
def jsonValue (calls : OutputCalls) (msg : RuleMessage) : RuleField → Option CJson
  | .QOS => some (.number (.finite msg.qos.val))
  | .ID => some (.number (.finite msg.packetId.val))
  | .TOPIC => some (.string msg.topic)
  | .CLIENTID => msg.clientid.map .string
  | .USERNAME => msg.username.map .string
  | .PASSWORD => msg.password.map .string
  | .TIMESTAMP => some (.number (.finite msg.time))
  | .PAYLOAD_ALL => msg.payload.map fun data => (calls.parse data).getD (.string (cstr data))
  | .PAYLOAD_FIELD => none

/-- A stored value becomes a member; a released object cannot be used again. -/
def addStored (entry : RulePayload) (jso : List (Text × CJson)) : Option (List (Text × CJson)) :=
  if entry.isStore then
    match entry.pas with
    | none => some jso
    | some pas =>
        match entry.stored with
        | .nothing => some jso
        | .number value => some (jso ++ [(pas, .number (.finite value))])
        | .string text => some (jso ++ [(pas, .string text)])
        | .object json => some (jso ++ [(pas, json)])
        | .released => none
  else some jso

def addInfoToJson (calls : OutputCalls) (rule : Rule) (msg : RuleMessage)
    (jso : List (Text × CJson)) (field : RuleField)
    : Option (List (Text × CJson)) :=
  if rule.flag field then
    match field with
    | .PAYLOAD_FIELD => rule.payload.foldlM (fun jso entry => addStored entry jso) jso
    | field =>
        some
          (jso
            ++ ((jsonValue calls msg field).map fun value =>
              ((rule.asName field).getD (jsonName field), value)).toList)
  else some jso

-- compose_sql_clause

/-- The buffers `key` and `value`, and the statements `ret` that add columns to the table. -/
structure SqlClause where
  key : Text
  value : Text
  ret : Text

/-- `%d`. -/
def decimal (number : Int) : Text :=
  if number < 0 then 45 :: ascii (Nat.toDigits 10 number.natAbs)
  else ascii (Nat.toDigits 10 number.natAbs)

/-- `'%s'`. -/
def quoted (text : Text) : Text :=
  39 :: (cstr text ++ [39])

/-- The name of a column that has no other name. -/
def sqlName : RuleField → Text
  | .QOS => lit "Qos"
  | .ID => lit "Id"
  | .TOPIC => lit "Topic"
  | .CLIENTID => lit "Clientid"
  | .USERNAME => lit "Username"
  | .PASSWORD => lit "Password"
  | .TIMESTAMP => lit "Timestamp"
  | .PAYLOAD_ALL => lit "Payload"
  | .PAYLOAD_FIELD => []

def sqlValue (calls : OutputCalls) (msg : RuleMessage) : RuleField → Text
  | .QOS => decimal msg.qos.val
  | .ID => quoted (decimal msg.packetId.val)
  | .TOPIC => quoted msg.topic
  | .CLIENTID => quoted (msg.clientid.getD calls.nullText)
  | .USERNAME => quoted (msg.username.getD calls.nullText)
  | .PASSWORD => quoted (msg.password.getD calls.nullText)
  | .TIMESTAMP => decimal msg.time
  | .PAYLOAD_ALL => quoted (msg.payload.getD calls.nullText)
  | .PAYLOAD_FIELD => []

/-- The table that the rule writes to. -/
def Rule.table (rule : Rule) : Option Text :=
  match rule.forwordType with
  | .MYSOL => rule.mysql.bind fun mysql => mysql.texts .table
  | _ => rule.sqliteTable

/-- The statement that adds a column, in a buffer of 128 bytes. -/
def alterTable (calls : OutputCalls) (rule : Rule) (isNeedSet : Bool) (pas type : Text) : Text :=
  if isNeedSet && (rule.forwordType = .SQLITE || rule.forwordType = .MYSOL) then
    (lit "ALTER TABLE " ++ cstr (rule.table.getD calls.nullText) ++ lit " ADD " ++ cstr pas ++ type
      ++ lit ";\n").take 127
  else []

/-- The separator stands in front of the value here, except at the start of the list. -/
def SqlClause.addColumn (clause : SqlClause) (pas literal alter : Text) : SqlClause :=
  {
    key := clause.key ++ cstr pas ++ lit ", "
    value :=
      clause.value
        ++ (if clause.value.length > (lit "VALUES (").length then lit ", " else lit " ")
        ++ literal
    ret := clause.ret ++ alter
  }

def composeStored (calls : OutputCalls) (rule : Rule) (isNeedSet : Bool) (clause : SqlClause)
    (entry : RulePayload)
    : Option SqlClause :=
  if entry.isStore then
    match entry.pas with
    | none => some clause
    | some pas =>
        let int := alterTable calls rule isNeedSet pas (lit " INT")
        let text := alterTable calls rule isNeedSet pas (lit " TEXT")
        match entry.stored with
        | .nothing => some clause
        | .number value => some (clause.addColumn pas (decimal value) int)
        | .string str => some (clause.addColumn pas (quoted str) text)
        | .object json => some (clause.addColumn pas (quoted (calls.print json)) text)
        | .released => none
  else some clause

def composeSqlClause (calls : OutputCalls) (rule : Rule) (msg : RuleMessage) (isNeedSet : Bool)
    (clause : SqlClause) (field : RuleField)
    : Option SqlClause :=
  if rule.flag field then
    match field with
    | .PAYLOAD_FIELD =>
        (rule.payload.foldlM (composeStored calls rule isNeedSet) clause).map fun clause =>
          { clause with value := clause.value ++ lit ", " }
    | field =>
        some
          { clause with
            key := clause.key ++ cstr ((rule.asName field).getD (sqlName field)) ++ lit ", "
            value := clause.value ++ sqlValue calls msg field ++ lit ", "
          }
  else some clause

-- rule_engine_insert_sql

/-- `*strrchr(text, ',') = ')'`; without a comma there is no such place. -/
def closeLast : Text → Option Text
  | [] => none
  | byte :: rest =>
      match closeLast rest with
      | some closed => some (byte :: closed)
      | none => if byte = 44 then some (41 :: rest) else none

/-- The clause in front of the first field. -/
def openClause (calls : OutputCalls) (rule : Rule) : SqlClause :=
  {
    key := cstr (rule.table.getD calls.nullText) ++ lit " ("
    value := lit "VALUES ("
    ret := []
  }

/-- The clause with all its fields. -/
def composeClause (calls : OutputCalls) (rule : Rule) (msg : RuleMessage) (isNeedSet : Bool)
    : Option SqlClause :=
  ruleFields.foldlM (composeSqlClause calls rule msg isNeedSet) (openClause calls rule)

/-- The sizes of the buffers `key`, `value`, `ret_key` and `sql_clause`, with the terminators. -/
def SqlClause.Fits (clause : SqlClause) : Prop :=
  clause.key.length < 128
  ∧ clause.value.length < 800
  ∧ clause.ret.length < 512
  ∧ (lit "INSERT INTO ").length + clause.key.length + clause.value.length + 1 < 1024

instance (clause : SqlClause) : Decidable clause.Fits :=
  inferInstanceAs (Decidable (_ ∧ _ ∧ _ ∧ _))

/-- The statement for a table; none where a text is too long or there is no comma. -/
def insertStatement (calls : OutputCalls) (rule : Rule) (msg : RuleMessage) (isNeedSet : Bool)
    : Option Text :=
  (composeClause calls rule msg isNeedSet).bind fun clause =>
    if clause.Fits then
      (closeLast clause.key).bind fun key =>
        (closeLast clause.value).map fun value =>
          lit "INSERT INTO " ++ key ++ value ++ lit ";"
    else none

/-- The members of the object for another topic. -/
def composeJson (calls : OutputCalls) (rule : Rule) (msg : RuleMessage)
    : Option (List (Text × CJson)) :=
  ruleFields.foldlM (addInfoToJson calls rule msg) []

/-- An object that was added to the output is deleted with it. -/
def RulePayload.release (entry : RulePayload) : RulePayload :=
  match entry.isStore, entry.pas, entry.stored with
  | true, some _, .object _ => { entry with stored := .released }
  | _, _, _ => entry

def Rule.release (rule : Rule) : Rule :=
  if rule.flag .PAYLOAD_FIELD then { rule with payload := rule.payload.map RulePayload.release }
  else rule

inductive RuleOutput where
  | nothing
  | published (members : List (Text × CJson))
  | inserted (statement : Text)

/-- The output of a rule that fires, and the rule afterwards. -/
def forwardMessage (calls : OutputCalls) (option : EngineOption) (isNeedSet : Bool) (rule : Rule)
    (msg : RuleMessage)
    : Option (RuleOutput × Rule) :=
  match rule.forwordType with
  | .REPUB =>
      if option.rpb then
        (composeJson calls rule msg).map fun members => (.published members, rule.release)
      else some (.nothing, rule)
  | .SQLITE =>
      if option.sdb then
        (insertStatement calls rule msg isNeedSet).map fun statement => (.inserted statement, rule)
      else some (.nothing, rule)
  | .MYSOL =>
      if option.mdb then
        (insertStatement calls rule msg isNeedSet).map fun statement => (.inserted statement, rule)
      else some (.nothing, rule)
  | .FDB => some (.nothing, rule)

/-- The part of `rule_engine_insert_sql` for one rule. -/
def handleRule (calls : OutputCalls) (option : EngineOption) (isNeedSet : Bool) (rule : Rule)
    (msg : RuleMessage)
    : Option (RuleOutput × Rule) :=
  if rule.enabled then
    (ruleEngineFilter calls.toRuleCalls rule msg).bind fun (fires, rule) =>
      if fires then forwardMessage calls option isNeedSet rule msg else some (.nothing, rule)
  else some (.nothing, rule)

end NanoMQ.Rules
