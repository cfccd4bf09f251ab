import NanoMQ.Rest.RuleUpdates

/-! The creation of rules over the REST interface. `post_rules` applies the actions of a body one
after the other; a request that is refused at one of them has already applied those before it.
-/

namespace NanoMQ.Rest

open Rules

-- post_rules

/-- The bits of `option` that actions set. -/
inductive EngineBit where
  | SDB
  | MDB
  | RPB
  deriving DecidableEq

def setBit (bit : EngineBit) (option : EngineOption) : EngineOption :=
  match bit with
  | .SDB => { option with sdb := true }
  | .MDB => { option with mdb := true }
  | .RPB => { option with rpb := true }

/-- What the handler changes, and how many ids were generated for it. -/
structure PostState where
  option : EngineOption
  rules : List Rule
  generated : Nat

/-- The state after an action, and whether the request was refused there. -/
structure Posted where
  refused : Bool
  state : PostState

/-- The calls of `post_rules` into other libraries. -/
structure PostLibrary extends RuleLibrary where
  /-- The rule that `rule_sql_parse` appends, if any. -/
  sqlParse : Option Text → Option Rule
  /-- The ids that `rule_generate_rule_id` gives in the request, in turn. -/
  ruleId : Nat → Nat
  /-- `rule_mysql_check`. -/
  mysqlCheck : RuleMysql → Bool
  /-- `nanomq_client_mysql` does not return -1. -/
  clientMysql : RuleMysql → Bool

section Post

variable (lib : PostLibrary) (rawsql : Option Text)

/-- Parse the statement and write to the last rule of the vector. An empty vector has none, and
the statement is duplicated.
-/
def writeRule (set : Rule → Rule) (state : PostState) : Option PostState := do
  let rules := state.rules ++ (lib.sqlParse rawsql).toList
  let last ← rules.getLast?
  let sql ← rawsql
  let written :=
    { set last with rawSql := some sql, enabled := true, ruleId := lib.ruleId state.generated }
  return { state with rules := rules.dropLast ++ [written], generated := state.generated + 1 }

def PostState.mark (bit : EngineBit) (state : PostState) : PostState :=
  { state with option := setBit bit state.option }

/-- A parameter of a `sqlite` action: each table makes a rule. -/
def postSqliteParam (name : Text) (value : CJson) (state : PostState) : Option PostState :=
  if sameName name (lit "table") then
    value.valuestring.bind fun table =>
      writeRule lib rawsql
        (fun rule => { rule with forwordType := .SQLITE, sqliteTable := some table }) state
  else some state

/-- An address and a topic are given. -/
def repubComplete (repub : Repub) : Bool :=
  (repub.texts .address).isSome && (repub.texts .topic).isSome

def postRepub (repub : Repub) (state : PostState) : Option Posted :=
  if repubComplete repub then
    let connected := { repub with sock := some (lib.nanoClient repub) }
    (writeRule lib rawsql
      (fun rule => { rule with forwordType := .REPUB, repub := some connected }) state).map
      fun state => { refused := false, state }
  else some { refused := true, state }

/-- A rule whose server cannot be reached is taken back. -/
def postMysql (mysql : RuleMysql) (state : PostState) : Option Posted :=
  if lib.mysqlCheck mysql then
    (writeRule lib rawsql
      (fun rule => { rule with forwordType := .MYSOL, mysql := some mysql }) state).map
      fun state =>
        if lib.clientMysql mysql then { refused := false, state }
        else { refused := true, state := { state with rules := state.rules.dropLast } }
  else some { refused := true, state }

/-- One action; the option bit is set first. -/
def postAction (action : RuleAction) (state : PostState) : Option Posted :=
  match action with
  | .repub params =>
      (eachParam setRepubParam params lib.repubInit).bind fun repub =>
        postRepub lib rawsql repub (state.mark .RPB)
  | .sqlite params =>
      (eachParam (postSqliteParam lib rawsql) params (state.mark .SDB)).map fun state =>
        { refused := false, state }
  | .mysql params =>
      (eachParam setMysqlParam params lib.mysqlInit).bind fun mysql =>
        postMysql lib rawsql mysql (state.mark .MDB)
  | .unsupported => some { refused := false, state }

/-- The loop over the actions. -/
def postAll : List (Option Text × CJson) → PostState → Option Posted
  | [], state => some { refused := false, state }
  | child :: rest, state => do
      let action ← readAction child.2
      let posted ← postAction lib rawsql action state
      if posted.refused then some posted else postAll rest posted.state

end Post

/-- The answer, which describes the last rule of the vector. -/
def answerPosted (posted : Posted) : Option (RuleAnswer × ConfRule) :=
  let cr := { option := posted.state.option, rules := posted.state.rules }
  if posted.refused then some (.badRequest .MISSING_KEY_REQUEST_PARAMES, cr)
  else posted.state.rules.getLast?.map fun last => (.succeed (ruleInfo last), cr)

/-- `post_rules`; none where it follows a NULL pointer or indexes an empty vector. -/
def postRules (lib : PostLibrary) (cr : ConfRule) (req : Option CJson)
    : Option (RuleAnswer × ConfRule) :=
  match req with
  | some (.object members) =>
      let body := CJson.object members
      let rawsql := body.getStringValue (lit "rawsql")
      let children := CJson.children (body.getObjectItem (lit "actions"))
      (postAll lib rawsql children
        { option := cr.option, rules := cr.rules, generated := 0 }).bind answerPosted
  | _ => some (.badRequest .REQ_PARAMS_JSON_FORMAT_ILLEGAL, cr)

end NanoMQ.Rest
