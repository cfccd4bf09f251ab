import NanoMQ.Rest.RuleParams

/-! Updates of a rule over the REST interface. `put_rules` edits the rule where it stands, or
appends a new one and erases the old one. In the second case `new_rule` is left pointing to the
place behind the end of the vector, where a copy of the last rule remains.
-/

namespace NanoMQ.Rest

open Rules

-- put_rules

/-- The loop for the rule of an id: the rules before it, the rule and those after it. -/
def findRule (id : Nat) : List Rule → Option (List Rule × Rule × List Rule)
  | [] => none
  | rule :: rest =>
      if rule.ruleId = id then some ([], rule, rest)
      else (findRule id rest).map fun (before, found, after) => (rule :: before, found, after)

/-- What the handler writes to: `*new_rule`, the last rule of the vector and the option bits.
There is no other last rule where `new_rule` points to it. While the last rule mirrors
`*new_rule` it is a copy of an earlier state, with pointers to the same targets.
-/
structure RuleEdit where
  new : Rule
  last : Option Rule
  mirrors : Bool
  option : EngineOption

namespace RuleEdit

def setType (type : ForwordType) (edit : RuleEdit) : RuleEdit :=
  { edit with new := { edit.new with forwordType := type } }

/-- `new_rule->enabled`, where the member is given. -/
def setEnabled (given : Option CJson) (edit : RuleEdit) : RuleEdit :=
  match given with
  | some json => { edit with new := { edit.new with enabled := json.isTrue } }
  | none => edit

/-- Write to what `new_rule` points to; this is seen in a copy as well. -/
def write (onNew onCopy : Rule → Rule) (edit : RuleEdit) : RuleEdit :=
  {
    edit with
    new := onNew edit.new
    last := if edit.mirrors then edit.last.map onCopy else edit.last
  }

/-- Write to the broker of the rule; a copy with a broker points to the same. -/
def storeRepub (repub : Repub) : RuleEdit → RuleEdit :=
  write (fun new => { new with repub := some repub })
    fun copy => { copy with repub := copy.repub.map fun _ => repub }

/-- Write to the server of the rule; a copy with a server points to the same. -/
def storeMysql (mysql : RuleMysql) : RuleEdit → RuleEdit :=
  write (fun new => { new with mysql := some mysql })
    fun copy => { copy with mysql := copy.mysql.map fun _ => mysql }

/-- Set the table and assign `*new_rule` to the last rule. -/
def copyTable (id : Nat) (table : Text) (edit : RuleEdit) : RuleEdit :=
  let new := { edit.new with sqliteTable := some table, ruleId := id }
  { edit with new, last := edit.last.map fun _ => new, mirrors := true }

/-- A parameter of a `sqlite` action. -/
def setSqliteParam (id : Nat) (name : Text) (value : CJson) (edit : RuleEdit)
    : Option RuleEdit :=
  if sameName name (lit "table") then
    value.valuestring.map fun table => edit.copyTable id table
  else some edit

section Act

variable (lib : RuleLibrary)

/-- One action. -/
def act (id : Nat) (action : RuleAction) (edit : RuleEdit) : Option RuleEdit :=
  match action with
  | .repub params =>
      let edit := { edit with option := { edit.option with rpb := true } }
      (eachParam setRepubParam params (edit.new.repub.getD lib.repubInit)).map fun repub =>
        (edit.setType .REPUB).storeRepub repub
  | .sqlite params => eachParam (setSqliteParam id) params (edit.setType .SQLITE)
  | .mysql params =>
      (eachParam setMysqlParam params (edit.new.mysql.getD lib.mysqlInit)).map fun mysql =>
        (edit.setType .MYSOL).storeMysql mysql
  | .unsupported => some edit

/-- The loop over the actions. -/
def actAll (id : Nat) : List (Option Text × CJson) → RuleEdit → Option RuleEdit
  | [], edit => some edit
  | child :: rest, edit => do
      let action ← readAction child.2
      let next ← edit.act lib id action
      next.actAll id rest

/-- Open a client for an enabled rule. The database of SQLite is opened without a change to the
rules.
-/
def connect (edit : RuleEdit) : Option RuleEdit :=
  if edit.new.enabled ∧ edit.new.forwordType = .REPUB then
    edit.new.repub.map fun repub =>
      edit.storeRepub { repub with sock := some (lib.nanoClient repub) }
  else some edit

/-- The clients are opened for a member of the body. -/
def connectWhen (given : Bool) (edit : RuleEdit) : Option RuleEdit :=
  if given then edit.connect lib else some edit

end Act

end RuleEdit

section Put

variable (lib : RuleLibrary)

-- The rule that `rule_sql_parse` appends for a statement; it appends exactly one.
variable (sqlParse : Text → Rule)

/-- The rule that takes the place of an old one, with the old target. -/
def replacement (old : Rule) (rawsql : Text) : Rule :=
  let parsed := sqlParse rawsql
  {
    parsed with
    rawSql := some rawsql
    enabled := true
    ruleId := old.ruleId
    forwordType := old.forwordType
    repub := if old.forwordType = .REPUB then old.repub else parsed.repub
    sqliteTable := if old.forwordType = .SQLITE then old.sqliteTable else parsed.sqliteTable
    mysql := if old.forwordType = .MYSOL then old.mysql else parsed.mysql
  }

/-- The first part of the handler, for a body with or without a statement. Without one the socket
of the rule is closed.
-/
def startEdit (option : EngineOption) (body : CJson) (old : Rule) (after : List Rule)
    : Option RuleEdit :=
  match body.getObjectItem (lit "rawsql") with
  | some sql =>
      sql.valuestring.map fun rawsql =>
        let new := replacement sqlParse old rawsql
        { new, last := some new, mirrors := true, option }
  | none =>
      if old.repub.any fun repub => repub.sock.isNone then none
      else some { new := old, last := after.getLast?, mirrors := false, option }

/-- The rest of the handler, up to the answer. -/
def finishEdit (body : CJson) (id : Nat) (edit : RuleEdit) : Option RuleEdit := do
  let enabled := body.getObjectItem (lit "enabled")
  let actions := body.getObjectItem (lit "actions")
  let acted ← (edit.setEnabled enabled).actAll lib id (CJson.children actions)
  let connected ← acted.connectWhen lib actions.isSome
  connected.connectWhen lib enabled.isSome

/-- The vector afterwards. A new rule follows all others; without a statement the rule stays, and
the last rule is what has become of it.
-/
def editedRules (body : CJson) (before after : List Rule) (edit : RuleEdit) : List Rule :=
  if (body.getObjectItem (lit "rawsql")).isSome then before ++ after ++ edit.last.toList
  else before ++ edit.new :: (after.dropLast ++ edit.last.toList)

/-- `put_rules` for the id that the path holds; none where it follows a NULL pointer. -/
def putRules (cr : ConfRule) (req : Option CJson) (id : Nat)
    : Option (RuleAnswer × ConfRule) :=
  match req with
  | some (.object members) =>
      match findRule id cr.rules with
      | none => some (.badRequest .REQ_PARAM_ERROR, cr)
      | some (before, old, after) => do
          let body := CJson.object members
          let started ← startEdit sqlParse cr.option body old after
          let edit ← finishEdit lib body id started
          return (.succeed (ruleInfo edit.new),
            { option := edit.option, rules := editedRules body before after edit })
  | _ => some (.badRequest .REQ_PARAMS_JSON_FORMAT_ILLEGAL, cr)

end Put

/-- `get_rules` for an id. -/
def getRules (cr : ConfRule) (id : Nat) : RuleAnswer :=
  match findRule id cr.rules with
  | none => .badRequest .MISSING_KEY_REQUEST_PARAMES
  | some (_, rule, _) => .succeed (ruleInfo rule)

end NanoMQ.Rest
