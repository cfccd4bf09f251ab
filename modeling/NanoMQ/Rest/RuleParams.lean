import NanoMQ.Rules.Rule

/-! What the requests of `/rules` have in common: the actions of a body and the parameters of an
action. A handler that follows a NULL pointer gives none.
-/

namespace NanoMQ.Rest

open Rules

namespace CJson

/-- `valuestring`, NULL for anything but a string. -/
def valuestring : CJson → Option Text
  | .string text => some text
  | _ => none

/-- `valueint`, which is 1 for `true`. -/
def valueint : CJson → Int
  | .number valuedouble => valuedouble.valueint
  | .bool true => 1
  | _ => 0

def isTrue : CJson → Bool
  | .bool value => value
  | _ => false

end CJson

/-- `nng_strcasecmp` finds no difference. -/
def sameName (left right : Text) : Bool :=
  left.map CJson.lowerByte == right.map CJson.lowerByte

-- Parameters

/-- The loop over the parameters of an action; the elements of an array have no name. -/
def eachParam {σ : Type} (set : Text → CJson → σ → Option σ)
    : List (Option Text × CJson) → σ → Option σ
  | [], target => some target
  | (name, value) :: rest, target => do
      let name ← name
      let target ← set name value target
      eachParam set rest target

/-- The last parameter of this name, if it is a text. -/
def lastGiven (key : Text) : List (Option Text × CJson) → Option Text
  | [] => none
  | (name, value) :: rest =>
      (lastGiven key rest).or
        (if name.any (sameName · key) then value.valuestring else none)

/-- The last parameter of this name. -/
def lastParam (key : Text) : List (Option Text × CJson) → Option CJson
  | [] => none
  | (name, value) :: rest =>
      (lastParam key rest).or (if name.any (sameName · key) then some value else none)

/-- A parameter says `true`, as a boolean or as a text. -/
def CJson.saysTrue (value : CJson) : Bool :=
  value.isTrue || value.valuestring.any (sameName · (lit "true"))

/-- A parameter with one of these names is a text. -/
def TextReadable (keys : List Text) (name : Text) (value : CJson) : Prop :=
  (∃ key ∈ keys, sameName name key) → value.valuestring.isSome

/-- The parameters have names, and those with one of these names are texts. -/
def ParamsReadable (keys : List Text) (params : List (Option Text × CJson)) : Prop :=
  ∀ param ∈ params, ∃ name, param.1 = some name ∧ TextReadable keys name param.2

section Params

variable {σ : Type} {set : Text → CJson → σ → Option σ}

/-- A target is set as long as the texts are texts. By induction on the parameters. -/
theorem eachParam_isSome_iff {keys : List Text}
    (sets
      : ∀ name value target, (set name value target).isSome ↔ TextReadable keys name value)
    (params : List (Option Text × CJson)) (target : σ)
    : (eachParam set params target).isSome ↔ ParamsReadable keys params := by
  induction params generalizing target with
  | nil => simp [eachParam, ParamsReadable]
  | cons param rest ih =>
      obtain ⟨name, value⟩ := param
      cases name with
      | none => simp [eachParam, ParamsReadable]
      | some name =>
          have first := sets name value target
          unfold ParamsReadable at ih ⊢
          rw [List.forall_mem_cons]
          cases isSet : set name value target with
          | none =>
              rw [isSet] at first
              simp [eachParam, isSet, ← first]
          | some next =>
              rw [isSet] at first
              simp [eachParam, isSet, ← first, ih next]

/-- A text of the target is the last one given, or else what it was. By induction on the
parameters.
-/
theorem eachParam_text {view : σ → Option Text} {key : Text}
    (sets
      : ∀ {name value target next},
          set name value target = some next
          → view next
            = (if sameName name key then value.valuestring else none).or (view target))
    {params : List (Option Text × CJson)} {target next : σ}
    (isSet : eachParam set params target = some next)
    : view next = (lastGiven key params).or (view target) := by
  induction params generalizing target with
  | nil =>
      obtain rfl := Option.some.inj isSet
      rfl
  | cons param rest ih =>
      obtain ⟨name, value⟩ := param
      obtain ⟨name, rfl, isSet⟩ := Option.bind_eq_some_iff.mp isSet
      obtain ⟨between, first, later⟩ := Option.bind_eq_some_iff.mp isSet
      rw [ih later, sets first, lastGiven, Option.or_assoc]
      rfl

/-- A member of the target is what the last parameter of its name says, or else what it was. By
induction on the parameters.
-/
theorem eachParam_member {Value : Type} {view : σ → Value} {key : Text} {read : CJson → Value}
    (sets
      : ∀ {name value target next},
          set name value target = some next
          → view next = if sameName name key then read value else view target)
    {params : List (Option Text × CJson)} {target next : σ}
    (isSet : eachParam set params target = some next)
    : view next = (lastParam key params).elim (view target) read := by
  induction params generalizing target with
  | nil =>
      obtain rfl := Option.some.inj isSet
      rfl
  | cons param rest ih =>
      obtain ⟨name, value⟩ := param
      obtain ⟨name, rfl, isSet⟩ := Option.bind_eq_some_iff.mp isSet
      obtain ⟨between, first, later⟩ := Option.bind_eq_some_iff.mp isSet
      rw [ih later, sets first, lastParam]
      cases lastParam key rest with
      | some other => rfl
      | none =>
          by_cases same : sameName name key
          · simp [same]
          · simp [same]

end Params

-- Texts of a target

/-- The names under which the texts of a target are given. -/
structure TextKeys (Key : Type) where
  word : Key → Text
  all : List Key
  complete : ∀ key, key ∈ all
  distinct : ∀ {left right}, sameName (word left) (word right) → left = right

namespace TextKeys

variable {Key : Type} (keys : TextKeys Key)

def words : List Text :=
  keys.all.map keys.word

/-- The text that a parameter of this name sets. -/
def named (name : Text) : Option Key :=
  keys.all.find? fun key => sameName name (keys.word key)

theorem named_eq_none_iff {name : Text}
    : keys.named name = none ↔ ∀ key, ¬sameName name (keys.word key) := by
  simp [named, keys.complete]

theorem named_eq_some_iff {name : Text} {key : Key}
    : keys.named name = some key ↔ sameName name (keys.word key) := by
  constructor
  · intro found
    have same := List.find?_some found
    exact same
  · intro same
    cases found : keys.named name with
    | none => exact absurd same (keys.named_eq_none_iff.mp found key)
    | some other =>
        have otherSame := List.find?_some found
        simp only [sameName, beq_iff_eq] at same otherSame
        have words : sameName (keys.word other) (keys.word key) := by
          simp only [sameName, beq_iff_eq]
          exact otherSame.symm.trans same
        rw [keys.distinct words]

/-- Set the text of this name; anything else is left to the target. -/
def setText [DecidableEq Key] (name : Text) (value : CJson) (texts : Key → Option Text)
    : Option (Key → Option Text) :=
  match keys.named name with
  | some key => value.valuestring.map fun text => Function.update texts key (some text)
  | none => some texts

variable [DecidableEq Key] {name : Text} {value : CJson}

theorem setText_isSome_iff {texts : Key → Option Text}
    : (keys.setText name value texts).isSome ↔ TextReadable keys.words name value := by
  unfold setText TextReadable
  cases found : keys.named name with
  | none =>
      have nowhere := keys.named_eq_none_iff.mp found
      simp [words, nowhere]
  | some key =>
      have same := keys.named_eq_some_iff.mp found
      have given : ∃ word ∈ keys.words, sameName name word :=
        ⟨keys.word key, List.mem_map_of_mem (keys.complete key), same⟩
      simp [given]

theorem setText_text {texts next : Key → Option Text}
    (isSet : keys.setText name value texts = some next) (key : Key)
    : next key
      = (if sameName name (keys.word key) then value.valuestring else none).or (texts key) := by
  unfold setText at isSet
  split at isSet
  · rename_i other found
    obtain ⟨text, isText, rfl⟩ := Option.map_eq_some_iff.mp isSet
    by_cases same : other = key
    · subst same
      rw [if_pos (keys.named_eq_some_iff.mp found), isText, Function.update_self]
      rfl
    · have unnamed : ¬sameName name (keys.word key) := by
        intro named
        rw [keys.named_eq_some_iff.mpr named] at found
        exact same (Option.some.inj found).symm
      rw [if_neg unnamed, Function.update_of_ne (Ne.symm same)]
      rfl
  · rename_i found
    obtain rfl := Option.some.inj isSet
    rw [if_neg (keys.named_eq_none_iff.mp found key)]
    rfl

end TextKeys

def repubWord : RepubText → Text
  | .topic => lit "topic"
  | .address => lit "address"
  | .clientid => lit "clientid"
  | .username => lit "username"
  | .password => lit "password"

theorem repubWord_complete (key : RepubText)
    : key ∈ [RepubText.topic, .address, .clientid, .username, .password] := by
  cases key <;> decide

theorem repubWord_distinct {left right : RepubText}
    (same : sameName (repubWord left) (repubWord right))
    : left = right := by
  revert same
  cases left <;> cases right <;> decide

def repubKeys : TextKeys RepubText :=
  {
    word := repubWord
    all := [.topic, .address, .clientid, .username, .password]
    complete := repubWord_complete
    distinct := repubWord_distinct
  }

/-- A parameter of a `repub` action. `clean_start` compares its own name with `true`. -/
def setRepubParam (name : Text) (value : CJson) (repub : Repub) : Option Repub :=
  (repubKeys.setText name value repub.texts).map fun texts =>
    {
      repub with
      texts
      protoVer := if sameName name (lit "proto_ver") then value.valueint else repub.protoVer
      keepalive := if sameName name (lit "keepalive") then value.valueint else repub.keepalive
      cleanStart :=
        if sameName name (lit "clean_start") then sameName name (lit "true")
        else repub.cleanStart
    }

def mysqlWord : MysqlText → Text
  | .table => lit "table"
  | .username => lit "username"
  | .password => lit "password"
  | .host => lit "host"

theorem mysqlWord_complete (key : MysqlText)
    : key ∈ [MysqlText.table, .username, .password, .host] := by
  cases key <;> decide

theorem mysqlWord_distinct {left right : MysqlText}
    (same : sameName (mysqlWord left) (mysqlWord right))
    : left = right := by
  revert same
  cases left <;> cases right <;> decide

def mysqlKeys : TextKeys MysqlText :=
  {
    word := mysqlWord
    all := [.table, .username, .password, .host]
    complete := mysqlWord_complete
    distinct := mysqlWord_distinct
  }

/-- A parameter of a `mysql` action. -/
def setMysqlParam (name : Text) (value : CJson) (mysql : RuleMysql) : Option RuleMysql :=
  (mysqlKeys.setText name value mysql.texts).map fun texts => { texts }

section Targets

variable {name : Text} {value : CJson} {params : List (Option Text × CJson)}

theorem setRepubParam_isSome_iff {repub : Repub}
    : (setRepubParam name value repub).isSome ↔ TextReadable repubKeys.words name value := by
  rw [← repubKeys.setText_isSome_iff, setRepubParam, Option.isSome_map]

theorem setMysqlParam_isSome_iff {mysql : RuleMysql}
    : (setMysqlParam name value mysql).isSome ↔ TextReadable mysqlKeys.words name value := by
  rw [← mysqlKeys.setText_isSome_iff, setMysqlParam, Option.isSome_map]

theorem eachParam_repub_text {repub next : Repub}
    (isSet : eachParam setRepubParam params repub = some next) (key : RepubText)
    : next.texts key = (lastGiven (repubWord key) params).or (repub.texts key) := by
  have sets {name : Text} {value : CJson} {target next : Repub}
      (isSet : setRepubParam name value target = some next)
      : next.texts key
        = (if sameName name (repubWord key) then value.valuestring else none).or
            (target.texts key) := by
    obtain ⟨texts, isTexts, rfl⟩ := Option.map_eq_some_iff.mp isSet
    exact repubKeys.setText_text isTexts key
  exact @eachParam_text Repub setRepubParam (fun repub => repub.texts key) (repubWord key) sets
    params repub next isSet

/-- The numbers are the last ones given, and a clean start that is given at all is off: no name
is both `clean_start` and `true`.
-/
theorem eachParam_repub_rest {repub next : Repub}
    (isSet : eachParam setRepubParam params repub = some next)
    : next.protoVer
        = (lastParam (lit "proto_ver") params).elim repub.protoVer CJson.valueint
      ∧ next.keepalive
        = (lastParam (lit "keepalive") params).elim repub.keepalive CJson.valueint
      ∧ next.cleanStart
        = (lastParam (lit "clean_start") params).elim repub.cleanStart fun _ => false := by
  refine ⟨?_, ?_, ?_⟩
  · refine eachParam_member ?_ isSet
    intro name value target next isSet
    obtain ⟨_, _, rfl⟩ := Option.map_eq_some_iff.mp isSet
    rfl
  · refine eachParam_member ?_ isSet
    intro name value target next isSet
    obtain ⟨_, _, rfl⟩ := Option.map_eq_some_iff.mp isSet
    rfl
  · refine eachParam_member ?_ isSet
    intro name value target next isSet
    obtain ⟨_, _, rfl⟩ := Option.map_eq_some_iff.mp isSet
    by_cases same : sameName name (lit "clean_start")
    · have lowered
          : ¬(lit "clean_start").map CJson.lowerByte = (lit "true").map CJson.lowerByte := by
        decide
      simp only [sameName, beq_iff_eq] at same
      simp [sameName, same, lowered]
    · simp [same]

theorem eachParam_mysql_text {mysql next : RuleMysql}
    (isSet : eachParam setMysqlParam params mysql = some next) (key : MysqlText)
    : next.texts key = (lastGiven (mysqlWord key) params).or (mysql.texts key) := by
  have sets {name : Text} {value : CJson} {target next : RuleMysql}
      (isSet : setMysqlParam name value target = some next)
      : next.texts key
        = (if sameName name (mysqlWord key) then value.valuestring else none).or
            (target.texts key) := by
    obtain ⟨texts, isTexts, rfl⟩ := Option.map_eq_some_iff.mp isSet
    exact mysqlKeys.setText_text isTexts key
  exact @eachParam_text RuleMysql setMysqlParam (fun mysql => mysql.texts key) (mysqlWord key) sets
    params mysql next isSet

end Targets

-- Actions

/-- An action of a body with its parameters. -/
inductive RuleAction where
  | repub (params : List (Option Text × CJson))
  | sqlite (params : List (Option Text × CJson))
  | mysql (params : List (Option Text × CJson))
  | unsupported

/-- The action of an element of `actions`; it needs a name that is a text. -/
def readAction (json : CJson) : Option RuleAction := do
  let name ← json.getStringValue (lit "name")
  let params := CJson.children (json.getObjectItem (lit "params"))
  if sameName name (lit "repub") then return .repub params
  else if sameName name (lit "sqlite") then return .sqlite params
  else if sameName name (lit "mysql") then return .mysql params
  else return .unsupported

/-- No NULL pointer is followed for the parameters of an action. -/
def RuleAction.Readable : RuleAction → Prop
  | .repub params => ParamsReadable repubKeys.words params
  | .sqlite params => ParamsReadable [lit "table"] params
  | .mysql params => ParamsReadable mysqlKeys.words params
  | .unsupported => True

/-- The calls of the handlers into other libraries. -/
structure RuleLibrary where
  /-- `rule_repub_init`. -/
  repubInit : Repub
  /-- `rule_mysql_init`. -/
  mysqlInit : RuleMysql
  /-- The socket that `nano_client` opens and stores in the target. -/
  nanoClient : Repub → Nat

/-- The members of an answer that describe a rule. -/
structure RuleInfo where
  rawsql : Option Text
  id : Nat
  enabled : Bool
  deriving DecidableEq

def ruleInfo (rule : Rule) : RuleInfo :=
  { rawsql := rule.rawSql, id := rule.ruleId, enabled := rule.enabled }

inductive RuleError where
  | REQ_PARAMS_JSON_FORMAT_ILLEGAL
  | REQ_PARAM_ERROR
  | MISSING_KEY_REQUEST_PARAMES
  deriving DecidableEq

/-- An answer: status 400 with a code, or the code 0 with a rule. -/
inductive RuleAnswer where
  | badRequest (code : RuleError)
  | succeed (data : RuleInfo)
  deriving DecidableEq

end NanoMQ.Rest
