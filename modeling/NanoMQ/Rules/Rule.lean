import NanoMQ.Rest.CJson

/-! The rules of the rule engine. A rule owns the targets that it points to, so these are part
of its value.
-/

namespace NanoMQ.Rules

open Rest

/-- `rule_forword_type`. -/
inductive ForwordType where
  | SQLITE
  | FDB
  | MYSOL
  | REPUB
  deriving DecidableEq

/-- `rule_cmp_type`. -/
inductive CmpType where
  | EQUAL
  | UNEQUAL
  | GREATER
  | LESS
  | GREATER_AND_EQUAL
  | LESS_AND_EQUAL
  deriving DecidableEq

/-- The fields of a message that a rule can select or compare, in the order of their numbers. -/
inductive RuleField where
  | QOS
  | ID
  | TOPIC
  | CLIENTID
  | USERNAME
  | PASSWORD
  | TIMESTAMP
  | PAYLOAD_ALL
  | PAYLOAD_FIELD
  deriving DecidableEq

/-- The members `value` and `type` of a payload field. Nothing is stored at first; an object that
went into a message was released with it.
-/
inductive Stored where
  | nothing
  | number (value : Int)
  | string (text : Text)
  | object (json : CJson)
  | released

/-- `rule_payload`: the keys of a path into the payload, the name in the output and the text to
compare with.
-/
structure RulePayload where
  psa : List Text
  pas : Option Text
  filter : Option Text
  cmpType : CmpType
  isStore : Bool
  stored : Stored

/-- The texts of a `repub_t`. -/
inductive RepubText where
  | topic
  | address
  | clientid
  | username
  | password
  deriving DecidableEq

/-- `repub_t`; its socket is NULL until `nano_client` has opened one. -/
structure Repub where
  texts : RepubText → Option Text
  protoVer : Int
  keepalive : Int
  cleanStart : Bool
  sock : Option Nat

/-- The texts of a `rule_mysql`. -/
inductive MysqlText where
  | table
  | username
  | password
  | host
  deriving DecidableEq

structure RuleMysql where
  texts : MysqlText → Option Text

/-- A rule: what its statement selects and asks for, and where it forwards to. -/
structure Rule where
  topic : Text
  flag : RuleField → Bool
  asName : RuleField → Option Text
  filter : Option (RuleField → Option Text)
  cmpType : RuleField → CmpType
  payload : List RulePayload
  rawSql : Option Text
  enabled : Bool
  ruleId : Nat
  forwordType : ForwordType
  repub : Option Repub
  sqliteTable : Option Text
  mysql : Option RuleMysql

/-- A rule that forwards to a broker or a MySQL server has the target. -/
structure Rule.HasTarget (rule : Rule) : Prop where
  repub : rule.forwordType = .REPUB → rule.repub.isSome
  mysql : rule.forwordType = .MYSOL → rule.mysql.isSome

theorem Rule.HasTarget.of_sqlite {rule : Rule} (sqlite : rule.forwordType = .SQLITE)
    : rule.HasTarget := by
  constructor
  · intro other
    rw [sqlite] at other
    cases other
  · intro other
    rw [sqlite] at other
    cases other

/-- The bits of `option`. -/
structure EngineOption where
  sdb : Bool
  fdb : Bool
  mdb : Bool
  rpb : Bool
  deriving DecidableEq

/-- `conf_rule`. -/
structure ConfRule where
  option : EngineOption
  rules : List Rule

end NanoMQ.Rules
