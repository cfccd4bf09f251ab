import NanoMQ.Rules.History

/-! The loop of `rule_engine_insert_sql` over all rules, call after call. Two static variables and
two local ones decide when columns are added to a table, and they are shared by all rules that
write to the same kind of database. FDB is taken as not supported.
-/

namespace NanoMQ.Rules

open Bytes Rest

-- One rule

/-- The databases that a rule can write to. -/
inductive Database where
  | sqlite
  | mysql
  deriving DecidableEq

/-- The calls that leave the rule engine. `close` ends the connection after a failed insert. -/
inductive EngineCall where
  | publish (topic : Option Text) (members : List (Text × CJson))
  | alter (database : Database) (statement : Text)
  | insert (database : Database) (statement : Text)
  | close (database : Database)

/-- What is kept from call to call: the static variables, and whether the connection of SQLite
is still open.
-/
structure EngineStatics where
  isFirstTime : Bool
  isFirstTimeMysql : Bool
  sdbOpen : Bool

/-- The local variables of one call. -/
structure NeedSet where
  isNeedSet : Bool
  isNeedSetMysql : Bool

/-- How a call goes on after a rule: with the next one, with `return 1` or with `exit(1)`. -/
inductive AfterRule where
  | next
  | returns
  | exits
  deriving DecidableEq

/-- What one rule does in a call. -/
structure RuleTurn where
  logged : List EngineCall
  rule : Rule
  statics : EngineStatics
  needs : NeedSet
  after : AfterRule

/-- The statements for a table: those that add columns, and the one that inserts. -/
def tableStatements (calls : OutputCalls) (rule : Rule) (msg : RuleMessage) (isNeedSet : Bool)
    : Option (Text × Text) :=
  (composeClause calls rule msg isNeedSet).bind fun clause =>
    (insertStatement calls rule msg isNeedSet).map fun statement => (clause.ret, statement)

/-- The statements that end with a line break; for MySQL they are sent one by one. -/
def queries (ret : Text) : List Text :=
  (ret.splitOn 10).dropLast

section Turn

variable (calls : OutputCalls) (succeeds : Text → Bool) (rule : Rule) (msg : RuleMessage)
  (statics : EngineStatics) (needs : NeedSet)

/-- The insert, and the end of the connection if it fails. -/
def insertCalls (database : Database) (statement : Text) : List EngineCall :=
  .insert database statement :: if succeeds statement then [] else [.close database]

/-- A rule for SQLite. Whether columns could be added does not matter; after a failed insert the
connection is closed, and nothing can be executed on it any more.
-/
def fireSqlite : Option RuleTurn :=
  let isNeedSet := needs.isNeedSet || statics.isFirstTime
  if statics.sdbOpen then
    (tableStatements calls rule msg isNeedSet).map fun (ret, statement) =>
      {
        logged :=
          (if ret = [] then [] else [.alter .sqlite ret])
          ++ insertCalls succeeds .sqlite statement
        rule
        statics := { statics with isFirstTime := false, sdbOpen := succeeds statement }
        needs := { needs with isNeedSet }
        after := if succeeds statement then .next else .returns
      }
  else none

/-- A rule for MySQL. Once columns have been added, no other rule of the call adds any. -/
def fireMysql : Option RuleTurn :=
  let isNeedSet := needs.isNeedSetMysql || statics.isFirstTimeMysql
  rule.mysql.bind fun _ =>
    (tableStatements calls rule msg isNeedSet).map fun (ret, statement) =>
      {
        logged :=
          (queries ret).map (.alter .mysql) ++ insertCalls succeeds .mysql statement
        rule
        statics := { statics with isFirstTimeMysql := false }
        needs := { needs with isNeedSetMysql := isNeedSet && ret = [] }
        after := if succeeds statement then .next else .exits
      }

/-- A rule for another broker. -/
def fireRepub : Option RuleTurn :=
  rule.repub.bind fun repub =>
    (composeJson calls rule msg).map fun members =>
      {
        logged := [.publish (repub.texts .topic) members]
        rule := rule.release
        statics
        needs
        after := .next
      }

/-- A rule that has nothing to do. -/
def idleTurn : RuleTurn :=
  { logged := [], rule, statics, needs, after := .next }

/-- A rule that fires. -/
def fireRule (option : EngineOption) : Option RuleTurn :=
  match rule.forwordType with
  | .REPUB =>
      if option.rpb then fireRepub calls rule msg statics needs
      else some (idleTurn rule statics needs)
  | .SQLITE =>
      if option.sdb then fireSqlite calls succeeds rule msg statics needs
      else some (idleTurn rule statics needs)
  | .MYSOL =>
      if option.mdb then fireMysql calls succeeds rule msg statics needs
      else some (idleTurn rule statics needs)
  | .FDB => some (idleTurn rule statics needs)

/-- The body of the loop. -/
def ruleTurn (option : EngineOption) : Option RuleTurn :=
  if rule.enabled then
    (ruleEngineFilter calls.toRuleCalls rule msg).bind fun (fires, rule) =>
      if fires then fireRule calls succeeds rule msg statics needs option
      else some (idleTurn rule statics needs)
  else some (idleTurn rule statics needs)

end Turn

-- One call, and call after call

/-- What the rules of a vector have done, each in its place. -/
structure EngineReturn where
  logged : List (List EngineCall)
  rules : List Rule
  statics : EngineStatics
  after : AfterRule

/-- The loop over the rules; it ends with the first rule that does not go on. -/
def ruleLoop (calls : OutputCalls) (option : EngineOption) (succeeds : Text → Bool)
    (msg : RuleMessage)
    : List Rule → EngineStatics → NeedSet → Option EngineReturn
  | [], statics, _ => some { logged := [], rules := [], statics, after := .next }
  | rule :: rest, statics, needs =>
      (ruleTurn calls succeeds rule msg statics needs option).bind fun turn =>
        if turn.after = .next then
          (ruleLoop calls option succeeds msg rest turn.statics turn.needs).map fun returned =>
            {
              returned with
              logged := turn.logged :: returned.logged
              rules := turn.rule :: returned.rules
            }
        else
          some
            {
              logged := turn.logged :: rest.map fun _ => []
              rules := turn.rule :: rest
              statics := turn.statics
              after := turn.after
            }

/-- The rule engine between two calls. -/
structure EngineState where
  rules : List Rule
  statics : EngineStatics

/-- A call for one message: what the databases answer, and the message. -/
structure EngineInput where
  succeeds : Text → Bool
  msg : RuleMessage

def ruleEngineInsertSql (calls : OutputCalls) (option : EngineOption) (state : EngineState)
    (input : EngineInput)
    : Option EngineReturn :=
  ruleLoop calls option input.succeeds input.msg state.rules state.statics
    { isNeedSet := false, isNeedSetMysql := false }

/-- Call after call, until the process ends; none where one of them faults. -/
def runEngine (calls : OutputCalls) (option : EngineOption)
    : EngineState → List EngineInput → Option (List EngineReturn)
  | _, [] => some []
  | state, input :: rest =>
      (ruleEngineInsertSql calls option state input).bind fun returned =>
        if returned.after = .exits then some [returned]
        else
          (runEngine calls option { rules := returned.rules, statics := returned.statics } rest).map
            (returned :: ·)

-- When columns are added

/-- The database that a call goes to. -/
def EngineCall.database : EngineCall → Option Database
  | .publish _ _ => none
  | .alter database _ | .insert database _ | .close database => some database

/-- The database whose columns a call adds. -/
def EngineCall.alters : EngineCall → Option Database
  | .alter database _ => some database
  | .publish _ _ | .insert _ _ | .close _ => none

/-- No rule has yet written to the database. -/
def EngineStatics.first (statics : EngineStatics) : Database → Bool
  | .sqlite => statics.isFirstTime
  | .mysql => statics.isFirstTimeMysql

/-- Columns of the database are to be added. -/
def NeedSet.need (needs : NeedSet) : Database → Bool
  | .sqlite => needs.isNeedSet
  | .mysql => needs.isNeedSetMysql

/-- What a rule does to a database: nothing, or it writes to it. Then columns are added only if
that was asked for or if nothing had been written before.
-/
inductive Writes (database : Database) (statics : EngineStatics) (needs : NeedSet)
    (turn : RuleTurn)
    : Prop
  | nothing (silent : ∀ call ∈ turn.logged, call.database ≠ some database)
    (sameFirst : turn.statics.first database = statics.first database)
    (sameNeed : turn.needs.need database = needs.need database)
  | written (noLonger : turn.statics.first database = false)
    (settled
      : needs.need database = false
        → statics.first database = false
        → (∀ call ∈ turn.logged, call.alters ≠ some database)
          ∧ turn.needs.need database = false)

section Columns

variable {calls : OutputCalls} {option : EngineOption} {succeeds : Text → Bool} {rule : Rule}
  {msg : RuleMessage} {statics : EngineStatics} {needs : NeedSet} {turn : RuleTurn}
  {database : Database} {returned : EngineReturn}

/-- The clause without the statements that add columns. -/
def SqlClause.withoutRet (clause : SqlClause) : SqlClause :=
  { clause with ret := [] }

theorem composeStored_withoutRet (calls : OutputCalls) (rule : Rule) (isNeedSet : Bool)
    (clause : SqlClause) (entry : RulePayload)
    : (composeStored calls rule isNeedSet clause entry).map SqlClause.withoutRet
      = composeStored calls rule false clause.withoutRet entry := by
  unfold composeStored
  split
  · split
    · rfl
    · dsimp only
      split <;> rfl
  · rfl

/-- A fold over fields, by induction on them. -/
theorem foldlM_withoutRet {Field : Type} {add : Bool → SqlClause → Field → Option SqlClause}
    (step
      : ∀ isNeedSet clause field,
          (add isNeedSet clause field).map SqlClause.withoutRet
          = add false clause.withoutRet field)
    (isNeedSet : Bool) (fields : List Field) (clause : SqlClause)
    : (fields.foldlM (add isNeedSet) clause).map SqlClause.withoutRet
      = fields.foldlM (add false) clause.withoutRet := by
  induction fields generalizing clause with
  | nil => rfl
  | cons field rest ih =>
      rw [List.foldlM_cons, List.foldlM_cons, ← step isNeedSet]
      cases add isNeedSet clause field with
      | none => rfl
      | some next => exact ih next

theorem composeSqlClause_withoutRet (isNeedSet : Bool) (clause : SqlClause) (field : RuleField)
    : (composeSqlClause calls rule msg isNeedSet clause field).map SqlClause.withoutRet
      = composeSqlClause calls rule msg false clause.withoutRet field := by
  have stored := foldlM_withoutRet (composeStored_withoutRet calls rule) isNeedSet rule.payload
    clause
  unfold composeSqlClause
  split
  · split
    · rw [← stored, Option.map_map, Option.map_map]
      rfl
    · rfl
  · rfl

theorem composeClause_withoutRet (isNeedSet : Bool)
    : (composeClause calls rule msg isNeedSet).map SqlClause.withoutRet
      = composeClause calls rule msg false :=
  foldlM_withoutRet composeSqlClause_withoutRet isNeedSet ruleFields (openClause calls rule)

theorem composeClause_ret {clause : SqlClause}
    (composed : composeClause calls rule msg false = some clause)
    : clause.ret = [] := by
  rw [← composeClause_withoutRet false] at composed
  obtain ⟨before, _, rfl⟩ := Option.map_eq_some_iff.mp composed
  rfl

theorem insertStatement_needSet {isNeedSet : Bool} {statement : Text}
    (composed : insertStatement calls rule msg isNeedSet = some statement)
    : insertStatement calls rule msg false = some statement := by
  unfold insertStatement at composed ⊢
  obtain ⟨clause, isClause, closed⟩ := Option.bind_eq_some_iff.mp composed
  rw [← composeClause_withoutRet isNeedSet, isClause]
  change (if clause.withoutRet.Fits then _ else none) = _
  split at closed
  · rename_i fits
    have stillFits : clause.withoutRet.Fits := by
      obtain ⟨key, value, _, total⟩ := fits
      exact ⟨key, value, Nat.succ_pos _, total⟩
    rw [if_pos stillFits]
    exact closed
  · cases closed

theorem tableStatements_ret {ret statement : Text}
    (composed : tableStatements calls rule msg false = some (ret, statement))
    : ret = [] := by
  obtain ⟨clause, isClause, mapped⟩ := Option.bind_eq_some_iff.mp composed
  obtain ⟨_, _, parts⟩ := Option.map_eq_some_iff.mp mapped
  cases parts
  exact composeClause_ret isClause

theorem idleTurn_writes (database : Database) (rule : Rule)
    : Writes database statics needs (idleTurn rule statics needs) :=
  .nothing (List.forall_mem_nil _) rfl rfl

theorem insertCalls_database {other : Database} {statement : Text} (different : other ≠ database)
    : ∀ call ∈ insertCalls succeeds other statement, call.database ≠ some database := by
  unfold insertCalls
  split <;> simp [EngineCall.database, different]

theorem insertCalls_alters {other : Database} {statement : Text}
    : ∀ call ∈ insertCalls succeeds other statement, call.alters ≠ some database := by
  unfold insertCalls
  split <;> simp [EngineCall.alters]

theorem fireSqlite_writes (database : Database)
    (fired : fireSqlite calls succeeds rule msg statics needs = some turn)
    : Writes database statics needs turn := by
  unfold fireSqlite at fired
  dsimp only at fired
  split at fired
  swap
  · cases fired
  obtain ⟨⟨ret, statement⟩, composed, rfl⟩ := Option.map_eq_some_iff.mp fired
  cases database with
  | sqlite =>
      refine .written rfl fun asked written => ⟨?_, ?_⟩
      · have nothing : (needs.isNeedSet || statics.isFirstTime) = false :=
          Bool.or_eq_false_iff.mpr ⟨asked, written⟩
        rw [nothing] at composed
        rw [tableStatements_ret composed]
        exact insertCalls_alters
      · exact Bool.or_eq_false_iff.mpr ⟨asked, written⟩
  | mysql =>
      refine .nothing (List.forall_mem_append.mpr ⟨?_, insertCalls_database nofun⟩) rfl rfl
      split <;> simp [EngineCall.database]

theorem fireMysql_writes (database : Database)
    (fired : fireMysql calls succeeds rule msg statics needs = some turn)
    : Writes database statics needs turn := by
  unfold fireMysql at fired
  obtain ⟨_, _, fired⟩ := Option.bind_eq_some_iff.mp fired
  obtain ⟨⟨ret, statement⟩, composed, rfl⟩ := Option.map_eq_some_iff.mp fired
  cases database with
  | sqlite =>
      refine .nothing (List.forall_mem_append.mpr ⟨?_, insertCalls_database nofun⟩) rfl rfl
      simp [EngineCall.database]
  | mysql =>
      refine .written rfl fun asked written => ?_
      have nothing : (needs.isNeedSetMysql || statics.isFirstTimeMysql) = false :=
        Bool.or_eq_false_iff.mpr ⟨asked, written⟩
      rw [nothing] at composed
      refine ⟨?_, Bool.and_eq_false_iff.mpr (Or.inl nothing)⟩
      rw [tableStatements_ret composed]
      exact insertCalls_alters

/-- What a rule does to a database. Witness: one case for each way to forward. -/
theorem ruleTurn_writes (database : Database)
    (turned : ruleTurn calls succeeds rule msg statics needs option = some turn)
    : Writes database statics needs turn := by
  unfold ruleTurn at turned
  split at turned
  swap
  · cases turned
    exact idleTurn_writes database rule
  obtain ⟨⟨fires, filtered⟩, _, turned⟩ := Option.bind_eq_some_iff.mp turned
  dsimp only at turned
  split at turned
  swap
  · cases turned
    exact idleTurn_writes database filtered
  unfold fireRule at turned
  split at turned
  · split at turned
    · obtain ⟨repub, _, turned⟩ := Option.bind_eq_some_iff.mp turned
      obtain ⟨members, _, rfl⟩ := Option.map_eq_some_iff.mp turned
      exact .nothing (by simp [EngineCall.database]) rfl rfl
    · cases turned
      exact idleTurn_writes database filtered
  · split at turned
    · exact fireSqlite_writes database turned
    · cases turned
      exact idleTurn_writes database filtered
  · split at turned
    · exact fireMysql_writes database turned
    · cases turned
      exact idleTurn_writes database filtered
  · cases turned
    exact idleTurn_writes database filtered

/-- Calls that add no columns of the database. -/
def Unaltered (database : Database) (logged : List (List EngineCall)) : Prop :=
  ∀ calls ∈ logged, ∀ call ∈ calls, call.alters ≠ some database

theorem EngineCall.database_of_alters {call : EngineCall} (alters : call.alters = some database)
    : call.database = some database := by
  cases call <;> cases alters
  rfl

/-- What has been written to once is never new again: the loop adds no columns unless that was
asked for before it. By induction on the rules.
-/
theorem ruleLoop_settled {rules : List Rule}
    (looped : ruleLoop calls option succeeds msg rules statics needs = some returned)
    (settled : needs.need database = false) (old : statics.first database = false)
    : Unaltered database returned.logged ∧ returned.statics.first database = false := by
  induction rules generalizing statics needs returned with
  | nil =>
      cases looped
      exact ⟨List.forall_mem_nil _, old⟩
  | cons rule rest ih =>
      obtain ⟨turn, turned, looped⟩ := Option.bind_eq_some_iff.mp looped
      obtain ⟨unaltered, stillSettled, stillOld⟩
          : (∀ call ∈ turn.logged, call.alters ≠ some database)
            ∧ turn.needs.need database = false
            ∧ turn.statics.first database = false := by
        cases ruleTurn_writes database turned with
        | nothing silent sameFirst sameNeed =>
            exact ⟨fun call member alters =>
                silent call member (EngineCall.database_of_alters alters),
              sameNeed.trans settled, sameFirst.trans old⟩
        | written noLonger quiet =>
            obtain ⟨unaltered, stillSettled⟩ := quiet settled old
            exact ⟨unaltered, stillSettled, noLonger⟩
      split at looped
      · obtain ⟨later, laterLooped, rfl⟩ := Option.map_eq_some_iff.mp looped
        obtain ⟨laterUnaltered, laterOld⟩ := ih laterLooped stillSettled stillOld
        exact ⟨List.forall_mem_cons.mpr ⟨unaltered, laterUnaltered⟩, laterOld⟩
      · cases looped
        refine ⟨List.forall_mem_cons.mpr ⟨unaltered, ?_⟩, stillOld⟩
        intro calls member
        obtain ⟨_, _, rfl⟩ := List.mem_map.mp member
        exact List.forall_mem_nil _

/-- After a loop that writes to a database, the database is not new any more. By induction on
the rules.
-/
theorem ruleLoop_written {rules : List Rule}
    (looped : ruleLoop calls option succeeds msg rules statics needs = some returned)
    (written
      : statics.first database = false
        ∨ ∃ calls ∈ returned.logged, ∃ call ∈ calls, call.database = some database)
    : returned.statics.first database = false := by
  induction rules generalizing statics needs returned with
  | nil =>
      cases looped
      rcases written with old | ⟨calls, member, _⟩
      · exact old
      · cases member
  | cons rule rest ih =>
      obtain ⟨turn, turned, looped⟩ := Option.bind_eq_some_iff.mp looped
      have own
          : statics.first database = false
              ∨ (∃ call ∈ turn.logged, call.database = some database)
            → turn.statics.first database = false := by
        intro wrote
        cases ruleTurn_writes database turned with
        | nothing silent sameFirst _ =>
            rcases wrote with old | ⟨call, member, isDatabase⟩
            · exact sameFirst.trans old
            · exact absurd isDatabase (silent call member)
        | written noLonger _ => exact noLonger
      split at looped
      · obtain ⟨later, laterLooped, rfl⟩ := Option.map_eq_some_iff.mp looped
        have laterWritten
            : turn.statics.first database = false
              ∨ ∃ calls ∈ later.logged, ∃ call ∈ calls, call.database = some database := by
          rcases written with old | ⟨calls, member, wrote⟩
          · exact Or.inl (own (Or.inl old))
          · rcases List.mem_cons.mp member with rfl | member
            · exact Or.inl (own (Or.inr wrote))
            · exact Or.inr ⟨calls, member, wrote⟩
        have settled : later.statics.first database = false := ih laterLooped laterWritten
        exact settled
      · cases looped
        refine own ?_
        rcases written with old | ⟨calls, member, wrote⟩
        · exact Or.inl old
        · rcases List.mem_cons.mp member with rfl | member
          · exact Or.inr wrote
          · obtain ⟨_, _, rfl⟩ := List.mem_map.mp member
            obtain ⟨_, absent, _⟩ := wrote
            cases absent

/-- Calls on a database that has been written to before add no columns. By induction on the
calls.
-/
theorem runEngine_settled {state : EngineState} {inputs : List EngineInput}
    {run : List EngineReturn} (ran : runEngine calls option state inputs = some run)
    (old : state.statics.first database = false)
    : ∀ returned ∈ run, Unaltered database returned.logged := by
  induction inputs generalizing state run with
  | nil =>
      cases ran
      exact List.forall_mem_nil _
  | cons input rest ih =>
      obtain ⟨returned, looped, ran⟩ := Option.bind_eq_some_iff.mp ran
      obtain ⟨unaltered, stillOld⟩ := ruleLoop_settled looped (by cases database <;> rfl) old
      split at ran
      · cases ran
        exact List.forall_mem_singleton.mpr unaltered
      · obtain ⟨later, laterRan, rfl⟩ := Option.map_eq_some_iff.mp ran
        exact List.forall_mem_cons.mpr ⟨unaltered, ih laterRan stillOld⟩

/-- Columns are added in one call at most, whatever the rules and the messages are: the one in
which some rule first writes to that kind of database. A rule that fires later for the first
time has its columns never added. By induction on the calls.
-/
theorem columns_added_in_first_call {state : EngineState} {inputs : List EngineInput}
    {run : List EngineReturn} (ran : runEngine calls option state inputs = some run)
    : run.Pairwise fun earlier later =>
        (∃ calls ∈ earlier.logged, ∃ call ∈ calls, call.database = some database)
        → ∀ calls ∈ later.logged, ∀ call ∈ calls, call.alters ≠ some database := by
  induction inputs generalizing state run with
  | nil =>
      cases ran
      exact .nil
  | cons input rest ih =>
      obtain ⟨returned, looped, ran⟩ := Option.bind_eq_some_iff.mp ran
      split at ran
      · cases ran
        exact List.pairwise_singleton _ _
      · obtain ⟨later, laterRan, rfl⟩ := Option.map_eq_some_iff.mp ran
        refine List.pairwise_cons.mpr ⟨?_, ih laterRan⟩
        intro other member written
        exact runEngine_settled laterRan (ruleLoop_written looped (Or.inr written)) other member

end Columns

/-- Nothing has been written yet. -/
def freshStatics : EngineStatics :=
  { isFirstTime := true, isFirstTimeMysql := true, sdbOpen := true }

/-- The rules of a vector before any message. -/
def freshEngine (rules : List Rule) : EngineState :=
  { rules, statics := freshStatics }

def textInput : EngineInput :=
  { succeeds := fun _ => true, msg := textTurn.msg }

/-- A column is added for the first message, and not for the second. -/
theorem status_column_added_once
    : ∃ run,
        runEngine statusCalls tableOption (freshEngine [statusRule .nothing])
            [textInput, textInput]
          = some run
        ∧ run.map (fun returned => returned.logged.flatten.map EngineCall.alters)
          = [[some .sqlite, none], [none]]
        ∧ run.Pairwise fun earlier later =>
            (∃ calls ∈ earlier.logged, ∃ call ∈ calls, call.database = some .sqlite)
            → ∀ calls ∈ later.logged, ∀ call ∈ calls, call.alters ≠ some .sqlite := by
  have alters
      : (runEngine statusCalls tableOption (freshEngine [statusRule .nothing])
            [textInput, textInput]).map
          (fun run => run.map fun returned => returned.logged.flatten.map EngineCall.alters)
        = some [[some .sqlite, none], [none]] := by
    decide +kernel
  obtain ⟨run, ran, altered⟩ := Option.map_eq_some_iff.mp alters
  exact ⟨run, ran, altered, columns_added_in_first_call ran⟩

-- One rule among others

/-- The call is output of a rule; columns are added for the table as a whole. -/
def EngineCall.isOutput : EngineCall → Bool
  | .alter _ _ => false
  | .publish _ _ | .insert _ _ | .close _ => true

/-- The output of the rule at this place. -/
def EngineReturn.output (returned : EngineReturn) (index : Nat) : List EngineCall :=
  ((returned.logged[index]?).getD []).filter EngineCall.isOutput

/-- The calls for what one rule puts out. -/
def Rule.outputCalls (rule : Rule) : RuleOutput → List EngineCall
  | .nothing => []
  | .published members => [.publish (rule.repub.bind (·.texts .topic)) members]
  | .inserted statement =>
      [.insert (if rule.forwordType = .MYSOL then .mysql else .sqlite) statement]

/-- A turn after which the loop goes on, with the output and the rule of the one-rule model. -/
def RuleTurn.Puts (turn : RuleTurn) (handled : Option (RuleOutput × Rule)) : Prop :=
  turn.after = .next
  ∧ ∃ output,
      handled = some (output, turn.rule)
      ∧ turn.logged.filter EngineCall.isOutput = turn.rule.outputCalls output

section Alone

variable {calls : OutputCalls} {option : EngineOption} {succeeds : Text → Bool} {rule : Rule}
  {msg : RuleMessage} {statics : EngineStatics} {needs : NeedSet} {turn : RuleTurn}
  {returned : EngineReturn}

theorem tableStatements_insert {isNeedSet : Bool} {ret statement : Text}
    (composed : tableStatements calls rule msg isNeedSet = some (ret, statement))
    : insertStatement calls rule msg false = some statement := by
  obtain ⟨_, _, mapped⟩ := Option.bind_eq_some_iff.mp composed
  obtain ⟨_, inserted, parts⟩ := Option.map_eq_some_iff.mp mapped
  cases parts
  exact insertStatement_needSet inserted

theorem insertCalls_output {altered : List EngineCall} {database : Database} {statement : Text}
    (alters : ∀ call ∈ altered, call.isOutput = false) (healthy : succeeds statement = true)
    : (altered ++ insertCalls succeeds database statement).filter EngineCall.isOutput
      = [.insert database statement] := by
  rw [List.filter_append, List.filter_eq_nil_iff.mpr fun call member =>
    Bool.eq_false_iff.mp (alters call member), insertCalls, if_pos healthy]
  rfl

theorem fireRepub_puts (fired : fireRepub calls rule msg statics needs = some turn)
    : turn.Puts ((composeJson calls rule msg).map fun members =>
        (.published members, rule.release)) := by
  obtain ⟨repub, isRepub, fired⟩ := Option.bind_eq_some_iff.mp fired
  obtain ⟨members, composed, rfl⟩ := Option.map_eq_some_iff.mp fired
  have kept : rule.release.repub = some repub := by
    unfold Rule.release
    split <;> exact isRepub
  refine ⟨rfl, .published members, by rw [composed]; rfl, ?_⟩
  rw [Rule.outputCalls, kept]
  rfl

theorem fireSqlite_puts (healthy : ∀ statement, succeeds statement = true)
    (sqlite : rule.forwordType = .SQLITE)
    (fired : fireSqlite calls succeeds rule msg statics needs = some turn)
    : turn.Puts ((insertStatement calls rule msg false).map fun statement =>
        (.inserted statement, rule)) := by
  unfold fireSqlite at fired
  dsimp only at fired
  split at fired
  · obtain ⟨⟨ret, statement⟩, composed, rfl⟩ := Option.map_eq_some_iff.mp fired
    rw [tableStatements_insert composed]
    refine ⟨if_pos (healthy _), .inserted statement, rfl, ?_⟩
    dsimp only
    rw [Rule.outputCalls, sqlite, insertCalls_output ?_ (healthy _)]
    · rfl
    · split <;> simp [EngineCall.isOutput]
  · cases fired

theorem fireMysql_puts (healthy : ∀ statement, succeeds statement = true)
    (mysql : rule.forwordType = .MYSOL)
    (fired : fireMysql calls succeeds rule msg statics needs = some turn)
    : turn.Puts ((insertStatement calls rule msg false).map fun statement =>
        (.inserted statement, rule)) := by
  obtain ⟨_, _, fired⟩ := Option.bind_eq_some_iff.mp fired
  obtain ⟨⟨ret, statement⟩, composed, rfl⟩ := Option.map_eq_some_iff.mp fired
  rw [tableStatements_insert composed]
  refine ⟨if_pos (healthy _), .inserted statement, rfl, ?_⟩
  dsimp only
  rw [Rule.outputCalls, mysql, insertCalls_output (by simp [EngineCall.isOutput]) (healthy _)]
  rfl

theorem RuleTurn.puts_ite {on : Bool} {fires : Option RuleTurn}
    {handled : Option (RuleOutput × Rule)}
    (isTurn : (if on then fires else some (idleTurn rule statics needs)) = some turn)
    (puts : fires = some turn → turn.Puts handled)
    : turn.Puts (if on then handled else some (.nothing, rule)) := by
  cases on with
  | true => exact puts isTurn
  | false =>
      cases isTurn
      exact ⟨rfl, .nothing, rfl, rfl⟩

theorem fireRule_puts (healthy : ∀ statement, succeeds statement = true)
    (fired : fireRule calls succeeds rule msg statics needs option = some turn)
    : turn.Puts (forwardMessage calls option false rule msg) := by
  unfold fireRule at fired
  unfold forwardMessage
  cases forword : rule.forwordType with
  | REPUB =>
      rw [forword] at fired
      exact RuleTurn.puts_ite fired fireRepub_puts
  | SQLITE =>
      rw [forword] at fired
      exact RuleTurn.puts_ite fired (fireSqlite_puts healthy forword)
  | MYSOL =>
      rw [forword] at fired
      exact RuleTurn.puts_ite fired (fireMysql_puts healthy forword)
  | FDB =>
      rw [forword] at fired
      cases fired
      exact ⟨rfl, .nothing, rfl, rfl⟩

/-- A rule puts out what it does with the message alone, whatever other rules have done. -/
theorem ruleTurn_puts (healthy : ∀ statement, succeeds statement = true)
    (turned : ruleTurn calls succeeds rule msg statics needs option = some turn)
    : turn.Puts (handleRule calls option false rule msg) := by
  refine RuleTurn.puts_ite turned ?_
  intro turned
  obtain ⟨⟨fires, filtered⟩, isFiltered, turned⟩ := Option.bind_eq_some_iff.mp turned
  rw [isFiltered, Option.bind_some]
  exact RuleTurn.puts_ite turned (fireRule_puts healthy)

theorem RuleTurn.Puts.same {left right : RuleTurn} {handled : Option (RuleOutput × Rule)}
    (leftPuts : left.Puts handled) (rightPuts : right.Puts handled)
    : left.rule = right.rule
      ∧ left.logged.filter EngineCall.isOutput = right.logged.filter EngineCall.isOutput := by
  obtain ⟨_, output, isHandled, isOutput⟩ := leftPuts
  obtain ⟨_, other, again, sameOutput⟩ := rightPuts
  obtain ⟨rfl, sameRule⟩ := Prod.mk.inj (Option.some.inj (isHandled.symm.trans again))
  exact ⟨sameRule, by rw [isOutput, sameOutput, sameRule]⟩

theorem ruleLoop_cons {rest : List Rule} (healthy : ∀ statement, succeeds statement = true)
    (looped : ruleLoop calls option succeeds msg (rule :: rest) statics needs = some returned)
    : ∃ turn later,
        ruleTurn calls succeeds rule msg statics needs option = some turn
        ∧ ruleLoop calls option succeeds msg rest turn.statics turn.needs = some later
        ∧ returned.logged = turn.logged :: later.logged
        ∧ returned.rules = turn.rule :: later.rules
        ∧ returned.after = later.after := by
  obtain ⟨turn, turned, looped⟩ := Option.bind_eq_some_iff.mp looped
  rw [if_pos (ruleTurn_puts healthy turned).1] at looped
  obtain ⟨later, laterLooped, rfl⟩ := Option.map_eq_some_iff.mp looped
  exact ⟨turn, later, turned, laterLooped, rfl, rfl, rfl⟩

/-- By induction on the rules. -/
theorem ruleLoop_next {rules : List Rule} (healthy : ∀ statement, succeeds statement = true)
    (looped : ruleLoop calls option succeeds msg rules statics needs = some returned)
    : returned.after = .next := by
  induction rules generalizing statics needs returned with
  | nil =>
      cases looped
      rfl
  | cons rule rest ih =>
      obtain ⟨turn, later, _, laterLooped, _, _, sameAfter⟩ := ruleLoop_cons healthy looped
      exact sameAfter.trans (ih laterLooped)

/-- In a loop in which nothing fails every rule has its turn, in its place. By induction on the
rules before it.
-/
theorem ruleLoop_at {before after : List Rule}
    (healthy : ∀ statement, succeeds statement = true)
    (looped
      : ruleLoop calls option succeeds msg (before ++ rule :: after) statics needs = some returned)
    : ∃ ruleStatics ruleNeeds turn beforeRules afterRules,
        ruleTurn calls succeeds rule msg ruleStatics ruleNeeds option = some turn
        ∧ returned.logged[before.length]? = some turn.logged
        ∧ returned.rules = beforeRules ++ turn.rule :: afterRules
        ∧ beforeRules.length = before.length := by
  induction before generalizing statics needs returned with
  | nil =>
      obtain ⟨turn, later, turned, _, logged, rules, _⟩ := ruleLoop_cons healthy looped
      refine ⟨statics, needs, turn, [], later.rules, turned, ?_, rules, rfl⟩
      rw [logged]
      rfl
  | cons first before ih =>
      obtain ⟨firstTurn, later, _, laterLooped, logged, rules, _⟩ := ruleLoop_cons healthy looped
      obtain ⟨ruleStatics, ruleNeeds, turn, beforeRules, afterRules, turned, isLogged, isRules,
        length⟩ := ih laterLooped
      refine ⟨ruleStatics, ruleNeeds, turn, firstTurn.rule :: beforeRules, afterRules, turned, ?_,
        ?_, congrArg (· + 1) length⟩
      · rw [logged]
        exact isLogged
      · rw [rules, isRules]
        rfl

/-- Among other rules a rule puts out what it puts out alone, message by message, as long as no
statement fails: neither what the others keep nor the variables that they share matter. By
induction on the messages.
-/
theorem rule_output_alone {before after : List Rule} {alone : EngineStatics}
    {inputs : List EngineInput} {whole own : List EngineReturn}
    (healthy : ∀ input ∈ inputs, ∀ statement, input.succeeds statement = true)
    (wholeRan
      : runEngine calls option { rules := before ++ rule :: after, statics } inputs = some whole)
    (ownRan : runEngine calls option { rules := [rule], statics := alone } inputs = some own)
    : whole.map (·.output before.length) = own.map (·.output 0) := by
  induction inputs generalizing before rule after statics alone whole own with
  | nil =>
      cases wholeRan
      cases ownRan
      rfl
  | cons input rest ih =>
      obtain ⟨works, laterHealthy⟩ := List.forall_mem_cons.mp healthy
      obtain ⟨wholeReturned, wholeLooped, wholeRan⟩ := Option.bind_eq_some_iff.mp wholeRan
      obtain ⟨ownReturned, ownLooped, ownRan⟩ := Option.bind_eq_some_iff.mp ownRan
      have wholeNext : wholeReturned.after ≠ .exits := by
        rw [ruleLoop_next works wholeLooped]
        exact nofun
      have ownNext : ownReturned.after ≠ .exits := by
        rw [ruleLoop_next works ownLooped]
        exact nofun
      rw [if_neg wholeNext] at wholeRan
      rw [if_neg ownNext] at ownRan
      obtain ⟨wholeLater, wholeLaterRan, rfl⟩ := Option.map_eq_some_iff.mp wholeRan
      obtain ⟨ownLater, ownLaterRan, rfl⟩ := Option.map_eq_some_iff.mp ownRan
      obtain ⟨_, _, turn, beforeRules, afterRules, turned, logged, rules, length⟩ :=
        ruleLoop_at works wholeLooped
      obtain ⟨ownTurn, ownRest, ownTurned, ownRestLooped, ownLogged, ownRules, _⟩ :=
        ruleLoop_cons works ownLooped
      cases ownRestLooped
      obtain ⟨sameRule, sameOutput⟩ :=
        (ruleTurn_puts works turned).same (ruleTurn_puts works ownTurned)
      rw [rules] at wholeLaterRan
      rw [ownRules, ← sameRule] at ownLaterRan
      have later := ih laterHealthy wholeLaterRan ownLaterRan
      rw [length] at later
      rw [List.map_cons, List.map_cons, later]
      refine congrArg (· :: _) ?_
      unfold EngineReturn.output
      rw [logged, ownLogged]
      exact sameOutput

end Alone

/-- Next to another rule for the same table a rule inserts what it inserts alone. -/
theorem status_output_alone
    : ∃ whole own,
        runEngine statusCalls tableOption
            (freshEngine [statusRule .nothing, statusRule .nothing]) [textInput, textInput]
          = some whole
        ∧ runEngine statusCalls tableOption (freshEngine [statusRule .nothing])
            [textInput, textInput]
          = some own
        ∧ whole.map (·.output 1) = own.map (·.output 0) := by
  obtain ⟨whole, wholeRan⟩ := Option.isSome_iff_exists.mp
    (show (runEngine statusCalls tableOption
        { rules := [statusRule .nothing] ++ statusRule .nothing :: [], statics := freshStatics }
        [textInput, textInput]).isSome = true by decide +kernel)
  obtain ⟨own, ownRan⟩ := Option.isSome_iff_exists.mp
    (show (runEngine statusCalls tableOption (freshEngine [statusRule .nothing])
        [textInput, textInput]).isSome = true by decide +kernel)
  have healthy
      : ∀ input ∈ [textInput, textInput], ∀ statement, input.succeeds statement = true := by
    intro input member statement
    rcases List.mem_pair.mp member with rfl | rfl
    · rfl
    · rfl
  exact ⟨whole, own, wholeRan, ownRan, rule_output_alone healthy wholeRan ownRan⟩

end NanoMQ.Rules
