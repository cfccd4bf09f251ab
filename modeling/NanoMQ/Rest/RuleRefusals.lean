import NanoMQ.Rest.PostRules

/-! Which refused creations leave the rule engine as it was: those that are refused at an action
before which nothing was written and no new option bit was set.
-/

namespace NanoMQ.Rest

open Rules

-- What comes of an action

/-- What comes of an action: it follows a NULL pointer, is refused for its parameters, is refused
because its server cannot be reached, writes a rule, or does nothing but set its bit.
-/
inductive ActionKind where
  | faulty
  | refused
  | unconnected
  | writes
  | idle
  deriving DecidableEq

/-- The parameters have names, and the tables are texts. -/
def tablesReadable (params : List (Option Text × CJson)) : Bool :=
  params.all fun param =>
    param.1.any fun name => !sameName name (lit "table") || param.2.valuestring.isSome

def repubKind (repub : Repub) : ActionKind :=
  if repubComplete repub then .writes else .refused

def mysqlKind (lib : PostLibrary) (mysql : RuleMysql) : ActionKind :=
  if lib.mysqlCheck mysql then if lib.clientMysql mysql then .writes else .unconnected
  else .refused

def actionKind (lib : PostLibrary) (action : RuleAction) : ActionKind :=
  match action with
  | .repub params =>
      (eachParam setRepubParam params lib.repubInit).elim .faulty repubKind
  | .sqlite params =>
      if tablesReadable params then if action.copies then .writes else .idle else .faulty
  | .mysql params =>
      (eachParam setMysqlParam params lib.mysqlInit).elim .faulty (mysqlKind lib)
  | .unsupported => .idle

def actionBits : RuleAction → List EngineBit
  | .repub _ => [.RPB]
  | .sqlite _ => [.SDB]
  | .mysql _ => [.MDB]
  | .unsupported => []

/-- The kind of an element of `actions`. -/
def childKind (lib : PostLibrary) (child : Option Text × CJson) : ActionKind :=
  match readAction child.2 with
  | none => .faulty
  | some action => actionKind lib action

/-- The bits that an element of `actions` sets. -/
def childBits (child : Option Text × CJson) : List EngineBit :=
  match readAction child.2 with
  | none => []
  | some action => actionBits action

-- Writing a rule

section Write

variable (lib : PostLibrary) (rawsql : Option Text)

/-- A rule can be written: there is a statement, and a rule to write to. -/
def Writable (rules : List Rule) : Prop :=
  rawsql.isSome ∧ (rules ≠ [] ∨ (lib.sqlParse rawsql).isSome)

/-- Rules were written: the last rule has a generated id, and the vector is longer if statements
append rules.
-/
structure Touched (original rules : List Rule) : Prop where
  last : ∃ last n, rules.getLast? = some last ∧ last.ruleId = lib.ruleId n
  length
    : if (lib.sqlParse rawsql).isSome then original.length < rules.length
      else rules.length = original.length

/-- Nothing was written so far, or something was. -/
def Stage (original rules : List Rule) : Prop :=
  rules = original ∨ Touched lib rawsql original rules

variable {lib rawsql} {original : List Rule} {state next : PostState}

theorem Touched.nonempty {rules : List Rule} (touched : Touched lib rawsql original rules)
    : rules ≠ [] := by
  rintro rfl
  obtain ⟨last, n, isLast, _⟩ := touched.last
  cases isLast

theorem Touched.ne {rules : List Rule} (touched : Touched lib rawsql original rules)
    (fresh : ∀ n, ∀ rule ∈ original, rule.ruleId ≠ lib.ruleId n)
    : rules ≠ original := by
  rintro rfl
  obtain ⟨last, n, isLast, isId⟩ := touched.last
  exact fresh n last (List.mem_of_getLast? isLast) isId

theorem writeRule_isSome_iff {set : Rule → Rule}
    : (writeRule lib rawsql set state).isSome ↔ Writable lib rawsql state.rules := by
  have isEmpty
      : (state.rules ++ (lib.sqlParse rawsql).toList).getLast? = none
        ↔ ¬(state.rules ≠ [] ∨ (lib.sqlParse rawsql).isSome) := by
    rw [List.getLast?_eq_none_iff, List.append_eq_nil_iff, Option.toList_eq_nil_iff, not_or,
      not_not, Option.not_isSome_iff_eq_none]
  constructor
  · intro written
    obtain ⟨next, written⟩ := Option.isSome_iff_exists.mp written
    obtain ⟨last, isLast, written⟩ := Option.bind_eq_some_iff.mp written
    obtain ⟨sql, isSql, _⟩ := Option.bind_eq_some_iff.mp written
    refine ⟨Option.isSome_iff_exists.mpr ⟨sql, isSql⟩, ?_⟩
    by_contra empty
    rw [isEmpty.mpr empty] at isLast
    cases isLast
  · rintro ⟨given, nonempty⟩
    obtain ⟨sql, rfl⟩ := Option.isSome_iff_exists.mp given
    cases isLast : (state.rules ++ (lib.sqlParse (some sql)).toList).getLast? with
    | none => exact absurd nonempty (isEmpty.mp isLast)
    | some last =>
        unfold writeRule
        dsimp only
        rw [isLast]
        rfl

theorem writeRule_writes {set : Rule → Rule}
    (written : writeRule lib rawsql set state = some next)
    : next.option = state.option
      ∧ (∃ last n, next.rules.getLast? = some last ∧ last.ruleId = lib.ruleId n)
      ∧ next.rules.dropLast = (state.rules ++ (lib.sqlParse rawsql).toList).dropLast
      ∧ next.rules.length = state.rules.length + (lib.sqlParse rawsql).toList.length := by
  obtain ⟨last, isLast, written⟩ := Option.bind_eq_some_iff.mp written
  obtain ⟨sql, _, written⟩ := Option.bind_eq_some_iff.mp written
  obtain rfl := Option.some.inj written
  refine ⟨rfl, ⟨_, state.generated, List.getLast?_concat, rfl⟩, List.dropLast_concat, ?_⟩
  have nonempty : (state.rules ++ (lib.sqlParse rawsql).toList).length ≠ 0 := by
    intro empty
    rw [List.length_eq_zero_iff.mp empty] at isLast
    cases isLast
  rw [List.length_append] at nonempty
  simp
  omega

theorem Stage.write {set : Rule → Rule} (stage : Stage lib rawsql original state.rules)
    (written : writeRule lib rawsql set state = some next)
    : Touched lib rawsql original next.rules := by
  obtain ⟨_, last, _, length⟩ := writeRule_writes written
  refine { last, length := ?_ }
  rcases stage with same | touched
  · rw [length, same]
    cases lib.sqlParse rawsql <;> simp
  · have before := touched.length
    rw [length]
    cases isParsed : lib.sqlParse rawsql with
    | none => simpa [isParsed] using before
    | some rule =>
        simp only [isParsed, Option.isSome_some, if_true] at before
        simp
        omega

theorem Touched.dropped_ne {rules : List Rule} (touched : Touched lib rawsql original rules)
    (fresh : ∀ n, ∀ rule ∈ original, rule.ruleId ≠ lib.ruleId n)
    : (rules ++ (lib.sqlParse rawsql).toList).dropLast ≠ original := by
  have length := touched.length
  cases isParsed : lib.sqlParse rawsql with
  | some parsed =>
      rw [Option.toList_some, List.dropLast_concat]
      exact touched.ne fresh
  | none =>
      have positive := List.length_pos_iff.mpr touched.nonempty
      simp only [isParsed, Option.isSome_none, Bool.false_eq_true, if_false] at length
      intro same
      have sameLength := congrArg List.length same
      rw [Option.toList_none, List.append_nil, List.length_dropLast] at sameLength
      omega

/-- Taking a rule back restores the vector exactly if the statement has appended one. -/
theorem Writable.dropped_eq_iff {rules : List Rule} (writable : Writable lib rawsql rules)
    : (rules ++ (lib.sqlParse rawsql).toList).dropLast = rules
      ↔ (lib.sqlParse rawsql).isSome := by
  cases isParsed : lib.sqlParse rawsql with
  | some parsed => simp
  | none =>
      have nonempty : rules ≠ [] := by simpa [isParsed] using writable.2
      have positive := List.length_pos_iff.mpr nonempty
      rw [Option.toList_none, List.append_nil]
      constructor
      · intro same
        have sameLength := congrArg List.length same
        rw [List.length_dropLast] at sameLength
        omega
      · intro parsed
        cases parsed

theorem Touched.writable (touched : Touched lib rawsql original state.rules)
    (sql : rawsql.isSome)
    : Writable lib rawsql state.rules :=
  ⟨sql, Or.inl touched.nonempty⟩

end Write

-- One action

def setBits (bits : List EngineBit) (option : EngineOption) : EngineOption :=
  bits.foldl (fun option bit => setBit bit option) option

def PostState.marks (bits : List EngineBit) (state : PostState) : PostState :=
  { state with option := setBits bits state.option }

@[simp] theorem PostState.marks_rules (bits : List EngineBit) (state : PostState)
    : (state.marks bits).rules = state.rules :=
  rfl

@[simp] theorem PostState.marks_option (bits : List EngineBit) (state : PostState)
    : (state.marks bits).option = setBits bits state.option :=
  rfl

section Action

variable {lib : PostLibrary} {rawsql : Option Text} {original : List Rule} {state : PostState}

/-- The tables of a `sqlite` action. -/
inductive TablesDone (lib : PostLibrary) (rawsql : Option Text) (original : List Rule)
    (state : PostState)
    : (readable copies : Bool) → Option PostState → Prop
  | unreadable (copies : Bool) : TablesDone lib rawsql original state false copies none
  | nothing : TablesDone lib rawsql original state true false (some state)
  | stuck (readable : Bool) (stuck : ¬Writable lib rawsql state.rules)
    : TablesDone lib rawsql original state readable true none
  | written {next : PostState} (writable : Writable lib rawsql state.rules)
    (option : next.option = state.option) (touched : Touched lib rawsql original next.rules)
    : TablesDone lib rawsql original state true true (some next)

theorem TablesDone.after_table {next : PostState} {readable copies : Bool}
    {result : Option PostState} (writable : Writable lib rawsql state.rules)
    (option : next.option = state.option) (touched : Touched lib rawsql original next.rules)
    (done : TablesDone lib rawsql original next readable copies result)
    : TablesDone lib rawsql original state readable true result := by
  cases done with
  | unreadable => exact .unreadable true
  | nothing => exact .written writable option touched
  | stuck readable stuck => exact absurd (touched.writable writable.1) stuck
  | written _ nextOption nextTouched =>
      exact .written writable (nextOption.trans option) nextTouched

section Tables

variable {name : Text} {value : CJson} {rest : List (Option Text × CJson)}

theorem eachParam_table (isTable : sameName name (lit "table"))
    : eachParam (postSqliteParam lib rawsql) ((some name, value) :: rest) state
      = value.valuestring.bind fun table =>
          (writeRule lib rawsql
              (fun rule => { rule with forwordType := .SQLITE, sqliteTable := some table })
              state).bind
            (eachParam (postSqliteParam lib rawsql) rest) := by
  simp only [eachParam, postSqliteParam, Option.bind_eq_bind, Option.bind_some, if_pos isTable,
    Option.bind_assoc]

theorem eachParam_other (notTable : ¬sameName name (lit "table"))
    : eachParam (postSqliteParam lib rawsql) ((some name, value) :: rest) state
      = eachParam (postSqliteParam lib rawsql) rest state := by
  simp only [eachParam, postSqliteParam, Option.bind_eq_bind, Option.bind_some, if_neg notTable]

end Tables

/-- By induction on the parameters. -/
theorem eachParam_tables (params : List (Option Text × CJson))
    (stage : Stage lib rawsql original state.rules)
    : TablesDone lib rawsql original state (tablesReadable params)
        (RuleAction.sqlite params).copies
        (eachParam (postSqliteParam lib rawsql) params state) := by
  induction params generalizing state with
  | nil => exact .nothing
  | cons param rest ih =>
      obtain ⟨name, value⟩ := param
      cases name with
      | none => exact .unreadable _
      | some name =>
          by_cases isTable : sameName name (lit "table")
          · have copies : (RuleAction.sqlite ((some name, value) :: rest)).copies = true := by
              simp [RuleAction.copies, isTable]
            rw [copies, eachParam_table isTable]
            cases isText : value.valuestring with
            | none =>
                have unreadable : tablesReadable ((some name, value) :: rest) = false := by
                  simp [tablesReadable, isTable, isText]
                rw [unreadable]
                exact .unreadable true
            | some table =>
                have readable
                    : tablesReadable ((some name, value) :: rest) = tablesReadable rest := by
                  simp [tablesReadable, isText]
                rw [readable, Option.bind_some]
                cases written
                    : writeRule lib rawsql
                        (fun rule =>
                          { rule with forwordType := .SQLITE, sqliteTable := some table })
                        state with
                | none =>
                    refine .stuck _ ?_
                    rw [← writeRule_isSome_iff, written]
                    simp
                | some next =>
                    have touched := stage.write written
                    have writable : Writable lib rawsql state.rules :=
                      writeRule_isSome_iff.mp (by rw [written]; rfl)
                    exact .after_table writable (writeRule_writes written).1 touched
                      (ih (Or.inr touched))
          · have readable : tablesReadable ((some name, value) :: rest) = tablesReadable rest := by
              simp [tablesReadable, isTable]
            have copies
                : (RuleAction.sqlite ((some name, value) :: rest)).copies
                  = (RuleAction.sqlite rest).copies := by
              simp [RuleAction.copies, isTable]
            rw [readable, copies, eachParam_other isTable]
            exact ih stage

/-- What an action does, for its kind and its bits. -/
inductive ActionDone (lib : PostLibrary) (rawsql : Option Text) (original : List Rule)
    (state : PostState) (bits : List EngineBit)
    : ActionKind → Option Posted → Prop
  | faulty : ActionDone lib rawsql original state bits .faulty none
  | refused
    : ActionDone lib rawsql original state bits .refused
        (some { refused := true, state := state.marks bits })
  | idle
    : ActionDone lib rawsql original state bits .idle
        (some { refused := false, state := state.marks bits })
  | stuck {kind : ActionKind} (writes : kind = .writes ∨ kind = .unconnected)
    (stuck : ¬Writable lib rawsql state.rules)
    : ActionDone lib rawsql original state bits kind none
  | writes {next : PostState} (writable : Writable lib rawsql state.rules)
    (option : next.option = (state.marks bits).option)
    (touched : Touched lib rawsql original next.rules)
    : ActionDone lib rawsql original state bits .writes (some { refused := false, state := next })
  | unconnected {next : PostState} (writable : Writable lib rawsql state.rules)
    (option : next.option = (state.marks bits).option)
    (dropped : next.rules = (state.rules ++ (lib.sqlParse rawsql).toList).dropLast)
    : ActionDone lib rawsql original state bits .unconnected
        (some { refused := true, state := next })

theorem writeRule_done (set : Rule → Rule) (bit : EngineBit)
    (stage : Stage lib rawsql original state.rules)
    : (writeRule lib rawsql set (state.mark bit) = none ∧ ¬Writable lib rawsql state.rules)
      ∨ ∃ next,
          writeRule lib rawsql set (state.mark bit) = some next
          ∧ Writable lib rawsql state.rules
          ∧ next.option = (state.marks [bit]).option
          ∧ Touched lib rawsql original next.rules
          ∧ next.rules.dropLast = (state.rules ++ (lib.sqlParse rawsql).toList).dropLast := by
  have writable := @writeRule_isSome_iff lib rawsql (state.mark bit) set
  cases written : writeRule lib rawsql set (state.mark bit) with
  | none =>
      rw [written] at writable
      exact Or.inl ⟨rfl, fun now => by cases writable.mpr now⟩
  | some next =>
      rw [written] at writable
      obtain ⟨option, _, dropped, _⟩ := writeRule_writes written
      have marked : Stage lib rawsql original (state.mark bit).rules := stage
      exact Or.inr ⟨next, rfl, writable.mp rfl, option, marked.write written, dropped⟩

theorem postRepub_done (repub : Repub) (stage : Stage lib rawsql original state.rules)
    : ActionDone lib rawsql original state [.RPB] (repubKind repub)
        (postRepub lib rawsql repub (state.mark .RPB)) := by
  unfold repubKind postRepub
  split
  · dsimp only
    rcases writeRule_done _ .RPB stage with
      ⟨none, stuck⟩ | ⟨next, written, writable, option, touched, _⟩
    · rw [none]
      exact .stuck (Or.inl rfl) stuck
    · rw [written]
      exact .writes writable option touched
  · exact .refused

theorem postMysql_done (mysql : RuleMysql) (stage : Stage lib rawsql original state.rules)
    : ActionDone lib rawsql original state [.MDB] (mysqlKind lib mysql)
        (postMysql lib rawsql mysql (state.mark .MDB)) := by
  unfold mysqlKind postMysql
  split
  · rcases writeRule_done (fun rule => { rule with forwordType := .MYSOL, mysql := some mysql })
        .MDB stage with ⟨none, stuck⟩ | ⟨next, written, writable, option, touched, dropped⟩
    · rw [none]
      refine .stuck ?_ stuck
      split
      · exact Or.inl rfl
      · exact Or.inr rfl
    · rw [written, Option.map_some]
      split
      · exact .writes writable option touched
      · exact .unconnected writable option dropped
  · exact .refused

theorem postAction_done (action : RuleAction) (stage : Stage lib rawsql original state.rules)
    : ActionDone lib rawsql original state (actionBits action) (actionKind lib action)
        (postAction lib rawsql action state) := by
  cases action with
  | repub params =>
      unfold actionKind postAction
      dsimp only
      cases eachParam setRepubParam params lib.repubInit with
      | none => exact .faulty
      | some repub => exact postRepub_done repub stage
  | sqlite params =>
      have marked : Stage lib rawsql original (state.mark .SDB).rules := stage
      have done := eachParam_tables params marked
      unfold actionKind postAction
      dsimp only
      generalize eachParam (postSqliteParam lib rawsql) params (state.mark .SDB) = result at done ⊢
      generalize tablesReadable params = readable at done ⊢
      generalize (RuleAction.sqlite params).copies = copies at done ⊢
      cases done with
      | unreadable => exact .faulty
      | nothing => exact .idle
      | stuck readable stuck =>
          cases readable with
          | false => exact .faulty
          | true => exact .stuck (Or.inl rfl) stuck
      | written writable option touched => exact .writes writable option touched
  | mysql params =>
      unfold actionKind postAction
      dsimp only
      cases eachParam setMysqlParam params lib.mysqlInit with
      | none => exact .faulty
      | some mysql => exact postMysql_done mysql stage
  | unsupported => exact .idle

/-- The first element of `actions`. -/
def postChild (lib : PostLibrary) (rawsql : Option Text) (child : Option Text × CJson)
    (state : PostState)
    : Option Posted :=
  (readAction child.2).bind fun action => postAction lib rawsql action state

theorem postAll_cons (child : Option Text × CJson) (rest : List (Option Text × CJson))
    : postAll lib rawsql (child :: rest) state
      = (postChild lib rawsql child state).bind fun posted =>
          if posted.refused then some posted else postAll lib rawsql rest posted.state := by
  rw [postAll, postChild]
  cases readAction child.2 with
  | none => rfl
  | some action => rfl

theorem postChild_done (child : Option Text × CJson)
    (stage : Stage lib rawsql original state.rules)
    : ActionDone lib rawsql original state (childBits child) (childKind lib child)
        (postChild lib rawsql child state) := by
  unfold childBits childKind postChild
  cases readAction child.2 with
  | none => exact .faulty
  | some action => exact postAction_done action stage

end Action

-- All actions

/-- A refused request has left the engine as it was, and one that is not refused has a rule to
answer with.
-/
def CleanPost (cr : ConfRule) (posted : Posted) : Prop :=
  if posted.refused then posted.state.option = cr.option ∧ posted.state.rules = cr.rules
  else posted.state.rules ≠ []

theorem setBits_append (first second : List EngineBit) (option : EngineOption)
    : setBits (first ++ second) option = setBits second (setBits first option) := by
  simp [setBits]

def hasBit (bit : EngineBit) (option : EngineOption) : Bool :=
  match bit with
  | .SDB => option.sdb
  | .MDB => option.mdb
  | .RPB => option.rpb

/-- Setting bits changes nothing exactly if they are set. By induction on the bits: a bit that is
set stays set.
-/
theorem setBits_eq (bits : List EngineBit) (option : EngineOption)
    : setBits bits option
      = {
        option with
        sdb := option.sdb || bits.contains .SDB
        mdb := option.mdb || bits.contains .MDB
        rpb := option.rpb || bits.contains .RPB
      } := by
  induction bits generalizing option with
  | nil => simp [setBits]
  | cons bit rest ih =>
      rw [setBits, List.foldl_cons]
      have later := ih (setBit bit option)
      rw [setBits] at later
      rw [later]
      cases bit <;> simp [setBit]

theorem setBits_eq_self_iff {bits : List EngineBit} {option : EngineOption}
    : setBits bits option = option ↔ ∀ bit ∈ bits, hasBit bit option = true := by
  have or_self_iff (flag : Bool) (bit : EngineBit)
      : (flag || bits.contains bit) = flag ↔ (bit ∈ bits → flag = true) := by
    cases flag <;> simp
  obtain ⟨sdb, fdb, mdb, rpb⟩ := option
  simp only [setBits_eq, EngineOption.mk.injEq, or_self_iff, true_and]
  constructor
  · rintro ⟨isSdb, isMdb, isRpb⟩ bit member
    cases bit with
    | SDB => exact isSdb member
    | MDB => exact isMdb member
    | RPB => exact isRpb member
  · intro isSet
    exact ⟨isSet .SDB, isSet .MDB, isSet .RPB⟩

/-- All actions are applied, and there is a rule to answer with. -/
structure PostApplies (lib : PostLibrary) (rawsql : Option Text) (rules : List Rule)
    (children : List (Option Text × CJson))
    : Prop where
  kinds : ∀ child ∈ children, childKind lib child = .writes ∨ childKind lib child = .idle
  writable : (∃ child ∈ children, childKind lib child = .writes) → Writable lib rawsql rules
  answer : rules ≠ [] ∨ ∃ child ∈ children, childKind lib child = .writes

section Applies

variable {lib : PostLibrary} {rawsql : Option Text} {rules : List Rule}
variable {child : Option Text × CJson} {rest : List (Option Text × CJson)}

theorem postApplies_writes (writes : childKind lib child = .writes)
    : PostApplies lib rawsql rules (child :: rest)
      ↔ Writable lib rawsql rules
        ∧ ∀ other ∈ rest, childKind lib other = .writes ∨ childKind lib other = .idle := by
  constructor
  · intro applies
    exact
      ⟨applies.writable ⟨child, List.mem_cons_self, writes⟩,
        (List.forall_mem_cons.mp applies.kinds).2⟩
  · rintro ⟨writable, kinds⟩
    exact {
      kinds := List.forall_mem_cons.mpr ⟨Or.inl writes, kinds⟩
      writable := fun _ => writable
      answer := Or.inr ⟨child, List.mem_cons_self, writes⟩
    }

theorem postApplies_idle (idle : childKind lib child = .idle)
    : PostApplies lib rawsql rules (child :: rest) ↔ PostApplies lib rawsql rules rest := by
  have some_iff
      : (∃ other ∈ child :: rest, childKind lib other = .writes)
        ↔ ∃ other ∈ rest, childKind lib other = .writes := by
    simp [idle]
  constructor
  · intro applies
    exact {
      kinds := (List.forall_mem_cons.mp applies.kinds).2
      writable := fun writes => applies.writable (some_iff.mpr writes)
      answer := applies.answer.imp_right some_iff.mp
    }
  · intro applies
    exact {
      kinds := List.forall_mem_cons.mpr ⟨Or.inr idle, applies.kinds⟩
      writable := fun writes => applies.writable (some_iff.mp writes)
      answer := applies.answer.imp_right some_iff.mpr
    }

theorem not_postApplies (notWrites : childKind lib child ≠ .writes)
    (notIdle : childKind lib child ≠ .idle)
    : ¬PostApplies lib rawsql rules (child :: rest) := by
  intro applies
  rcases applies.kinds child List.mem_cons_self with writes | idle
  · exact notWrites writes
  · exact notIdle idle

end Applies

/-- An action is refused, and a rule that it has appended is taken back. -/
def Refuses (lib : PostLibrary) (rawsql : Option Text) (child : Option Text × CJson) : Prop :=
  childKind lib child = .refused
  ∨ childKind lib child = .unconnected ∧ rawsql.isSome ∧ (lib.sqlParse rawsql).isSome

/-- An action is refused behind others that do nothing but set bits; these are the bits that they
set.
-/
def RefusedAfter (lib : PostLibrary) (rawsql : Option Text)
    (children : List (Option Text × CJson)) (bits : List EngineBit)
    : Prop :=
  ∃ idle child rest,
    children = idle ++ child :: rest
    ∧ (∀ other ∈ idle, childKind lib other = .idle)
    ∧ Refuses lib rawsql child
    ∧ bits = (idle ++ [child]).flatMap childBits

theorem refusedAfter_nil (lib : PostLibrary) (rawsql : Option Text) (bits : List EngineBit)
    : ¬RefusedAfter lib rawsql [] bits := by
  rintro ⟨idle, child, rest, parts, _⟩
  simp at parts

theorem refusedAfter_cons {lib : PostLibrary} {rawsql : Option Text} {child : Option Text × CJson}
    {rest : List (Option Text × CJson)} {bits : List EngineBit}
    : RefusedAfter lib rawsql (child :: rest) bits
      ↔ (Refuses lib rawsql child ∧ bits = childBits child)
        ∨ (childKind lib child = .idle
          ∧ ∃ later, bits = childBits child ++ later ∧ RefusedAfter lib rawsql rest later) := by
  constructor
  · rintro ⟨idle, other, after, parts, allIdle, refuses, rfl⟩
    cases idle with
    | nil =>
        obtain ⟨rfl, rfl⟩ := List.cons.inj parts
        exact Or.inl ⟨refuses, by simp⟩
    | cons first idle =>
        obtain ⟨rfl, rfl⟩ := List.cons.inj parts
        obtain ⟨isIdle, othersIdle⟩ := List.forall_mem_cons.mp allIdle
        exact Or.inr ⟨isIdle, _, by simp, idle, other, after, rfl, othersIdle, refuses, rfl⟩
  · rintro (⟨refuses, rfl⟩ | ⟨isIdle, _, rfl, idle, other, after, rfl, allIdle, refuses, rfl⟩)
    · exact ⟨[], child, rest, rfl, by simp, refuses, by simp⟩
    · exact
        ⟨child :: idle, other, after, rfl, List.forall_mem_cons.mpr ⟨isIdle, allIdle⟩, refuses,
          by simp⟩

theorem refusedAfter_first {lib : PostLibrary} {rawsql : Option Text}
    {child : Option Text × CJson} {rest : List (Option Text × CJson)}
    (notIdle : childKind lib child ≠ .idle) (option target : EngineOption)
    : (∃ bits, RefusedAfter lib rawsql (child :: rest) bits ∧ setBits bits option = target)
      ↔ Refuses lib rawsql child ∧ setBits (childBits child) option = target := by
  simp [refusedAfter_cons, notIdle]

theorem refusedAfter_idle {lib : PostLibrary} {rawsql : Option Text}
    {child : Option Text × CJson} {rest : List (Option Text × CJson)}
    (idle : childKind lib child = .idle) (option target : EngineOption)
    : (∃ bits, RefusedAfter lib rawsql (child :: rest) bits ∧ setBits bits option = target)
      ↔ ∃ bits,
          RefusedAfter lib rawsql rest bits
          ∧ setBits bits (setBits (childBits child) option) = target := by
  simp only [refusedAfter_cons, Refuses, idle]
  constructor
  · rintro ⟨_, ⟨refuses, _⟩ | ⟨_, later, rfl, refused⟩, isTarget⟩
    · simp at refuses
    · exact ⟨later, refused, by rwa [setBits_append] at isTarget⟩
  · rintro ⟨later, refused, isTarget⟩
    exact ⟨_, Or.inr ⟨trivial, later, rfl, refused⟩, by rwa [setBits_append]⟩

section Run

variable {lib : PostLibrary} {rawsql : Option Text} {cr : ConfRule}
variable (fresh : ∀ n, ∀ rule ∈ cr.rules, rule.ruleId ≠ lib.ruleId n)

include fresh

/-- Once a rule was written, no later action may be refused. By induction on the actions. -/
theorem postAll_touched_iff (children : List (Option Text × CJson)) {state : PostState}
    (touched : Touched lib rawsql cr.rules state.rules) (sql : rawsql.isSome)
    : (∃ posted, postAll lib rawsql children state = some posted ∧ CleanPost cr posted)
      ↔ ∀ child ∈ children, childKind lib child = .writes ∨ childKind lib child = .idle := by
  induction children generalizing state with
  | nil =>
      refine ⟨fun _ => by simp, fun _ => ⟨_, rfl, ?_⟩⟩
      exact touched.nonempty
  | cons child rest ih =>
      rw [postAll_cons, List.forall_mem_cons]
      have done := @postChild_done lib rawsql cr.rules state child (Or.inr touched)
      generalize postChild lib rawsql child state = result at done ⊢
      generalize childKind lib child = kind at done ⊢
      cases done with
      | faulty => simp
      | refused => simpa [CleanPost] using fun _ => touched.ne fresh
      | idle => simpa using @ih (state.marks (childBits child)) touched
      | stuck _ stuck => exact absurd (touched.writable sql) stuck
      | writes _ _ nextTouched => simpa using ih nextTouched
      | unconnected _ _ dropped =>
          simpa [CleanPost, dropped] using fun _ => touched.dropped_ne fresh

/-- From a state in which nothing was written. By induction on the actions. -/
theorem postAll_clean_iff {children : List (Option Text × CJson)} {state : PostState}
    (same : state.rules = cr.rules)
    : (∃ posted, postAll lib rawsql children state = some posted ∧ CleanPost cr posted)
      ↔ PostApplies lib rawsql cr.rules children
        ∨ ∃ bits,
            RefusedAfter lib rawsql children bits ∧ setBits bits state.option = cr.option := by
  induction children generalizing state with
  | nil =>
      have answered
          : (∃ posted, postAll lib rawsql [] state = some posted ∧ CleanPost cr posted)
            ↔ cr.rules ≠ [] := by
        simp [postAll, CleanPost, same]
      rw [answered]
      constructor
      · intro nonempty
        exact Or.inl { kinds := by simp, writable := by simp, answer := Or.inl nonempty }
      · rintro (applies | ⟨bits, refused, _⟩)
        · simpa using applies.answer
        · exact absurd refused (refusedAfter_nil lib rawsql bits)
  | cons child rest ih =>
      rw [postAll_cons]
      have done := @postChild_done lib rawsql cr.rules state child (Or.inl same)
      generalize postChild lib rawsql child state = result at done ⊢
      generalize kindIs : childKind lib child = kind at done
      cases done with
      | faulty =>
          rw [refusedAfter_first (by simp [kindIs])]
          simp [Refuses, kindIs, not_postApplies]
      | refused =>
          rw [refusedAfter_first (by simp [kindIs])]
          simp [Refuses, kindIs, not_postApplies, CleanPost, same, PostState.marks]
      | idle =>
          rw [postApplies_idle kindIs, refusedAfter_idle kindIs]
          simpa using @ih (state.marks (childBits child)) same
      | stuck writes stuck =>
          rw [same] at stuck
          rcases writes with rfl | rfl
          · rw [postApplies_writes kindIs, refusedAfter_first (by simp [kindIs])]
            simp [Refuses, kindIs, stuck]
          · rw [refusedAfter_first (by simp [kindIs])]
            have unparsed : ¬(rawsql.isSome ∧ (lib.sqlParse rawsql).isSome) :=
              fun parsed => stuck ⟨parsed.1, Or.inr parsed.2⟩
            simp only [Refuses, kindIs, unparsed]
            simp [kindIs, not_postApplies]
      | writes writable option touched =>
          rw [postApplies_writes kindIs, refusedAfter_first (by simp [kindIs])]
          have later := postAll_touched_iff fresh rest touched writable.1
          simpa [Refuses, kindIs, same ▸ writable] using later
      | unconnected writable option dropped =>
          rw [refusedAfter_first (by simp [kindIs])]
          have restored := (same ▸ writable).dropped_eq_iff
          rw [same] at dropped
          simp [Refuses, kindIs, not_postApplies, CleanPost, dropped, option, restored, writable.1,
            and_comm]

end Run

theorem answerPosted_clean_iff {cr : ConfRule} {posted : Posted}
    : (∃ answer after,
        answerPosted posted = some (answer, after)
        ∧ ((∃ code, answer = .badRequest code) → after = cr))
      ↔ CleanPost cr posted := by
  obtain ⟨refused, option, rules, generated⟩ := posted
  obtain ⟨oldOption, oldRules⟩ := cr
  unfold answerPosted CleanPost
  cases refused with
  | true => simp
  | false =>
      cases isLast : rules.getLast? with
      | none => simp [List.getLast?_eq_none_iff.mp isLast]
      | some last =>
          have nonempty : rules ≠ [] := by
            rintro rfl
            cases isLast
          simp [nonempty]

/-- Exactly these creations are answered with nothing changed where they are refused: all actions
are applied, or the first one that does more than set bits is refused, and the bits up to it were
set before.
-/
theorem refused_creation_changes_nothing_iff (lib : PostLibrary) (cr : ConfRule)
    (fresh : ∀ n, ∀ rule ∈ cr.rules, rule.ruleId ≠ lib.ruleId n) (req : Option CJson)
    : (∃ answer after,
        postRules lib cr req = some (answer, after)
        ∧ ((∃ code, answer = .badRequest code) → after = cr))
      ↔ ∀ members,
          req = some (.object members)
          → let body := CJson.object members
            let rawsql := body.getStringValue (lit "rawsql")
            let children := CJson.children (body.getObjectItem (lit "actions"))
            PostApplies lib rawsql cr.rules children
            ∨ ∃ bits,
                RefusedAfter lib rawsql children bits
                ∧ ∀ bit ∈ bits, hasBit bit cr.option = true := by
  cases req with
  | none => simp [postRules]
  | some json =>
      cases json with
      | object members =>
          have clean :=
            @postAll_clean_iff lib ((CJson.object members).getStringValue (lit "rawsql")) cr fresh
              (CJson.children ((CJson.object members).getObjectItem (lit "actions")))
              { option := cr.option, rules := cr.rules, generated := 0 } rfl
          simp only [setBits_eq_self_iff] at clean
          simp only [Option.some.injEq, CJson.object.injEq, forall_eq']
          rw [← clean, postRules]
          simp only [← answerPosted_clean_iff]
          cases postAll lib ((CJson.object members).getStringValue (lit "rawsql"))
              (CJson.children ((CJson.object members).getObjectItem (lit "actions")))
              { option := cr.option, rules := cr.rules, generated := 0 } with
          | none => simp
          | some posted => simp
      | null => simp [postRules]
      | bool value => simp [postRules]
      | number value => simp [postRules]
      | string text => simp [postRules]
      | array items => simp [postRules]

/-- Every statement appends a rule, and the ids start at 10. -/
def appendingLibrary : PostLibrary :=
  {
    plainLibrary with
    sqlParse := fun _ => some (tableRule 0)
    ruleId := fun n => 10 + n
    mysqlCheck := fun _ => true
    clientMysql := fun _ => true
  }

/-- An action to republish without an address. -/
def noAddress : CJson :=
  .object
    [(lit "name", .string (lit "repub")),
      (lit "params", .object [(lit "topic", .string (lit "x"))])]

/-- An action for a table. -/
def intoTable : CJson :=
  .object
    [(lit "name", .string (lit "sqlite")),
      (lit "params", .object [(lit "table", .string (lit "x"))])]

def creation (actions : List CJson) : CJson :=
  .object [(lit "rawsql", .string (lit "SELECT * FROM t")), (lit "actions", .array actions)]

/-- The only action is refused, and other rules are republished already. -/
theorem refused_first_action
    : ∃ answer after,
        postRules appendingLibrary
            { option := { noOptions with rpb := true }, rules := [tableRule 1] }
            (some (creation [noAddress]))
          = some (answer, after)
        ∧ ((∃ code, answer = .badRequest code)
          → after = { option := { noOptions with rpb := true }, rules := [tableRule 1] }) := by
  refine
    (refused_creation_changes_nothing_iff appendingLibrary
      { option := { noOptions with rpb := true }, rules := [tableRule 1] } ?_ _).mpr ?_
  · intro n rule member
    obtain rfl := List.mem_singleton.mp member
    change 1 ≠ 10 + n
    omega
  · intro members isBody
    obtain rfl := CJson.object.inj (Option.some.inj isBody)
    refine Or.inr ⟨[.RPB], ⟨[], (none, noAddress), [], rfl, by simp, Or.inl ?_, rfl⟩, by decide⟩
    decide +kernel

/-- Refused at the second action: the rule of the first one stays, as do the new bits. Without
any rule there is none to answer with.
-/
theorem refused_second_action
    : (postRules appendingLibrary { option := noOptions, rules := [tableRule 1] }
          (some (creation [intoTable, noAddress]))).map
          (fun posted => (posted.1, posted.2.option, posted.2.rules.map Rule.ruleId))
        = some
            (.badRequest .MISSING_KEY_REQUEST_PARAMES,
              { noOptions with sdb := true, rpb := true }, [1, 10])
      ∧ (postRules appendingLibrary { option := noOptions, rules := [] }
          (some (creation []))).isNone := by
  decide +kernel

end NanoMQ.Rest
