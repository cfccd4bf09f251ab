import NanoMQ.Rest.RuleUpdates

/-! An acknowledged update against what is stored. After an update with a statement the answer is
read from the place behind the end of the vector, so the stored rule can differ from it.
-/

namespace NanoMQ.Rest

open Rules

/-- The forward type that an action sets. -/
def RuleAction.forwordType : RuleAction → Option ForwordType
  | .repub _ => some .REPUB
  | .sqlite _ => some .SQLITE
  | .mysql _ => some .MYSOL
  | .unsupported => none

/-- What was acknowledged holds: a following request reports the same, `enabled` is what the body
gives, and every stored rule of this id forwards as the last action says.
-/
structure UpdateInForce (body : CJson) (id : Nat) (data : RuleInfo) (cr : ConfRule) : Prop where
  reported : getRules cr id = .succeed data
  enabled
    : ∀ given, body.getObjectItem (lit "enabled") = some given → data.enabled = given.isTrue
  forwards
    : ∀ action,
        lastForward (bodyActions body) = some action
        → ∀ rule ∈ cr.rules, rule.ruleId = id → action.InForce rule

/-- The last action of the body asks for no clean start. -/
def NoCleanStart (body : CJson) : Prop :=
  ∀ action, lastForward (bodyActions body) = some action → action.asksCleanStart = false

/-- A body with a statement keeps to what the stored copy has: `enabled` is true unless a table
is set, and the last action keeps the type of the old rule, or SQLite if a table is set.
-/
structure KeepsStored (old : Rule) (body : CJson) : Prop where
  enabled
    : ∀ given,
        body.getObjectItem (lit "enabled") = some given
        → given.isTrue = true ∨ (bodyActions body).any RuleAction.copies = true
  forwards
    : ∀ action,
        lastForward (bodyActions body) = some action
        → action.forwordType
          = some
              (if (bodyActions body).any RuleAction.copies then .SQLITE else old.forwordType)

-- An action on the rule and on its copy

theorem lastForward_mem {actions : List RuleAction} {action : RuleAction}
    (last : lastForward actions = some action)
    : action ∈ actions ∧ action.supported = true := by
  induction actions with
  | nil => cases last
  | cons first rest ih =>
      rw [lastForward] at last
      cases later : lastForward rest with
      | some other =>
          rw [later, Option.some_or] at last
          obtain ⟨member, supported⟩ := ih (later.trans last)
          exact ⟨List.mem_cons_of_mem _ member, supported⟩
      | none =>
          rw [later, Option.none_or] at last
          split at last
          · rename_i supported
            obtain rfl := Option.some.inj last
            exact ⟨List.mem_cons_self, supported⟩
          · cases last

theorem copies_of_lastGiven {params : List (Option Text × CJson)} {table : Text}
    (given : lastGiven (lit "table") params = some table)
    : (RuleAction.sqlite params).copies = true := by
  induction params with
  | nil => cases given
  | cons param rest ih =>
      rw [lastGiven] at given
      cases later : lastGiven (lit "table") rest with
      | some other =>
          have copies := ih (later.trans (by rwa [later, Option.some_or] at given))
          simp only [RuleAction.copies, List.any_cons, Bool.or_eq_true] at copies ⊢
          exact Or.inr copies
      | none =>
          rw [later, Option.none_or] at given
          split at given
          · rename_i isTable
            simp [RuleAction.copies, isTable]
          · cases given

theorem RuleAction.InForce.type {action : RuleAction} {rule : Rule}
    (inForce : action.InForce rule) (supported : action.supported = true)
    : action.forwordType = some rule.forwordType := by
  cases action with
  | repub params => exact congrArg some inForce.1.symm
  | sqlite params => exact congrArg some inForce.1.symm
  | mysql params => exact congrArg some inForce.1.symm
  | unsupported => cases supported

/-- A copy of the right type holds what was written to the rule, if the table was copied with
it.
-/
theorem RuleAction.Written.mirror {action : RuleAction} {new last : Rule}
    (written : action.Written new) (mirror : Mirror new last) (target : last.HasTarget)
    (type : action.forwordType = some last.forwordType)
    (table : action.copies = true → last.sqliteTable = new.sqliteTable)
    : action.Written last := by
  cases action with
  | repub params =>
      have isType : last.forwordType = .REPUB := (Option.some.inj type).symm
      obtain ⟨_, repub, isRepub, holds⟩ := written
      exact ⟨isType, repub, (mirror.repub (target.repub isType)).trans isRepub, holds⟩
  | sqlite params =>
      refine ⟨(Option.some.inj type).symm, ?_⟩
      intro text given
      rw [table (copies_of_lastGiven given)]
      exact written.2 text given
  | mysql params =>
      have isType : last.forwordType = .MYSOL := (Option.some.inj type).symm
      obtain ⟨_, mysql, isMysql, texts⟩ := written
      exact ⟨isType, mysql, (mirror.mysql (target.mysql isType)).trans isMysql, texts⟩
  | unsupported => trivial

theorem TableCopy.inForce_iff {action : RuleAction} {new last : Rule}
    (tableCopy : TableCopy new last) (mirror : Mirror new last) (written : action.Written new)
    (supported : action.supported = true)
    : action.InForce last
      ↔ action.forwordType = some .SQLITE ∧ action.asksCleanStart = false := by
  have copied (type : action.forwordType = some .SQLITE) : action.Written last :=
    written.mirror mirror (.of_sqlite tableCopy.forwordType)
      (type.trans (by rw [tableCopy.forwordType])) fun _ => tableCopy.sqliteTable
  constructor
  · intro inForce
    have type := inForce.type supported
    rw [tableCopy.forwordType] at type
    exact ⟨type, (copied type).inForce_iff.mp inForce⟩
  · rintro ⟨type, notAsked⟩
    exact (copied type).inForce_iff.mpr notAsked

-- The stored rules

section Stored

variable {body : CJson} {before after : List Rule} {old : Rule} {answer : RuleAnswer}
variable {started final : RuleEdit} {cr : ConfRule} {data : RuleInfo}

namespace Updates

section Outcome

variable {rules : List Rule}
  (updates : Updates body before old after answer rules started final)

include updates

theorem enabled_given {given : CJson}
    (isGiven : body.getObjectItem (lit "enabled") = some given)
    : final.new.enabled = given.isTrue := by
  have enabled := congrArg RuleInfo.enabled updates.outcome.info
  rw [isGiven] at enabled
  exact enabled

theorem enabled_kept
    (notGiven : body.getObjectItem (lit "enabled") = none)
    : final.new.enabled = started.new.enabled := by
  have enabled := congrArg RuleInfo.enabled updates.outcome.info
  rw [notGiven] at enabled
  exact enabled

theorem uncopied_last
    (sql : (body.getObjectItem (lit "rawsql")).isSome)
    (uncopied : (bodyActions body).any RuleAction.copies = false) {last : Rule}
    (isLast : final.last = some last)
    : last.enabled = true
      ∧ last.forwordType = old.forwordType
      ∧ (old.HasTarget → last.HasTarget) := by
  obtain ⟨_, isNew, enabled, type⟩ := updates.starts.appended sql
  have shape := (updates.kept uncopied).shape
  rw [isLast, isNew] at shape
  have same : ruleShape last = ruleShape started.new := Option.some.inj shape
  simp only [ruleShape, Prod.mk.injEq] at same
  obtain ⟨sameEnabled, sameType, sameRepub, sameMysql⟩ := same
  refine ⟨sameEnabled.trans enabled, sameType.trans type, ?_⟩
  intro target
  have newTarget := updates.starts.target target
  constructor
  · intro isType
    rw [sameRepub]
    exact newTarget.repub (sameType ▸ isType)
  · intro isType
    rw [sameMysql]
    exact newTarget.mysql (sameType ▸ isType)

theorem last_inForce_iff
    (sql : (body.getObjectItem (lit "rawsql")).isSome) (target : old.HasTarget) {last : Rule}
    (mirrors : final.mirrors = true) (isLast : final.last = some last) {action : RuleAction}
    (isAction : lastForward (bodyActions body) = some action)
    : action.InForce last
      ↔ action.forwordType
          = some
              (if (bodyActions body).any RuleAction.copies then .SQLITE else old.forwordType)
        ∧ action.asksCleanStart = false := by
  have mirror := updates.mirror mirrors isLast
  have written := updates.outcome.written action isAction
  obtain ⟨member, supported⟩ := lastForward_mem isAction
  cases copies : (bodyActions body).any RuleAction.copies with
  | true =>
      rw [((updates.copied copies).2 last isLast).inForce_iff mirror written supported]
      simp
  | false =>
      obtain ⟨_, type, lastTarget⟩ := updates.uncopied_last sql copies isLast
      have uncopied := List.any_eq_false.mp copies action member
      have kept (sameType : action.forwordType = some last.forwordType)
          : action.Written last :=
        written.mirror mirror (lastTarget target) sameType fun now => absurd now uncopied
      simp only [Bool.false_eq_true, if_false, ← type]
      constructor
      · intro inForce
        have sameType := inForce.type supported
        exact ⟨sameType, (kept sameType).inForce_iff.mp inForce⟩
      · rintro ⟨sameType, notAsked⟩
        exact (kept sameType).inForce_iff.mpr notAsked

theorem last_enabled_iff
    (sql : (body.getObjectItem (lit "rawsql")).isSome) {last : Rule}
    (isLast : final.last = some last)
    : last.enabled = final.new.enabled
      ↔ ∀ given,
          body.getObjectItem (lit "enabled") = some given
          → given.isTrue = true ∨ (bodyActions body).any RuleAction.copies = true := by
  cases copies : (bodyActions body).any RuleAction.copies with
  | true => simp [((updates.copied copies).2 last isLast).enabled]
  | false =>
      obtain ⟨enabled, _⟩ := updates.uncopied_last sql copies isLast
      rw [enabled]
      cases isGiven : body.getObjectItem (lit "enabled") with
      | none =>
          obtain ⟨_, _, startEnabled, _⟩ := updates.starts.appended sql
          simp [updates.enabled_kept isGiven, startEnabled]
      | some given =>
          rw [eq_comm, updates.enabled_given isGiven]
          simp

end Outcome

/-- With a statement: the new rule is stored as acknowledged exactly if the body keeps to what
the copy has.
-/
theorem appended_inForce_iff
    (updates : Updates body before old after (.succeed data) cr.rules started final)
    (others : ∀ rule ∈ before ++ after, rule.ruleId ≠ old.ruleId) (target : old.HasTarget)
    (sql : (body.getObjectItem (lit "rawsql")).isSome)
    : UpdateInForce body old.ruleId data cr ↔ NoCleanStart body ∧ KeepsStored old body := by
  obtain ⟨mirrors, last, isLast, isRules⟩ := updates.rules_appended sql
  have mirror := updates.mirror mirrors isLast
  have lastId := updates.last_ruleId mirrors isLast
  have isData : data = ruleInfo final.new := RuleAnswer.succeed.inj updates.isAnswer
  have found : getRules cr old.ruleId = .succeed (ruleInfo last) := by
    have split := @findRule_append (before ++ after) [] last (lastId ▸ others)
    rw [lastId] at split
    rw [getRules, isRules, split]
  -- Only `enabled` can differ between the stored rule and the one that was reported.
  have reported_iff
      : getRules cr old.ruleId = .succeed data ↔ last.enabled = final.new.enabled := by
    rw [found, isData]
    simp [ruleInfo, mirror.rawSql, mirror.ruleId]
  constructor
  · intro inForce
    have forwards (action : RuleAction) (isAction : lastForward (bodyActions body) = some action) :=
      (updates.last_inForce_iff sql target mirrors isLast isAction).mp
        (inForce.forwards action isAction last (by simp [isRules]) lastId)
    refine ⟨fun action isAction => (forwards action isAction).2, ?_⟩
    exact {
      enabled := (updates.last_enabled_iff sql isLast).mp (reported_iff.mp inForce.reported)
      forwards := fun action isAction => (forwards action isAction).1
    }
  · rintro ⟨noCleanStart, keeps⟩
    refine {
      reported := reported_iff.mpr ((updates.last_enabled_iff sql isLast).mpr keeps.enabled)
      enabled := fun given isGiven => by rw [isData]; exact updates.enabled_given isGiven
      forwards := ?_
    }
    intro action isAction rule member isId
    rw [isRules] at member
    rcases List.mem_append.mp member with other | isNew
    · exact absurd isId (others rule other)
    · obtain rfl := List.mem_singleton.mp isNew
      exact (updates.last_inForce_iff sql target mirrors isLast isAction).mpr
        ⟨keeps.forwards action isAction, noCleanStart action isAction⟩

/-- Without a statement: the rule is stored as acknowledged, but a copy of it at the end has the
type of a table.
-/
theorem inPlace_inForce_iff
    (updates : Updates body before old after (.succeed data) cr.rules started final)
    (others : ∀ rule ∈ before ++ after, rule.ruleId ≠ old.ruleId)
    (noSql : body.getObjectItem (lit "rawsql") = none)
    : UpdateInForce body old.ruleId data cr
      ↔ NoCleanStart body
        ∧ (after = []
          ∨ (bodyActions body).any RuleAction.copies = false
          ∨ ∀ action,
              lastForward (bodyActions body) = some action
              → action.forwordType = some .SQLITE) := by
  have isData : data = ruleInfo final.new := RuleAnswer.succeed.inj updates.isAnswer
  have newId := updates.new_ruleId
  obtain ⟨othersBefore, othersAfter⟩ := List.forall_mem_append.mp others
  have found : getRules cr old.ruleId = .succeed data := by
    have split := @findRule_append before (after.dropLast ++ final.last.toList) final.new
      (newId ▸ othersBefore)
    rw [newId] at split
    rw [getRules, updates.rules_inPlace noSql, split, isData]
  constructor
  · intro inForce
    refine ⟨?_, ?_⟩
    · intro action isAction
      refine (updates.outcome.written action isAction).inForce_iff.mp ?_
      exact inForce.forwards action isAction final.new (by simp [updates.rules_inPlace noSql]) newId
    by_contra none
    simp only [not_or, Bool.not_eq_false] at none
    obtain ⟨more, copies, otherType⟩ := none
    obtain ⟨last, isLast, isRules, tableCopy⟩ := updates.rules_copied noSql more copies
    have mirrors := (updates.copied copies).1
    apply otherType
    intro action isAction
    have copyInForce := inForce.forwards action isAction last (by simp [isRules])
      (updates.last_ruleId mirrors isLast)
    exact ((tableCopy.inForce_iff (updates.mirror mirrors isLast)
      (updates.outcome.written action isAction) (lastForward_mem isAction).2).mp copyInForce).1
  · rintro ⟨noCleanStart, condition⟩
    refine {
      reported := found
      enabled := fun given isGiven => by rw [isData]; exact updates.enabled_given isGiven
      forwards := ?_
    }
    intro action isAction rule member isId
    have written := updates.outcome.written action isAction
    have newInForce := written.inForce_iff.mpr (noCleanStart action isAction)
    have notBefore : rule ∉ before := fun other => othersBefore rule other isId
    have notAfter : rule ∉ after := fun other => othersAfter rule other isId
    by_cases alone : after = []
    · rw [updates.rules_alone noSql alone, List.mem_append, List.mem_singleton] at member
      obtain rfl := member.resolve_left notBefore
      exact newInForce
    cases copies : (bodyActions body).any RuleAction.copies with
    | false =>
        rw [updates.rules_uncopied noSql copies, List.mem_append, List.mem_cons] at member
        obtain rfl := (member.resolve_left notBefore).resolve_right notAfter
        exact newInForce
    | true =>
        have type := (condition.resolve_left alone).resolve_left (by simp [copies])
        obtain ⟨last, isLast, isRules, tableCopy⟩ := updates.rules_copied noSql alone copies
        have notFront : rule ∉ after.dropLast :=
          fun other => notAfter (List.mem_of_mem_dropLast other)
        rw [isRules, List.mem_append, List.mem_cons, List.mem_append, List.mem_singleton] at member
        rcases member.resolve_left notBefore with rfl | copy
        · exact newInForce
        · obtain rfl := copy.resolve_left notFront
          exact (tableCopy.inForce_iff (updates.mirror (updates.copied copies).1 isLast) written
            (lastForward_mem isAction).2).mpr
            ⟨type action isAction, noCleanStart action isAction⟩

theorem targets {rules : List Rule}
    (updates : Updates body before old after answer rules started final)
    (targets : ∀ rule ∈ before ++ old :: after, rule.HasTarget)
    : ∀ rule ∈ rules, rule.HasTarget := by
  obtain ⟨ofBefore, ofOthers⟩ := List.forall_mem_append.mp targets
  obtain ⟨ofOld, ofAfter⟩ := List.forall_mem_cons.mp ofOthers
  have ofNew : final.new.HasTarget :=
    updates.outcome.target (RuleEdit.setEnabled_target _ (updates.starts.target ofOld))
  have ofCopy (copies : (bodyActions body).any RuleAction.copies = true) {last : Rule}
      (isLast : final.last = some last)
      : last.HasTarget :=
    .of_sqlite ((updates.copied copies).2 last isLast).forwordType
  cases sql : body.getObjectItem (lit "rawsql") with
  | some statement =>
      have given : (body.getObjectItem (lit "rawsql")).isSome := by rw [sql]; rfl
      obtain ⟨_, last, isLast, isRules⟩ := updates.rules_appended given
      have ofLast : last.HasTarget := by
        cases copies : (bodyActions body).any RuleAction.copies with
        | true => exact ofCopy copies isLast
        | false => exact (updates.uncopied_last given copies isLast).2.2 ofOld
      rw [isRules]
      simpa [or_imp, forall_and] using ⟨ofBefore, ofAfter, ofLast⟩
  | none =>
      by_cases alone : after = []
      · rw [updates.rules_alone sql alone]
        simpa [or_imp, forall_and] using ⟨ofBefore, ofNew⟩
      cases copies : (bodyActions body).any RuleAction.copies with
      | false =>
          rw [updates.rules_uncopied sql copies]
          exact List.forall_mem_append.mpr ⟨ofBefore, List.forall_mem_cons.mpr ⟨ofNew, ofAfter⟩⟩
      | true =>
          obtain ⟨last, isLast, isRules, _⟩ := updates.rules_copied sql alone copies
          have ofFront : ∀ rule ∈ after.dropLast, rule.HasTarget :=
            fun rule member => ofAfter rule (List.mem_of_mem_dropLast member)
          rw [isRules]
          simpa [or_imp, forall_and] using ⟨ofBefore, ofNew, ofFront, ofCopy copies isLast⟩

end Updates

end Stored

theorem TouchesOnly.distinct {id : Nat} {rules updated : List Rule}
    (touches : TouchesOnly id rules updated) (distinct : (rules.map Rule.ruleId).Nodup)
    : (updated.map Rule.ruleId).Nodup := by
  rw [List.nodup_iff_count_le_one] at distinct ⊢
  intro other
  by_cases isId : other = id
  · rw [isId, List.count, List.countP_map]
    exact Nat.le_of_eq touches.single
  · have counts (list : List Rule)
        : (list.map Rule.ruleId).count other
          = ((list.filter fun rule => rule.ruleId != id).map Rule.ruleId).count other := by
      simp only [List.count, List.countP_map, List.countP_filter]
      apply List.countP_congr
      intro rule _
      simp only [Function.comp_apply, beq_iff_eq, Bool.and_eq_true, bne_iff_ne]
      exact ⟨fun same => ⟨same, fun now => isId (same.symm.trans now)⟩, fun both => both.1⟩
    rw [counts, touches.others, ← counts]
    exact distinct other

/-- A vector of rules stays one under updates that touch only their rule. -/
theorem RuleVector.update {lib : RuleLibrary} {sqlParse : Text → Rule} {option : EngineOption}
    (vector : RuleVector) {before after : List Rule} {old : Rule}
    (split : vector.rules = before ++ old :: after) {members : List (Text × CJson)}
    {answer : RuleAnswer} {cr : ConfRule}
    (answered
      : putRules lib sqlParse { option, rules := vector.rules } (some (.object members)) old.ruleId
        = some (answer, cr))
    (touches : TouchesOnly old.ruleId vector.rules cr.rules)
    : ∃ updated : RuleVector, updated.rules = cr.rules := by
  have distinct := touches.distinct vector.distinct
  have oldTargets := vector.targets
  obtain ⟨othersBefore, _⟩ := vector.others split
  rw [split] at answered oldTargets
  obtain ⟨started, final, updates⟩ := putRules_updates othersBefore answered
  exact ⟨{ rules := cr.rules, distinct, targets := updates.targets oldTargets }, rfl⟩

/-- Exactly these acknowledged updates are in force: those that ask for no clean start and, with
a statement, keep to what is stored, without one, leave no copy of another type.
-/
theorem acknowledged_in_force_iff (lib : RuleLibrary) (sqlParse : Text → Rule)
    (option : EngineOption) (vector : RuleVector) {before after : List Rule} {old : Rule}
    (split : vector.rules = before ++ old :: after) (body : CJson) {data : RuleInfo}
    {cr : ConfRule}
    (answered
      : putRules lib sqlParse { option, rules := vector.rules } (some body) old.ruleId
        = some (.succeed data, cr))
    : UpdateInForce body old.ruleId data cr
      ↔ NoCleanStart body
        ∧ if (body.getObjectItem (lit "rawsql")).isSome then KeepsStored old body
          else
            after = []
            ∨ (bodyActions body).any RuleAction.copies = false
            ∨ ∀ action,
                lastForward (bodyActions body) = some action
                → action.forwordType = some .SQLITE := by
  obtain ⟨members, rfl⟩ : ∃ members, body = .object members := by
    cases body with
    | object members => exact ⟨members, rfl⟩
    | null => cases answered
    | bool value => cases answered
    | number value => cases answered
    | string text => cases answered
    | array items => cases answered
  obtain ⟨othersBefore, othersAfter⟩ := vector.others split
  have others : ∀ rule ∈ before ++ after, rule.ruleId ≠ old.ruleId :=
    List.forall_mem_append.mpr ⟨othersBefore, othersAfter⟩
  have target : old.HasTarget := vector.targets old (by simp [split])
  rw [split] at answered
  obtain ⟨started, final, updates⟩ := putRules_updates othersBefore answered
  split
  · rename_i sql
    exact updates.appended_inForce_iff others target sql
  · rename_i noSql
    exact updates.inPlace_inForce_iff others (Option.not_isSome_iff_eq_none.mp noSql)

/-- Without a statement the rule is disabled as acknowledged. -/
theorem disabling_in_force
    : ∃ data cr,
        putRules plainLibrary (fun _ => tableRule 0)
            { option := noOptions, rules := [tableRule 1, tableRule 2] }
            (some (.object [(lit "enabled", .bool false)])) 1
          = some (.succeed data, cr)
        ∧ data.enabled = false
        ∧ UpdateInForce (.object [(lit "enabled", .bool false)]) 1 data cr := by
  have split : twoRules.rules = [] ++ tableRule 1 :: [tableRule 2] := rfl
  refine ⟨_, _, rfl, rfl, ?_⟩
  refine (acknowledged_in_force_iff plainLibrary (fun _ => tableRule 0) noOptions twoRules split
    (.object [(lit "enabled", .bool false)]) rfl).mpr ⟨?_, Or.inr (Or.inl rfl)⟩
  intro action isAction
  cases isAction

/-- With a statement the answer says that the rule is disabled, and the stored rule is not. -/
theorem disabling_not_stored
    : let body :=
        CJson.object
          [(lit "rawsql", .string (lit "SELECT * FROM t")), (lit "enabled", .bool false)]
      (putRules plainLibrary (fun _ => tableRule 0)
          { option := noOptions, rules := [tableRule 1, tableRule 2] } (some body) 1).map
          (fun answered => (answered.1, getRules answered.2 1))
        = some
            (.succeed { rawsql := some (lit "SELECT * FROM t"), id := 1, enabled := false },
              .succeed { rawsql := some (lit "SELECT * FROM t"), id := 1, enabled := true }) := by
  decide +kernel

end NanoMQ.Rest
