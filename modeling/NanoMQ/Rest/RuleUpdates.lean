import NanoMQ.Rest.PutRules

/-! What an update of a rule leaves behind: which rules `put_rules` touches, and whether the
stored rule is the one that it has answered with.
-/

namespace NanoMQ.Rest

open Rules

-- What a body asks for

/-- An action that assigns to the last rule of the vector. -/
def RuleAction.copies : RuleAction → Bool
  | .sqlite params => params.any fun param => param.1.any (sameName · (lit "table"))
  | _ => false

def RuleAction.supported : RuleAction → Bool
  | .unsupported => false
  | _ => true

/-- The last action that has a forward type. -/
def lastForward : List RuleAction → Option RuleAction
  | [] => none
  | action :: rest => (lastForward rest).or (if action.supported then some action else none)

/-- The actions of a body. -/
def bodyActions (body : CJson) : List RuleAction :=
  (CJson.children (body.getObjectItem (lit "actions"))).filterMap fun child => readAction child.2

/-- A target has the texts and numbers that the parameters give, and the clean start that is
read from the last one.
-/
structure Repub.Holds (reads : CJson → Bool) (params : List (Option Text × CJson))
    (repub : Repub)
    : Prop where
  texts
    : ∀ key text, lastGiven (repubWord key) params = some text → repub.texts key = some text
  protoVer
    : ∀ number,
        lastParam (lit "proto_ver") params = some (.number number)
        → repub.protoVer = number.valueint
  keepalive
    : ∀ number,
        lastParam (lit "keepalive") params = some (.number number)
        → repub.keepalive = number.valueint
  cleanStart
    : ∀ given,
        lastParam (lit "clean_start") params = some given → repub.cleanStart = reads given

/-- A rule has the forward type of an action, and the target that the action gives, where a
clean start is read like this.
-/
def RuleAction.Stored (reads : CJson → Bool) (rule : Rule) : RuleAction → Prop
  | .repub params =>
      rule.forwordType = .REPUB
      ∧ ∃ repub, rule.repub = some repub ∧ Repub.Holds reads params repub
  | .sqlite params =>
      rule.forwordType = .SQLITE
      ∧ ∀ text, lastGiven (lit "table") params = some text → rule.sqliteTable = some text
  | .mysql params =>
      rule.forwordType = .MYSOL
      ∧ ∃ mysql,
          rule.mysql = some mysql
          ∧ ∀ key text, lastGiven (mysqlWord key) params = some text → mysql.texts key = some text
  | .unsupported => True

/-- A rule has the forward type and the target of an action. -/
def RuleAction.InForce (rule : Rule) (action : RuleAction) : Prop :=
  action.Stored CJson.saysTrue rule

/-- What an action leaves in a rule: no clean start, whatever was said. -/
def RuleAction.Written (rule : Rule) (action : RuleAction) : Prop :=
  action.Stored (fun _ => false) rule

/-- The action asks for a clean start. -/
def RuleAction.asksCleanStart : RuleAction → Bool
  | .repub params => (lastParam (lit "clean_start") params).any CJson.saysTrue
  | _ => false

/-- What was written is in force exactly if no clean start was asked for. -/
theorem RuleAction.Written.inForce_iff {rule : Rule} {action : RuleAction}
    (written : action.Written rule)
    : action.InForce rule ↔ action.asksCleanStart = false := by
  cases action with
  | repub params =>
      obtain ⟨type, repub, isRepub, holds⟩ := written
      constructor
      · rintro ⟨_, other, isOther, inForce⟩
        obtain rfl := Option.some.inj (isRepub.symm.trans isOther)
        cases given : lastParam (lit "clean_start") params with
        | none => simp [asksCleanStart, given]
        | some value =>
            have said := (inForce.cleanStart value given).symm.trans (holds.cleanStart value given)
            simpa [asksCleanStart, given] using said
      · intro notAsked
        refine ⟨type, repub, isRepub, { holds with cleanStart := ?_ }⟩
        intro given isGiven
        rw [asksCleanStart, isGiven] at notAsked
        exact (holds.cleanStart given isGiven).trans notAsked.symm
  | sqlite params => exact iff_of_true written rfl
  | mysql params => exact iff_of_true written rfl
  | unsupported => exact iff_of_true written rfl

-- The rule and its copy

/-- A copy shares its texts and its targets with the rule. -/
structure Mirror (new last : Rule) : Prop where
  rawSql : last.rawSql = new.rawSql
  ruleId : last.ruleId = new.ruleId
  repub : last.repub.isSome → last.repub = new.repub
  mysql : last.mysql.isSome → last.mysql = new.mysql

theorem Mirror.refl (rule : Rule) : Mirror rule rule :=
  { rawSql := rfl, ruleId := rfl, repub := fun _ => rfl, mysql := fun _ => rfl }

/-- A copy that was made for a table has kept the forward type of that time. -/
structure TableCopy (new last : Rule) : Prop where
  forwordType : last.forwordType = .SQLITE
  sqliteTable : last.sqliteTable = new.sqliteTable
  enabled : last.enabled = new.enabled

/-- What of a rule does not change when its targets are written to. -/
def ruleShape (rule : Rule) : Bool × ForwordType × Bool × Bool :=
  (rule.enabled, rule.forwordType, rule.repub.isSome, rule.mysql.isSome)

namespace RuleEdit

def Shared (edit : RuleEdit) : Prop :=
  edit.mirrors = true → ∀ last, edit.last = some last → Mirror edit.new last

def Copied (edit : RuleEdit) : Prop :=
  edit.mirrors = true ∧ ∀ last, edit.last = some last → TableCopy edit.new last

/-- Nothing was assigned to the last rule. -/
structure LastKept (edit next : RuleEdit) : Prop where
  mirrors : next.mirrors = edit.mirrors
  shape : next.last.map ruleShape = edit.last.map ruleShape
  same : edit.mirrors = false → next.last = edit.last

theorem LastKept.refl (edit : RuleEdit) : LastKept edit edit :=
  { mirrors := rfl, shape := rfl, same := fun _ => rfl }

theorem LastKept.trans {edit between next : RuleEdit} (first : LastKept edit between)
    (second : LastKept between next)
    : LastKept edit next :=
  {
    mirrors := second.mirrors.trans first.mirrors
    shape := second.shape.trans first.shape
    same := fun apart =>
      (second.same (first.mirrors.trans apart)).trans (first.same apart)
  }

theorem LastKept.present {edit next : RuleEdit} (kept : LastKept edit next)
    : next.last.isSome = edit.last.isSome := by
  have shape := congrArg Option.isSome kept.shape
  rwa [Option.isSome_map, Option.isSome_map] at shape

-- One action

/-- What one action does to the rule and its copy. -/
structure Acts (action : RuleAction) (edit next : RuleEdit) : Prop where
  info : ruleInfo next.new = ruleInfo edit.new
  present : next.last.isSome = edit.last.isSome
  target : edit.new.HasTarget → next.new.HasTarget
  written : action.Written next.new
  idle : action.supported = false → next = edit
  shared : edit.Shared → next.Shared
  kept : action.copies = false → LastKept edit next
  copied : action.copies = true ∨ edit.Copied → next.Copied

/-- A write to a target keeps what the rule and its copy share. -/
structure TargetWrite (onNew onCopy : Rule → Rule) : Prop where
  info : ∀ rule, ruleInfo (onNew rule) = ruleInfo rule
  table : ∀ rule, (onNew rule).sqliteTable = rule.sqliteTable
  copyTable : ∀ rule, (onCopy rule).sqliteTable = rule.sqliteTable
  shape : ∀ rule, ruleShape (onCopy rule) = ruleShape rule
  mirror : ∀ {new copy}, Mirror new copy → Mirror (onNew new) (onCopy copy)

theorem storeRepub_targetWrite (repub : Repub)
    : TargetWrite (fun new => { new with repub := some repub })
        fun copy => { copy with repub := copy.repub.map fun _ => repub } := by
  refine {
    info := fun _ => rfl
    table := fun _ => rfl
    copyTable := fun _ => rfl
    shape := fun rule => by simp [ruleShape]
    mirror := ?_
  }
  intro new copy mirror
  refine { rawSql := mirror.rawSql, ruleId := mirror.ruleId, repub := ?_, mysql := mirror.mysql }
  cases copy.repub with
  | none => simp
  | some old => simp

theorem storeMysql_targetWrite (mysql : RuleMysql)
    : TargetWrite (fun new => { new with mysql := some mysql })
        fun copy => { copy with mysql := copy.mysql.map fun _ => mysql } := by
  refine {
    info := fun _ => rfl
    table := fun _ => rfl
    copyTable := fun _ => rfl
    shape := fun rule => by simp [ruleShape]
    mirror := ?_
  }
  intro new copy mirror
  refine { rawSql := mirror.rawSql, ruleId := mirror.ruleId, repub := mirror.repub, mysql := ?_ }
  cases copy.mysql with
  | none => simp
  | some old => simp

section Write

variable {edit : RuleEdit} {onNew onCopy : Rule → Rule} (targetWrite : TargetWrite onNew onCopy)

include targetWrite

theorem write_shared (shared : edit.Shared) : (edit.write onNew onCopy).Shared := by
  intro mirrors last isLast
  have mirrored : edit.mirrors = true := mirrors
  rw [write, if_pos mirrored] at isLast
  obtain ⟨copy, isCopy, rfl⟩ := Option.map_eq_some_iff.mp isLast
  exact targetWrite.mirror (shared mirrored copy isCopy)

theorem write_lastKept (edit : RuleEdit) : LastKept edit (edit.write onNew onCopy) := by
  refine { mirrors := rfl, shape := ?_, same := ?_ }
  · rw [write]
    split
    · rw [Option.map_map]
      congr 1
      exact funext targetWrite.shape
    · rfl
  · intro apart
    rw [write, apart]
    rfl

theorem write_copied (copied : edit.Copied) : (edit.write onNew onCopy).Copied := by
  refine ⟨copied.1, ?_⟩
  intro last isLast
  rw [write, if_pos copied.1] at isLast
  obtain ⟨copy, isCopy, rfl⟩ := Option.map_eq_some_iff.mp isLast
  have tableCopy := copied.2 copy isCopy
  have shape := targetWrite.shape copy
  simp only [ruleShape, Prod.mk.injEq] at shape
  have enabled := congrArg RuleInfo.enabled (targetWrite.info edit.new)
  exact {
    forwordType := shape.2.1.trans tableCopy.forwordType
    sqliteTable := by
      rw [targetWrite.copyTable, tableCopy.sqliteTable]
      exact (targetWrite.table edit.new).symm
    enabled := (shape.1.trans tableCopy.enabled).trans enabled.symm
  }

end Write

theorem setType_shared {edit : RuleEdit} (type : ForwordType) (shared : edit.Shared)
    : (edit.setType type).Shared := by
  intro mirrors last isLast
  have mirror := shared mirrors last isLast
  exact {
    rawSql := mirror.rawSql
    ruleId := mirror.ruleId
    repub := mirror.repub
    mysql := mirror.mysql
  }

theorem setType_lastKept (edit : RuleEdit) (type : ForwordType)
    : LastKept edit (edit.setType type) :=
  { mirrors := rfl, shape := rfl, same := fun _ => rfl }

theorem setType_copied {edit : RuleEdit} (type : ForwordType) (copied : edit.Copied)
    : (edit.setType type).Copied := by
  refine ⟨copied.1, ?_⟩
  intro last isLast
  have tableCopy := copied.2 last isLast
  exact {
    forwordType := tableCopy.forwordType
    sqliteTable := tableCopy.sqliteTable
    enabled := tableCopy.enabled
  }

theorem copyTable_copyTable (edit : RuleEdit) (id : Nat) (first second : Text)
    : (edit.copyTable id first).copyTable id second = edit.copyTable id second := by
  simp [copyTable, Function.comp_def]

/-- Only the last table counts. By induction on the parameters. -/
theorem eachParam_sqlite {id : Nat} {params : List (Option Text × CJson)} {edit next : RuleEdit}
    (isSet : eachParam (setSqliteParam id) params edit = some next)
    : (lastGiven (lit "table") params).isSome = (RuleAction.sqlite params).copies
      ∧ next = (lastGiven (lit "table") params).elim edit (edit.copyTable id) := by
  induction params generalizing edit with
  | nil =>
      obtain rfl := Option.some.inj isSet
      exact ⟨rfl, rfl⟩
  | cons param rest ih =>
      obtain ⟨name, value⟩ := param
      obtain ⟨name, rfl, isSet⟩ := Option.bind_eq_some_iff.mp isSet
      obtain ⟨between, first, later⟩ := Option.bind_eq_some_iff.mp isSet
      obtain ⟨given, isNext⟩ := ih later
      unfold setSqliteParam at first
      split at first
      · rename_i isTable
        obtain ⟨table, isText, rfl⟩ := Option.map_eq_some_iff.mp first
        rw [isNext]
        cases found : lastGiven (lit "table") rest with
        | none => simp [lastGiven, isTable, isText, found, RuleAction.copies]
        | some other =>
            simp [lastGiven, isTable, isText, found, RuleAction.copies, copyTable_copyTable]
      · rename_i other
        obtain rfl := Option.some.inj first
        rw [isNext]
        simp only [RuleAction.copies] at given
        simp [lastGiven, other, RuleAction.copies, given]

theorem copyTable_acts {edit : RuleEdit} (sqlite : edit.new.forwordType = .SQLITE)
    (table : Text)
    : (edit.copyTable edit.new.ruleId table).Shared
      ∧ (edit.copyTable edit.new.ruleId table).Copied := by
  constructor
  · intro _ last isLast
    obtain ⟨_, _, rfl⟩ := Option.map_eq_some_iff.mp isLast
    exact Mirror.refl _
  · refine ⟨rfl, ?_⟩
    intro last isLast
    obtain ⟨_, _, rfl⟩ := Option.map_eq_some_iff.mp isLast
    exact { forwordType := sqlite, sqliteTable := rfl, enabled := rfl }

section Actions

variable {lib : RuleLibrary} {edit next : RuleEdit} {params : List (Option Text × CJson)}

theorem act_repub (acts : edit.act lib edit.new.ruleId (.repub params) = some next)
    : Acts (.repub params) edit next := by
  obtain ⟨repub, isSet, rfl⟩ := Option.map_eq_some_iff.mp acts
  have targetWrite := storeRepub_targetWrite repub
  have kept := write_lastKept targetWrite (edit.setType .REPUB)
  exact {
    info := rfl
    present := kept.present
    target := fun _ => { repub := fun _ => rfl, mysql := fun other => by cases other }
    written := by
      obtain ⟨protoVer, keepalive, cleanStart⟩ := eachParam_repub_rest isSet
      refine ⟨rfl, repub, rfl, ?_⟩
      exact {
        texts := fun key text given => by rw [eachParam_repub_text isSet key, given]; rfl
        protoVer := fun number given => by rw [protoVer, given]; rfl
        keepalive := fun number given => by rw [keepalive, given]; rfl
        cleanStart := fun value given => by rw [cleanStart, given]; rfl
      }
    idle := fun unsupported => by cases unsupported
    shared := fun shared => write_shared targetWrite (setType_shared .REPUB shared)
    kept := fun _ => { mirrors := kept.mirrors, shape := kept.shape, same := kept.same }
    copied := by
      intro copied
      rcases copied with now | copied
      · cases now
      · exact write_copied targetWrite (setType_copied .REPUB copied)
  }

theorem act_mysql (acts : edit.act lib edit.new.ruleId (.mysql params) = some next)
    : Acts (.mysql params) edit next := by
  obtain ⟨mysql, isSet, rfl⟩ := Option.map_eq_some_iff.mp acts
  have targetWrite := storeMysql_targetWrite mysql
  have kept := write_lastKept targetWrite (edit.setType .MYSOL)
  exact {
    info := rfl
    present := kept.present
    target := fun _ => { mysql := fun _ => rfl, repub := fun other => by cases other }
    written := by
      refine ⟨rfl, mysql, rfl, ?_⟩
      intro key text given
      rw [eachParam_mysql_text isSet key, given]
      rfl
    idle := fun unsupported => by cases unsupported
    shared := fun shared => write_shared targetWrite (setType_shared .MYSOL shared)
    kept := fun _ => { mirrors := kept.mirrors, shape := kept.shape, same := kept.same }
    copied := by
      intro copied
      rcases copied with now | copied
      · cases now
      · exact write_copied targetWrite (setType_copied .MYSOL copied)
  }

theorem act_sqlite (acts : edit.act lib edit.new.ruleId (.sqlite params) = some next)
    : Acts (.sqlite params) edit next := by
  obtain ⟨given, isNext⟩ := eachParam_sqlite acts
  cases isTable : lastGiven (lit "table") params with
  | none =>
      rw [isTable] at given isNext
      obtain rfl := isNext
      exact {
        info := rfl
        present := rfl
        target := fun _ => .of_sqlite rfl
        written := ⟨rfl, fun text isText => by rw [isTable] at isText; cases isText⟩
        idle := fun unsupported => by cases unsupported
        shared := setType_shared .SQLITE
        kept := fun _ => setType_lastKept edit .SQLITE
        copied := by
          intro copied
          rcases copied with now | copied
          · rw [← given] at now
            cases now
          · exact setType_copied .SQLITE copied
      }
  | some table =>
      rw [isTable] at given isNext
      obtain rfl := isNext
      have sqlite : (edit.setType .SQLITE).new.forwordType = .SQLITE := rfl
      obtain ⟨shared, copied⟩ := copyTable_acts sqlite table
      exact {
        info := rfl
        present := by simp [copyTable, setType]
        target := fun _ => .of_sqlite rfl
        written := by
          refine ⟨rfl, ?_⟩
          intro text isText
          rw [isTable] at isText
          exact isText
        idle := fun unsupported => by cases unsupported
        shared := fun _ => shared
        kept := fun uncopied => by rw [← given] at uncopied; cases uncopied
        copied := fun _ => copied
      }

theorem act_acts {action : RuleAction} (acts : edit.act lib edit.new.ruleId action = some next)
    : Acts action edit next := by
  cases action with
  | repub params => exact act_repub acts
  | sqlite params => exact act_sqlite acts
  | mysql params => exact act_mysql acts
  | unsupported =>
      obtain rfl := Option.some.inj acts
      exact {
        info := rfl
        present := rfl
        target := id
        written := trivial
        idle := fun _ => rfl
        shared := id
        kept := fun _ => .refl edit
        copied := by
          intro copied
          rcases copied with now | copied
          · cases now
          · exact copied
      }

end Actions

-- All actions

/-- What a list of actions does to the rule and its copy. -/
structure Outcome (actions : List RuleAction) (edit final : RuleEdit) : Prop where
  info : ruleInfo final.new = ruleInfo edit.new
  target : edit.new.HasTarget → final.new.HasTarget
  written : ∀ action, lastForward actions = some action → action.Written final.new
  present : final.last.isSome = edit.last.isSome
  shared : edit.Shared → final.Shared
  kept : actions.any RuleAction.copies = false → LastKept edit final
  copied : actions.any RuleAction.copies = true ∨ edit.Copied → final.Copied

structure Ran (actions : List RuleAction) (edit final : RuleEdit) : Prop
    extends Outcome actions edit final where
  idle : lastForward actions = none → final = edit

theorem Ran.nil (edit : RuleEdit) : Ran [] edit edit := by
  refine
    { info := rfl, target := id, written := ?_, present := rfl, shared := id,
      kept := fun _ => .refl edit, copied := ?_, idle := fun _ => rfl }
  · intro action last
    cases last
  · intro copied
    rcases copied with now | copied
    · cases now
    · exact copied

theorem Ran.cons {action : RuleAction} {rest : List RuleAction} {edit next final : RuleEdit}
    (acts : Acts action edit next) (ran : Ran rest next final)
    : Ran (action :: rest) edit final := by
  refine
    { info := ran.info.trans acts.info, target := fun target => ran.target (acts.target target),
      written := ?_, present := ran.present.trans acts.present,
      shared := fun shared => ran.shared (acts.shared shared), kept := ?_, copied := ?_,
      idle := ?_ }
  · intro last isLast
    rw [lastForward] at isLast
    cases later : lastForward rest with
    | some other =>
        rw [later, Option.some_or] at isLast
        exact ran.written last (later.trans isLast)
    | none =>
        rw [later, Option.none_or] at isLast
        split at isLast
        · obtain rfl := Option.some.inj isLast
          rw [ran.idle later]
          exact acts.written
        · cases isLast
  · intro uncopied
    obtain ⟨first, others⟩ := Bool.or_eq_false_iff.mp uncopied
    exact (acts.kept first).trans (ran.kept others)
  · intro copied
    apply ran.copied
    rcases copied with now | before
    · rcases Bool.or_eq_true_iff.mp now with first | others
      · exact Or.inr (acts.copied (Or.inl first))
      · exact Or.inl others
    · exact Or.inr (acts.copied (Or.inr before))
  · intro nothing
    rw [lastForward, Option.or_eq_none_iff] at nothing
    obtain ⟨later, first⟩ := nothing
    rw [ran.idle later]
    apply acts.idle
    by_contra supported
    rw [Bool.not_eq_false] at supported
    rw [if_pos supported] at first
    cases first

variable {lib : RuleLibrary}

/-- By induction on the actions. -/
theorem actAll_ran {children : List (Option Text × CJson)} {edit final : RuleEdit}
    (ran : edit.actAll lib edit.new.ruleId children = some final)
    : Ran (children.filterMap fun child => readAction child.2) edit final := by
  induction children generalizing edit with
  | nil =>
      obtain rfl := Option.some.inj ran
      exact .nil _
  | cons child rest ih =>
      obtain ⟨action, isAction, ran⟩ := Option.bind_eq_some_iff.mp ran
      obtain ⟨next, first, later⟩ := Option.bind_eq_some_iff.mp ran
      have acts := act_acts first
      have sameId : next.new.ruleId = edit.new.ruleId := congrArg RuleInfo.id acts.info
      rw [← sameId] at later
      simp only [List.filterMap_cons, isAction]
      exact .cons acts (ih later)

theorem setSqliteParam_isSome_iff {id : Nat} {name : Text} {value : CJson} {edit : RuleEdit}
    : (setSqliteParam id name value edit).isSome ↔ TextReadable [lit "table"] name value := by
  unfold setSqliteParam TextReadable
  split
  · rename_i isTable
    simp [isTable]
  · rename_i other
    simp [other]

theorem act_isSome_iff {id : Nat} {action : RuleAction} {edit : RuleEdit}
    : (edit.act lib id action).isSome ↔ action.Readable := by
  cases action with
  | repub params =>
      rw [act, Option.isSome_map]
      exact eachParam_isSome_iff (fun _ _ _ => setRepubParam_isSome_iff) params _
  | sqlite params =>
      exact eachParam_isSome_iff (fun _ _ _ => setSqliteParam_isSome_iff) params _
  | mysql params =>
      rw [act, Option.isSome_map]
      exact eachParam_isSome_iff (fun _ _ _ => setMysqlParam_isSome_iff) params _
  | unsupported => simp [act, RuleAction.Readable]

/-- By induction on the actions. -/
theorem actAll_isSome_iff {id : Nat} {children : List (Option Text × CJson)} {edit : RuleEdit}
    : (edit.actAll lib id children).isSome
      ↔ ∀ child ∈ children, ∃ action, readAction child.2 = some action ∧ action.Readable := by
  induction children generalizing edit with
  | nil => simp [actAll]
  | cons child rest ih =>
      rw [List.forall_mem_cons, actAll]
      cases isAction : readAction child.2 with
      | none => simp
      | some action =>
          have first := @act_isSome_iff lib id action edit
          cases isNext : edit.act lib id action with
          | none =>
              rw [isNext] at first
              simp [isNext, ← first]
          | some next =>
              rw [isNext] at first
              simp [isNext, ← first, ih]

-- Clients

theorem Written.connected {rule : Rule} {action : RuleAction} {repub : Repub}
    (written : action.Written rule) (isRepub : rule.repub = some repub) (sock : Option Nat)
    : action.Written { rule with repub := some { repub with sock } } := by
  cases action with
  | repub params =>
      obtain ⟨type, target, isTarget, holds⟩ := written
      obtain rfl := Option.some.inj (isRepub.symm.trans isTarget)
      exact ⟨type, _, rfl, { holds with }⟩
  | sqlite params => exact written
  | mysql params => exact written
  | unsupported => trivial

theorem Outcome.connectWhen {actions : List RuleAction} {edit acted final : RuleEdit}
    (outcome : Outcome actions edit acted) {given : Bool}
    (connected : acted.connectWhen lib given = some final)
    : Outcome actions edit final := by
  unfold RuleEdit.connectWhen RuleEdit.connect at connected
  split_ifs at connected
  · obtain ⟨repub, isRepub, rfl⟩ := Option.map_eq_some_iff.mp connected
    have targetWrite := storeRepub_targetWrite { repub with sock := some (lib.nanoClient repub) }
    have kept := write_lastKept targetWrite acted
    exact {
      info := outcome.info
      target := by
        intro target
        exact { repub := fun _ => rfl, mysql := (outcome.target target).mysql }
      written := fun action last => Written.connected (outcome.written action last) isRepub _
      present := kept.present.trans outcome.present
      shared := fun shared => write_shared targetWrite (outcome.shared shared)
      kept := fun uncopied => (outcome.kept uncopied).trans kept
      copied := fun copied => write_copied targetWrite (outcome.copied copied)
    }
  · obtain rfl := Option.some.inj connected
    exact outcome
  · obtain rfl := Option.some.inj connected
    exact outcome

theorem connectWhen_isSome (lib : RuleLibrary) {edit : RuleEdit} (target : edit.new.HasTarget)
    (given : Bool)
    : ∃ final, edit.connectWhen lib given = some final := by
  rw [← Option.isSome_iff_exists]
  unfold RuleEdit.connectWhen RuleEdit.connect
  split_ifs
  · rename_i toBroker
    rw [Option.isSome_map]
    exact target.repub toBroker.2
  · rfl
  · rfl

theorem setEnabled_ruleId (given : Option CJson) (edit : RuleEdit)
    : (edit.setEnabled given).new.ruleId = edit.new.ruleId := by
  cases given with
  | none => rfl
  | some json => rfl

theorem setEnabled_target (given : Option CJson) {edit : RuleEdit}
    (target : edit.new.HasTarget)
    : (edit.setEnabled given).new.HasTarget := by
  cases given with
  | none => exact target
  | some json => exact { repub := target.repub, mysql := target.mysql }

theorem setEnabled_shared {given : Option CJson} {edit : RuleEdit} (shared : edit.Shared)
    : (edit.setEnabled given).Shared := by
  cases given with
  | none => exact shared
  | some json =>
      intro mirrors last isLast
      have mirror := shared mirrors last isLast
      exact { mirror with }

theorem setEnabled_last (given : Option CJson) (edit : RuleEdit)
    : (edit.setEnabled given).last = edit.last
      ∧ (edit.setEnabled given).mirrors = edit.mirrors := by
  cases given with
  | none => exact ⟨rfl, rfl⟩
  | some json => exact ⟨rfl, rfl⟩

theorem finishEdit_outcome {body : CJson} {edit final : RuleEdit}
    (finished : finishEdit lib body edit.new.ruleId edit = some final)
    : Outcome (bodyActions body) (edit.setEnabled (body.getObjectItem (lit "enabled"))) final := by
  obtain ⟨acted, ran, finished⟩ := Option.bind_eq_some_iff.mp finished
  obtain ⟨connected, first, second⟩ := Option.bind_eq_some_iff.mp finished
  rw [← setEnabled_ruleId (body.getObjectItem (lit "enabled"))] at ran
  exact ((actAll_ran ran).toOutcome.connectWhen first).connectWhen second

theorem finishEdit_isSome_iff {body : CJson} {edit : RuleEdit} (target : edit.new.HasTarget)
    : (finishEdit lib body edit.new.ruleId edit).isSome
      ↔ ∀ child ∈ CJson.children (body.getObjectItem (lit "actions")),
          ∃ action, readAction child.2 = some action ∧ action.Readable := by
  rw [← @actAll_isSome_iff lib edit.new.ruleId _
    (edit.setEnabled (body.getObjectItem (lit "enabled"))), finishEdit]
  cases ran
      : (edit.setEnabled (body.getObjectItem (lit "enabled"))).actAll lib edit.new.ruleId
          (CJson.children (body.getObjectItem (lit "actions"))) with
  | none => simp
  | some acted =>
      rw [← setEnabled_ruleId (body.getObjectItem (lit "enabled"))] at ran
      have outcome := (actAll_ran ran).toOutcome
      have stillTarget := setEnabled_target (body.getObjectItem (lit "enabled")) target
      obtain ⟨connected, first⟩ := connectWhen_isSome lib (outcome.target stillTarget)
        (body.getObjectItem (lit "actions")).isSome
      obtain ⟨final, second⟩ :=
        connectWhen_isSome lib ((outcome.connectWhen first).target stillTarget)
          (body.getObjectItem (lit "enabled")).isSome
      simp [first, second]

end RuleEdit

-- The whole handler

/-- A vector of rules with different ids; rules that need a target have one. -/
structure RuleVector where
  rules : List Rule
  distinct : (rules.map Rule.ruleId).Nodup
  targets : ∀ rule ∈ rules, rule.HasTarget

/-- The other rules are the same, and there is one rule with the id. -/
structure TouchesOnly (id : Nat) (rules updated : List Rule) : Prop where
  others
    : updated.filter (fun rule => rule.ruleId != id) = rules.filter fun rule => rule.ruleId != id
  single : updated.countP (fun rule => rule.ruleId == id) = 1

/-- The update of a rule follows no NULL pointer: the statement is a text, or else an open socket
can be closed, and the actions can be read.
-/
structure UpdateReadable (old : Rule) (body : CJson) : Prop where
  sql : ∀ sql, body.getObjectItem (lit "rawsql") = some sql → sql.valuestring.isSome
  sock
    : body.getObjectItem (lit "rawsql") = none
      → ∀ repub, old.repub = some repub → repub.sock.isSome
  actions
    : ∀ child ∈ CJson.children (body.getObjectItem (lit "actions")),
        ∃ action, readAction child.2 = some action ∧ action.Readable

/-- By induction on the rules in front. -/
theorem findRule_append {before after : List Rule} {old : Rule}
    (others : ∀ rule ∈ before, rule.ruleId ≠ old.ruleId)
    : findRule old.ruleId (before ++ old :: after) = some (before, old, after) := by
  induction before with
  | nil => simp [findRule]
  | cons rule rest ih =>
      obtain ⟨other, others⟩ := List.forall_mem_cons.mp others
      simp [findRule, other, ih others]

theorem RuleVector.others (vector : RuleVector) {before after : List Rule} {old : Rule}
    (split : vector.rules = before ++ old :: after)
    : (∀ rule ∈ before, rule.ruleId ≠ old.ruleId) ∧ ∀ rule ∈ after, rule.ruleId ≠ old.ruleId := by
  have distinct := vector.distinct
  rw [split, List.map_append, List.map_cons, List.nodup_append] at distinct
  obtain ⟨_, later, apart⟩ := distinct
  constructor
  · intro rule member
    exact apart _ (List.mem_map_of_mem member) _ List.mem_cons_self
  · intro rule member same
    exact (List.nodup_cons.mp later).1 (same ▸ List.mem_map_of_mem member)

section Updates

variable {lib : RuleLibrary} {sqlParse : Text → Rule} {option : EngineOption} {body : CJson}
variable {old : Rule} {before after : List Rule}

theorem replacement_target (rawsql : Text) (target : old.HasTarget)
    : (replacement sqlParse old rawsql).HasTarget := by
  constructor
  · intro type
    have oldType : old.forwordType = .REPUB := type
    simpa [replacement, oldType] using target.repub oldType
  · intro type
    have oldType : old.forwordType = .MYSOL := type
    simpa [replacement, oldType] using target.mysql oldType

/-- What the handler starts from. -/
structure Starts (body : CJson) (old : Rule) (after : List Rule) (started : RuleEdit) : Prop where
  ruleId : started.new.ruleId = old.ruleId
  target : old.HasTarget → started.new.HasTarget
  shared : started.Shared
  appended
    : (body.getObjectItem (lit "rawsql")).isSome
      → started.mirrors = true ∧ started.last = some started.new
        ∧ started.new.enabled = true ∧ started.new.forwordType = old.forwordType
  inPlace
    : body.getObjectItem (lit "rawsql") = none
      → started.new = old ∧ started.mirrors = false ∧ started.last = after.getLast?

theorem startEdit_starts {started : RuleEdit}
    (starts : startEdit sqlParse option body old after = some started)
    : Starts body old after started := by
  unfold startEdit at starts
  split at starts
  · rename_i sql given
    obtain ⟨rawsql, _, rfl⟩ := Option.map_eq_some_iff.mp starts
    exact {
      ruleId := rfl
      target := replacement_target rawsql
      shared := by
        intro _ last isLast
        obtain rfl := Option.some.inj isLast
        exact .refl _
      appended := fun _ => ⟨rfl, rfl, rfl, rfl⟩
      inPlace := fun none => by rw [given] at none; cases none
    }
  · rename_i noSql
    split at starts
    · cases starts
    · obtain rfl := Option.some.inj starts
      exact {
        ruleId := rfl
        target := id
        shared := fun mirrors => by cases mirrors
        appended := fun given => by rw [noSql] at given; cases given
        inPlace := fun _ => ⟨rfl, rfl, rfl⟩
      }

theorem startEdit_isSome_iff
    : (startEdit sqlParse option body old after).isSome
      ↔ (∀ sql, body.getObjectItem (lit "rawsql") = some sql → sql.valuestring.isSome)
        ∧ (body.getObjectItem (lit "rawsql") = none
          → ∀ repub, old.repub = some repub → repub.sock.isSome) := by
  unfold startEdit
  cases body.getObjectItem (lit "rawsql") with
  | some sql => simp
  | none =>
      cases old.repub with
      | none => simp
      | some repub => simp [Option.isSome_iff_ne_none]

/-- An answered update of a rule, from what it starts with to what it ends with. -/
structure Updates (body : CJson) (before : List Rule) (old : Rule) (after : List Rule)
    (answer : RuleAnswer) (rules : List Rule) (started final : RuleEdit)
    : Prop where
  starts : Starts body old after started
  outcome
    : (started.setEnabled (body.getObjectItem (lit "enabled"))).Outcome (bodyActions body) final
  isAnswer : answer = .succeed (ruleInfo final.new)
  isRules : rules = editedRules body before after final

section Answered

variable {members : List (Text × CJson)} (others : ∀ rule ∈ before, rule.ruleId ≠ old.ruleId)

include others

theorem putRules_updates {answer : RuleAnswer} {cr : ConfRule}
    (answered
      : putRules lib sqlParse { option, rules := before ++ old :: after }
          (some (.object members)) old.ruleId
        = some (answer, cr))
    : ∃ started final,
        Updates (.object members) before old after answer cr.rules started final := by
  simp only [putRules, findRule_append others] at answered
  obtain ⟨started, isStarted, answered⟩ := Option.bind_eq_some_iff.mp answered
  obtain ⟨final, finished, answered⟩ := Option.bind_eq_some_iff.mp answered
  obtain ⟨rfl, rfl⟩ := Prod.mk.inj (Option.some.inj answered)
  have starts := startEdit_starts isStarted
  rw [← starts.ruleId] at finished
  exact ⟨started, final, starts, RuleEdit.finishEdit_outcome finished, rfl, rfl⟩

/-- An update is answered exactly if it follows no NULL pointer. -/
theorem putRules_isSome_iff (target : old.HasTarget)
    : (putRules lib sqlParse { option, rules := before ++ old :: after } (some (.object members))
        old.ruleId).isSome
      ↔ UpdateReadable old (.object members) := by
  have started := @startEdit_isSome_iff sqlParse option (.object members) old after
  simp only [putRules, findRule_append others]
  cases isStarted : startEdit sqlParse option (.object members) old after with
  | none =>
      rw [isStarted] at started
      constructor
      · intro answered
        cases answered
      · intro readable
        exact absurd (started.mpr ⟨readable.sql, readable.sock⟩) (by simp)
  | some edit =>
      rw [isStarted] at started
      obtain ⟨sql, sock⟩ := started.mp rfl
      have starts := startEdit_starts isStarted
      have finished :=
        @RuleEdit.finishEdit_isSome_iff lib (.object members) edit (starts.target target)
      rw [starts.ruleId] at finished
      constructor
      · intro answered
        refine { sql, sock, actions := finished.mp ?_ }
        by_contra stuck
        rw [Option.not_isSome_iff_eq_none] at stuck
        simp [stuck] at answered
      · intro readable
        obtain ⟨final, isFinal⟩ := Option.isSome_iff_exists.mp (finished.mpr readable.actions)
        simp [isFinal]

end Answered

namespace Updates

variable {answer : RuleAnswer} {rules : List Rule} {started final : RuleEdit}
variable (updates : Updates body before old after answer rules started final)

include updates

theorem new_ruleId : final.new.ruleId = old.ruleId := by
  have sameId : final.new.ruleId = _ := congrArg RuleInfo.id updates.outcome.info
  rw [sameId]
  exact (RuleEdit.setEnabled_ruleId _ started).trans updates.starts.ruleId

theorem mirror {last : Rule} (mirrors : final.mirrors = true) (isLast : final.last = some last)
    : Mirror final.new last :=
  updates.outcome.shared (RuleEdit.setEnabled_shared updates.starts.shared) mirrors last isLast

theorem last_ruleId {last : Rule} (mirrors : final.mirrors = true)
    (isLast : final.last = some last)
    : last.ruleId = old.ruleId :=
  (updates.mirror mirrors isLast).ruleId.trans updates.new_ruleId

theorem kept (uncopied : (bodyActions body).any RuleAction.copies = false)
    : started.LastKept final := by
  have kept := updates.outcome.kept uncopied
  obtain ⟨sameLast, sameMirrors⟩ :=
    RuleEdit.setEnabled_last (body.getObjectItem (lit "enabled")) started
  exact {
    mirrors := kept.mirrors.trans sameMirrors
    shape := by rw [kept.shape, sameLast]
    same := fun apart => (kept.same (sameMirrors.trans apart)).trans sameLast
  }

theorem copied (copies : (bodyActions body).any RuleAction.copies = true) : final.Copied :=
  updates.outcome.copied (Or.inl copies)

theorem present : final.last.isSome = started.last.isSome := by
  rw [updates.outcome.present, (RuleEdit.setEnabled_last _ started).1]

theorem rules_appended (sql : (body.getObjectItem (lit "rawsql")).isSome)
    : final.mirrors = true
      ∧ ∃ last, final.last = some last ∧ rules = before ++ after ++ [last] := by
  obtain ⟨mirrors, isNew, _⟩ := updates.starts.appended sql
  have stillMirrors : final.mirrors = true := by
    cases copies : (bodyActions body).any RuleAction.copies with
    | true => exact (updates.copied copies).1
    | false => exact (updates.kept copies).mirrors.trans mirrors
  have present := updates.present
  rw [isNew] at present
  obtain ⟨last, isLast⟩ := Option.isSome_iff_exists.mp present
  refine ⟨stillMirrors, last, isLast, ?_⟩
  rw [updates.isRules, editedRules, if_pos sql, isLast]
  rfl

section InPlace

variable (noSql : body.getObjectItem (lit "rawsql") = none)

include noSql

theorem rules_inPlace : rules = before ++ final.new :: (after.dropLast ++ final.last.toList) := by
  rw [updates.isRules, editedRules, noSql]
  rfl

theorem rules_uncopied (uncopied : (bodyActions body).any RuleAction.copies = false)
    : rules = before ++ final.new :: after := by
  obtain ⟨_, apart, isLast⟩ := updates.starts.inPlace noSql
  rw [updates.rules_inPlace noSql, (updates.kept uncopied).same apart, isLast]
  congr 2
  cases after using List.reverseRecOn with
  | nil => rfl
  | append_singleton rest last => simp

theorem rules_alone (alone : after = []) : rules = before ++ [final.new] := by
  obtain ⟨_, _, isLast⟩ := updates.starts.inPlace noSql
  have present := updates.present
  rw [isLast, alone] at present
  have none : final.last = none := by
    cases isFinal : final.last with
    | none => rfl
    | some last => rw [isFinal] at present; cases present
  rw [updates.rules_inPlace noSql, none, alone]
  rfl

theorem rules_copied (more : after ≠ [])
    (copies : (bodyActions body).any RuleAction.copies = true)
    : ∃ last,
        final.last = some last
        ∧ rules = before ++ final.new :: (after.dropLast ++ [last])
        ∧ TableCopy final.new last := by
  obtain ⟨_, _, isLast⟩ := updates.starts.inPlace noSql
  have present := updates.present
  rw [isLast, List.getLast?_eq_some_getLast more] at present
  obtain ⟨last, isFinal⟩ := Option.isSome_iff_exists.mp present
  refine ⟨last, isFinal, ?_, (updates.copied copies).2 last isFinal⟩
  rw [updates.rules_inPlace noSql, isFinal]
  rfl

end InPlace

end Updates

end Updates

-- The other rules

section Touches

variable {id : Nat} {before after : List Rule}

theorem TouchesOnly.of_parts {old new : Rule} {front back : List Rule}
    (parts : before ++ after = front ++ back) (isOld : old.ruleId = id) (isNew : new.ruleId = id)
    (others : ∀ rule ∈ before ++ after, rule.ruleId ≠ id)
    : TouchesOnly id (before ++ old :: after) (front ++ new :: back) := by
  have none : (front ++ back).countP (fun rule => rule.ruleId == id) = 0 := by
    rw [← parts, List.countP_eq_zero]
    intro rule member
    simpa using others rule member
  rw [List.countP_append, Nat.add_eq_zero_iff] at none
  constructor
  · have same := congrArg (List.filter fun rule => rule.ruleId != id) parts
    rw [List.filter_append, List.filter_append] at same
    simp [isOld, isNew, same]
  · rw [List.countP_append, List.countP_cons, none.1, none.2]
    simp [isNew]

/-- Which answered updates touch only their rule. -/
theorem Updates.touchesOnly_iff {body : CJson} {old : Rule} {answer : RuleAnswer}
    {rules : List Rule} {started final : RuleEdit}
    (updates : Updates body before old after answer rules started final)
    (others : ∀ rule ∈ before ++ after, rule.ruleId ≠ old.ruleId)
    : TouchesOnly old.ruleId (before ++ old :: after) rules
      ↔ (body.getObjectItem (lit "rawsql")).isSome
        ∨ after = []
        ∨ (bodyActions body).any RuleAction.copies = false := by
  constructor
  · intro touches
    by_contra none
    simp only [not_or, Bool.not_eq_false, Option.not_isSome_iff_eq_none] at none
    obtain ⟨noSql, more, copies⟩ := none
    obtain ⟨last, isLast, isRules, _⟩ := updates.rules_copied noSql more copies
    have lastId := updates.last_ruleId (updates.copied copies).1 isLast
    -- The rule and its copy both have the id.
    have single := touches.single
    rw [isRules] at single
    simp [updates.new_ruleId, lastId] at single
    omega
  · intro cases
    cases sql : body.getObjectItem (lit "rawsql") with
    | some statement =>
        obtain ⟨mirrors, last, isLast, isRules⟩ := updates.rules_appended (by rw [sql]; rfl)
        rw [isRules]
        exact .of_parts (List.append_nil _).symm rfl (updates.last_ruleId mirrors isLast) others
    | none =>
        rw [sql] at cases
        rcases cases with given | alone | uncopied
        · cases given
        · rw [updates.rules_alone sql alone, alone]
          exact .of_parts rfl rfl updates.new_ruleId (alone ▸ others)
        · rw [updates.rules_uncopied sql uncopied]
          exact .of_parts rfl rfl updates.new_ruleId others

end Touches

variable {before after : List Rule} {old : Rule}

/-- Exactly these updates touch only their rule: those that follow no NULL pointer and give a
statement, go to the last rule or set no table.
-/
theorem update_touches_only_iff (lib : RuleLibrary) (sqlParse : Text → Rule)
    (option : EngineOption) (vector : RuleVector) (split : vector.rules = before ++ old :: after)
    (req : Option CJson)
    : (∃ answer cr,
        putRules lib sqlParse { option, rules := vector.rules } req old.ruleId = some (answer, cr)
        ∧ TouchesOnly old.ruleId vector.rules cr.rules)
      ↔ ∀ members,
          req = some (.object members)
          → UpdateReadable old (.object members)
            ∧ (((CJson.object members).getObjectItem (lit "rawsql")).isSome
              ∨ after = []
              ∨ (bodyActions (.object members)).any RuleAction.copies = false) := by
  obtain ⟨othersBefore, othersAfter⟩ := vector.others split
  have others : ∀ rule ∈ before ++ after, rule.ruleId ≠ old.ruleId :=
    List.forall_mem_append.mpr ⟨othersBefore, othersAfter⟩
  have target : old.HasTarget := vector.targets old (by simp [split])
  rw [split]
  constructor
  · rintro ⟨answer, cr, answered, touches⟩ members rfl
    have readable := (putRules_isSome_iff othersBefore target).mp (by rw [answered]; rfl)
    obtain ⟨started, final, updates⟩ := putRules_updates othersBefore answered
    exact ⟨readable, (updates.touchesOnly_iff others).mp touches⟩
  · intro condition
    have unchanged : TouchesOnly old.ruleId (before ++ old :: after) (before ++ old :: after) :=
      .of_parts rfl rfl rfl others
    cases req with
    | none => exact ⟨_, _, rfl, unchanged⟩
    | some json =>
        cases json with
        | object members =>
            obtain ⟨readable, kept⟩ := condition members rfl
            obtain ⟨⟨answer, cr⟩, answered⟩ := Option.isSome_iff_exists.mp
              ((@putRules_isSome_iff lib sqlParse option old before after members othersBefore
                target).mpr readable)
            obtain ⟨started, final, updates⟩ := putRules_updates othersBefore answered
            exact ⟨answer, cr, answered, (updates.touchesOnly_iff others).mpr kept⟩
        | null => exact ⟨_, _, rfl, unchanged⟩
        | bool value => exact ⟨_, _, rfl, unchanged⟩
        | number value => exact ⟨_, _, rfl, unchanged⟩
        | string text => exact ⟨_, _, rfl, unchanged⟩
        | array items => exact ⟨_, _, rfl, unchanged⟩

/-- A rule that is forwarded to a table of SQLite. -/
def tableRule (id : Nat) : Rule :=
  {
    topic := lit "t"
    flag := fun _ => false
    asName := fun _ => none
    filter := none
    cmpType := fun _ => .EQUAL
    payload := []
    rawSql := some (lit "SELECT * FROM t")
    enabled := true
    ruleId := id
    forwordType := .SQLITE
    repub := none
    sqliteTable := some (lit "first")
    mysql := none
  }

def plainLibrary : RuleLibrary :=
  {
    repubInit :=
      { texts := fun _ => none, protoVer := 4, keepalive := 60, cleanStart := true, sock := none }
    mysqlInit := { texts := fun _ => none }
    nanoClient := fun _ => 0
  }

def noOptions : EngineOption :=
  { sdb := false, fdb := false, mdb := false, rpb := false }

theorem tableRule_target (id : Nat) : (tableRule id).HasTarget :=
  .of_sqlite rfl

theorem twoRules_distinct : ([tableRule 1, tableRule 2].map Rule.ruleId).Nodup := by
  decide

theorem twoRules_targets : ∀ rule ∈ [tableRule 1, tableRule 2], rule.HasTarget := by
  simp [tableRule_target]

def twoRules : RuleVector :=
  {
    rules := [tableRule 1, tableRule 2]
    distinct := twoRules_distinct
    targets := twoRules_targets
  }

/-- The first rule is disabled, and the second one is not touched. -/
theorem disabling_touches_one
    : ∃ answer cr,
        putRules plainLibrary (fun _ => tableRule 0)
            { option := noOptions, rules := [tableRule 1, tableRule 2] }
            (some (.object [(lit "enabled", .bool false)])) 1
          = some (answer, cr)
        ∧ TouchesOnly 1 [tableRule 1, tableRule 2] cr.rules := by
  have split : twoRules.rules = [] ++ tableRule 1 :: [tableRule 2] := rfl
  refine
    (update_touches_only_iff plainLibrary (fun _ => tableRule 0) noOptions twoRules split _).mpr ?_
  rintro members isBody
  obtain rfl : [(lit "enabled", CJson.bool false)] = members := by cases isBody; rfl
  refine ⟨?_, Or.inr (Or.inr rfl)⟩
  exact {
    sql := fun sql given => by cases given
    sock := fun _ repub isRepub => by cases isRepub
    actions := fun child member => by cases member
  }

/-- With a table for the first rule, the second rule is gone and the first one is there twice. -/
theorem table_overwrites_last
    : let body :=
        CJson.object
          [(lit "actions",
            .array
              [.object
                [(lit "name", .string (lit "sqlite")),
                  (lit "params", .object [(lit "table", .string (lit "second"))])]])]
      (putRules plainLibrary (fun _ => tableRule 0)
          { option := noOptions, rules := [tableRule 1, tableRule 2] } (some body) 1).map
          (fun answered => (answered.1, answered.2.rules.map Rule.ruleId))
        = some
            (.succeed { rawsql := some (lit "SELECT * FROM t"), id := 1, enabled := true },
              [1, 1]) := by
  decide +kernel

end NanoMQ.Rest
