import NanoMQ.Rules.Output

/-! The output of a rule after different histories. A payload field keeps its value until a
message has another one of a supported type, so what an earlier message left there can come out
with a later one.
-/

namespace NanoMQ.Rules

open Bytes Rest

-- Histories

/-- A message that reaches a rule, and whether columns are to be added for it. -/
structure Turn where
  msg : RuleMessage
  isNeedSet : Bool

/-- The rule after a history of messages; none where one of them faults. -/
def runHistory (calls : OutputCalls) (option : EngineOption) : Rule → List Turn → Option Rule
  | rule, [] => some rule
  | rule, turn :: rest =>
      (handleRule calls option turn.isNeedSet rule turn.msg).bind fun (_, rule) =>
        runHistory calls option rule rest

/-- The field without its value. -/
def RulePayload.blank (entry : RulePayload) : RulePayload :=
  { entry with stored := .nothing }

/-- The rule without the values of earlier messages. -/
def Rule.blank (rule : Rule) : Rule :=
  { rule with payload := rule.payload.map RulePayload.blank }

-- The output that a message asks for

/-- The value that a field has in the output: numbers are integers there, and values of other
types have no place.
-/
def Stored.ofJson : CJson → Stored
  | .number value => (toLong value).elim .nothing .number
  | .string text => .string text
  | .object members => .object (.object members)
  | _ => .nothing

/-- The value of a field in the payload of a message. -/
def messageValue (calls : OutputCalls) (msg : RuleMessage) (entry : RulePayload) : Stored :=
  (reach (msg.payload.bind calls.parse) entry.psa).elim .nothing Stored.ofJson

def RulePayload.withMessage (calls : OutputCalls) (msg : RuleMessage) (entry : RulePayload)
    : RulePayload :=
  { entry with stored := messageValue calls msg entry }

/-- The rule with the values of this message. -/
def Rule.withMessage (calls : OutputCalls) (rule : Rule) (msg : RuleMessage) : Rule :=
  { rule with payload := rule.payload.map (RulePayload.withMessage calls msg) }

/-- What the payload fields add to an object and to a clause. -/
def payloadOutput (calls : OutputCalls) (rule : Rule) (msg : RuleMessage) (isNeedSet : Bool)
    (jso : List (Text × CJson)) (clause : SqlClause)
    : Option (List (Text × CJson)) × Option SqlClause :=
  (addInfoToJson calls rule msg jso .PAYLOAD_FIELD,
    composeSqlClause calls rule msg isNeedSet clause .PAYLOAD_FIELD)

def Stored.isNothing : Stored → Bool
  | .nothing => true
  | _ => false

/-- The field has a part in the output. -/
def RulePayload.contributes (entry : RulePayload) : Bool :=
  entry.isStore && entry.pas.isSome && !entry.stored.isNothing

theorem Stored.isNothing_iff (stored : Stored) : stored.isNothing = true ↔ stored = .nothing := by
  cases stored <;> simp [Stored.isNothing]

theorem contributes_iff (entry : RulePayload)
    : entry.contributes = true
      ↔ entry.isStore = true ∧ entry.pas.isSome = true ∧ entry.stored ≠ .nothing := by
  rw [ne_eq, ← Stored.isNothing_iff]
  simp [RulePayload.contributes, and_assoc]

/-- Each field in the output has a value in this message or none from before. A rule without
conditions stores no values, so it must not find any.
-/
def UpToDate (calls : OutputCalls) (state : Rule) (msg : RuleMessage) : Prop :=
  state.flag .PAYLOAD_FIELD = true
  → ∀ entry ∈ state.payload,
      entry.isStore = true
      → entry.pas.isSome = true
      → if state.filter.isSome then
          messageValue calls msg entry = .nothing → entry.stored = .nothing
        else messageValue calls msg entry = .nothing

-- Only stored values change

section Blank

variable {calls : OutputCalls} {option : EngineOption} {rule after : Rule} {msg : RuleMessage}

theorem payloadStep_blank {entry after : RulePayload} {jp : CJson} {passed : Bool}
    (step : payloadStep calls.toRuleCalls entry jp = some (passed, after))
    : after.blank = entry.blank := by
  cases jp with
  | number value =>
      obtain ⟨num, _, isStep⟩ := Option.map_eq_some_iff.mp step
      split at isStep <;> cases isStep <;> rfl
  | string str =>
      simp only [payloadStep] at step
      split at step
      · split at step <;> cases step
        rfl
      · cases step
        rfl
  | object members =>
      simp only [payloadStep] at step
      split at step <;> cases step <;> rfl
  | null => cases step; rfl
  | bool value => cases step; rfl
  | array items => cases step; rfl

/-- By induction on the fields. -/
theorem payloadFilter_blank {json : Option CJson} {entries after : List RulePayload}
    {passed : Bool}
    (filtered : payloadFilter calls.toRuleCalls json entries = some (passed, after))
    : after.map RulePayload.blank = entries.map RulePayload.blank := by
  induction entries generalizing passed after with
  | nil =>
      cases filtered
      rfl
  | cons entry rest ih =>
      rw [payloadFilter] at filtered
      cases reached : reach json entry.psa with
      | none =>
          rw [reached] at filtered
          cases filtered
          rfl
      | some jp =>
          rw [reached] at filtered
          obtain ⟨⟨stepPassed, stepEntry⟩, step, continued⟩ := Option.bind_eq_some_iff.mp filtered
          have entryBlank := payloadStep_blank step
          cases stepPassed with
          | false =>
              cases continued
              rw [List.map_cons, List.map_cons, entryBlank]
          | true =>
              obtain ⟨⟨restPassed, restAfter⟩, restFiltered, parts⟩ :=
                Option.map_eq_some_iff.mp continued
              cases parts
              rw [List.map_cons, List.map_cons, entryBlank, ih restFiltered]

/-- What the filter does: it rejects, it fires without conditions, or its verdict is that on the
payload fields.
-/
theorem ruleEngineFilter_cases {passed : Bool}
    (filtered : ruleEngineFilter calls.toRuleCalls rule msg = some (passed, after))
    : passed = false ∧ after = rule
      ∨ rule.filter = none ∧ after = rule
      ∨ rule.filter.isSome
        ∧ ∃ payload,
            after = { rule with payload }
            ∧ payloadFilter calls.toRuleCalls (msg.payload.bind calls.parse) rule.payload
              = some (passed, payload) := by
  have rejected : some (false, rule) = some (passed, after) → passed = false ∧ after = rule := by
    intro same
    cases same
    exact ⟨rfl, rfl⟩
  obtain ⟨own, _, filtered⟩ := Option.bind_eq_some_iff.mp filtered
  split at filtered
  · exact Or.inl (rejected filtered)
  split at filtered
  swap
  · exact Or.inl (rejected filtered)
  split at filtered
  · rename_i noFilter
    cases filtered
    exact Or.inr (Or.inl ⟨noFilter, rfl⟩)
  rename_i filter isFilter
  obtain ⟨fields, _, filtered⟩ := Option.bind_eq_some_iff.mp filtered
  split at filtered
  swap
  · exact Or.inl (rejected filtered)
  unfold checkPayload at filtered
  split at filtered
  · exact Or.inl (rejected filtered)
  rename_i data isData
  split at filtered
  · exact Or.inl (rejected filtered)
  obtain ⟨⟨verdict, payload⟩, checked, parts⟩ := Option.map_eq_some_iff.mp filtered
  cases parts
  refine Or.inr (Or.inr ⟨by rw [isFilter]; rfl, payload, rfl, ?_⟩)
  rw [isData]
  exact checked

theorem release_entry_blank (entry : RulePayload) : entry.release.blank = entry.blank := by
  unfold RulePayload.release
  split <;> rfl

theorem release_blank (rule : Rule) : rule.release.blank = rule.blank := by
  unfold Rule.release
  split
  · simp [Rule.blank, release_entry_blank]
  · rfl

theorem release_of_blank (fresh : rule.blank = rule) : rule.release = rule := by
  have payload : rule.payload.map RulePayload.blank = rule.payload := congrArg Rule.payload fresh
  have released : rule.payload.map RulePayload.release = rule.payload := by
    rw [← payload, List.map_map]
    refine congrArg (fun f => rule.payload.map f) (funext fun entry => ?_)
    obtain ⟨psa, pas, filter, cmpType, isStore, stored⟩ := entry
    cases isStore <;> cases pas <;> rfl
  unfold Rule.release
  split
  · rw [released]
  · rfl

theorem forwardMessage_rule {isNeedSet : Bool} {output : RuleOutput}
    (forwarded : forwardMessage calls option isNeedSet rule msg = some (output, after))
    : after = rule ∨ after = rule.release := by
  -- A branch makes its output or, switched off, none; only the object of a republication takes
  -- values along.
  have branch {Made : Type} {on : Bool} {made : Option Made} {wrap : Made → RuleOutput}
      {left : Rule}
      (answered
        : (if on then made.map fun value => (wrap value, left) else some (.nothing, rule))
          = some (output, after))
      : after = left ∨ after = rule := by
    split at answered
    · obtain ⟨_, _, parts⟩ := Option.map_eq_some_iff.mp answered
      cases parts
      exact Or.inl rfl
    · cases answered
      exact Or.inr rfl
  unfold forwardMessage at forwarded
  split at forwarded
  · exact (branch forwarded).symm
  · exact Or.inl ((branch forwarded).elim id id)
  · exact Or.inl ((branch forwarded).elim id id)
  · cases forwarded
    exact Or.inl rfl

/-- What a history leaves of a rule that had stored nothing: only its stored values differ, and
they do not without conditions.
-/
structure ReachedFrom (rule state : Rule) : Prop where
  blank : state.blank = rule
  idle : rule.filter = none → state = rule

theorem ReachedFrom.filter_eq {state : Rule} (reached : ReachedFrom rule state)
    : state.filter = rule.filter := by
  rw [← reached.blank]
  rfl

theorem ReachedFrom.filter {state : Rule} {passed : Bool} (reached : ReachedFrom rule state)
    (filtered : ruleEngineFilter calls.toRuleCalls state msg = some (passed, after))
    : ReachedFrom rule after := by
  rcases ruleEngineFilter_cases filtered with
    ⟨_, rfl⟩ | ⟨_, rfl⟩ | ⟨conditions, payload, rfl, checked⟩
  · exact reached
  · exact reached
  · constructor
    · rw [← reached.blank, Rule.blank, Rule.blank, payloadFilter_blank checked]
    · intro noFilter
      rw [reached.filter_eq, noFilter] at conditions
      cases conditions

theorem ReachedFrom.release {state : Rule} (reached : ReachedFrom rule state)
    : ReachedFrom rule state.release := by
  constructor
  · rw [release_blank, reached.blank]
  · intro noFilter
    obtain rfl := reached.idle noFilter
    exact release_of_blank reached.blank

theorem ReachedFrom.handle {isNeedSet : Bool} {state : Rule} {output : RuleOutput}
    (reached : ReachedFrom rule state)
    (handled : handleRule calls option isNeedSet state msg = some (output, after))
    : ReachedFrom rule after := by
  unfold handleRule at handled
  split at handled
  swap
  · cases handled
    exact reached
  obtain ⟨⟨fires, filteredRule⟩, filtered, handled⟩ := Option.bind_eq_some_iff.mp handled
  have kept := reached.filter filtered
  cases fires with
  | false =>
      cases handled
      exact kept
  | true =>
      rcases forwardMessage_rule handled with rfl | rfl
      · exact kept
      · exact kept.release

/-- By induction on the history. -/
theorem ReachedFrom.run {state : Rule} {history : List Turn} (reached : ReachedFrom rule state)
    (run : runHistory calls option state history = some after)
    : ReachedFrom rule after := by
  induction history generalizing state with
  | nil =>
      cases run
      exact reached
  | cons turn rest ih =>
      obtain ⟨⟨output, next⟩, handled, later⟩ := Option.bind_eq_some_iff.mp run
      exact ih (reached.handle handled) later

end Blank

-- Equal output

/-- The fields differ only in what they have stored, and a value of the first is also one of the
second.
-/
structure Extends (first second : RulePayload) : Prop where
  blank : second.blank = first.blank
  stored : first.contributes = true → second.stored = first.stored

theorem eq_of_blank {first second : RulePayload} (blank : second.blank = first.blank)
    (stored : second.stored = first.stored)
    : second = first := by
  obtain ⟨psa, pas, filter, cmpType, isStore, value⟩ := first
  cases second
  simp only [RulePayload.blank, RulePayload.mk.injEq] at blank stored ⊢
  simp only [blank, stored, and_self]

theorem Extends.contributes {first second : RulePayload} (pair : Extends first second)
    (contributes : first.contributes = true)
    : second.contributes = true := by
  rw [eq_of_blank pair.blank (pair.stored contributes)]
  exact contributes

theorem addStored_skips {entry : RulePayload} (silent : entry.contributes = false)
    (jso : List (Text × CJson))
    : addStored entry jso = some jso := by
  obtain ⟨psa, pas, filter, cmpType, isStore, stored⟩ := entry
  cases isStore <;> cases pas <;> cases stored <;>
    simp [RulePayload.contributes, Stored.isNothing] at silent <;> rfl

theorem composeStored_skips {calls : OutputCalls} {rule : Rule} {isNeedSet : Bool}
    {entry : RulePayload} (silent : entry.contributes = false) (clause : SqlClause)
    : composeStored calls rule isNeedSet clause entry = some clause := by
  obtain ⟨psa, pas, filter, cmpType, isStore, stored⟩ := entry
  cases isStore <;> cases pas <;> cases stored <;>
    simp [RulePayload.contributes, Stored.isNothing] at silent <;> rfl

/-- Fields with the same contributions have the same output. By induction on the pairs. -/
theorem foldlM_same {Output : Type} {add : Output → RulePayload → Option Output}
    (skips : ∀ entry, entry.contributes = false → ∀ output, add output entry = some output)
    {first second : List RulePayload}
    (pairs :
      List.Forall₂
        (fun left right => Extends left right ∧ (right.contributes → left.contributes = true))
        first second)
    (output : Output)
    : second.foldlM add output = first.foldlM add output := by
  induction pairs generalizing output with
  | nil => rfl
  | @cons left right first second pair pairs ih =>
      obtain ⟨pair, back⟩ := pair
      rw [List.foldlM_cons, List.foldlM_cons]
      have same : add output right = add output left := by
        cases contributes : left.contributes with
        | true => rw [eq_of_blank pair.blank (pair.stored contributes)]
        | false =>
            have silent : right.contributes = false := by
              by_contra isTrue
              rw [back (Bool.not_eq_false _ ▸ isTrue)] at contributes
              cases contributes
            rw [skips left contributes, skips right silent]
      rw [same]
      exact congrArg _ (funext fun next => ih next)

/-- The number of members counts the contributions. By induction on the fields. -/
theorem members_length {entries : List RulePayload} {jso members : List (Text × CJson)}
    (added : entries.foldlM (fun jso entry => addStored entry jso) jso = some members)
    : members.length = jso.length + entries.countP RulePayload.contributes := by
  induction entries generalizing jso with
  | nil =>
      cases added
      rfl
  | cons entry rest ih =>
      rw [List.foldlM_cons] at added
      obtain ⟨next, step, later⟩ := Option.bind_eq_some_iff.mp added
      have length : next.length = jso.length + if entry.contributes then 1 else 0 := by
        cases contributes : entry.contributes with
        | false =>
            rw [addStored_skips contributes] at step
            cases step
            rfl
        | true =>
            obtain ⟨psa, pas, filter, cmpType, isStore, stored⟩ := entry
            cases isStore <;> cases pas <;> cases stored <;>
              simp [RulePayload.contributes, Stored.isNothing] at contributes <;> cases step <;>
              simp
      rw [ih later, length, List.countP_cons]
      omega

/-- Values that can be used give some members. By induction on the fields. -/
theorem members_of_usable {entries : List RulePayload}
    (usable : ∀ entry ∈ entries, entry.stored ≠ .released) (jso : List (Text × CJson))
    : ∃ members, entries.foldlM (fun jso entry => addStored entry jso) jso = some members := by
  induction entries generalizing jso with
  | nil => exact ⟨jso, rfl⟩
  | cons entry rest ih =>
      obtain ⟨next, step⟩ : ∃ next, addStored entry jso = some next := by
        have notReleased := usable entry List.mem_cons_self
        obtain ⟨psa, pas, filter, cmpType, isStore, stored⟩ := entry
        cases isStore <;> cases pas <;> cases stored <;>
          first
          | exact ⟨_, rfl⟩
          | exact absurd rfl notReleased
      obtain ⟨_, others⟩ := List.forall_mem_cons.mp usable
      obtain ⟨members, later⟩ := ih others next
      refine ⟨members, ?_⟩
      rw [List.foldlM_cons, step]
      exact later

/-- By induction on the pairs. -/
theorem countP_le {first second : List RulePayload} (pairs : List.Forall₂ Extends first second)
    : first.countP RulePayload.contributes ≤ second.countP RulePayload.contributes := by
  induction pairs with
  | nil => exact Nat.le_refl _
  | @cons left right first second pair pairs ih =>
      rw [List.countP_cons, List.countP_cons]
      cases contributes : left.contributes with
      | false => simp; omega
      | true => simp [pair.contributes contributes, ih]

/-- With equally many contributions, no pair has one on the second side only. By induction on the
pairs.
-/
theorem contributes_of_countP {first second : List RulePayload}
    (pairs : List.Forall₂ Extends first second)
    (count : second.countP RulePayload.contributes = first.countP RulePayload.contributes)
    : List.Forall₂
        (fun left right => Extends left right ∧ (right.contributes → left.contributes = true))
        first second := by
  induction pairs with
  | nil => exact .nil
  | @cons left right first second pair pairs ih =>
      have less := countP_le pairs
      rw [List.countP_cons, List.countP_cons] at count
      cases contributes : left.contributes with
      | true =>
          rw [contributes, pair.contributes contributes] at count
          exact .cons ⟨pair, fun _ => contributes⟩ (ih (by omega))
      | false =>
          cases back : right.contributes with
          | true =>
              rw [contributes, back] at count
              simp at count
              omega
          | false =>
              rw [contributes, back] at count
              exact .cons ⟨pair, fun isTrue => absurd isTrue (by simp [back])⟩ (ih (by omega))

theorem composeStored_blank (calls : OutputCalls) (rule : Rule)
    : composeStored calls rule = composeStored calls rule.blank :=
  rfl

/-- The output is the same exactly if the same fields contribute to it. -/
theorem payloadOutput_eq_iff {calls : OutputCalls} {first second : Rule} {msg : RuleMessage}
    (blank : second.blank = first.blank)
    (pairs : List.Forall₂ Extends first.payload second.payload)
    (usable : ∀ entry ∈ first.payload, entry.stored ≠ .released)
    : (∀ isNeedSet jso clause,
        payloadOutput calls second msg isNeedSet jso clause
        = payloadOutput calls first msg isNeedSet jso clause)
      ↔ (first.flag .PAYLOAD_FIELD = true
        → List.Forall₂
            (fun left right => Extends left right ∧ (right.contributes → left.contributes = true))
            first.payload second.payload) := by
  have flag : second.flag = first.flag := by
    have same := congrArg Rule.flag blank
    exact same
  have compose : composeStored calls second = composeStored calls first := by
    rw [composeStored_blank, blank, ← composeStored_blank]
  simp only [payloadOutput, addInfoToJson, composeSqlClause, flag, compose]
  cases first.flag .PAYLOAD_FIELD with
  | false => simp
  | true =>
      simp only [if_true, Prod.mk.injEq, forall_const]
      constructor
      · intro same
        obtain ⟨members, added⟩ := members_of_usable usable []
        have addedToo := (same false [] ⟨[], [], []⟩).1
        rw [added] at addedToo
        refine contributes_of_countP pairs ?_
        have length := members_length added
        have lengthToo := members_length addedToo
        omega
      · intro contributions isNeedSet jso clause
        constructor
        · exact foldlM_same (fun entry silent => addStored_skips silent) contributions jso
        · rw [foldlM_same (fun entry silent => composeStored_skips silent) contributions clause]

-- The output after a history

section Output

variable {calls : OutputCalls} {option : EngineOption} {rule state after : Rule}
  {msg : RuleMessage}

theorem payloadStep_stores {entry after : RulePayload} {jp : CJson} (isStore : entry.isStore = true)
    (step : payloadStep calls.toRuleCalls entry jp = some (true, after))
    : after.stored = if (Stored.ofJson jp).isNothing then entry.stored else Stored.ofJson jp := by
  cases jp with
  | number value =>
      obtain ⟨num, isLong, isStep⟩ := Option.map_eq_some_iff.mp step
      split at isStep
      · cases isStep
        simp [Stored.ofJson, isLong, Stored.isNothing]
      · cases isStep
  | string str =>
      simp only [payloadStep] at step
      split at step
      · split at step <;> cases step
        rfl
      · cases step
  | object members =>
      simp only [payloadStep, isStore] at step
      cases step
      rfl
  | null => cases step; rfl
  | bool value => cases step; rfl
  | array items => cases step; rfl

/-- By induction on the fields. -/
theorem payloadFilter_steps {json : Option CJson} {entries after : List RulePayload}
    (filtered : payloadFilter calls.toRuleCalls json entries = some (true, after))
    : List.Forall₂
        (fun entry after =>
          ∃ jp,
            reach json entry.psa = some jp
            ∧ payloadStep calls.toRuleCalls entry jp = some (true, after))
        entries after := by
  induction entries generalizing after with
  | nil =>
      cases filtered
      exact .nil
  | cons entry rest ih =>
      rw [payloadFilter] at filtered
      cases reached : reach json entry.psa with
      | none =>
          rw [reached] at filtered
          cases filtered
      | some jp =>
          rw [reached] at filtered
          obtain ⟨⟨stepPassed, stepEntry⟩, step, continued⟩ := Option.bind_eq_some_iff.mp filtered
          cases stepPassed with
          | false => cases continued
          | true =>
              obtain ⟨⟨restPassed, restAfter⟩, restFiltered, parts⟩ :=
                Option.map_eq_some_iff.mp continued
              cases parts
              exact .cons ⟨jp, reached, step⟩ (ih restFiltered)

/-- A field after a check compared with the field of the message: nothing old is left of it
exactly if it is up to date.
-/
theorem extends_withMessage {entry after : RulePayload} {jp : CJson}
    (reached : reach (msg.payload.bind calls.parse) entry.psa = some jp)
    (step : payloadStep calls.toRuleCalls entry jp = some (true, after))
    : Extends (entry.withMessage calls msg) after
      ∧ ((after.contributes → (entry.withMessage calls msg).contributes = true)
        ↔ (entry.isStore = true
          → entry.pas.isSome = true
          → messageValue calls msg entry = .nothing
          → entry.stored = .nothing)) := by
  have value : messageValue calls msg entry = Stored.ofJson jp := by
    rw [messageValue, reached]
    rfl
  have blank := payloadStep_blank step
  have isStore : after.isStore = entry.isStore := by
    have same := congrArg RulePayload.isStore blank
    exact same
  have pas : after.pas = entry.pas := by
    have same := congrArg RulePayload.pas blank
    exact same
  refine ⟨⟨blank, fun contributes => ?_⟩, ?_⟩
  · obtain ⟨isStored, _, given⟩ := (contributes_iff _).mp contributes
    have stores : entry.isStore = true := isStored
    have supported : (Stored.ofJson jp).isNothing = false := by
      rw [← value, ← Bool.not_eq_true, Stored.isNothing_iff]
      exact given
    rw [payloadStep_stores stores step, supported]
    exact value.symm
  · rw [contributes_iff, contributes_iff, isStore, pas]
    simp only [RulePayload.withMessage]
    constructor
    · intro back stores named missing
      by_contra old
      have kept := payloadStep_stores stores step
      rw [← value, missing] at kept
      exact (back ⟨stores, named, kept ▸ old⟩).2.2 missing
    · rintro upToDate ⟨stores, named, given⟩
      refine ⟨stores, named, fun missing => given ?_⟩
      rw [payloadStep_stores stores step, ← value, missing]
      exact upToDate stores named missing

theorem withMessage_usable (entries : List RulePayload)
    : ∀ entry ∈ entries.map (RulePayload.withMessage calls msg), entry.stored ≠ .released := by
  intro entry member
  obtain ⟨original, _, rfl⟩ := List.mem_map.mp member
  simp only [RulePayload.withMessage, messageValue]
  cases reach (msg.payload.bind calls.parse) original.psa with
  | none => simp
  | some jp =>
      cases jp with
      | number value => simp only [Option.elim_some, Stored.ofJson]; cases toLong value <;> simp
      | string str => simp [Stored.ofJson]
      | object members => simp [Stored.ofJson]
      | null => simp [Stored.ofJson]
      | bool value => simp [Stored.ofJson]
      | array items => simp [Stored.ofJson]

theorem ReachedFrom.withMessage (reached : ReachedFrom rule state)
    : rule.withMessage calls msg = state.withMessage calls msg := by
  rw [← reached.blank]
  simp only [Rule.withMessage, Rule.blank, List.map_map]
  rfl

/-- A relation that only asks something of its first side. By induction on the pairs. -/
theorem forall₂_iff_forall {Left Right : Type} {holds related : Left → Right → Prop}
    {asks : Left → Prop} {first : List Left} {second : List Right}
    (pairs : List.Forall₂ holds first second)
    (related_iff : ∀ left right, holds left right → (related left right ↔ asks left))
    : List.Forall₂ related first second ↔ ∀ left ∈ first, asks left := by
  induction pairs with
  | nil => simp
  | cons pair pairs ih => rw [List.forall₂_cons, List.forall_mem_cons, related_iff _ _ pair, ih]

/-- With conditions, the fields are checked and stored by the message itself. -/
theorem checked_output_iff (conditions : state.filter.isSome = true)
    (fires : ruleEngineFilter calls.toRuleCalls state msg = some (true, after))
    : (∀ isNeedSet jso clause,
        payloadOutput calls after msg isNeedSet jso clause
        = payloadOutput calls (state.withMessage calls msg) msg isNeedSet jso clause)
      ↔ UpToDate calls state msg := by
  rcases ruleEngineFilter_cases fires with ⟨isFalse, _⟩ | ⟨noFilter, _⟩ | ⟨_, payload, rfl, checked⟩
  · cases isFalse
  · rw [noFilter] at conditions
    cases conditions
  · have pairs
        : List.Forall₂
            (fun entry after =>
              Extends (entry.withMessage calls msg) after
              ∧ ((after.contributes → (entry.withMessage calls msg).contributes = true)
                ↔ (entry.isStore = true
                  → entry.pas.isSome = true
                  → messageValue calls msg entry = .nothing
                  → entry.stored = .nothing)))
            state.payload payload := by
      refine (payloadFilter_steps checked).imp ?_
      rintro entry after ⟨jp, reached, step⟩
      exact extends_withMessage reached step
    have extended
        : List.Forall₂ Extends (state.withMessage calls msg).payload payload :=
      List.forall₂_map_left_iff.mpr (pairs.imp fun _ _ pair => pair.1)
    have blank
        : ({ state with payload } : Rule).blank = (state.withMessage calls msg).blank := by
      simp only [Rule.blank, Rule.withMessage, payloadFilter_blank checked, List.map_map]
      rfl
    rw [payloadOutput_eq_iff blank extended (withMessage_usable _), UpToDate]
    simp only [if_pos conditions]
    refine imp_congr Iff.rfl ?_
    rw [Rule.withMessage, List.forall₂_map_left_iff]
    refine forall₂_iff_forall pairs ?_
    rintro entry after ⟨pair, back_iff⟩
    rw [← back_iff]
    exact and_iff_right pair

/-- Without conditions, nothing is stored and nothing comes out. -/
theorem unchecked_output_iff (noFilter : rule.filter = none) (fresh : rule.blank = rule)
    (fires : ruleEngineFilter calls.toRuleCalls rule msg = some (true, after))
    : (∀ isNeedSet jso clause,
        payloadOutput calls after msg isNeedSet jso clause
        = payloadOutput calls (rule.withMessage calls msg) msg isNeedSet jso clause)
      ↔ UpToDate calls rule msg := by
  have isSame : after = rule := by
    rcases ruleEngineFilter_cases fires with ⟨isFalse, _⟩ | ⟨_, same⟩ | ⟨conditions, _⟩
    · cases isFalse
    · exact same
    · rw [noFilter] at conditions
      cases conditions
  subst isSame
  have payload : after.payload.map RulePayload.blank = after.payload :=
    congrArg Rule.payload fresh
  have nothing : ∀ entry ∈ after.payload, entry.stored = .nothing := by
    intro entry member
    rw [← payload] at member
    obtain ⟨original, _, rfl⟩ := List.mem_map.mp member
    rfl
  have silent : ∀ entry ∈ after.payload, entry.contributes = false := by
    intro entry member
    rw [← Bool.not_eq_true, contributes_iff]
    exact fun contributes => contributes.2.2 (nothing entry member)
  have pairs : List.Forall₂ Extends after.payload (after.withMessage calls msg).payload := by
    rw [Rule.withMessage, List.forall₂_map_right_iff, List.forall₂_same]
    intro entry member
    exact ⟨rfl, fun contributes => absurd contributes (by simp [silent entry member])⟩
  have blank : (after.withMessage calls msg).blank = after.blank := by
    simp only [Rule.blank, Rule.withMessage, List.map_map]
    rfl
  have usable : ∀ entry ∈ after.payload, entry.stored ≠ .released := by
    intro entry member
    rw [nothing entry member]
    exact Stored.noConfusion
  have flipped
      : (∀ isNeedSet jso clause,
          payloadOutput calls after msg isNeedSet jso clause
          = payloadOutput calls (after.withMessage calls msg) msg isNeedSet jso clause)
        ↔ ∀ isNeedSet jso clause,
            payloadOutput calls (after.withMessage calls msg) msg isNeedSet jso clause
            = payloadOutput calls after msg isNeedSet jso clause := by
    constructor
    · exact fun same isNeedSet jso clause => (same isNeedSet jso clause).symm
    · exact fun same isNeedSet jso clause => (same isNeedSet jso clause).symm
  have unset : ¬after.filter.isSome = true := by simp [noFilter]
  rw [flipped, payloadOutput_eq_iff blank pairs usable, UpToDate]
  simp only [if_neg unset]
  refine imp_congr Iff.rfl ?_
  rw [Rule.withMessage, List.forall₂_map_right_iff, List.forall₂_same]
  refine forall₂_congr fun entry member => ?_
  rw [silent entry member, contributes_iff]
  constructor
  · rintro ⟨_, back⟩ stores named
    by_contra given
    cases back ⟨stores, named, given⟩
  · intro missing
    refine ⟨⟨rfl, fun contributes => ?_⟩, fun given => ?_⟩
    · rw [silent entry member] at contributes
      cases contributes
    · exact absurd (missing given.1 given.2.1) given.2.2

/-- The output for a message comes from its own payload exactly if the rule is up to date. -/
theorem ReachedFrom.output_iff (reached : ReachedFrom rule state)
    (fires : ruleEngineFilter calls.toRuleCalls state msg = some (true, after))
    : (∀ isNeedSet jso clause,
        payloadOutput calls after msg isNeedSet jso clause
        = payloadOutput calls (rule.withMessage calls msg) msg isNeedSet jso clause)
      ↔ UpToDate calls state msg := by
  rw [reached.withMessage]
  cases isFilter : rule.filter with
  | none =>
      obtain rfl := reached.idle isFilter
      exact unchecked_output_iff isFilter reached.blank fires
  | some filter => exact checked_output_iff (by rw [reached.filter_eq, isFilter]; rfl) fires

end Output

/-- After two histories of a new rule, the payload fields give the same output for a message on
which the rule fires, with the values of this message, exactly if both have left the rule up to
date for it.
-/
theorem output_from_message_iff {calls : OutputCalls} {option : EngineOption}
    {rule state₁ state₂ after₁ after₂ : Rule} {history₁ history₂ : List Turn} {msg : RuleMessage}
    (fresh : rule.blank = rule) (run₁ : runHistory calls option rule history₁ = some state₁)
    (run₂ : runHistory calls option rule history₂ = some state₂)
    (fires₁ : ruleEngineFilter calls.toRuleCalls state₁ msg = some (true, after₁))
    (fires₂ : ruleEngineFilter calls.toRuleCalls state₂ msg = some (true, after₂))
    : (∀ isNeedSet jso clause,
        payloadOutput calls after₁ msg isNeedSet jso clause
          = payloadOutput calls after₂ msg isNeedSet jso clause
        ∧ payloadOutput calls after₁ msg isNeedSet jso clause
          = payloadOutput calls (rule.withMessage calls msg) msg isNeedSet jso clause)
      ↔ UpToDate calls state₁ msg ∧ UpToDate calls state₂ msg := by
  have start : ReachedFrom rule rule := ⟨fresh, fun _ => rfl⟩
  rw [← (start.run run₁).output_iff fires₁, ← (start.run run₂).output_iff fires₂]
  constructor
  · intro same
    constructor
    · exact fun isNeedSet jso clause => (same isNeedSet jso clause).2
    · intro isNeedSet jso clause
      obtain ⟨both, own⟩ := same isNeedSet jso clause
      rw [← both, own]
  · rintro ⟨first, second⟩ isNeedSet jso clause
    exact ⟨(first isNeedSet jso clause).trans (second isNeedSet jso clause).symm,
      first isNeedSet jso clause⟩

/-- A rule that writes the field v of the payload to a table. -/
def statusRule (stored : Stored) : Rule :=
  {
    topic := lit "t"
    flag := fun field => field = .PAYLOAD_FIELD
    asName := fun _ => none
    filter := some fun _ => none
    cmpType := fun _ => .EQUAL
    payload :=
      [{
        psa := [lit "v"]
        pas := some (lit "v")
        filter := none
        cmpType := .EQUAL
        isStore := true
        stored
      }]
    rawSql := none
    enabled := true
    ruleId := 1
    forwordType := .SQLITE
    repub := none
    sqliteTable := some (lit "status")
    mysql := none
  }

/-- The text of an object with a member v. -/
def statusText (value : Text) : Text :=
  lit "\x7b\"v\":" ++ value ++ lit "\x7d"

/-- Topics are compared, and there are two payloads. -/
def statusCalls : OutputCalls :=
  {
    topicFilter := fun pattern topic => pattern = topic
    parse := fun text =>
      if text = statusText (lit "true") then some (.object [(lit "v", .bool true)])
      else if text = statusText (lit "\"a\"") then
        some (.object [(lit "v", .string (lit "a"))])
      else none
    compare := fun _ _ => false
    print := fun _ => []
    nullText := lit "(null)"
  }

def statusMessage (value : Text) : RuleMessage :=
  {
    qos := ⟨0, Nat.succ_pos _⟩
    packetId := ⟨0, Nat.succ_pos _⟩
    topic := lit "t"
    clientid := none
    username := none
    password := none
    time := 0
    payload := some (statusText value)
  }

def tableOption : EngineOption :=
  { sdb := true, fdb := false, mdb := false, rpb := false }

def textTurn : Turn :=
  { msg := statusMessage (lit "\"a\""), isNeedSet := false }

theorem statusRule_upToDate (stored : Stored)
    : UpToDate statusCalls (statusRule stored) textTurn.msg := by
  intro _ entry member _ _ missing
  obtain rfl := List.mem_singleton.mp member
  cases missing

/-- Witness: a text comes out the same for the first message and for the second. -/
theorem text_after_text
    : ∃ state after₁ after₂,
        runHistory statusCalls tableOption (statusRule .nothing) [textTurn] = some state
        ∧ ruleEngineFilter statusCalls.toRuleCalls (statusRule .nothing) textTurn.msg
          = some (true, after₁)
        ∧ ruleEngineFilter statusCalls.toRuleCalls state textTurn.msg = some (true, after₂)
        ∧ ∀ isNeedSet jso clause,
            payloadOutput statusCalls after₁ textTurn.msg isNeedSet jso clause
              = payloadOutput statusCalls after₂ textTurn.msg isNeedSet jso clause
            ∧ payloadOutput statusCalls after₁ textTurn.msg isNeedSet jso clause
              = payloadOutput statusCalls
                  ((statusRule .nothing).withMessage statusCalls textTurn.msg) textTurn.msg
                  isNeedSet jso clause := by
  have start
      : runHistory statusCalls tableOption (statusRule .nothing) [] = some (statusRule .nothing) :=
    rfl
  have run
      : runHistory statusCalls tableOption (statusRule .nothing) [textTurn]
        = some (statusRule (.string (lit "a"))) :=
    rfl
  have fires₁
      : ruleEngineFilter statusCalls.toRuleCalls (statusRule .nothing) textTurn.msg
        = some (true, statusRule (.string (lit "a"))) :=
    rfl
  have fires₂
      : ruleEngineFilter statusCalls.toRuleCalls (statusRule (.string (lit "a"))) textTurn.msg
        = some (true, statusRule (.string (lit "a"))) :=
    rfl
  refine ⟨_, _, _, run, fires₁, fires₂, ?_⟩
  exact (output_from_message_iff rfl start run fires₁ fires₂).mpr
    ⟨statusRule_upToDate _, statusRule_upToDate _⟩

/-- The columns for a message whose field is no text, after a history. -/
def columnsAfter (history : List Turn) : Option (Bool × Text × Text) :=
  (runHistory statusCalls tableOption (statusRule .nothing) history).bind fun state =>
    (ruleEngineFilter statusCalls.toRuleCalls state (statusMessage (lit "true"))).bind
      fun (fires, after) =>
        (payloadOutput statusCalls after (statusMessage (lit "true")) false []
            (openClause statusCalls after)).2.map
          fun clause => (fires, clause.key, clause.value)

/-- Counterexample: the text of an earlier message comes out for one that has none. -/
theorem text_comes_out_later
    : columnsAfter [] = some (true, lit "status (", lit "VALUES (, ")
      ∧ columnsAfter [textTurn] = some (true, lit "status (v, ", lit "VALUES ( 'a', ") := by
  decide +kernel

end NanoMQ.Rules
