import NanoMQ.Rest.Routing

/-! The path of a URI: its components as `uri_parse_tree` returns them, and the components
that `process_request` looks at.
-/

namespace NanoMQ.Rest

open Bytes

-- The components of a path

/-- The texts between the slashes. -/
def components (text : List UInt8) : List (List UInt8) :=
  text.splitOn 47

/-- One empty text at the end is left out. -/
def withoutTrailingEmpty (texts : List (List UInt8)) : List (List UInt8) :=
  if texts.getLast? = some [] then texts.dropLast else texts

/-- The text behind the first occurrence of the root in a path. -/
def AfterRoot (path text : List UInt8) : Prop :=
  ∃ before,
    path = before ++ REST_URI_ROOT ++ text
    ∧ ∀ position < before.length, ¬REST_URI_ROOT <+: path.drop position

theorem splitSlashes_eq_cutAt (current text : List UInt8)
    : splitSlashes current text = cutAt 47 current text := by
  induction text generalizing current with
  | nil => rfl
  | cons byte rest ih => simp only [splitSlashes, cutAt, ih]

theorem splitSlashes_all (text : List UInt8)
    : (splitSlashes [] text).1 ++ [(splitSlashes [] text).2] = components text := by
  rw [splitSlashes_eq_cutAt]
  exact cutAt_all 47 text

/-- Nothing is cut off exactly if the text has no slash. By induction on the text. -/
theorem splitSlashes_uncut_iff (current text : List UInt8)
    : (splitSlashes current text).1 = [] ↔ 47 ∉ text := by
  induction text generalizing current with
  | nil => simp [splitSlashes]
  | cons byte rest ih =>
      rw [splitSlashes]
      split
      · rename_i slash
        simp [slash]
      · rename_i other
        rw [ih]
        simp [Ne.symm other]

/-- `strstr` finds the first occurrence. By induction on the part in front of it. -/
theorem strstr_of_first {needle before text : List UInt8} (nonempty : needle ≠ [])
    (first
      : ∀ position < before.length, ¬needle <+: (before ++ needle ++ text).drop position)
    : strstr needle (before ++ needle ++ text) = some (needle ++ text) := by
  induction before with
  | nil =>
      obtain ⟨byte, rest, shape⟩ := List.exists_cons_of_ne_nil nonempty
      simp [shape, strstr]
  | cons byte before ih =>
      have here := first 0 (by simp)
      have later := ih fun position bound => first (position + 1) (by simpa using bound)
      simp only [List.cons_append, List.drop_zero] at here ⊢
      rw [strstr, if_neg (by simpa using here)]
      exact later

-- The nodes

theorem markEnd_cons_cons (first second : List UInt8) (rest : List (List UInt8))
    : markEnd (first :: second :: rest)
      = { node := first, isEnd := false } :: markEnd (second :: rest) :=
  rfl

/-- By induction on the texts. -/
theorem map_node_markEnd (texts : List (List UInt8))
    : (markEnd texts).map TreeNode.node = texts := by
  induction texts with
  | nil => rfl
  | cons first rest ih =>
      cases rest with
      | nil => rfl
      | cons second rest => rw [markEnd_cons_cons, List.map_cons, ih]

/-- The mark is on the last node and only there. By induction on the texts. -/
theorem isEnd_markEnd {texts : List (List UInt8)} {position : Nat} {node : TreeNode}
    (found : (markEnd texts)[position]? = some node)
    : node.isEnd = true ↔ position + 1 = texts.length := by
  induction texts generalizing position with
  | nil => simp [markEnd] at found
  | cons first rest ih =>
      cases rest with
      | nil =>
          cases position with
          | zero =>
              obtain rfl : _ = node := by simpa [markEnd] using found
              simp
          | succ position => simp [markEnd] at found
      | cons second rest =>
          rw [markEnd_cons_cons] at found
          cases position with
          | zero =>
              obtain rfl : _ = node := by simpa using found
              simp
          | succ position =>
              rw [ih (by simpa using found)]
              simp

theorem uriParseTree_eq {path text : List UInt8} (below : AfterRoot path text)
    : uriParseTree path
      = if 47 ∈ text then markEnd (withoutTrailingEmpty (components text)) else [] := by
  obtain ⟨before, rfl, first⟩ := below
  have found := strstr_of_first (by decide) first
  have all := splitSlashes_all text
  unfold uriParseTree
  rw [found]
  simp only [List.drop_left, splitSlashes_uncut_iff]
  by_cases slash : 47 ∈ text
  · rw [if_neg (not_not_intro slash), if_pos slash, ← all, withoutTrailingEmpty]
    simp only [List.getLast?_append, List.getLast?_singleton, Option.some_or, Option.some.injEq,
      List.dropLast_concat]
    split_ifs <;> rfl
  · rw [if_pos slash, if_neg slash]

-- The dispatch, test by test

/-- A test of a condition in `process_request`. -/
inductive PathTest where
  /-- `uri_ct->sub_count == total` -/
  | count (total : Nat)
  /-- `uri_ct->sub_tree[index]->end` -/
  | atEnd (index : Nat)
  /-- `strcmp(uri_ct->sub_tree[index]->node, text) == 0` -/
  | node (index : Nat) (text : List Char)

def PathTest.holds (tree : List TreeNode) : PathTest → Bool
  | .count total => tree.length == total
  | .atEnd index => (tree[index]?.map TreeNode.isEnd).getD false
  | .node index text => nodeIs tree index text

/-- The index that a test applies to `sub_tree`. -/
def PathTest.reads : PathTest → List Nat
  | .count _ => []
  | .atEnd index | .node index _ => [index]

/-- One branch of an `else if` chain: its tests in order, the nodes whose texts it passes on,
and the handler it calls with them.
-/
structure Branch where
  tests : List PathTest
  args : List Nat
  call : List (List UInt8) → RestCall

/-- The tests of a condition with the indices they read; `&&` stops at the first that fails. -/
def runTests (tree : List TreeNode) : List PathTest → Bool × List Nat
  | [] => (true, [])
  | test :: rest =>
      if test.holds tree then
        let (taken, reads) := runTests tree rest
        (taken, test.reads ++ reads)
      else (false, test.reads)

/-- The handler that an `else if` chain selects, with all indices read on the way. -/
def runBranches (tree : List TreeNode) : List Branch → Option RestCall × List Nat
  | [] => (none, [])
  | branch :: rest =>
      let (taken, reads) := runTests tree branch.tests
      if taken then
        (some (branch.call (branch.args.map (nodeText tree))), reads ++ branch.args)
      else
        let (call, more) := runBranches tree rest
        (call, reads ++ more)

/-- `sub_count == count && sub_tree[count - 1]->end && strcmp(sub_tree[1]->node, text) == 0` -/
def leaf (count : Nat) (text : List Char) : List PathTest :=
  [.count count, .atEnd (count - 1), .node 1 text]

/-- A branch that passes no text on. -/
def plain (tests : List PathTest) (call : RestCall) : Branch :=
  { tests, args := [], call := fun _ => call }

/-- A branch that passes on the text of one node. -/
def passing (tests : List PathTest) (index : Nat) (call : List UInt8 → RestCall) : Branch :=
  { tests, args := [index], call := fun texts => call (texts.headD []) }

def branchesGet : List Branch :=
  [
    plain [.count 0] .getEndpoints,
    plain (leaf 2 ['b', 'r', 'o', 'k', 'e', 'r', 's']) .getBrokers,
    plain (leaf 2 ['n', 'o', 'd', 'e', 's']) .getNodes,
    plain (leaf 2 textClients) (.getClients none none),
    passing (leaf 3 textClients) 2 fun text => .getClients (some text) none,
    passing (leaf 4 textClients ++ [.node 2 ['u', 's', 'e', 'r', 'n', 'a', 'm', 'e']]) 3
      fun text => .getClients none (some text),
    plain (leaf 2 textSubscriptions) (.getSubscriptions none),
    passing (leaf 3 textSubscriptions) 2 fun text => .getSubscriptions (some text),
    plain (leaf 2 textRules) (.getRules none),
    passing (leaf 3 textRules) 2 fun text => .getRules (some text),
    plain (leaf 2 ['t', 'o', 'p', 'i', 'c', '-', 't', 'r', 'e', 'e']) .getTree,
    plain (leaf 2 textConfiguration) .getConfig
  ]

/-- A branch of the POST chain below `mqtt`. -/
def mqttBranch (text : List Char) (batch : Bool) (kind : MqttMsgKind) : Branch :=
  plain (leaf 3 ['m', 'q', 't', 't'] ++ [.node 2 text]) (.postMqttMsg batch kind)

def branchesPost : List Branch :=
  [
    passing (leaf 3 ['c', 't', 'r', 'l']) 2 .postCtrl,
    plain (leaf 2 textConfiguration) .postConfig,
    plain (leaf 2 textRules) .postRules,
    mqttBranch textPublish false .publish,
    mqttBranch (textPublish ++ textBatch) true .publish,
    mqttBranch textSubscribe false .subscribe,
    mqttBranch (textSubscribe ++ textBatch) true .subscribe,
    mqttBranch textUnsubscribe false .unsubscribe,
    mqttBranch (textUnsubscribe ++ textBatch) true .unsubscribe
  ]

def branchesRule (call : List UInt8 → RestCall) : List Branch :=
  [passing (leaf 3 textRules) 2 call]

/-- The chain of a method; NULL for a method that is not allowed. -/
def branchesOf (method : List UInt8) : Option (List Branch) :=
  if strcasecmpEq method (ascii ['G', 'E', 'T']) then some branchesGet
  else if strcasecmpEq method (ascii ['P', 'O', 'S', 'T']) then some branchesPost
  else if strcasecmpEq method (ascii ['P', 'U', 'T']) then some (branchesRule .putRules)
  else if strcasecmpEq method (ascii ['D', 'E', 'L', 'E', 'T', 'E']) then
    some (branchesRule .deleteRules)
  else none

/-- The dispatch of `process_request` with the indices that it applies to `sub_tree`; those of
`uri_free` come last.
-/
def dispatch (msg : HttpMsg) : Except Nat RestCall × List Nat :=
  let tree := uriParse msg.uri
  match branchesOf msg.method.bytes with
  | none => (.error NNG_HTTP_STATUS_METHOD_NOT_ALLOWED, List.range tree.length)
  | some branches =>
      let (call, reads) := runBranches tree branches
      (call.elim (.error NNG_HTTP_STATUS_NOT_FOUND) .ok, reads ++ List.range tree.length)

-- The chains select the handlers of `route`

theorem runTests_taken (tree : List TreeNode) (tests : List PathTest)
    : (runTests tree tests).1 = tests.all (PathTest.holds tree) := by
  induction tests with
  | nil => rfl
  | cons test rest ih =>
      rw [runTests, List.all_cons]
      split <;> simp_all

theorem runBranches_cons (tree : List TreeNode) (branch : Branch) (rest : List Branch)
    : (runBranches tree (branch :: rest)).1
      = if branch.tests.all (PathTest.holds tree) then
          some (branch.call (branch.args.map (nodeText tree)))
        else (runBranches tree rest).1 := by
  rw [runBranches]
  simp only [runTests_taken]
  split <;> rfl

/-- The mark tested at the last index is the one of the last node. -/
theorem holds_leaf (tree : List TreeNode) {count : Nat} (positive : 0 < count)
    (text : List Char)
    : (leaf count text).all (PathTest.holds tree) = (endsAt tree count && nodeIs tree 1 text) := by
  simp only [leaf, List.all_cons, List.all_nil, Bool.and_true, PathTest.holds, endsAt]
  by_cases size : tree.length = count
  · have last : tree[count - 1]? = tree.getLast? := by
      rw [List.getLast?_eq_getElem?, size]
    cases found : tree.getLast? with
    | none =>
        rw [List.getLast?_eq_none_iff.mp found] at size
        exact absurd size (Nat.ne_of_lt positive)
    | some node =>
        rw [last, found]
        simp [Bool.and_assoc]
  · rw [beq_false_of_ne size]
    simp

theorem runBranches_get (tree : List TreeNode)
    : (runBranches tree branchesGet).1 = routeGet tree := by
  simp only [branchesGet, runBranches_cons, plain, passing, List.all_append, holds_leaf,
    Nat.zero_lt_succ]
  simp [PathTest.holds, runBranches, routeGet, nodeText]

theorem runBranches_post (tree : List TreeNode)
    : (runBranches tree branchesPost).1 = routePost tree := by
  simp only [branchesPost, mqttBranch, runBranches_cons, plain, passing, List.all_append,
    holds_leaf, Nat.zero_lt_succ, routePost]
  cases endsAt tree 3 && nodeIs tree 1 ['m', 'q', 't', 't'] with
  | _ => simp [PathTest.holds, runBranches, routeMqtt, nodeText]

theorem runBranches_rule (call : List UInt8 → RestCall) (tree : List TreeNode)
    : (runBranches tree (branchesRule call)).1 = routeRule call tree := by
  simp only [branchesRule, runBranches_cons, passing, holds_leaf, Nat.zero_lt_succ]
  simp [runBranches, routeRule]

/-- The chain of every method selects the handler of `route`. -/
theorem dispatch_eq_route (msg : HttpMsg) : (dispatch msg).1 = route msg := by
  unfold dispatch route branchesOf
  split_ifs
  · simp only [runBranches_get]
    cases routeGet (uriParse msg.uri) <;> rfl
  · simp only [runBranches_post]
    cases routePost (uriParse msg.uri) <;> rfl
  · simp only [runBranches_rule]
    cases routeRule .putRules (uriParse msg.uri) <;> rfl
  · simp only [runBranches_rule]
    cases routeRule .deleteRules (uriParse msg.uri) <;> rfl
  · rfl

-- The indices are below the count

/-- A branch tests the count first, and each index it uses is below that count. -/
def Branch.guarded (branch : Branch) : Bool :=
  match branch.tests with
  | .count total :: rest =>
      (rest.flatMap PathTest.reads).all (fun index => index < total)
      && branch.args.all (fun index => index < total)
  | _ => false

/-- By induction on the tests. -/
theorem reads_runTests_subset (tree : List TreeNode) (tests : List PathTest)
    : (runTests tree tests).2 ⊆ tests.flatMap PathTest.reads := by
  induction tests with
  | nil => simp [runTests]
  | cons test rest ih =>
      rw [runTests, List.flatMap_cons]
      split
      · exact List.append_subset.mpr
          ⟨List.subset_append_left _ _, List.subset_append_of_subset_right _ ih⟩
      · exact List.subset_append_left _ _

/-- The count tested first bounds what a branch reads and, where it is taken, passes on. -/
theorem Branch.reads_lt {branch : Branch} (guarded : branch.guarded) (tree : List TreeNode)
    : (∀ index ∈ (runTests tree branch.tests).2, index < tree.length)
      ∧ (branch.tests.all (PathTest.holds tree) → ∀ index ∈ branch.args, index < tree.length) := by
  obtain ⟨tests, args, call⟩ := branch
  cases tests with
  | nil => cases guarded
  | cons test tests =>
      cases test with
      | count total =>
          obtain ⟨readsBelow, argsBelow⟩ := Bool.and_eq_true_iff.mp guarded
          simp only [List.all_eq_true, decide_eq_true_eq] at readsBelow argsBelow
          have tested : PathTest.holds tree (.count total) = true ↔ tree.length = total := by
            simp [PathTest.holds]
          by_cases size : tree.length = total
          · rw [runTests, if_pos (tested.mpr size), size]
            exact ⟨
              fun index member => readsBelow index (reads_runTests_subset tree tests member),
              fun _ => argsBelow
            ⟩
          · have failed := mt tested.mp size
            refine ⟨?_, fun taken => absurd (List.all_eq_true.mp taken _ (by simp)) failed⟩
            rw [runTests, if_neg failed]
            simp [PathTest.reads]
      | _ => cases guarded

theorem reads_runBranches_cons (tree : List TreeNode) (branch : Branch) (rest : List Branch)
    : (runBranches tree (branch :: rest)).2
      = (runTests tree branch.tests).2
        ++ if branch.tests.all (PathTest.holds tree) then branch.args
          else (runBranches tree rest).2 := by
  rw [runBranches]
  simp only [runTests_taken]
  split <;> rfl

/-- Guarded branches read only nodes that are there. By induction on the chain. -/
theorem reads_runBranches_lt {tree : List TreeNode} {branches : List Branch}
    (guarded : branches.all Branch.guarded)
    : ∀ index ∈ (runBranches tree branches).2, index < tree.length := by
  induction branches with
  | nil => simp [runBranches]
  | cons branch rest ih =>
      obtain ⟨first, others⟩ := Bool.and_eq_true_iff.mp guarded
      obtain ⟨reads, args⟩ := Branch.reads_lt first tree
      rw [reads_runBranches_cons]
      intro index member
      rcases List.mem_append.mp member with read | later
      · exact reads index read
      · split at later
        · rename_i taken
          exact args taken index later
        · exact ih others index later

theorem guarded_branchesOf {method : List UInt8} {branches : List Branch}
    (chain : branchesOf method = some branches)
    : branches.all Branch.guarded := by
  unfold branchesOf at chain
  split_ifs at chain <;> obtain rfl := Option.some.inj chain <;> rfl

theorem reads_dispatch_lt (msg : HttpMsg)
    : ∀ index ∈ (dispatch msg).2, index < (uriParse msg.uri).length := by
  unfold dispatch
  cases chain : branchesOf msg.method.bytes with
  | none => simp
  | some branches =>
      intro index member
      rcases List.mem_append.mp member with read | freed
      · exact reads_runBranches_lt (guarded_branchesOf chain) index read
      · exact List.mem_range.mp freed

/-- The nodes of a path are the components behind its root, in order, without one empty
component at the end, and none where there is no slash. The last of them and only that is
marked. The dispatch selects its handler by nodes that are there.
-/
theorem uri_path_split
    : (∀ path text,
        AfterRoot path text
        → (uriParseTree path).map TreeNode.node
            = (if 47 ∈ text then withoutTrailingEmpty (components text) else [])
          ∧ ∀ position node,
              (uriParseTree path)[position]? = some node
              → (node.isEnd = true ↔ position + 1 = (uriParseTree path).length))
      ∧ ∀ msg,
          (dispatch msg).1 = route msg
          ∧ ∀ index ∈ (dispatch msg).2, index < (uriParse msg.uri).length := by
  refine ⟨?_, fun msg => ⟨dispatch_eq_route msg, reads_dispatch_lt msg⟩⟩
  intro path text below
  rw [uriParseTree_eq below]
  split_ifs
  · refine ⟨map_node_markEnd _, ?_⟩
    intro position node found
    rw [isEnd_markEnd found, ← congrArg List.length (map_node_markEnd _), List.length_map]
  · simp

/-- The path `/api/v4/rules//` has the components of `/rules//`, one empty one left out. -/
theorem uri_path_split_rules
    : let text := ascii ['/', 'r', 'u', 'l', 'e', 's', '/', '/']
      AfterRoot (REST_URI_ROOT ++ text) text
      ∧ (uriParseTree (REST_URI_ROOT ++ text)).map TreeNode.node
        = [[], ascii ['r', 'u', 'l', 'e', 's'], []] := by
  intro text
  have below : AfterRoot (REST_URI_ROOT ++ text) text := ⟨[], rfl, by simp⟩
  exact ⟨below, ((uri_path_split).1 _ _ below).1.trans (by decide)⟩

end NanoMQ.Rest
