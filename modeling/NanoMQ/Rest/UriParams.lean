import NanoMQ.Rest.Routing

/-! The query parameters of a URI: what `uri_parse` puts into the array `params`, and what
`uri_free` makes of it.
-/

namespace NanoMQ.Rest

open Bytes

-- uri_param_parse and uri_param_free

structure Kv where
  key : List UInt8
  value : List UInt8
  deriving DecidableEq, Repr

/-- The loop over `strchr(str, '&')`: the strings that it cuts off, and what is left in `str`.
The argument `current` holds the bytes since the previous cut, in reverse.
-/
def cutAmpersands : List UInt8 → List UInt8 → List (List UInt8) × List UInt8
  | current, [] => ([], current.reverse)
  | current, byte :: rest =>
      if byte = 38 then
        let (pieces, last) := cutAmpersands [] rest
        (current.reverse :: pieces, last)
      else cutAmpersands (byte :: current) rest

/-- `sscanf(text, "%[^=]=%s", key, value) == 2`: a key in front of the first `=`, and behind
it a word that is not empty.
-/
def sscanfKv (text : List UInt8) : Option Kv :=
  let key := text.takeWhile (fun byte => byte != 61)
  if key = [] then none
  else
    match text.dropWhile (fun byte => byte != 61) with
    | [] => none
    | _ :: rest =>
        let value := (rest.dropWhile isSpace).takeWhile (fun byte => !isSpace byte)
        if value = [] then none else some { key, value }

/-- The fields of `uri_content`; the array is NULL or has an entry or NULL for every string
that was cut off.
-/
structure UriContent where
  subTree : List TreeNode
  params : Option (List (Option Kv))
  paramsCount : Nat

/-- The array, and the count that is stored through `count`. Without `&` both stay as they
were.
-/
def uriParamParse (path : List UInt8) (count : Nat) : Option (List (Option Kv)) × Nat :=
  let (pieces, last) := cutAmpersands [] path
  if pieces = [] then (none, count)
  else
    let params := (pieces ++ [last]).map sscanfKv
    (some params, (params.filter Option.isSome).length)

/-- The query: what follows the first `?`. -/
def queryOf (uri : CString) : Option (List UInt8) :=
  match uri.bytes.dropWhile (fun byte => byte != 63) with
  | [] => none
  | _ :: param => some param

/-- `uri_parse` as a whole: the path components, and the parameters of a query of at least
three bytes.
-/
def uriContent (uri : CString) : UriContent :=
  let empty := { subTree := uriParse uri, params := none, paramsCount := 0 }
  if uri.bytes = REST_URI_ROOT ∨ uri.bytes = REST_URI_ROOT ++ [47] then empty
  else
    match queryOf uri with
    | none => empty
    | some param =>
        if 3 ≤ param.length then
          let (params, paramsCount) := uriParamParse param 0
          { empty with params, paramsCount }
        else empty

/-- What `uri_param_free` does at one position: free the entry there, or follow a pointer
that is not one.
-/
inductive ParamFree where
  | entry (kv : Kv)
  | missing
  deriving DecidableEq, Repr

def freeParam (params : List (Option Kv)) (position : Nat) : ParamFree :=
  match params[position]? with
  | some (some kv) => .entry kv
  | some none | none => .missing

def uriParamFree (ct : UriContent) : List ParamFree :=
  (List.range ct.paramsCount).map (freeParam (ct.params.getD []))

-- Segments

/-- The parameter that a segment denotes: a key up to the first `=` and the value behind it,
neither of them empty.
-/
def keyValue (segment : List UInt8) : Option Kv :=
  let key := segment.takeWhile (fun byte => byte != 61)
  let value := (segment.dropWhile (fun byte => byte != 61)).tail
  if key = [] ∨ value = [] then none else some { key, value }

/-- The segments of a query. -/
def segments (query : List UInt8) : List (List UInt8) :=
  query.splitOn 38

theorem cutAmpersands_eq_cutAt (current str : List UInt8)
    : cutAmpersands current str = cutAt 38 current str := by
  induction str generalizing current with
  | nil => rfl
  | cons byte rest ih => simp only [cutAmpersands, cutAt, ih]

theorem cutAmpersands_all (str : List UInt8)
    : (cutAmpersands [] str).1 ++ [(cutAmpersands [] str).2] = segments str := by
  rw [cutAmpersands_eq_cutAt]
  exact cutAt_all 38 str

theorem cutAmpersands_uncut_iff (str : List UInt8)
    : (cutAmpersands [] str).1 = [] ↔ (segments str).length = 1 := by
  rw [← cutAmpersands_all]
  simp

/-- The bytes of a segment are bytes of the query. By induction on the query. -/
theorem segments_subset {query segment : List UInt8} (member : segment ∈ segments query)
    : segment ⊆ query := by
  induction query generalizing segment with
  | nil =>
      obtain rfl : segment = [] := by simpa [segments] using member
      exact List.nil_subset _
  | cons byte rest ih =>
      rw [segments, splitOn_cons, ← segments] at member
      split at member
      · rcases List.mem_cons.mp member with rfl | later
        · exact List.nil_subset _
        · exact List.subset_cons_of_subset byte (ih later)
      · cases found : segments rest with
        | nil =>
            rw [found] at member
            cases member
        | cons first others =>
            rw [found, List.modifyHead_cons] at member
            rcases List.mem_cons.mp member with rfl | later
            · exact List.cons_subset_cons byte (ih (found ▸ List.mem_cons_self))
            · exact List.subset_cons_of_subset byte (ih (found ▸ List.mem_cons_of_mem _ later))

/-- In a text without white space `sscanf` finds what the segment denotes. -/
theorem sscanfKv_eq_keyValue {text : List UInt8}
    (noSpace : ∀ byte ∈ text, isSpace byte = false)
    : sscanfKv text = keyValue text := by
  unfold sscanfKv keyValue
  cases found : text.dropWhile (fun byte => byte != 61) with
  | nil => simp
  | cons equals rest =>
      have restSpace : ∀ byte ∈ rest, isSpace byte = false := by
        intro byte member
        apply noSpace byte
        apply List.dropWhile_subset (fun byte => byte != 61)
        rw [found]
        exact List.mem_cons_of_mem _ member
      have nothingSkipped : rest.dropWhile isSpace = rest := by
        cases rest with
        | nil => rfl
        | cons byte _ => simp [restSpace byte List.mem_cons_self]
      have wholeWord : rest.takeWhile (fun byte => !isSpace byte) = rest := by
        apply List.takeWhile_eq_self_iff.mpr
        intro byte member
        simp [restSpace byte member]
      simp only [nothingSkipped, wholeWord, List.tail_cons]
      split_ifs <;> simp_all

-- What the array holds

/-- The parameters of a query, in order. -/
def parameters (query : List UInt8) : List Kv :=
  (segments query).filterMap keyValue

/-- The array holds exactly these parameters in its first places, and `uri_free` finds and
frees each of them.
-/
structure Dense (ct : UriContent) (expected : List Kv) : Prop where
  count : ct.paramsCount = expected.length
  entries : (ct.params.getD []).take ct.paramsCount = expected.map some
  freed : uriParamFree ct = expected.map ParamFree.entry

/-- The segments that denote parameters stand in front of the others. -/
def InFront (query : List UInt8) : Prop :=
  ∃ good bad,
    segments query = good ++ bad
    ∧ (∀ segment ∈ good, (keyValue segment).isSome)
    ∧ ∀ segment ∈ bad, keyValue segment = none

theorem uriParamParse_eq {query : List UInt8}
    (noSpace : ∀ byte ∈ query, isSpace byte = false)
    : uriParamParse query 0
      = if (segments query).length = 1 then (none, 0)
        else (some ((segments query).map keyValue), (parameters query).length) := by
  have scanned : (segments query).map sscanfKv = (segments query).map keyValue := by
    apply List.map_congr_left
    intro segment member
    exact sscanfKv_eq_keyValue fun byte inSegment =>
      noSpace byte (segments_subset member inSegment)
  have counted
      : (((segments query).map keyValue).filter Option.isSome).length
        = (parameters query).length := by
    unfold parameters
    rw [List.length_filterMap_eq_countP, ← List.countP_eq_length_filter, List.countP_map]
    rfl
  unfold uriParamParse
  dsimp only
  rw [cutAmpersands_all, scanned, counted]
  simp only [cutAmpersands_uncut_iff]

theorem uriContent_of_query {uri : CString} {query : List UInt8}
    (hasQuery : queryOf uri = some query) (long : 3 ≤ query.length)
    (noSpace : ∀ byte ∈ uri.bytes, isSpace byte = false)
    : ((uriContent uri).params, (uriContent uri).paramsCount)
      = if (segments query).length = 1 then (none, 0)
        else (some ((segments query).map keyValue), (parameters query).length) := by
  have notRoot : ¬(uri.bytes = REST_URI_ROOT ∨ uri.bytes = REST_URI_ROOT ++ [47]) := by
    unfold queryOf at hasQuery
    rintro (root | slash)
    · rw [root] at hasQuery
      cases hasQuery
    · rw [slash] at hasQuery
      cases hasQuery
  have queryNoSpace : ∀ byte ∈ query, isSpace byte = false := by
    intro byte member
    apply noSpace byte
    unfold queryOf at hasQuery
    split at hasQuery
    · cases hasQuery
    · rename_i mark param found
      cases hasQuery
      apply List.dropWhile_subset (fun byte => byte != 63)
      rw [found]
      exact List.mem_cons_of_mem _ member
  rw [← uriParamParse_eq queryNoSpace]
  unfold uriContent
  rw [if_neg notRoot, hasQuery]
  dsimp only
  rw [if_pos long]

theorem freeParam_range {params : List (Option Kv)} {expected : List Kv}
    (entries : params.take expected.length = expected.map some)
    : (List.range expected.length).map (freeParam params) = expected.map ParamFree.entry := by
  apply List.ext_getElem
  · simp
  · intro i inRange inExpected
    have bound : i < expected.length := by simpa using inRange
    have here : params[i]? = some (some expected[i]) := by
      have taken := congrArg (fun list => list[i]?) entries
      simpa [List.getElem?_take_of_lt bound, bound] using taken
    simp [freeParam, here]

/-- Where every segment denotes a parameter, none is skipped. By induction on the list. -/
theorem map_some_filterMap {list : List (List UInt8)}
    (all : ∀ segment ∈ list, (keyValue segment).isSome)
    : (list.filterMap keyValue).map some = list.map keyValue := by
  induction list with
  | nil => rfl
  | cons segment rest ih =>
      obtain ⟨kv, denotes⟩ := Option.isSome_iff_exists.mp (all segment List.mem_cons_self)
      rw [List.filterMap_cons_some denotes, List.map_cons, List.map_cons, denotes,
        ih fun other member => all other (List.mem_cons_of_mem _ member)]

/-- The parameters fill the first places exactly if their segments stand in front. -/
theorem take_parameters_iff (query : List UInt8)
    : ((segments query).map keyValue).take (parameters query).length
        = (parameters query).map some
      ↔ InFront query := by
  constructor
  · intro entries
    let count := (parameters query).length
    have taken : ((segments query).take count).map keyValue = (parameters query).map some := by
      rw [List.map_take]
      exact entries
    have parts := List.take_append_drop count (segments query)
    refine ⟨_, _, parts.symm, ?_, ?_⟩
    · intro segment member
      have mapped : keyValue segment ∈ (parameters query).map some :=
        taken ▸ List.mem_map_of_mem member
      obtain ⟨kv, _, same⟩ := List.mem_map.mp mapped
      rw [← same]
      rfl
    · -- The first segments already denote as many parameters as there are.
      have front : ((segments query).take count).filterMap keyValue = parameters query :=
        calc
          ((segments query).take count).filterMap keyValue
          _ = (((segments query).take count).map keyValue).filterMap id := by
            rw [List.filterMap_map]
            rfl
          _ = ((parameters query).map some).filterMap id := by rw [taken]
          _ = parameters query := by simp
      have all : parameters query
          = ((segments query).take count).filterMap keyValue
            ++ ((segments query).drop count).filterMap keyValue := by
        rw [← List.filterMap_append, parts]
        rfl
      rw [front] at all
      have none := List.append_right_eq_self.mp all.symm
      exact List.filterMap_eq_nil_iff.mp none
  · rintro ⟨good, bad, parts, isGood, isBad⟩
    have front : parameters query = good.filterMap keyValue := by
      unfold parameters
      rw [parts, List.filterMap_append, List.filterMap_eq_nil_iff.mpr isBad, List.append_nil]
    have length : (good.filterMap keyValue).length = (good.map keyValue).length := by
      rw [← map_some_filterMap isGood, List.length_map]
    rw [front, parts, List.map_append, length, List.take_left, map_some_filterMap isGood]

/-- For a URI without white space and a query of at least three bytes, the array is dense and
complete exactly if the segments that denote parameters stand in front of the others, and a
single segment denotes none. What the scan writes behind its buffers is left out here: for a
segment without an `=`, as in `a=1&x`, that is the terminator of the key (`FitsBuffers`).
-/
theorem uri_params_dense_iff {uri : CString} {query : List UInt8}
    (hasQuery : queryOf uri = some query) (long : 3 ≤ query.length)
    (noSpace : ∀ byte ∈ uri.bytes, isSpace byte = false)
    : Dense (uriContent uri) (parameters query)
      ↔ InFront query ∧ ((segments query).length = 1 → parameters query = []) := by
  have content := uriContent_of_query hasQuery long noSpace
  have freed (entries
      : ((uriContent uri).params.getD []).take (parameters query).length
        = (parameters query).map some)
      (count : (uriContent uri).paramsCount = (parameters query).length)
      : uriParamFree (uriContent uri) = (parameters query).map ParamFree.entry := by
    unfold uriParamFree
    rw [count]
    exact freeParam_range entries
  by_cases single : (segments query).length = 1
  · rw [if_pos single, Prod.mk.injEq] at content
    obtain ⟨params, count⟩ := content
    constructor
    · intro dense
      have empty : parameters query = [] := by
        apply List.length_eq_zero_iff.mp
        rw [← dense.count, count]
      refine ⟨(take_parameters_iff query).mp ?_, fun _ => empty⟩
      rw [empty]
      rfl
    · rintro ⟨_, empty⟩
      have none := empty single
      rw [none]
      rw [none, params] at freed
      exact {
        count
        entries := by rw [count]; rfl
        freed := freed rfl count
      }
  · rw [if_neg single, Prod.mk.injEq] at content
    obtain ⟨params, count⟩ := content
    rw [← take_parameters_iff]
    constructor
    · intro dense
      have entries := dense.entries
      rw [params, count] at entries
      exact ⟨entries, fun one => absurd one single⟩
    · rintro ⟨entries, _⟩
      exact {
        count
        entries := by
          rw [params, count]
          exact entries
        freed := by
          apply freed _ count
          rw [params]
          exact entries
      }

def uriWith (query : List Char) : CString :=
  .ofBytes (REST_URI_ROOT ++ ascii ('?' :: query))

/-- Two parameters are found. -/
theorem uri_params_two
    : let a : Kv := { key := ascii ['a'], value := ascii ['1'] }
      let b : Kv := { key := ascii ['b'], value := ascii ['2'] }
      Dense (uriContent (uriWith ['a', '=', '1', '&', 'b', '=', '2'])) [a, b] := by
  have hasQuery
      : queryOf (uriWith ['a', '=', '1', '&', 'b', '=', '2'])
        = some (ascii ['a', '=', '1', '&', 'b', '=', '2']) := by
    decide
  have noSpace
      : (uriWith ['a', '=', '1', '&', 'b', '=', '2']).bytes.all (fun byte => !isSpace byte) := by
    decide
  refine (uri_params_dense_iff hasQuery (by decide) (by simpa using noSpace)).mpr ⟨?_, by decide⟩
  exact ⟨[ascii ['a', '=', '1'], ascii ['b', '=', '2']], [], by decide, by decide, by decide⟩

/-- A single parameter is lost; a malformed segment in front leaves its place empty, and
`uri_free` follows the missing entry.
-/
theorem uri_params_lost
    : (uriContent (uriWith ['a', '=', '1'])).paramsCount = 0
      ∧ parameters (ascii ['a', '=', '1']) ≠ []
      ∧ (uriContent (uriWith ['x', '&', 'a', '=', '1'])).paramsCount = 1
      ∧ uriParamFree (uriContent (uriWith ['x', '&', 'a', '=', '1'])) = [.missing] := by
  decide

-- The buffers of a segment

/-- The bytes stored through the two pointers given to `sscanf`, terminators included. -/
structure KvWrites where
  key : List UInt8
  value : List UInt8
  deriving DecidableEq, Repr

/-- What `sscanf(text, "%[^=]=%s", key, value)` stores. A conversion that finds no byte
stores nothing, and the ones behind it are not tried.
-/
def sscanfWrites (text : List UInt8) : KvWrites :=
  let key := text.takeWhile (fun byte => byte != 61)
  if key = [] then { key := [], value := [] }
  else
    match text.dropWhile (fun byte => byte != 61) with
    | [] => { key := key ++ [0], value := [] }
    | _ :: rest =>
        let value := (rest.dropWhile isSpace).takeWhile (fun byte => !isSpace byte)
        { key := key ++ [0], value := if value = [] then [] else value ++ [0] }

/-- The strings that `uri_param_parse` scans: none without an `&`. -/
def scannedSegments (path : List UInt8) : List (List UInt8) :=
  let (pieces, last) := cutAmpersands [] path
  if pieces = [] then [] else pieces ++ [last]

/-- What is stored for a segment fits into two buffers of `strlen(segment)` bytes. -/
def FitsBuffers (segment : List UInt8) : Prop :=
  (sscanfWrites segment).key.length ≤ segment.length
  ∧ (sscanfWrites segment).value.length ≤ segment.length

instance (segment : List UInt8) : Decidable (FitsBuffers segment) :=
  inferInstanceAs (Decidable (_ ∧ _))

/-- A pair is found exactly if both strings are stored, and then it is what they hold. -/
theorem sscanfKv_eq_some_iff (text : List UInt8) (kv : Kv)
    : sscanfKv text = some kv
      ↔ sscanfWrites text = { key := kv.key ++ [0], value := kv.value ++ [0] } := by
  obtain ⟨key, value⟩ := kv
  unfold sscanfKv sscanfWrites
  by_cases noKey : text.takeWhile (fun byte => byte != 61) = []
  · simp [noKey]
  · simp only [if_neg noKey]
    cases text.dropWhile (fun byte => byte != 61) with
    | nil => simp
    | cons equals rest =>
        dsimp only
        split_ifs <;> simp

theorem uriParamParse_scanned (path : List UInt8) (count : Nat)
    : (uriParamParse path count).1.getD [] = (scannedSegments path).map sscanfKv := by
  unfold uriParamParse scannedSegments
  dsimp only
  split_ifs <;> rfl

/-- A query with an `&` is scanned segment by segment. -/
theorem mem_scannedSegments {path segment : List UInt8}
    : segment ∈ scannedSegments path
      ↔ segment ∈ segments path ∧ (segments path).length ≠ 1 := by
  unfold scannedSegments
  simp only [cutAmpersands_uncut_iff, cutAmpersands_all]
  split_ifs with one <;> simp [one]

/-- The two strings of a segment with an `=` share its length with that byte, so each of them
has room for a terminator. Without one the key is the whole segment.
-/
theorem fitsBuffers_iff (segment : List UInt8)
    : FitsBuffers segment ↔ segment = [] ∨ 61 ∈ segment := by
  have parts := List.takeWhile_append_dropWhile (p := fun byte => byte != 61) (l := segment)
  have length := congrArg List.length parts
  rw [List.length_append] at length
  unfold FitsBuffers sscanfWrites
  cases found : segment.dropWhile (fun byte => byte != 61) with
  | nil =>
      have noEquals : ¬61 ∈ segment := by
        intro member
        have passed := List.dropWhile_eq_nil_iff.mp found 61 member
        simp at passed
      have keyIs : segment.takeWhile (fun byte => byte != 61) = segment := by
        rw [found, List.append_nil] at parts
        exact parts
      simp only [keyIs, noEquals, or_false]
      by_cases empty : segment = []
      · simp [empty]
      · simp [empty]
  | cons equals rest =>
      have isEquals : equals = 61 := by
        have failed :=
          List.head_dropWhile_not (fun byte => byte != 61) (l := segment) (by simp [found])
        simpa [found] using failed
      have member : 61 ∈ segment := by
        rw [← parts, found, isEquals]
        simp
      have valueLength
          : ((rest.dropWhile isSpace).takeWhile (fun byte => !isSpace byte)).length
            ≤ rest.length :=
        ((List.takeWhile_sublist _).length_le).trans (List.dropWhile_sublist _).length_le
      rw [found, List.length_cons] at length
      simp only [member, or_true, iff_true]
      split_ifs <;> simp <;> omega

/-- `uri_param_parse` stays inside the buffers it allocates exactly if the query has no `&`,
or each of its segments is empty or has an `=`.
-/
theorem uri_param_buffers_iff (query : CString)
    : (∀ segment ∈ scannedSegments query.bytes, FitsBuffers segment)
      ↔ (segments query.bytes).length = 1
        ∨ ∀ segment ∈ segments query.bytes, segment = [] ∨ 61 ∈ segment := by
  simp only [mem_scannedSegments, fitsBuffers_iff]
  constructor
  · intro fits
    by_cases one : (segments query.bytes).length = 1
    · exact .inl one
    · exact .inr fun segment member => fits segment ⟨member, one⟩
  · rintro (one | all) segment ⟨member, several⟩
    · exact absurd one several
    · exact all segment member

/-- The segment `x` gets buffers of one byte, and its key is stored with a terminator. -/
theorem uri_param_overrun
    : let query := CString.ofBytes (ascii ['a', '=', '1', '&', 'x'])
      ascii ['x'] ∈ scannedSegments query.bytes
      ∧ (sscanfWrites (ascii ['x'])).key = ascii ['x'] ++ [0]
      ∧ ¬FitsBuffers (ascii ['x']) := by
  decide

end NanoMQ.Rest
