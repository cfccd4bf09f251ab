import NanoMQ.Library.Blocks
import NanoMQ.Rest.Config

/-! The text of the topics that a bridge node forwards, as `update_bridge_conf` builds it: one loop
adds up the size, another one appends the topics to a block of that size. The block has room for
the terminator only because no comma follows the last topic.
-/

namespace NanoMQ.Rest

open Bytes Blocks

-- The loops

/-- What can go wrong: there is no string to read, or a write leaves the block. -/
inductive ForwardsFault where
  | missingString
  | outsideBlock
  deriving DecidableEq

/-- `topic_count` as the loops compare it: an `int`, converted to `size_t`. -/
def topicCount (items : List Json) : Nat :=
  let int := items.length % 2 ^ 32
  if int < 2 ^ 31 then int else 2 ^ 64 - 2 ^ 32 + int

/-- `cJSON_GetArrayItem`, whose index is an `int`; there is nothing at a negative one. -/
def getArrayItem (items : List Json) (index : Nat) : Option Json :=
  let int := index % 2 ^ 32
  if int < 2 ^ 31 then items[int]? else none

/-- The C string of an element. -/
def topicAt (items : List Json) (index : Nat) : Except ForwardsFault Text :=
  match (getArrayItem items index).bind Json.stringValue with
  | some text => .ok (cstr text)
  | none => .error .missingString

def addLength (items : List Json) (length index : Nat) : Except ForwardsFault Nat :=
  (topicAt items index).map fun str => length + (str.length + 1)

def append (block text : Text) : Except ForwardsFault Text :=
  match strcat block text with
  | some block => .ok block
  | none => .error .outsideBlock

/-- A topic, and a comma unless it is the last one. -/
def addTopic (items : List Json) (count : Nat) (block : Text) (index : Nat)
    : Except ForwardsFault Text :=
  (topicAt items index).bind fun str =>
    (append block str).bind fun block =>
      if index < count - 1 then append block (lit ",") else .ok block

/-- The block that goes to `conf_update2`. -/
def forwardsBlock (items : List Json) : Except ForwardsFault Text :=
  ((List.range (topicCount items)).foldlM (addLength items) 0).bind fun length =>
    (List.range (topicCount items)).foldlM (addTopic items (topicCount items)) (zalloc length)

-- The loops over strings

/-- The bytes that the topics need, with one more for each. -/
def topicsSize (topics : List Text) : Nat :=
  (topics.map fun topic => topic.length + 1).sum

theorem foldlM_step {Fault State Index : Type} {body : State → Index → Except Fault State}
    {before after : State} {index : Index} (step : body before index = .ok after)
    (rest : List Index)
    : (index :: rest).foldlM body before = rest.foldlM body after := by
  rw [List.foldlM_cons, step]
  rfl

section Loops

variable {items : List Json}

theorem read_rest {start : Nat} {topic : Text} {rest : List Text}
    (read : ∀ index (inside : index < (topic :: rest).length),
      topicAt items (start + index) = .ok (topic :: rest)[index])
    : ∀ index (inside : index < rest.length),
        topicAt items (start + 1 + index) = .ok rest[index] := by
  intro index inside
  have shifted := read (index + 1) (by simpa using inside)
  rw [Nat.add_assoc, Nat.add_comm 1 index]
  exact shifted

/-- By induction on the topics that are left. -/
theorem lengths_of_topics {start : Nat} {topics : List Text}
    (read : ∀ index (inside : index < topics.length),
      topicAt items (start + index) = .ok topics[index])
    (length : Nat)
    : (List.range' start topics.length).foldlM (addLength items) length
      = .ok (length + topicsSize topics) := by
  induction topics generalizing start length with
  | nil => rfl
  | cons topic rest ih =>
      have first : topicAt items start = .ok topic := read 0 (by simp)
      have step : addLength items length start = .ok (length + (topic.length + 1)) := by
        rw [addLength, first]
        rfl
      rw [List.length_cons, List.range'_succ, foldlM_step step, ih (read_rest read)]
      simp [topicsSize, Nat.add_assoc]

section Topic

variable {start count : Nat} {done topic : Text} (doneFree : 0 ∉ done)
  (read : topicAt items start = .ok topic)

include doneFree

theorem append_topic (rest : List Text)
    : append (filled done (topicsSize (topic :: rest))) topic
      = .ok (filled (done ++ topic) (topicsSize rest + 1)) := by
  have size : topicsSize (topic :: rest) = topic.length + topicsSize rest + 1 := by
    simp [topicsSize]
    omega
  rw [size, append, strcat_filled doneFree]

include read

theorem addTopic_last (isLast : ¬start < count - 1)
    : addTopic items count (filled done (topicsSize [topic])) start
      = .ok (filled (done ++ topic) 1) := by
  rw [addTopic, read, Except.bind, append_topic doneFree, Except.bind, if_neg isLast]
  rfl

theorem addTopic_next (topicFree : 0 ∉ topic) (notLast : start < count - 1) (next : Text)
    (others : List Text)
    : addTopic items count (filled done (topicsSize (topic :: next :: others))) start
      = .ok (filled (done ++ topic ++ lit ",") (topicsSize (next :: others))) := by
  obtain ⟨spare, isSpare⟩ : ∃ spare, topicsSize (next :: others) = spare + 1 :=
    ⟨next.length + topicsSize others, by simp [topicsSize]; omega⟩
  have soFar : 0 ∉ done ++ topic := by simp [doneFree, topicFree]
  have comma : (lit ",").length = 1 := rfl
  have room : spare + 1 + 1 = (lit ",").length + spare + 1 := by omega
  rw [addTopic, read, Except.bind, append_topic doneFree, Except.bind, if_pos notLast, append,
    isSpare, room, strcat_filled soFar]

end Topic

/-- In front of each topic there is room for all that are left. By induction on them. -/
theorem block_of_topics {start count : Nat} {topics : List Text} (nonempty : topics ≠ [])
    (read : ∀ index (inside : index < topics.length),
      topicAt items (start + index) = .ok topics[index])
    (nulFree : ∀ topic ∈ topics, 0 ∉ topic) (ends : start + topics.length = count)
    {done : Text} (doneFree : 0 ∉ done)
    : (List.range' start topics.length).foldlM (addTopic items count)
          (filled done (topicsSize topics))
      = .ok (filled (done ++ [44].intercalate topics) 1) := by
  induction topics generalizing start done with
  | nil => exact absurd rfl nonempty
  | cons topic rest ih =>
      have first : topicAt items start = .ok topic := read 0 (by simp)
      obtain ⟨topicFree, restFree⟩ := List.forall_mem_cons.mp nulFree
      rw [List.length_cons, List.range'_succ]
      cases rest with
      | nil =>
          have isLast : ¬start < count - 1 := by
            rw [← ends]
            simp
          rw [foldlM_step (addTopic_last doneFree first isLast), List.length_nil,
            List.range'_zero, List.foldlM_nil]
          simp [pure, Except.pure]
      | cons next others =>
          have notLast : start < count - 1 := by
            rw [← ends]
            simp
          have withComma : 0 ∉ done ++ topic ++ lit "," := by
            have comma : 0 ∉ lit "," := by decide
            simp [doneFree, topicFree, comma]
          have joined
              : done ++ [44].intercalate (topic :: next :: others)
                = done ++ topic ++ lit "," ++ [44].intercalate (next :: others) := by
            have isComma : lit "," = [44] := rfl
            simp [List.intercalate, isComma]
          have nextCount : start + 1 + (next :: others).length = count := by
            rw [← ends]
            simp only [List.length_cons]
            omega
          rw [foldlM_step (addTopic_next doneFree first topicFree notLast next others), joined]
          exact ih (by simp) (read_rest read) restFree nextCount withComma

/-- The topics that the loops read. -/
def Reads (items : List Json) (topics : List Text) : Prop :=
  topics.length = topicCount items
  ∧ ∀ index (inside : index < topics.length), topicAt items index = .ok topics[index]

theorem topicAt_nulFree {index : Nat} {text : Text} (read : topicAt items index = .ok text)
    : 0 ∉ text := by
  unfold topicAt at read
  split at read
  · cases read
    exact zero_not_mem_cstr _
  · cases read

theorem Reads.nulFree {topics : List Text} (reads : Reads items topics)
    : ∀ topic ∈ topics, 0 ∉ topic := by
  intro topic member
  obtain ⟨index, inside, rfl⟩ := List.mem_iff_getElem.mp member
  exact topicAt_nulFree (reads.2 index inside)

theorem Reads.block {topics : List Text} (reads : Reads items topics) (nonempty : topics ≠ [])
    : forwardsBlock items = .ok (filled ([44].intercalate topics) 1) := by
  have read : ∀ index (inside : index < topics.length),
      topicAt items (0 + index) = .ok topics[index] := by
    intro index inside
    rw [Nat.zero_add]
    exact reads.2 index inside
  have lengths := lengths_of_topics read 0
  have blocks := block_of_topics nonempty read reads.nulFree (Nat.zero_add _) List.not_mem_nil
  unfold forwardsBlock
  rw [← reads.1, List.range_eq_range', lengths, Nat.zero_add]
  exact blocks

/-- An element that cannot be read ends the first loop. By induction on the indices. -/
theorem lengths_missing {indices : List Nat} {length : Nat}
    (missing : ∃ index ∈ indices, topicAt items index = .error .missingString)
    : indices.foldlM (addLength items) length = .error .missingString := by
  induction indices generalizing length with
  | nil =>
      obtain ⟨_, member, _⟩ := missing
      cases member
  | cons first rest ih =>
      cases read : topicAt items first with
      | error fault =>
          have isMissing : fault = .missingString := by
            unfold topicAt at read
            split at read
            · cases read
            · cases read
              rfl
          rw [List.foldlM_cons, addLength, read, isMissing]
          rfl
      | ok text =>
          have step : addLength items length first = .ok (length + (text.length + 1)) := by
            rw [addLength, read]
            rfl
          rw [foldlM_step step]
          obtain ⟨index, member, isMissing⟩ := missing
          rcases List.mem_cons.mp member with rfl | later
          · rw [read] at isMissing
            cases isMissing
          · exact ih ⟨index, later, isMissing⟩

theorem reads_of_readable
    (readable : ∀ index < topicCount items, ∃ text, topicAt items index = .ok text)
    : ∃ topics, Reads items topics := by
  choose text read using readable
  refine ⟨List.ofFn fun index : Fin (topicCount items) => text index index.2, ?_, ?_⟩
  · exact List.length_ofFn
  · intro index inside
    rw [List.getElem_ofFn]
    exact read index _

/-- The loops read all topics, or the first of them ends at a missing one. -/
theorem forwardsBlock_cases (items : List Json)
    : (∃ topics, Reads items topics) ∨ forwardsBlock items = .error .missingString := by
  by_cases readable : ∀ index < topicCount items, ∃ text, topicAt items index = .ok text
  · exact Or.inl (reads_of_readable readable)
  · push Not at readable
    obtain ⟨index, inside, notRead⟩ := readable
    have missing : topicAt items index = .error .missingString := by
      unfold topicAt at notRead ⊢
      split
      · rename_i text found
        exact absurd (by rw [found]) (notRead (cstr text))
      · rfl
    refine Or.inr ?_
    unfold forwardsBlock
    rw [lengths_missing ⟨index, List.mem_range.mpr inside, missing⟩]
    rfl

/-- No write leaves the block, whatever the array holds. -/
theorem forwards_inside_block (items : List Json)
    : forwardsBlock items ≠ .error .outsideBlock := by
  rcases forwardsBlock_cases items with ⟨topics, reads⟩ | missing
  · by_cases nonempty : topics = []
    · have count : topicCount items = 0 := by rw [← reads.1, nonempty]; rfl
      unfold forwardsBlock
      rw [count]
      exact fun same => by cases same
    · rw [reads.block nonempty]
      exact fun same => by cases same
  · rw [missing]
    exact fun same => ForwardsFault.noConfusion (Except.error.inj same)

end Loops

-- Which arrays can be read

section Arrays

variable {items : List Json}

theorem topicAt_iff {index : Nat} {text : Text} (small : index < 2 ^ 31)
    : topicAt items index = .ok text
      ↔ ∃ str, items[index]? = some (.string str) ∧ text = cstr str := by
  have int : index % 2 ^ 32 = index := Nat.mod_eq_of_lt (by omega)
  have item : getArrayItem items index = items[index]? := by
    rw [getArrayItem, int, if_pos small]
  rw [topicAt, item]
  cases items[index]? with
  | none => simp
  | some json => cases json <;> simp [Json.stringValue, eq_comm]

theorem topicAt_large : topicAt items (2 ^ 31) = .error .missingString := by
  rfl

theorem topicCount_eq (few : items.length % 2 ^ 32 < 2 ^ 31)
    : topicCount items = items.length % 2 ^ 32 := by
  rw [topicCount, if_pos few]

theorem Reads.string {topics : List Text} (reads : Reads items topics)
    (few : items.length % 2 ^ 32 < 2 ^ 31) {index : Nat} (inside : index < topics.length)
    : ∃ str, items[index]? = some (.string str) ∧ topics[index] = cstr str := by
  have length := reads.1
  rw [topicCount_eq few] at length
  exact (topicAt_iff (by omega)).mp (reads.2 index inside)

theorem reads_of_strings (few : items.length % 2 ^ 32 < 2 ^ 31)
    (strings : ∀ item ∈ items.take (items.length % 2 ^ 32), ∃ str, item = .string str)
    : ∃ topics, Reads items topics := by
  apply reads_of_readable
  intro index inside
  rw [topicCount_eq few] at inside
  have found : index < items.length := Nat.lt_of_lt_of_le inside (Nat.mod_le _ _)
  have member : items[index] ∈ items.take (items.length % 2 ^ 32) :=
    List.mem_take_iff_getElem.mpr ⟨index, Nat.lt_min.mpr ⟨inside, found⟩, rfl⟩
  obtain ⟨str, isString⟩ := strings _ member
  refine ⟨cstr str, (topicAt_iff (by omega)).mpr ⟨str, ?_, rfl⟩⟩
  rw [List.getElem?_eq_getElem found, isString]

theorem nulFree_intercalate {topics : List Text} (nulFree : ∀ topic ∈ topics, 0 ∉ topic)
    : 0 ∉ [44].intercalate topics := by
  induction topics with
  | nil => simp [List.intercalate]
  | cons topic rest ih =>
      obtain ⟨first, others⟩ := List.forall_mem_cons.mp nulFree
      cases rest with
      | nil => simpa [List.intercalate] using first
      | cons next more =>
          have tail := ih others
          simp only [List.intercalate, List.intersperse_cons_cons, List.flatten_cons,
            List.mem_append]
          rintro (inTopic | inComma | inRest)
          · exact first inTopic
          · simp at inComma
          · exact tail inRest

theorem Reads.eq_topics {read topics : List Text} (reads : Reads (topics.map .string) read)
    (small : topics.length < 2 ^ 31) (nulFree : ∀ topic ∈ topics, 0 ∉ topic)
    : read = topics := by
  have counted : (topics.map Json.string).length % 2 ^ 32 = topics.length := by
    rw [List.length_map]
    exact Nat.mod_eq_of_lt (by omega)
  have few : (topics.map Json.string).length % 2 ^ 32 < 2 ^ 31 := by
    rw [counted]
    exact small
  have length : read.length = topics.length := by
    rw [reads.1, topicCount_eq few, counted]
  refine List.ext_getElem length fun index inside alsoInside => ?_
  obtain ⟨str, isString, isTopic⟩ := reads.string few inside
  rw [List.getElem?_map, List.getElem?_eq_getElem alsoInside] at isString
  obtain rfl : topics[index] = str := Json.string.inj (Option.some.inj isString)
  rw [isTopic]
  exact cstr_of_not_mem (nulFree _ (List.getElem_mem alsoInside))

theorem Reads.split {topics : List Text} (reads : Reads items topics) (nonempty : topics ≠ [])
    (commaFree : ∀ topic ∈ topics, 44 ∉ topic)
    : (cstr (filled ([44].intercalate topics) 1)).splitOn 44 = topics := by
  rw [cstr_filled (nulFree_intercalate reads.nulFree)]
  exact List.splitOn_intercalate 44 commaFree nonempty

/-- The arrays from which the text is built safely and can be split again: the count is positive
as an `int`, the counted elements are strings, and strings without commas are all counted and
have no NUL.
-/
structure ForwardsGood (items : List Json) : Prop where
  some : 0 < items.length % 2 ^ 32
  few : items.length % 2 ^ 32 < 2 ^ 31
  strings : ∀ item ∈ items.take (items.length % 2 ^ 32), ∃ str, item = .string str
  whole
    : ∀ topics : List Text,
        items = topics.map .string
        → (∀ topic ∈ topics, 44 ∉ topic)
        → items.length < 2 ^ 31 ∧ ∀ topic ∈ topics, 0 ∉ topic

/-- A terminated block comes from at least one topic, and from no more than an `int` counts. -/
theorem Reads.counted {topics : List Text} {block : Text} (reads : Reads items topics)
    (built : forwardsBlock items = .ok block) (terminated : 0 ∈ block)
    : 0 < items.length % 2 ^ 32 ∧ items.length % 2 ^ 32 < 2 ^ 31 := by
  have few : items.length % 2 ^ 32 < 2 ^ 31 := by
    by_contra many
    have count : 2 ^ 31 < topicCount items := by
      rw [topicCount, if_neg many]
      omega
    have read := reads.2 (2 ^ 31) (by rw [reads.1]; exact count)
    rw [topicAt_large] at read
    cases read
  refine ⟨?_, few⟩
  by_contra none
  have count : topicCount items = 0 := by
    rw [topicCount_eq few]
    omega
  rw [forwardsBlock, count] at built
  cases built
  cases terminated

theorem Reads.length_eq {read : List Text} (reads : Reads items read)
    (few : items.length % 2 ^ 32 < 2 ^ 31)
    : read.length = items.length % 2 ^ 32 := by
  rw [reads.1, topicCount_eq few]

theorem Reads.nonempty {read : List Text} (reads : Reads items read)
    (few : items.length % 2 ^ 32 < 2 ^ 31) (some : 0 < items.length % 2 ^ 32)
    : read ≠ [] := by
  rintro rfl
  rw [← reads.length_eq few] at some
  exact Nat.lt_irrefl 0 some

theorem Reads.commaFree {read topics : List Text} (reads : Reads items read)
    (few : items.length % 2 ^ 32 < 2 ^ 31) (isTopics : items = topics.map .string)
    (commaFree : ∀ topic ∈ topics, 44 ∉ topic)
    : ∀ topic ∈ read, 44 ∉ topic := by
  intro topic member
  obtain ⟨index, inside, rfl⟩ := List.mem_iff_getElem.mp member
  obtain ⟨str, isString, isTopic⟩ := reads.string few inside
  have listed : Json.string str ∈ topics.map .string :=
    isTopics ▸ List.mem_of_getElem? isString
  obtain ⟨topic, isMember, same⟩ := List.mem_map.mp listed
  cases same
  rw [isTopic]
  exact fun comma => commaFree str isMember ((cstr_isPrefix str).subset comma)

/-- The text of the topics is built safely, and topics without commas are got back from it,
exactly for the good arrays.
-/
theorem forwards_reversible_iff (items : List Json)
    : (∃ block, forwardsBlock items = .ok block ∧ 0 ∈ block)
        ∧ (∀ topics block,
            topics ≠ []
            → (∀ topic ∈ topics, 44 ∉ topic)
            → items = topics.map .string
            → forwardsBlock items = .ok block
            → (cstr block).splitOn 44 = topics)
      ↔ ForwardsGood items := by
  constructor
  · rintro ⟨⟨block, built, terminated⟩, reversible⟩
    rcases forwardsBlock_cases items with ⟨read, reads⟩ | missing
    swap
    · rw [missing] at built
      cases built
    obtain ⟨some, few⟩ := reads.counted built terminated
    have length := reads.length_eq few
    have nonempty := reads.nonempty few some
    refine { some, few, strings := ?_, whole := ?_ }
    · intro item member
      obtain ⟨index, inside, rfl⟩ := List.mem_take_iff_getElem.mp member
      obtain ⟨counted, found⟩ := Nat.lt_min.mp inside
      obtain ⟨str, isString, _⟩ := reads.string few (by rw [length]; exact counted)
      rw [List.getElem?_eq_getElem found] at isString
      exact ⟨str, Option.some.inj isString⟩
    · intro topics isTopics commaFree
      have given : topics ≠ [] := by
        rintro rfl
        rw [isTopics] at some
        simp at some
      have readCommaFree := reads.commaFree few isTopics commaFree
      have back := reversible topics _ given commaFree isTopics (reads.block nonempty)
      rw [reads.split nonempty readCommaFree] at back
      subst back
      refine ⟨?_, reads.nulFree⟩
      have whole : items.length = read.length := by
        rw [isTopics, List.length_map]
      omega
  · intro good
    obtain ⟨read, reads⟩ := reads_of_strings good.few good.strings
    have nonempty := reads.nonempty good.few good.some
    have built := reads.block nonempty
    refine ⟨⟨_, built, by simp [filled]⟩, ?_⟩
    intro topics block given commaFree isTopics alsoBuilt
    obtain ⟨small, nulFree⟩ := good.whole topics isTopics commaFree
    subst isTopics
    obtain rfl := reads.eq_topics (by simpa using small) nulFree
    rw [built] at alsoBuilt
    cases alsoBuilt
    exact reads.split nonempty commaFree

theorem updateForwards_block {topics : List Text} {block : Text} (stray name : Text)
    (nonempty : topics ≠ []) (small : topics.length < 2 ^ 31)
    (nulFree : ∀ topic ∈ topics, 0 ∉ topic)
    (built : forwardsBlock (topics.map .string) = .ok block)
    : updateForwards stray name (some (.array (topics.map .string)))
      = some [.update (nodeHead name ++ lit ".forwards") (.text (cstr block))] := by
  rcases forwardsBlock_cases (topics.map .string) with ⟨read, reads⟩ | missing
  · obtain rfl := reads.eq_topics small nulFree
    rw [reads.block nonempty] at built
    cases built
    rw [cstr_filled (nulFree_intercalate nulFree)]
    rw [updateForwards, mapM_stringValue, Option.bind_eq_bind, Option.bind_some, if_neg nonempty]
  · rw [missing] at built
    cases built

end Arrays

/-- Counterexample: an element that is no string is read at NULL, and for no elements there is no
byte for the terminator.
-/
theorem forwards_of_number_and_of_nothing
    : forwardsBlock [.number 1] = .error .missingString ∧ forwardsBlock [] = .ok [] := by
  exact ⟨rfl, rfl⟩

end NanoMQ.Rest
