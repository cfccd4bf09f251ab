import NanoMQ.Rest.ConfigSettings

/-! Giving the object of `get_config` to `post_config`: the writes that it leads to, and when it
is carried out without leaving the objects of the code.
-/

namespace NanoMQ.Rest

open Bytes

-- Looking up a key

theorem sameKey_refl (key : String) : sameKey key key = true :=
  beq_self_eq_true _

theorem sameKey_of_both {left right key : String} (isLeft : sameKey left key = true)
    (isRight : sameKey right key = true)
    : sameKey left right = true := by
  unfold sameKey at *
  rw [eq_of_beq isLeft, eq_of_beq isRight]
  exact beq_self_eq_true _

/-- An object without a key twice has one entry for each key. By induction on the entries. -/
theorem getObjectItem_eq_some {entries : List (String × Json)} {key : String} {json : Json}
    (distinct : (entries.map Prod.fst).Pairwise fun left right => sameKey left right = false)
    : getObjectItem (some (.object entries)) key = some json
      ↔ ∃ name, (name, json) ∈ entries ∧ sameKey name key = true := by
  induction entries with
  | nil => simp [getObjectItem]
  | cons entry rest ih =>
      rw [List.map_cons, List.pairwise_cons] at distinct
      specialize ih distinct.2
      unfold getObjectItem at ih ⊢
      dsimp only at ih ⊢
      rw [List.find?_cons]
      cases here : sameKey entry.1 key with
      | true =>
          constructor
          · intro found
            have isEntry : entry.2 = json := Option.some.inj found
            exact ⟨entry.1, by rw [← isEntry]; exact List.mem_cons_self, here⟩
          · rintro ⟨name, member, isKey⟩
            rcases List.mem_cons.mp member with isEntry | later
            · rw [← isEntry]
              rfl
            · have twice := distinct.1 name (List.mem_map_of_mem later)
              rw [sameKey_of_both here isKey] at twice
              cases twice
      | false =>
          rw [ih]
          refine exists_congr fun name => and_congr_left fun isKey => ?_
          rw [List.mem_cons]
          refine (or_iff_right ?_).symm
          intro isEntry
          rw [← isEntry, isKey] at here
          cases here

theorem mem_jsonEntries {entries : List (String × Item)} {key : String} {json : Json}
    : (key, json) ∈ jsonEntries entries
      ↔ ∃ item, (key, item) ∈ entries ∧ item.toJson = some json := by
  simp only [jsonEntries, List.mem_filterMap, Option.map_eq_some_iff, Prod.mk.injEq]
  constructor
  · rintro ⟨⟨name, item⟩, member, found, isJson, rfl, rfl⟩
    exact ⟨item, member, isJson⟩
  · rintro ⟨item, member, isJson⟩
    exact ⟨(key, item), member, json, isJson, rfl, rfl⟩

/-- Entries are left out, but none is added. By induction on the entries. -/
theorem jsonEntries_keys (entries : List (String × Item))
    : ((jsonEntries entries).map Prod.fst).Sublist (entries.map Prod.fst) := by
  induction entries with
  | nil => exact .slnil
  | cons entry rest ih =>
      cases isJson : entry.2.toJson with
      | none =>
          rw [jsonEntries, List.filterMap_cons_none (by rw [isJson]; rfl)]
          exact ih.cons _
      | some json =>
          rw [jsonEntries, List.filterMap_cons_some (by rw [isJson]; rfl)]
          exact ih.cons_cons _

-- The objects of the groups

def Conf.object (config : Conf) : ConfGroup → Option Json
  | .main => some (confObject config)
  | .tls => some (tlsObject config.tls)
  | .websocket => some (.object (jsonEntries (websocketEntries config.websocket)))
  | .httpServer => some (.object (jsonEntries (httpServerEntries config.httpServer)))
  | .sqlite => some (sqliteObject config.bridge.sqlite)
  | .node index => config.bridge.nodes[index]?.map nodeObject
  | .subscription index sub =>
      (config.bridge.nodes[index]?.bind fun node => node.subList[sub]?).map subObject

/-- The keys of an object that are no entries of its group. -/
def ConfGroup.others : ConfGroup → List String
  | .main => ["tls", "websocket", "http_server", "bridge"]
  | .tls => ["key", "cert", "cacert"]
  | .node _ => ["name", "forwards", "subscription"]
  | .websocket | .httpServer | .sqlite | .subscription _ _ => []

/-- The fields that are read from the object of a group. -/
def ConfGroup.fields : ConfGroup → List Field
  | .main => mainFields
  | .tls => tlsHeadFields ++ tlsTailFields
  | .websocket => websocketFields
  | .httpServer => httpServerFields ++ [⟨"auth_type", .text, "http_server.auth_type"⟩]
  | .sqlite => sqliteFields
  | .node _ => nodeFields
  | .subscription _ _ => [subTopicField, subQosField]

/-- The entries of an object: those of its group, and some under other keys. -/
structure IsObject (config : Conf) (group : ConfGroup) (entries : List (String × Json)) : Prop
    where
  distinct : (entries.map Prod.fst).Pairwise fun left right => sameKey left right = false
  mem_of_entry
    : ∀ {key item json},
        (key, item) ∈ config.entries group → item.toJson = some json → (key, json) ∈ entries
  entry_of_mem
    : ∀ {key json},
        (key, json) ∈ entries
        → (∃ item, (key, item) ∈ config.entries group ∧ item.toJson = some json)
          ∨ key ∈ group.others

theorem IsObject.plain {config : Conf} {group : ConfGroup}
    (distinct
      : ((config.entries group).map Prod.fst).Pairwise fun left right =>
          sameKey left right = false)
    : IsObject config group (jsonEntries (config.entries group)) :=
  {
    distinct := distinct.sublist (jsonEntries_keys _)
    mem_of_entry := fun member isJson => mem_jsonEntries.mpr ⟨_, member, isJson⟩
    entry_of_mem := fun member => Or.inl (mem_jsonEntries.mp member)
  }

theorem isObject_main (config : Conf)
    : ∃ entries, confObject config = .object entries ∧ IsObject config .main entries := by
  refine ⟨_, rfl, ?_, ?_, ?_⟩
  · rw [List.map_append]
    have keys := (jsonEntries_keys (mainEntries config)).append_right ConfGroup.main.others
    refine List.Pairwise.sublist keys ?_
    change List.Pairwise _ (ConfGroup.main.keys.map Prod.fst ++ ConfGroup.main.others)
    decide
  · intro key item json member isJson
    exact List.mem_append_left _ (mem_jsonEntries.mpr ⟨item, member, isJson⟩)
  · intro key json member
    rcases List.mem_append.mp member with plain | other
    · exact Or.inl (mem_jsonEntries.mp plain)
    · have isOther : key ∈ ConfGroup.main.others := List.mem_map_of_mem (f := Prod.fst) other
      exact Or.inr isOther

theorem isObject_tls (config : Conf)
    : ∃ entries, tlsObject config.tls = .object entries ∧ IsObject config .tls entries := by
  refine ⟨_, rfl, ?_, ?_, ?_⟩
  · rw [List.map_append, List.map_append]
    have keys := ((jsonEntries_keys (tlsHeadEntries config.tls)).append
      (jsonEntries_keys (tlsTextEntries config.tls))).append
      (jsonEntries_keys (tlsTailEntries config.tls))
    refine List.Pairwise.sublist keys ?_
    change List.Pairwise _
      ["enable", "url", "key_password", "key", "cert", "cacert", "verify_peer",
        "fail_if_no_peer_cert"]
    decide
  · intro key item json member isJson
    rcases List.mem_append.mp member with inHead | inTail
    · refine List.mem_append_left _ (List.mem_append_left _ ?_)
      exact mem_jsonEntries.mpr ⟨item, inHead, isJson⟩
    · exact List.mem_append_right _ (mem_jsonEntries.mpr ⟨item, inTail, isJson⟩)
  · intro key json member
    rcases List.mem_append.mp member with inFront | inTail
    · rcases List.mem_append.mp inFront with inHead | isText
      · obtain ⟨item, isEntry, isJson⟩ := mem_jsonEntries.mp inHead
        exact Or.inl ⟨item, List.mem_append_left _ isEntry, isJson⟩
      · obtain ⟨item, isEntry, _⟩ := mem_jsonEntries.mp isText
        have isOther : key ∈ ConfGroup.tls.others := List.mem_map_of_mem (f := Prod.fst) isEntry
        exact Or.inr isOther
    · obtain ⟨item, isEntry, isJson⟩ := mem_jsonEntries.mp inTail
      exact Or.inl ⟨item, List.mem_append_right _ isEntry, isJson⟩

theorem isObject_node {config : Conf} {index : Nat} {node : ConfBridgeNode}
    (listed : config.bridge.nodes[index]? = some node)
    : ∃ entries, nodeObject node = .object entries ∧ IsObject config (.node index) entries := by
  refine ⟨_, rfl, ?_, ?_, ?_⟩
  · rw [List.map_append, List.map_append]
    have keys := ((jsonEntries_keys [("name", addString node.name)]).append
      (jsonEntries_keys (nodeEntries node))).append_right ["forwards", "subscription"]
    refine List.Pairwise.sublist keys ?_
    change List.Pairwise _
      ("name" :: (ConfGroup.node 0).keys.map Prod.fst ++ ["forwards", "subscription"])
    decide
  · intro key item json member isJson
    rw [entries_node listed] at member
    refine List.mem_append_left _ (List.mem_append_right _ ?_)
    exact mem_jsonEntries.mpr ⟨item, member, isJson⟩
  · intro key json member
    rw [entries_node listed]
    rcases List.mem_append.mp member with inFront | isArray
    · rcases List.mem_append.mp inFront with isName | plain
      · obtain ⟨item, isEntry, _⟩ := mem_jsonEntries.mp isName
        have isKey : key = "name" := congrArg Prod.fst (List.mem_singleton.mp isEntry)
        rw [isKey]
        exact Or.inr List.mem_cons_self
      · exact Or.inl (mem_jsonEntries.mp plain)
    · have isOther : key ∈ ["forwards", "subscription"] :=
        List.mem_map_of_mem (f := Prod.fst) isArray
      exact Or.inr (List.mem_cons_of_mem _ isOther)

theorem isObject_subscription {config : Conf} {index position : Nat} {node : ConfBridgeNode}
    {sub : Subscribe} (listed : config.bridge.nodes[index]? = some node)
    (inNode : node.subList[position]? = some sub)
    : ∃ entries,
        subObject sub = .object entries
        ∧ IsObject config (.subscription index position) entries := by
  refine ⟨jsonEntries (subEntries sub), rfl, ?_⟩
  rw [← entries_subscription listed inNode]
  apply IsObject.plain
  rw [entries_subscription listed inNode]
  change List.Pairwise _ ["topic", "qos"]
  decide

/-- The object of a group, unless it belongs to a node or subscription that is not there. -/
theorem object_cases (config : Conf) (group : ConfGroup)
    : (config.object group = none ∧ config.entries group = [])
      ∨ ∃ entries,
          config.object group = some (.object entries) ∧ IsObject config group entries := by
  have plain (keys : (config.entries group).map Prod.fst = group.keys.map Prod.fst)
      (distinct : (group.keys.map Prod.fst).Pairwise fun left right => sameKey left right = false)
      (isObject : config.object group = some (.object (jsonEntries (config.entries group))))
      : ∃ entries,
          config.object group = some (.object entries) ∧ IsObject config group entries :=
    ⟨_, isObject, .plain (by rw [keys]; exact distinct)⟩
  cases group with
  | main =>
      obtain ⟨entries, isObject, spec⟩ := isObject_main config
      exact Or.inr ⟨entries, congrArg some isObject, spec⟩
  | tls =>
      obtain ⟨entries, isObject, spec⟩ := isObject_tls config
      exact Or.inr ⟨entries, congrArg some isObject, spec⟩
  | node index =>
      cases listed : config.bridge.nodes[index]? with
      | none => exact Or.inl (by simp [Conf.object, Conf.entries, listed])
      | some node =>
          obtain ⟨entries, isObject, spec⟩ := isObject_node listed
          exact Or.inr ⟨entries, by simp [Conf.object, listed, isObject], spec⟩
  | subscription index position =>
      cases found : config.bridge.nodes[index]?.bind fun node => node.subList[position]? with
      | none => exact Or.inl (by simp [Conf.object, Conf.entries, found])
      | some sub =>
          obtain ⟨node, listed, inNode⟩ := Option.bind_eq_some_iff.mp found
          obtain ⟨entries, isObject, spec⟩ := isObject_subscription listed inNode
          exact Or.inr ⟨entries, by simp [Conf.object, found, isObject], spec⟩
  | _ => exact Or.inr (plain rfl (by decide) rfl)

-- The writes of a group

/-- The value that a macro reads from an item. -/
def Kind.read (wild : Int) : Kind → Json → Option Value
  | .text, .string content => some (.text content)
  | .bool, .bool flag => some (.bool flag)
  | .number type, .number double => some (.number (type.convert wild double))
  | _, _ => none

theorem Field.update_eq (wild : Int) (head : Text) (json : Option Json) (field : Field)
    : field.update wild head json
      = (((getObjectItem json field.item).bind (field.kind.read wild)).map
          (ConfWrite.update (head ++ lit field.ext))).toList := by
  unfold Field.update
  cases getObjectItem json field.item with
  | none => cases field.kind <;> rfl
  | some item => cases field.kind <;> cases item <;> rfl

theorem Field.mem_update {wild : Int} {head : Text} {json : Option Json} {field : Field}
    {write : ConfWrite}
    : write ∈ field.update wild head json
      ↔ ∃ item value,
          getObjectItem json field.item = some item
          ∧ field.kind.read wild item = some value
          ∧ write = .update (head ++ lit field.ext) value := by
  rw [Field.update_eq, Option.mem_toList, Option.map_eq_some_iff]
  constructor
  · rintro ⟨value, read, rfl⟩
    obtain ⟨item, found, isValue⟩ := Option.bind_eq_some_iff.mp read
    exact ⟨item, value, found, isValue, rfl⟩
  · rintro ⟨item, value, found, isValue, rfl⟩
    exact ⟨value, Option.bind_eq_some_iff.mpr ⟨item, found, isValue⟩, rfl⟩

/-- The value that ends up in the configuration file. -/
def Kind.store (wild : Int) : Kind → Value → Value
  | .number type, .number n => .number (type.convert wild (toDouble n))
  | _, value => value

theorem Kind.read_toJson {wild : Int} {kind : Kind} {value : Value} (fits : kind.Fits value)
    : kind.read wild value.toJson = some (kind.store wild value) := by
  cases kind <;> cases value <;> first | rfl | cases fits

/-- The table of a group against the fields that are read: a field belongs to at most one
line, and it has the type and the key in the configuration file that are due.
-/
structure TableReads (group : ConfGroup) : Prop where
  sound
    : ∀ field ∈ group.fields, ∀ line ∈ group.keys,
        sameKey line.1 field.item = true → field = ⟨line.1, line.2, group.ext ++ line.1⟩
  complete
    : ∀ line ∈ group.keys,
        line.1 ≠ "key_password" → ⟨line.1, line.2, group.ext ++ line.1⟩ ∈ group.fields
  others
    : ∀ field ∈ group.fields, ∀ other ∈ group.others, sameKey other field.item = false
  unread : ∀ field ∈ group.fields, field.item ≠ "key_password"

theorem tableReads (group : ConfGroup) : TableReads group := by
  have node : TableReads (.node 0) := by constructor <;> decide +kernel
  have subscription : TableReads (.subscription 0 0) := by constructor <;> decide +kernel
  cases group with
  | node index => exact { node with }
  | subscription index sub => exact { subscription with }
  | _ => constructor <;> decide +kernel

theorem kind_unique {group : ConfGroup} {key : String} {kind other : Kind}
    (listed : (key, kind) ∈ group.keys) (alsoListed : (key, other) ∈ group.keys)
    : kind = other :=
  congrArg Prod.snd (List.inj_on_of_nodup_map (keys_nodup group) listed alsoListed rfl)

/-- The fields of a group write what it emits, but for the password of the TLS key, which is
read under another key.
-/
theorem mem_updateFields {config : Conf} {group : ConfGroup} {wild : Int} {head : Text}
    {write : ConfWrite}
    : write ∈ updateFields wild head (config.object group) group.fields
      ↔ ∃ line ∈ group.keys, ∃ value,
          line.1 ≠ "key_password"
          ∧ (line.1, .value value) ∈ config.entries group
          ∧ write = .update (head ++ lit (group.ext ++ line.1)) (line.2.store wild value) := by
  have table := tableReads group
  rw [updateFields, List.mem_flatMap]
  rcases object_cases config group with ⟨noObject, noEntries⟩ | ⟨entries, isObject, spec⟩
  · rw [noObject, noEntries]
    simp [Field.mem_update, getObjectItem]
  · rw [isObject]
    constructor
    · rintro ⟨field, isField, member⟩
      obtain ⟨item, stored, found, isStored, rfl⟩ := Field.mem_update.mp member
      obtain ⟨name, inObject, isName⟩ := (getObjectItem_eq_some spec.distinct).mp found
      rcases spec.entry_of_mem inObject with ⟨entry, emitted, isJson⟩ | isOther
      · obtain ⟨line, listed, rfl, fits⟩ :=
          line_of_entry (entries_fit config group emitted) emitted
        obtain rfl := table.sound field isField line listed isName
        cases entry with
        | missing => cases isJson
        | null =>
            obtain rfl := Option.some.inj isJson
            cases kind : line.2 <;> rw [kind] at isStored <;> cases isStored
        | value value =>
            obtain rfl := Option.some.inj isJson
            rw [Kind.read_toJson (fits value rfl)] at isStored
            obtain rfl := Option.some.inj isStored
            exact ⟨line, listed, value, table.unread _ isField, emitted, rfl⟩
      · rw [table.others field isField name isOther] at isName
        cases isName
    · rintro ⟨line, listed, value, isRead, emitted, rfl⟩
      refine ⟨_, table.complete line listed isRead, Field.mem_update.mpr ?_⟩
      obtain ⟨kind, alsoListed, fits⟩ := key_of_entry emitted
      rw [kind_unique alsoListed listed] at fits
      refine ⟨value.toJson, line.2.store wild value, ?_, Kind.read_toJson fits, rfl⟩
      refine (getObjectItem_eq_some spec.distinct).mpr ⟨line.1, ?_, sameKey_refl _⟩
      exact spec.mem_of_entry emitted rfl

-- The writes of a request

section Collect

variable {α : Type} {step : α → Option (List ConfWrite)}

theorem collect_cons (element : α) (rest : List α)
    : collect step (element :: rest)
      = (step element).bind fun writes => (collect step rest).map (writes ++ ·) := by
  rw [collect]
  cases step element with
  | none => rfl
  | some writes => cases collect step rest <;> rfl

/-- By induction on the elements. -/
theorem mem_collect {elements : List α} {writes : List ConfWrite} {write : ConfWrite}
    (collected : collect step elements = some writes)
    : write ∈ writes ↔ ∃ element ∈ elements, ∃ part, step element = some part ∧ write ∈ part := by
  induction elements generalizing writes with
  | nil =>
      cases collected
      simp
  | cons element rest ih =>
      rw [collect_cons] at collected
      obtain ⟨part, isPart, others⟩ := Option.bind_eq_some_iff.mp collected
      obtain ⟨more, isMore, rfl⟩ := Option.map_eq_some_iff.mp others
      rw [List.mem_append, ih isMore]
      simp [isPart]

/-- By induction on the elements. -/
theorem collect_isSome {elements : List α}
    : (∃ writes, collect step elements = some writes)
      ↔ ∀ element ∈ elements, ∃ part, step element = some part := by
  induction elements with
  | nil => simp [collect]
  | cons element rest ih =>
      rw [List.forall_mem_cons, ← ih, collect_cons]
      constructor
      · rintro ⟨writes, collected⟩
        obtain ⟨part, isPart, others⟩ := Option.bind_eq_some_iff.mp collected
        obtain ⟨more, isMore, _⟩ := Option.map_eq_some_iff.mp others
        exact ⟨⟨part, isPart⟩, more, isMore⟩
      · rintro ⟨⟨part, isPart⟩, more, isMore⟩
        exact ⟨part ++ more, by rw [isPart, isMore]; rfl⟩

end Collect

/-- A request with the object that `get_config` emits as its data. -/
def importRequest (config : Conf) : Json :=
  .object ((getObjectItem (some (getConfig config)) "data").toList.map fun data => ("data", data))

theorem importRequest_data (config : Conf)
    : getObjectItem (some (importRequest config)) "data" = some (confObject config) := by
  have emitted : getObjectItem (some (getConfig config)) "data" = some (confObject config) := by
    refine (getObjectItem_eq_some ?_).mpr ⟨"data", by simp, sameKey_refl _⟩
    change ["code", "data"].Pairwise fun left right => sameKey left right = false
    decide
  rw [importRequest, emitted]
  refine (getObjectItem_eq_some ?_).mpr ⟨"data", List.mem_singleton_self _, sameKey_refl _⟩
  exact List.pairwise_singleton _ _

/-- The text that is written for the topics of a node. -/
def forwardsText (stray : Text) (topics : List Text) : Text :=
  if topics = [] then stray else [44].intercalate topics

/-- The writes that giving back the object leads to. -/
inductive Writes (env : ConfEnv) (config : Conf) : ConfWrite → Prop
  | item {group : ConfGroup} {head : Text} {line : String × Kind} {value : Value}
    (isHead : config.head group = some head) (listed : line ∈ group.keys)
    (isRead : line.1 ≠ "key_password")
    (emitted : (line.1, .value value) ∈ config.entries group)
    : Writes env config
        (.update (head ++ lit (group.ext ++ line.1)) (line.2.store env.wild value))
  | tlsText {which : TlsText} {text path : Text} (present : which.text config.tls = some text)
    (isPath : which.path config.tls env.cwd = some path)
    : Writes env config (.file path text)
  | tlsFile {which : TlsText} {text path : Text} (present : which.text config.tls = some text)
    (noFile : which.file config.tls = none) (isPath : which.path config.tls env.cwd = some path)
    : Writes env config (.update which.fileKey (.text path))
  | forwards {index : Nat} {node : ConfBridgeNode} {name : Text}
    (listed : config.bridge.nodes[index]? = some node) (named : node.name = some name)
    : Writes env config
        (.update (nodeHead name ++ lit ".forwards")
          (.text (forwardsText env.stray node.forwards)))

section Request

variable {env : ConfEnv} {config : Conf} {write : ConfWrite}

theorem getObjectItem_confObject {key : String} {json : Json}
    (member
      : (key, json) ∈ [
          ("tls", tlsObject config.tls),
          ("websocket", .object (jsonEntries (websocketEntries config.websocket))),
          ("http_server", .object (jsonEntries (httpServerEntries config.httpServer))),
          ("bridge", bridgeObject config.bridge)
        ])
    : getObjectItem (some (confObject config)) key = some json := by
  obtain ⟨entries, isObject, spec⟩ := isObject_main config
  have same := Json.object.inj isObject
  rw [isObject]
  refine (getObjectItem_eq_some spec.distinct).mpr ⟨key, ?_, sameKey_refl _⟩
  rw [← same]
  exact List.mem_append_right _ member

theorem getObjectItem_tlsText (which : TlsText)
    : getObjectItem (some (tlsObject config.tls)) which.item
      = (addStringOrNull (which.text config.tls)).toJson := by
  obtain ⟨entries, isObject, spec⟩ := isObject_tls config
  have same := Json.object.inj isObject
  have listed
      : (which.item, addStringOrNull (which.text config.tls)) ∈ tlsTextEntries config.tls := by
    cases which <;> simp [TlsText.item, TlsText.text, tlsTextEntries]
  cases isJson : (addStringOrNull (which.text config.tls)).toJson with
  | none => cases missing : which.text config.tls <;> rw [missing] at isJson <;> cases isJson
  | some json =>
      rw [isObject]
      refine (getObjectItem_eq_some spec.distinct).mpr ⟨which.item, ?_, sameKey_refl _⟩
      rw [← same]
      refine List.mem_append_left _ (List.mem_append_right _ ?_)
      exact mem_jsonEntries.mpr ⟨_, listed, isJson⟩

theorem mem_updateTlsText (which : TlsText)
    : write ∈ (updateTlsText env.cwd (some (tlsObject config.tls)) which
          (which.file config.tls)).1
      ↔ ∃ text path,
          which.text config.tls = some text
          ∧ which.path config.tls env.cwd = some path
          ∧ (write = .file path text
            ∨ (which.file config.tls = none ∧ write = .update which.fileKey (.text path))) := by
  rw [updateTlsText, getObjectItem_tlsText]
  cases present : which.text config.tls with
  | none => simp [addStringOrNull, Item.toJson]
  | some text =>
      cases configured : which.file config.tls with
      | some path => simp [addStringOrNull, Item.toJson, Value.toJson, TlsText.path, configured]
      | none =>
          cases isCwd : env.cwd with
          | none => simp [addStringOrNull, Item.toJson, Value.toJson, TlsText.path, configured]
          | some dir =>
              simp [addStringOrNull, Item.toJson, Value.toJson, TlsText.path, configured, or_comm]

theorem getObjectItem_entry {group : ConfGroup} {key : String} {item : Item} {json : Json}
    (emitted : (key, item) ∈ config.entries group) (isJson : item.toJson = some json)
    : getObjectItem (config.object group) key = some json := by
  rcases object_cases config group with ⟨_, noEntries⟩ | ⟨entries, isObject, spec⟩
  · rw [noEntries] at emitted
    cases emitted
  · rw [isObject]
    refine (getObjectItem_eq_some spec.distinct).mpr ⟨key, ?_, sameKey_refl _⟩
    exact spec.mem_of_entry emitted isJson

theorem updateAuthType_eq (wild : Int)
    : updateAuthType (config.object .httpServer)
      = Field.update wild [] (config.object .httpServer)
          ⟨"auth_type", .text, "http_server.auth_type"⟩ := by
  let authType := if config.httpServer.authType = .JWT then lit "jwt" else lit "basic"
  have known : authType = lit "basic" ∨ authType = lit "jwt" := by
    unfold authType
    split
    · exact Or.inr rfl
    · exact Or.inl rfl
  have emitted : ("auth_type", addString (some authType)) ∈ config.entries .httpServer := by
    simp [Conf.entries, httpServerEntries, authType]
  have found := getObjectItem_entry emitted rfl
  rw [updateAuthType, Field.update, found]
  exact if_pos known

theorem updateFields_append (wild : Int) (head : Text) (json : Option Json)
    (fields more : List Field)
    : updateFields wild head json (fields ++ more)
      = updateFields wild head json fields ++ updateFields wild head json more :=
  List.flatMap_append

theorem updateMainConf_writes
    : (updateMainConf env (some (confObject config)) config).1
      = updateFields env.wild [] (config.object .main) ConfGroup.main.fields
        ++ (updateFields env.wild [] (config.object .tls) tlsHeadFields
          ++ ((updateTlsText env.cwd (config.object .tls) .key config.tls.keyfile).1
            ++ (updateTlsText env.cwd (config.object .tls) .cert config.tls.certfile).1
            ++ (updateTlsText env.cwd (config.object .tls) .cacert config.tls.cafile).1)
          ++ updateFields env.wild [] (config.object .tls) tlsTailFields)
        ++ updateFields env.wild [] (config.object .websocket) ConfGroup.websocket.fields
        ++ updateFields env.wild [] (config.object .httpServer) ConfGroup.httpServer.fields := by
  have tls : getObjectItem (some (confObject config)) "tls" = config.object .tls :=
    getObjectItem_confObject (by simp)
  have websocket
      : getObjectItem (some (confObject config)) "websocket" = config.object .websocket :=
    getObjectItem_confObject (by simp)
  have httpServer
      : getObjectItem (some (confObject config)) "http_server" = config.object .httpServer :=
    getObjectItem_confObject (by simp)
  have withAuthType
      : updateFields env.wild [] (config.object .httpServer) ConfGroup.httpServer.fields
        = updateFields env.wild [] (config.object .httpServer) httpServerFields
          ++ updateAuthType (config.object .httpServer) := by
    rw [updateAuthType_eq env.wild]
    exact (updateFields_append _ _ _ _ _).trans
      (congrArg (_ ++ ·) (List.append_nil _))
  rw [updateMainConf, tls, websocket, httpServer, withAuthType]
  rfl

theorem mem_updateMainConf
    : write ∈ (updateMainConf env (some (confObject config)) config).1
      ↔ (∃ group ∈ [ConfGroup.main, .tls, .websocket, .httpServer],
          write ∈ updateFields env.wild [] (config.object group) group.fields)
        ∨ ∃ which : TlsText,
            write ∈ (updateTlsText env.cwd (config.object .tls) which
              (which.file config.tls)).1 := by
  have tlsFields
      : updateFields env.wild [] (config.object .tls) ConfGroup.tls.fields
        = updateFields env.wild [] (config.object .tls) tlsHeadFields
          ++ updateFields env.wild [] (config.object .tls) tlsTailFields :=
    updateFields_append _ _ _ _ _
  have texts
      : (∃ which : TlsText,
          write ∈ (updateTlsText env.cwd (config.object .tls) which
            (which.file config.tls)).1)
        ↔ write ∈ (updateTlsText env.cwd (config.object .tls) .key config.tls.keyfile).1
          ∨ write ∈ (updateTlsText env.cwd (config.object .tls) .cert config.tls.certfile).1
          ∨ write ∈ (updateTlsText env.cwd (config.object .tls) .cacert config.tls.cafile).1 := by
    constructor
    · rintro ⟨which, member⟩
      cases which with
      | key => exact Or.inl member
      | cert => exact Or.inr (Or.inl member)
      | cacert => exact Or.inr (Or.inr member)
    · rintro (member | member | member)
      · exact ⟨.key, member⟩
      · exact ⟨.cert, member⟩
      · exact ⟨.cacert, member⟩
  rw [updateMainConf_writes, texts]
  simp only [List.exists_mem_cons_iff, List.not_mem_nil, false_and, exists_false, or_false,
    tlsFields, List.mem_append]
  simp only [or_assoc, or_comm, or_left_comm]

section Node

variable {index : Nat} {node : ConfBridgeNode}

theorem getObjectItem_nodeObject {key : String} {json : Json}
    (listed : config.bridge.nodes[index]? = some node)
    (member
      : (key, json) ∈ jsonEntries [("name", addString node.name)]
        ∨ (key, json) ∈ [
            ("forwards", .array (node.forwards.map Json.string)),
            ("subscription", .array (node.subList.map subObject))
          ])
    : getObjectItem (some (nodeObject node)) key = some json := by
  obtain ⟨entries, isObject, spec⟩ := isObject_node listed
  have same := Json.object.inj isObject
  rw [isObject]
  refine (getObjectItem_eq_some spec.distinct).mpr ⟨key, ?_, sameKey_refl _⟩
  rw [← same]
  rcases member with isName | isArray
  · exact List.mem_append_left _ (List.mem_append_left _ isName)
  · exact List.mem_append_right _ isArray

theorem getObjectItem_name (listed : config.bridge.nodes[index]? = some node)
    : getObjectItem (some (nodeObject node)) "name" = node.name.map Json.string := by
  cases named : node.name with
  | some name =>
      refine getObjectItem_nodeObject listed (Or.inl ?_)
      rw [named]
      exact List.mem_singleton_self _
  | none =>
      cases found : getObjectItem (some (nodeObject node)) "name" with
      | none => rfl
      | some json =>
          obtain ⟨entries, isObject, spec⟩ := isObject_node listed
          have same := Json.object.inj isObject
          rw [isObject] at found
          obtain ⟨key, member, isKey⟩ := (getObjectItem_eq_some spec.distinct).mp found
          rw [← same, named] at member
          have others
              : ∀ key ∈ (ConfGroup.node 0).keys.map Prod.fst ++ ["forwards", "subscription"],
                  sameKey key "name" = false := by
            decide
          have listedKey
              : key ∈ (ConfGroup.node 0).keys.map Prod.fst ++ ["forwards", "subscription"] := by
            rcases List.mem_append.mp member with plain | isArray
            · exact List.mem_append_left _
                ((jsonEntries_keys (nodeEntries node)).subset
                  (List.mem_map_of_mem (f := Prod.fst) plain))
            · exact List.mem_append_right _ (List.mem_map_of_mem (f := Prod.fst) isArray)
          rw [others key listedKey] at isKey
          cases isKey

theorem updateForwards_eq (stray name : Text) (topics : List Text)
    : updateForwards stray name (some (.array (topics.map Json.string)))
      = some [.update (nodeHead name ++ lit ".forwards") (.text (forwardsText stray topics))] := by
  rw [updateForwards, mapM_stringValue]
  rfl

theorem updateNode_unnamed (listed : config.bridge.nodes[index]? = some node)
    (unnamed : node.name = none)
    : updateNode env (nodeObject node) = some [] := by
  rw [updateNode, getObjectItem_name listed, unnamed]
  rfl

theorem updateNode_named {name : Text} (listed : config.bridge.nodes[index]? = some node)
    (named : node.name = some name)
    : updateNode env (nodeObject node)
      = (collect (updateSubscription env.wild name) (node.subList.map subObject).zipIdx).map
          fun subs =>
            updateFields env.wild (nodeHead name) (config.object (.node index)) nodeFields
            ++ [
              ConfWrite.update (nodeHead name ++ lit ".forwards")
                (.text (forwardsText env.stray node.forwards))
            ]
            ++ subs := by
  have forwards
      : getObjectItem (some (nodeObject node)) "forwards"
        = some (.array (node.forwards.map Json.string)) :=
    getObjectItem_nodeObject listed (Or.inr (by simp))
  have subscription
      : getObjectItem (some (nodeObject node)) "subscription"
        = some (.array (node.subList.map subObject)) :=
    getObjectItem_nodeObject listed (Or.inr (by simp))
  have object : config.object (.node index) = some (nodeObject node) := by
    rw [Conf.object, listed]
    rfl
  rw [updateNode, getObjectItem_name listed, named, forwards, subscription, object]
  simp only [Option.map_some, updateForwards_eq, updateSubscriptions, Option.bind_eq_bind,
    Option.bind_some]
  cases collect (updateSubscription env.wild name) (node.subList.map subObject).zipIdx <;> rfl

/-- A field of a subscription is written if its key fits into the buffer. -/
theorem updateSubField_eq_some {wild : Int} {head : Text} {json : Json} {field : Field}
    {writes : List ConfWrite}
    : updateSubField wild head json field = some writes
      ↔ writes = field.update wild head (some json)
        ∧ ∀ key value, .update key value ∈ writes → key.length < 100 := by
  have keys {key : Text} {value : Value}
      (member : .update key value ∈ field.update wild head (some json))
      : key = head ++ lit field.ext := by
    obtain ⟨_, _, _, _, same⟩ := Field.mem_update.mp member
    exact (ConfWrite.update.inj same).1
  unfold updateSubField
  split
  · rename_i nothing
    rw [nothing]
    constructor
    · intro isEmpty
      obtain rfl := Option.some.inj isEmpty
      exact ⟨rfl, fun _ _ member => absurd member List.not_mem_nil⟩
    · rintro ⟨rfl, _⟩
      rfl
  · rename_i something
    split
    · rename_i short
      constructor
      · intro isWritten
        obtain rfl := Option.some.inj isWritten
        refine ⟨rfl, fun key value member => ?_⟩
        rw [keys member]
        exact short
      · rintro ⟨rfl, _⟩
        rfl
    · rename_i long
      refine ⟨fun absent => ?_, ?_⟩
      · cases absent
      · rintro ⟨rfl, short⟩
        obtain ⟨write, member⟩ := List.exists_mem_of_ne_nil _ something
        obtain ⟨_, value, _, _, rfl⟩ := Field.mem_update.mp member
        exact absurd (short _ _ member) long

theorem updateSubscription_eq_some {wild : Int} {name : Text} {json : Json} {position : Nat}
    {writes : List ConfWrite}
    : updateSubscription wild name (json, position) = some writes
      ↔ writes
          = updateFields wild (subHead name position) (some json) [subTopicField, subQosField]
        ∧ ∀ key value, .update key value ∈ writes → key.length < 100 := by
  have both (topic qos : List ConfWrite)
      : (∀ key value, .update key value ∈ topic ++ qos → key.length < 100)
        ↔ (∀ key value, .update key value ∈ topic → key.length < 100)
          ∧ ∀ key value, .update key value ∈ qos → key.length < 100 := by
    simp only [List.mem_append, or_imp, forall_and]
  have fields
      : updateFields wild (subHead name position) (some json) [subTopicField, subQosField]
        = subTopicField.update wild (subHead name position) (some json)
          ++ subQosField.update wild (subHead name position) (some json) :=
    congrArg (_ ++ ·) (List.append_nil _)
  unfold updateSubscription
  simp only [Option.bind_eq_bind, Option.bind_eq_some_iff, updateSubField_eq_some, fields]
  constructor
  · rintro ⟨topic, ⟨rfl, topicShort⟩, qos, ⟨rfl, qosShort⟩, same⟩
    obtain rfl := Option.some.inj same
    exact ⟨rfl, (both _ _).mpr ⟨topicShort, qosShort⟩⟩
  · rintro ⟨rfl, short⟩
    obtain ⟨topicShort, qosShort⟩ := (both _ _).mp short
    exact ⟨_, ⟨rfl, topicShort⟩, _, ⟨rfl, qosShort⟩, rfl⟩

theorem mem_subscriptions (element : Json × Nat)
    (listed : config.bridge.nodes[index]? = some node)
    : element ∈ (node.subList.map subObject).zipIdx
      ↔ config.object (.subscription index element.2) = some element.1 := by
  rw [List.mem_zipIdx_iff_getElem?, List.getElem?_map, Conf.object, listed]
  rfl

/-- The writes for a subscription of a node with a name. -/
def Conf.subWrites (config : Conf) (wild : Int) (name : Text) (index position : Nat)
    : List ConfWrite :=
  updateFields wild (subHead name position) (config.object (.subscription index position))
    [subTopicField, subQosField]

theorem object_of_mem_subWrites {wild : Int} {name : Text} {position : Nat}
    (member : write ∈ config.subWrites wild name index position)
    : ∃ json, config.object (.subscription index position) = some json := by
  cases found : config.object (.subscription index position) with
  | some json => exact ⟨json, rfl⟩
  | none =>
      rw [Conf.subWrites, found] at member
      cases member

theorem mem_updateNode {part : List ConfWrite}
    (listed : config.bridge.nodes[index]? = some node)
    (updated : updateNode env (nodeObject node) = some part)
    : write ∈ part
      ↔ ∃ name,
          node.name = some name
          ∧ (write ∈ updateFields env.wild (nodeHead name) (config.object (.node index)) nodeFields
            ∨ write
              = .update (nodeHead name ++ lit ".forwards")
                  (.text (forwardsText env.stray node.forwards))
            ∨ ∃ position, write ∈ config.subWrites env.wild name index position) := by
  cases named : node.name with
  | none =>
      rw [updateNode_unnamed listed named] at updated
      cases updated
      simp
  | some name =>
      rw [updateNode_named listed named] at updated
      obtain ⟨subs, collected, rfl⟩ := Option.map_eq_some_iff.mp updated
      have inSubs
          : write ∈ subs ↔ ∃ position, write ∈ config.subWrites env.wild name index position := by
        rw [mem_collect collected]
        constructor
        · rintro ⟨⟨json, position⟩, element, part, isPart, member⟩
          obtain ⟨rfl, _⟩ := updateSubscription_eq_some.mp isPart
          refine ⟨position, ?_⟩
          rw [Conf.subWrites, (mem_subscriptions _ listed).mp element]
          exact member
        · rintro ⟨position, member⟩
          obtain ⟨json, found⟩ := object_of_mem_subWrites member
          have element := (mem_subscriptions (json, position) listed).mpr found
          obtain ⟨part, isPart⟩ := collect_isSome.mp ⟨subs, collected⟩ _ element
          refine ⟨_, element, part, isPart, ?_⟩
          rw [(updateSubscription_eq_some.mp isPart).1, ← found]
          exact member
      simp only [List.mem_append, List.mem_singleton, inSubs, or_assoc, Option.some.injEq,
        exists_eq_left']

theorem updateNode_isSome (listed : config.bridge.nodes[index]? = some node)
    : (∃ part, updateNode env (nodeObject node) = some part)
      ↔ ∀ name,
          node.name = some name
          → ∀ position key value,
              .update key value ∈ config.subWrites env.wild name index position
              → key.length < 100 := by
  cases named : node.name with
  | none =>
      rw [updateNode_unnamed listed named]
      simp
  | some name =>
      rw [updateNode_named listed named]
      simp only [Option.map_eq_some_iff, Option.some.injEq, forall_eq']
      rw [exists_comm]
      simp only [exists_and_left, exists_eq', and_true, collect_isSome]
      constructor
      · intro all position key value member
        obtain ⟨json, found⟩ := object_of_mem_subWrites member
        have element := (mem_subscriptions (json, position) listed).mpr found
        obtain ⟨part, isPart⟩ := all _ element
        obtain ⟨rfl, short⟩ := updateSubscription_eq_some.mp isPart
        rw [Conf.subWrites, found] at member
        exact short key value member
      · rintro short ⟨json, position⟩ element
        refine ⟨_, updateSubscription_eq_some.mpr ⟨rfl, fun key value member => ?_⟩⟩
        refine short position key value ?_
        rw [Conf.subWrites, (mem_subscriptions _ listed).mp element]
        exact member

end Node

theorem updateBridgeConf_eq
    : updateBridgeConf env (some (bridgeObject config.bridge))
      = (collect (updateNode env) (config.bridge.nodes.map nodeObject)).map
          (updateFields env.wild [] (config.object .sqlite) ConfGroup.sqlite.fields ++ ·) := by
  have lookup {key : String} {json : Json}
      (member
        : (key, json) ∈ [
            ("nodes", .array (config.bridge.nodes.map nodeObject)),
            ("sqlite", sqliteObject config.bridge.sqlite)
          ])
      : getObjectItem (some (bridgeObject config.bridge)) key = some json := by
    refine (getObjectItem_eq_some ?_).mpr ⟨key, member, sameKey_refl _⟩
    change ["nodes", "sqlite"].Pairwise fun left right => sameKey left right = false
    decide
  have sqlite
      : getObjectItem (some (bridgeObject config.bridge)) "sqlite" = config.object .sqlite :=
    lookup (by simp)
  have nodes
      : getObjectItem (some (bridgeObject config.bridge)) "nodes"
        = some (.array (config.bridge.nodes.map nodeObject)) :=
    lookup (by simp)
  rw [updateBridgeConf, sqlite, nodes, arrayItems]
  cases collect (updateNode env) (config.bridge.nodes.map nodeObject) <;> rfl

theorem postConfig_eq
    : postConfig env (importRequest config) config
      = (updateBridgeConf env (some (bridgeObject config.bridge))).map fun more =>
          ((updateMainConf env (some (confObject config)) config).1 ++ more,
            (updateMainConf env (some (confObject config)) config).2) := by
  have bridge
      : getObjectItem (some (confObject config)) "bridge" = some (bridgeObject config.bridge) :=
    getObjectItem_confObject (by simp)
  have data : isObject (some (confObject config)) = true := rfl
  rw [postConfig, importRequest_data, if_pos data, bridge]
  rfl

theorem writes_of_fields {group : ConfGroup} {head : Text}
    (isHead : config.head group = some head)
    (member : write ∈ updateFields env.wild head (config.object group) group.fields)
    : Writes env config write := by
  obtain ⟨line, listed, value, isRead, emitted, rfl⟩ := mem_updateFields.mp member
  exact .item isHead listed isRead emitted

section Heads

variable {index : Nat} {node : ConfBridgeNode}

theorem nameOf_node (listed : config.bridge.nodes[index]? = some node)
    : config.nameOf index = node.name := by
  rw [Conf.nameOf, listed]
  rfl

theorem head_node {name : Text} (listed : config.bridge.nodes[index]? = some node)
    (named : node.name = some name)
    : config.head (.node index) = some (nodeHead name) := by
  rw [Conf.head, nameOf_node listed, named]
  rfl

theorem head_subscription {name : Text} (position : Nat)
    (listed : config.bridge.nodes[index]? = some node) (named : node.name = some name)
    : config.head (.subscription index position) = some (subHead name position) := by
  rw [Conf.head, nameOf_node listed, named]
  rfl

theorem name_of_head {head : Text} (listed : config.bridge.nodes[index]? = some node)
    (isHead : config.head (.node index) = some head)
    : ∃ name, node.name = some name ∧ nodeHead name = head := by
  rw [Conf.head, nameOf_node listed] at isHead
  exact Option.map_eq_some_iff.mp isHead

theorem name_of_subHead {position : Nat} {head : Text}
    (listed : config.bridge.nodes[index]? = some node)
    (isHead : config.head (.subscription index position) = some head)
    : ∃ name, node.name = some name ∧ subHead name position = head := by
  rw [Conf.head, nameOf_node listed] at isHead
  exact Option.map_eq_some_iff.mp isHead

end Heads

/-- The writes of a request that gives back the object of `get_config`. -/
theorem mem_postConfig {writes : List ConfWrite} {after : Conf}
    (posted : postConfig env (importRequest config) config = some (writes, after))
    : write ∈ writes ↔ Writes env config write := by
  rw [postConfig_eq, updateBridgeConf_eq] at posted
  obtain ⟨more, isMore, same⟩ := Option.map_eq_some_iff.mp posted
  obtain ⟨nodes, collected, rfl⟩ := Option.map_eq_some_iff.mp isMore
  obtain ⟨rfl, _⟩ := Prod.mk.inj same
  rw [List.mem_append, List.mem_append, mem_updateMainConf, mem_collect collected]
  constructor
  · rintro ((⟨group, isMain, member⟩ | ⟨which, member⟩) | member | ⟨json, isNode, part, updated,
      member⟩)
    · refine writes_of_fields ?_ member
      fin_cases isMain <;> rfl
    · obtain ⟨text, path, present, isPath, rfl | ⟨noFile, rfl⟩⟩ :=
        (mem_updateTlsText which).mp member
      · exact .tlsText present isPath
      · exact .tlsFile present noFile isPath
    · exact writes_of_fields rfl member
    · obtain ⟨node, inNodes, rfl⟩ := List.mem_map.mp isNode
      obtain ⟨index, listed⟩ := List.mem_iff_getElem?.mp inNodes
      obtain ⟨name, named, member⟩ := (mem_updateNode listed updated).mp member
      rcases member with plain | rfl | ⟨position, inSub⟩
      · exact writes_of_fields (head_node listed named) plain
      · exact .forwards listed named
      · exact writes_of_fields (head_subscription position listed named) inSub
  · have viaNode {index : Nat} {node : ConfBridgeNode} {name : Text}
        (listed : config.bridge.nodes[index]? = some node) (named : node.name = some name)
        (member
          : write ∈ updateFields env.wild (nodeHead name) (config.object (.node index)) nodeFields
            ∨ write
              = .update (nodeHead name ++ lit ".forwards")
                  (.text (forwardsText env.stray node.forwards))
            ∨ ∃ position, write ∈ config.subWrites env.wild name index position)
        : ∃ element ∈ config.bridge.nodes.map nodeObject, ∃ part,
            updateNode env element = some part ∧ write ∈ part := by
      have element := List.mem_map_of_mem (f := nodeObject) (List.mem_of_getElem? listed)
      obtain ⟨part, updated⟩ := collect_isSome.mp ⟨nodes, collected⟩ _ element
      exact ⟨_, element, part, updated, (mem_updateNode listed updated).mpr ⟨name, named, member⟩⟩
    intro isWritten
    cases isWritten with
    | @item group head line value isHead listed isRead emitted =>
        have member
            : .update (head ++ lit (group.ext ++ line.1)) (line.2.store env.wild value)
              ∈ updateFields env.wild head (config.object group) group.fields :=
          mem_updateFields.mpr ⟨line, listed, value, isRead, emitted, rfl⟩
        cases group with
        | node index =>
            obtain ⟨node, inNodes, _⟩ := node_of_entry emitted
            obtain ⟨name, named, rfl⟩ := name_of_head inNodes isHead
            exact Or.inr (Or.inr (viaNode inNodes named (Or.inl member)))
        | subscription index position =>
            obtain ⟨node, _, inNodes, _, _⟩ := sub_of_entry emitted
            obtain ⟨name, named, rfl⟩ := name_of_subHead inNodes isHead
            exact Or.inr (Or.inr (viaNode inNodes named (Or.inr (Or.inr ⟨position, member⟩))))
        | sqlite =>
            obtain rfl := Option.some.inj isHead
            exact Or.inr (Or.inl member)
        | _ =>
            obtain rfl := Option.some.inj isHead
            exact Or.inl (Or.inl ⟨_, by simp, member⟩)
    | @tlsText which text path present isPath =>
        refine Or.inl (Or.inr ⟨which, (mem_updateTlsText which).mpr ?_⟩)
        exact ⟨text, path, present, isPath, Or.inl rfl⟩
    | @tlsFile which text path present noFile isPath =>
        refine Or.inl (Or.inr ⟨which, (mem_updateTlsText which).mpr ?_⟩)
        exact ⟨text, path, present, isPath, Or.inr ⟨noFile, rfl⟩⟩
    | forwards listed named => exact Or.inr (Or.inr (viaNode listed named (Or.inr (Or.inl rfl))))

theorem postConfig_isSome
    : (∃ writes after, postConfig env (importRequest config) config = some (writes, after))
      ↔ ∀ index position head key value,
          config.head (.subscription index position) = some head
          → (key, .value value) ∈ config.entries (.subscription index position)
          → (head ++ lit ("." ++ key)).length < 100 := by
  have read : ∀ line ∈ (ConfGroup.subscription 0 0).keys, line.1 ≠ "key_password" := by
    decide
  have succeeds
      : (∃ writes after, postConfig env (importRequest config) config = some (writes, after))
        ↔ ∃ nodes, collect (updateNode env) (config.bridge.nodes.map nodeObject) = some nodes := by
    rw [postConfig_eq, updateBridgeConf_eq]
    cases collect (updateNode env) (config.bridge.nodes.map nodeObject) <;> simp
  rw [succeeds, collect_isSome]
  constructor
  · intro all index position head key value isHead emitted
    obtain ⟨node, _, listed, _, _⟩ := sub_of_entry emitted
    obtain ⟨name, named, rfl⟩ := name_of_subHead listed isHead
    obtain ⟨kind, isLine, _⟩ := key_of_entry emitted
    have short := (updateNode_isSome listed).mp
      (all _ (List.mem_map_of_mem (List.mem_of_getElem? listed))) name named position
    exact short _ _ (mem_updateFields.mpr ⟨_, isLine, value, read _ isLine, emitted, rfl⟩)
  · intro short element isNode
    obtain ⟨node, inNodes, rfl⟩ := List.mem_map.mp isNode
    obtain ⟨index, listed⟩ := List.mem_iff_getElem?.mp inNodes
    refine (updateNode_isSome listed).mpr fun name named position key value member => ?_
    have inGroup
        : .update key value
          ∈ updateFields env.wild (subHead name position)
              (config.object (.subscription index position))
              (ConfGroup.subscription index position).fields :=
      member
    obtain ⟨line, _, _, _, emitted, same⟩ := mem_updateFields.mp inGroup
    rw [(ConfWrite.update.inj same).1]
    exact short index position _ _ _ (head_subscription position listed named) emitted

end Request

end NanoMQ.Rest
