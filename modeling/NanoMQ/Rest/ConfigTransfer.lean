import NanoMQ.Rest.ConfigWrites

/-! Export and import of the configuration: for which configurations the writes of `post_config`
are those of the settings that `get_config` emits.
-/

namespace NanoMQ.Rest

open Bytes

-- What is due

/-- Every emitted setting is written at its own place with its value, nothing else is written
there, and what is written elsewhere is only the name of the file of a TLS text.
-/
structure Transfers (cwd : Option Text) (config : Conf) (writes : List ConfWrite) : Prop where
  written
    : ∀ setting value,
        Emits config setting value
        → ∃ write ∈ writes,
            config.place cwd setting = some write.place ∧ value.Is write.value
  own
    : ∀ write ∈ writes, ∀ setting value,
        Emits config setting value
        → config.place cwd setting = some write.place
        → value.Is write.value
  only
    : ∀ write ∈ writes,
        (∃ setting value,
          Emits config setting value ∧ config.place cwd setting = some write.place)
        ∨ ∃ which : TlsText, write.place = .key which.fileKey

/-- Two nodes have no setting with different values. -/
structure ConfBridgeNode.Agrees (node other : ConfBridgeNode) : Prop where
  entries
    : ∀ key value otherValue,
        (key, .value value) ∈ nodeEntries node
        → (key, .value otherValue) ∈ nodeEntries other
        → value = otherValue
  forwards : node.forwards = other.forwards
  subscriptions
    : ∀ (position : Nat) sub otherSub key value otherValue,
        node.subList[position]? = some sub
        → other.subList[position]? = some otherSub
        → (key, .value value) ∈ subEntries sub
        → (key, .value otherValue) ∈ subEntries otherSub
        → value = otherValue

/-- The configurations whose object can be given back. There is no password of the TLS key;
every number is that of a double; every TLS text has a file, and no two different ones the
same; every node has a name, and nodes of one name agree; the topics that a node forwards can
be told apart; and the keys of the subscriptions fit into a buffer of 100 bytes.
-/
structure Importable (cwd : Option Text) (config : Conf) : Prop where
  keyPassword : config.tls.keyPassword = none
  numbers
    : ∀ group key n, (key, .value (.number n)) ∈ config.entries group → toDouble n = n
  files
    : ∀ which : TlsText, ∀ text,
        which.text config.tls = some text → ∃ path, which.path config.tls cwd = some path
  separate
    : ∀ which other : TlsText, ∀ text otherText path,
        which.text config.tls = some text
        → other.text config.tls = some otherText
        → which.path config.tls cwd = some path
        → other.path config.tls cwd = some path
        → text = otherText
  named : ∀ node ∈ config.bridge.nodes, ∃ name, node.name = some name
  agree
    : ∀ node ∈ config.bridge.nodes, ∀ other ∈ config.bridge.nodes,
        node.name = other.name → node.Agrees other
  forwards
    : ∀ node ∈ config.bridge.nodes,
        node.forwards ≠ [] ∧ ∀ topic ∈ node.forwards, topic ≠ [] ∧ 44 ∉ topic
  short
    : ∀ index position head key value,
        config.head (.subscription index position) = some head
        → (key, .value value) ∈ config.entries (.subscription index position)
        → (head ++ lit ("." ++ key)).length < 100

-- Values

theorem Kind.store_exact {wild : Int} {kind : Kind} {value : Value} (fits : kind.Fits value)
    (exact : ∀ n, value = .number n → toDouble n = n)
    : kind.store wild value = value := by
  cases value with
  | text content => cases kind <;> rfl
  | bool flag => cases kind <;> rfl
  | number n =>
      cases kind with
      | text => cases fits
      | bool => cases fits
      | number type =>
          have inRange : type.lower ≤ n ∧ n < type.upper := fits
          rw [Kind.store, exact n rfl, NumberType.convert, if_pos inRange]

/-- A number that is stored as it is, whatever a conversion out of range gives, is a double. -/
theorem exact_of_store {kind : Kind} {n : Int} (fits : kind.Fits (.number n))
    (stored : kind.store (n + 1) (.number n) = .number n)
    : toDouble n = n := by
  cases kind with
  | text => cases fits
  | bool => cases fits
  | number type =>
      have converted : type.convert (n + 1) (toDouble n) = n := Value.number.inj stored
      unfold NumberType.convert at converted
      split at converted
      · exact converted
      · omega

/-- No piece of a split contains the separator. By induction on the text. -/
theorem not_mem_of_mem_splitOn {byte : UInt8} {text piece : Text}
    (member : piece ∈ text.splitOn byte)
    : byte ∉ piece := by
  induction text generalizing piece with
  | nil =>
      rw [List.splitOn_nil] at member
      rw [List.mem_singleton.mp member]
      exact List.not_mem_nil
  | cons first rest ih =>
      rw [List.splitOn_eq_splitOnP, List.splitOnP_cons_eq_if_modifyHead] at member
      rw [List.splitOn_eq_splitOnP] at ih
      split at member
      · rcases List.mem_cons.mp member with rfl | later
        · exact List.not_mem_nil
        · exact ih later
      · rename_i other
        cases pieces : rest.splitOnP (· == byte) with
        | nil => exact absurd pieces (List.splitOnP_ne_nil _ _)
        | cons head tail =>
            rw [pieces] at member ih
            rcases List.mem_cons.mp member with rfl | later
            · refine List.not_mem_cons_of_ne_of_not_mem ?_ (ih List.mem_cons_self)
              rintro rfl
              exact other (beq_self_eq_true _)
            · exact ih (List.mem_cons_of_mem head later)

theorem readTopics_forwardsText {stray : Text} {topics : List Text} (some : topics ≠ [])
    (plain : ∀ topic ∈ topics, topic ≠ [] ∧ 44 ∉ topic)
    : readTopics (forwardsText stray topics) = topics := by
  rw [forwardsText, if_neg some, readTopics,
    List.splitOn_intercalate _ (fun topic member => (plain topic member).2) some]
  exact List.filter_eq_self.mpr fun topic member => decide_eq_true (plain topic member).1

theorem plain_of_readTopics {text topic : Text} (member : topic ∈ readTopics text)
    : topic ≠ [] ∧ 44 ∉ topic := by
  obtain ⟨isPiece, nonempty⟩ := List.mem_filter.mp member
  exact ⟨of_decide_eq_true nonempty, not_mem_of_mem_splitOn isPiece⟩

-- Emitted settings

section Emitted

variable {config : Conf} {setting : Setting} {value : SettingValue}

theorem Emits.unique {other : SettingValue} (emits : Emits config setting value)
    (alsoEmits : Emits config setting other)
    : value = other := by
  cases emits with
  | item emitted =>
      cases alsoEmits with
      | item alsoEmitted => rw [Item.value.inj (entry_unique emitted alsoEmitted)]
  | tlsText present =>
      cases alsoEmits with
      | tlsText alsoPresent => rw [Option.some.inj (present.symm.trans alsoPresent)]
  | forwards listed =>
      cases alsoEmits with
      | forwards alsoListed => rw [Option.some.inj (listed.symm.trans alsoListed)]

theorem keyPassword_of_entry {group : ConfGroup} {given : Value}
    (emitted : ("key_password", .value given) ∈ config.entries group)
    : ∃ password, config.tls.keyPassword = some password := by
  obtain ⟨kind, listed, _⟩ := key_of_entry emitted
  have unlisted (group : ConfGroup) (fixed : ∀ line ∈ group.keys, line.1 ≠ "key_password")
      (listed : ("key_password", kind) ∈ group.keys)
      : False :=
    fixed _ listed rfl
  cases group with
  | tls =>
      cases isPassword : config.tls.keyPassword with
      | some password => exact ⟨password, rfl⟩
      | none =>
          simp [Conf.entries, tlsHeadEntries, tlsTailEntries, isPassword, addStringOrNull]
            at emitted
  | node index => exact (unlisted (.node 0) (by decide) listed).elim
  | subscription index position => exact (unlisted (.subscription 0 0) (by decide) listed).elim
  | _ => exact (unlisted _ (by decide) listed).elim

theorem head_of_entry {group : ConfGroup} {entry : String × Item}
    (named : ∀ node ∈ config.bridge.nodes, ∃ name, node.name = some name)
    (emitted : entry ∈ config.entries group)
    : ∃ head, config.head group = some head := by
  cases group with
  | node index =>
      obtain ⟨node, listed, _⟩ := node_of_entry emitted
      obtain ⟨name, isName⟩ := named node (List.mem_of_getElem? listed)
      exact ⟨_, head_node listed isName⟩
  | subscription index position =>
      obtain ⟨node, _, listed, _, _⟩ := sub_of_entry emitted
      obtain ⟨name, isName⟩ := named node (List.mem_of_getElem? listed)
      exact ⟨_, head_subscription position listed isName⟩
  | _ => exact ⟨[], rfl⟩

theorem fileKey_notKeyed {text : Text} (which : TlsText) (keyed : Keyed config setting text)
    : text ≠ which.fileKey := by
  have notFixed : ∀ line ∈ fixedLines, fixedText line ≠ which.fileKey := by
    cases which <;> decide +kernel
  have notBridge : ¬lit "bridge.mqtt." <+: which.fileKey := by
    cases which <;> decide
  rintro rfl
  generalize same : which.fileKey = text at keyed
  rw [same] at notBridge
  cases keyed with
  | fixed listed => exact notFixed _ listed same.symm
  | node _ _ => exact notBridge (bridge_isPrefix_nodeHead _ _)
  | forwards _ => exact notBridge (bridge_isPrefix_nodeHead _ _)
  | @subscription index sub line name _ _ =>
      obtain ⟨more, isNode⟩ := subHead_eq name (46 :: lit line.1) sub
      rw [isNode] at notBridge
      exact notBridge (bridge_isPrefix_nodeHead _ _)

/-- What is at one place has one value, if no two TLS texts and no two nodes disagree. -/
theorem Importable.same_value {cwd : Option Text} {other : Setting} {otherValue : SettingValue}
    {place : Place} (importable : Importable cwd config) (emits : Emits config setting value)
    (isPlace : config.place cwd setting = some place) (otherEmits : Emits config other otherValue)
    (otherPlace : config.place cwd other = some place)
    : value = otherValue := by
  have agree {index otherIndex : Nat} {node otherNode : ConfBridgeNode}
      (names : config.nameOf index = config.nameOf otherIndex)
      (listed : config.bridge.nodes[index]? = some node)
      (otherListed : config.bridge.nodes[otherIndex]? = some otherNode)
      : node.Agrees otherNode := by
    rw [nameOf_node listed, nameOf_node otherListed] at names
    exact importable.agree node (List.mem_of_getElem? listed) otherNode
      (List.mem_of_getElem? otherListed) names
  cases shares_of_place emits isPlace otherEmits otherPlace with
  | same => exact emits.unique otherEmits
  | node key names =>
      cases emits with
      | item emitted =>
          cases otherEmits with
          | item otherEmitted =>
              obtain ⟨node, listed, inNode⟩ := node_of_entry emitted
              obtain ⟨otherNode, otherListed, inOther⟩ := node_of_entry otherEmitted
              rw [(agree names listed otherListed).entries _ _ _ inNode inOther]
  | forwards names =>
      cases emits with
      | forwards listed =>
          cases otherEmits with
          | forwards otherListed => rw [(agree names listed otherListed).forwards]
  | subscription key names =>
      cases emits with
      | item emitted =>
          cases otherEmits with
          | item otherEmitted =>
              obtain ⟨node, sub, listed, inNode, inSub⟩ := sub_of_entry emitted
              obtain ⟨otherNode, otherSub, otherListed, inOther, inOtherSub⟩ :=
                sub_of_entry otherEmitted
              rw [(agree names listed otherListed).subscriptions _ _ _ _ _ _ inNode inOther
                inSub inOtherSub]
  | tlsText which otherWhich =>
      obtain ⟨path, isPath, rfl⟩ := Option.map_eq_some_iff.mp isPlace
      obtain ⟨otherPath, isOtherPath, samePath⟩ := Option.map_eq_some_iff.mp otherPlace
      rw [Place.file.inj samePath] at isOtherPath
      cases emits with
      | tlsText present =>
          cases otherEmits with
          | tlsText otherPresent =>
              rw [importable.separate _ _ _ _ _ present otherPresent isPath isOtherPath]

end Emitted

-- Importing what was exported

section Import

variable {env : ConfEnv} {config : Conf} {write : ConfWrite}

theorem Importable.source (importable : Importable env.cwd config)
    (isWritten : Writes env config write)
    : (∃ setting value,
        Emits config setting value
        ∧ config.place env.cwd setting = some write.place
        ∧ value.Is write.value)
      ∨ ∃ which : TlsText, write.place = .key which.fileKey := by
  cases isWritten with
  | @item group head line value isHead listed isRead emitted =>
      refine Or.inl ⟨.item group line.1, .single value, .item emitted, ?_, ?_⟩
      · rw [Conf.place, isHead]
        rfl
      · obtain ⟨kind, alsoListed, fits⟩ := key_of_entry emitted
        rw [kind_unique alsoListed listed] at fits
        refine Kind.store_exact fits fun n isNumber => ?_
        rw [isNumber] at emitted
        exact importable.numbers group line.1 n emitted
  | @tlsText which text path present isPath =>
      refine Or.inl ⟨.tlsText which, .single (.text text), .tlsText present, ?_, rfl⟩
      rw [Conf.place, isPath]
      rfl
  | @tlsFile which text path present noFile isPath => exact Or.inr ⟨which, rfl⟩
  | @forwards index node name listed named =>
      obtain ⟨some, plain⟩ := importable.forwards node (List.mem_of_getElem? listed)
      refine Or.inl ⟨.forwards index, .topics node.forwards, .forwards listed, ?_, ?_⟩
      · rw [Conf.place, head_node listed named]
        rfl
      · exact ⟨_, rfl, readTopics_forwardsText some plain⟩

theorem Importable.writes {setting : Setting} {value : SettingValue}
    (importable : Importable env.cwd config) (emits : Emits config setting value)
    : ∃ write, Writes env config write ∧ config.place env.cwd setting = some write.place := by
  cases emits with
  | @item group key value emitted =>
      obtain ⟨kind, listed, _⟩ := key_of_entry emitted
      obtain ⟨head, isHead⟩ := head_of_entry importable.named emitted
      have isRead : key ≠ "key_password" := by
        rintro rfl
        obtain ⟨password, isPassword⟩ := keyPassword_of_entry emitted
        rw [importable.keyPassword] at isPassword
        cases isPassword
      refine ⟨_, .item isHead listed isRead emitted, ?_⟩
      rw [Conf.place, isHead]
      rfl
  | @tlsText which text present =>
      obtain ⟨path, isPath⟩ := importable.files which text present
      refine ⟨_, .tlsText present isPath, ?_⟩
      rw [Conf.place, isPath]
      rfl
  | @forwards index node listed =>
      obtain ⟨name, named⟩ := importable.named node (List.mem_of_getElem? listed)
      refine ⟨_, .forwards listed named, ?_⟩
      rw [Conf.place, head_node listed named]
      rfl

theorem Importable.transfers {writes : List ConfWrite} {after : Conf}
    (importable : Importable env.cwd config)
    (posted : postConfig env (importRequest config) config = some (writes, after))
    : Transfers env.cwd config writes := by
  have own {write : ConfWrite} (member : write ∈ writes) {setting : Setting}
      {value : SettingValue} (emits : Emits config setting value)
      (isPlace : config.place env.cwd setting = some write.place)
      : value.Is write.value := by
    rcases importable.source ((mem_postConfig posted).mp member) with
      ⟨other, otherValue, otherEmits, otherPlace, isValue⟩ | ⟨which, isFileKey⟩
    · rw [importable.same_value emits isPlace otherEmits otherPlace]
      exact isValue
    · rw [isFileKey] at isPlace
      exact absurd rfl (fileKey_notKeyed which (keyed_of_place emits isPlace))
  refine { written := ?_, own := ?_, only := ?_ }
  · intro setting value emits
    obtain ⟨write, isWritten, isPlace⟩ := importable.writes emits
    have member := (mem_postConfig posted).mpr isWritten
    exact ⟨write, member, isPlace, own member emits isPlace⟩
  · exact fun write member setting value => own member
  · intro write member
    rcases importable.source ((mem_postConfig posted).mp member) with
      ⟨setting, value, emits, isPlace, _⟩ | isFileKey
    · exact Or.inl ⟨setting, value, emits, isPlace⟩
    · exact Or.inr isFileKey

end Import

-- What an import needs

/-- Giving back the emitted object transfers the settings, whatever undefined conversions and
reads give.
-/
def ImportsExport (cwd : Option Text) (config : Conf) : Prop :=
  ∀ wild stray, ∃ writes after,
    postConfig { cwd, wild, stray } (importRequest config) config = some (writes, after)
    ∧ Transfers cwd config writes

namespace ImportsExport

variable {cwd : Option Text} {config : Conf} {setting other : Setting}
  {value otherValue : SettingValue}

theorem written (imports : ImportsExport cwd config) (wild : Int) (stray : Text)
    (emits : Emits config setting value)
    : ∃ write,
        Writes { cwd, wild, stray } config write
        ∧ config.place cwd setting = some write.place
        ∧ value.Is write.value := by
  obtain ⟨writes, after, posted, transfers⟩ := imports wild stray
  obtain ⟨write, member, isPlace, isValue⟩ := transfers.written setting value emits
  exact ⟨write, (mem_postConfig posted).mp member, isPlace, isValue⟩

theorem own {wild : Int} {stray : Text} {write : ConfWrite} (imports : ImportsExport cwd config)
    (isWritten : Writes { cwd, wild, stray } config write) (emits : Emits config setting value)
    (isPlace : config.place cwd setting = some write.place)
    : value.Is write.value := by
  obtain ⟨writes, after, posted, transfers⟩ := imports wild stray
  exact transfers.own write ((mem_postConfig posted).mpr isWritten) setting value emits isPlace

theorem shared (imports : ImportsExport cwd config) (emits : Emits config setting value)
    (otherEmits : Emits config other otherValue)
    (same : config.place cwd setting = config.place cwd other)
    : ∃ written, value.Is written ∧ otherValue.Is written := by
  obtain ⟨write, isWritten, isPlace, isValue⟩ := imports.written 0 [] emits
  exact ⟨write.value, isValue, imports.own isWritten otherEmits (same.symm.trans isPlace)⟩

theorem place (imports : ImportsExport cwd config) (emits : Emits config setting value)
    : ∃ place, config.place cwd setting = some place := by
  obtain ⟨write, _, isPlace, _⟩ := imports.written 0 [] emits
  exact ⟨write.place, isPlace⟩

theorem keyPassword (imports : ImportsExport cwd config) : config.tls.keyPassword = none := by
  cases isPassword : config.tls.keyPassword with
  | none => rfl
  | some password =>
      have emitted : ("key_password", .value (.text password)) ∈ config.entries .tls := by
        simp [Conf.entries, tlsHeadEntries, isPassword, addStringOrNull]
      have listed : (ConfGroup.tls, "key_password") ∈ fixedLines := by decide
      obtain ⟨write, isWritten, isPlace, _⟩ := imports.written 0 [] (.item emitted)
      have isKey : write.place = .key (fixedText (.tls, "key_password")) :=
        (Option.some.inj isPlace).symm
      cases isWritten with
      | item isHead isLine isRead _ =>
          have same := (keyed_item isLine isHead).notFixed listed (Place.key.inj isKey)
          exact absurd (Setting.item.inj same).2 isRead
      | tlsText _ _ => cases isKey
      | @tlsFile which _ _ _ _ _ =>
          have keyed
              : Keyed config (.item .tls "key_password") (fixedText (.tls, "key_password")) :=
            .fixed listed
          exact absurd (Place.key.inj isKey).symm (fileKey_notKeyed which keyed)
      | forwards inNodes named =>
          have keyed := keyed_forwards (head_node inNodes named)
          cases keyed.notFixed listed (Place.key.inj isKey)

theorem named (imports : ImportsExport cwd config) {index : Nat} {node : ConfBridgeNode}
    (listed : config.bridge.nodes[index]? = some node)
    : ∃ name, node.name = some name := by
  obtain ⟨place, isPlace⟩ := imports.place (.forwards listed)
  obtain ⟨head, isHead, _⟩ := Option.map_eq_some_iff.mp isPlace
  obtain ⟨name, isName, _⟩ := name_of_head listed isHead
  exact ⟨name, isName⟩

theorem exact {group : ConfGroup} {key : String} {n : Int} (imports : ImportsExport cwd config)
    (emitted : (key, .value (.number n)) ∈ config.entries group)
    : toDouble n = n := by
  obtain ⟨kind, listed, fits⟩ := key_of_entry emitted
  have isRead : key ≠ "key_password" := by
    rintro rfl
    obtain ⟨password, isPassword⟩ := keyPassword_of_entry emitted
    rw [imports.keyPassword] at isPassword
    cases isPassword
  obtain ⟨place, isPlace⟩ := imports.place (.item emitted)
  obtain ⟨head, isHead, _⟩ := Option.map_eq_some_iff.mp isPlace
  have isWritten : Writes { cwd, wild := n + 1, stray := [] } config _ :=
    .item isHead listed isRead emitted
  refine exact_of_store fits (imports.own isWritten (.item emitted) ?_)
  rw [Conf.place, isHead]
  rfl

/-- The topics of a node are read back from what is written. -/
theorem forwards (imports : ImportsExport cwd config) {index : Nat} {node : ConfBridgeNode}
    (listed : config.bridge.nodes[index]? = some node)
    : node.forwards ≠ [] ∧ ∀ topic ∈ node.forwards, topic ≠ [] ∧ 44 ∉ topic := by
  obtain ⟨name, named⟩ := imports.named listed
  have read (stray : Text) : readTopics (forwardsText stray node.forwards) = node.forwards := by
    have isWritten : Writes { cwd, wild := 0, stray } config _ := .forwards listed named
    have isPlace
        : config.place cwd (.forwards index) = some (.key (nodeHead name ++ lit ".forwards")) := by
      rw [Conf.place, head_node listed named]
      rfl
    obtain ⟨text, isText, readBack⟩ := imports.own isWritten (.forwards listed) isPlace
    rw [Value.text.inj isText]
    exact readBack
  constructor
  · intro none
    -- whatever is read for no topics could be a topic
    have stray := read [120]
    rw [none, forwardsText, if_pos rfl] at stray
    revert stray
    decide
  · intro topic member
    rw [← read []] at member
    exact plain_of_readTopics member

theorem agrees (imports : ImportsExport cwd config) {index otherIndex : Nat}
    {node otherNode : ConfBridgeNode} (listed : config.bridge.nodes[index]? = some node)
    (otherListed : config.bridge.nodes[otherIndex]? = some otherNode)
    (names : node.name = otherNode.name)
    : node.Agrees otherNode := by
  have sameName : config.nameOf index = config.nameOf otherIndex := by
    rw [nameOf_node listed, nameOf_node otherListed, names]
  refine { entries := ?_, forwards := ?_, subscriptions := ?_ }
  · intro key value otherValue inNode inOther
    rw [← entries_node listed] at inNode
    rw [← entries_node otherListed] at inOther
    have samePlace
        : config.place cwd (.item (.node index) key)
          = config.place cwd (.item (.node otherIndex) key) := by
      simp only [Conf.place, Conf.head, sameName, ConfGroup.ext]
    obtain ⟨written, isValue, isOther⟩ := imports.shared (.item inNode) (.item inOther) samePlace
    exact isValue.symm.trans isOther
  · have samePlace
        : config.place cwd (.forwards index) = config.place cwd (.forwards otherIndex) := by
      simp only [Conf.place, Conf.head, sameName]
    obtain ⟨written, ⟨text, rfl, readNode⟩, ⟨otherText, same, readOther⟩⟩ :=
      imports.shared (.forwards listed) (.forwards otherListed) samePlace
    rw [← readNode, ← readOther, Value.text.inj same]
  · intro position sub otherSub key value otherValue inNode inOther inSub inOtherSub
    rw [← entries_subscription listed inNode] at inSub
    rw [← entries_subscription otherListed inOther] at inOtherSub
    have samePlace
        : config.place cwd (.item (.subscription index position) key)
          = config.place cwd (.item (.subscription otherIndex position) key) := by
      simp only [Conf.place, Conf.head, sameName, ConfGroup.ext]
    obtain ⟨written, isValue, isOther⟩ :=
      imports.shared (.item inSub) (.item inOtherSub) samePlace
    exact isValue.symm.trans isOther

/-- The conditions are needed. -/
theorem importable (imports : ImportsExport cwd config) : Importable cwd config := by
  refine {
    keyPassword := imports.keyPassword
    numbers := fun group key n => imports.exact
    files := ?_
    separate := ?_
    named := ?_
    agree := ?_
    forwards := ?_
    short := ?_
  }
  · intro which text present
    obtain ⟨place, isPlace⟩ := imports.place (.tlsText present)
    obtain ⟨path, isPath, _⟩ := Option.map_eq_some_iff.mp isPlace
    exact ⟨path, isPath⟩
  · intro which other text otherText path present otherPresent isPath isOtherPath
    have samePlace
        : config.place cwd (.tlsText which) = config.place cwd (.tlsText other) := by
      simp only [Conf.place, isPath, isOtherPath]
    obtain ⟨written, isText, isOther⟩ :=
      imports.shared (.tlsText present) (.tlsText otherPresent) samePlace
    exact Value.text.inj (isText.symm.trans isOther)
  · intro node member
    obtain ⟨index, listed⟩ := List.mem_iff_getElem?.mp member
    exact imports.named listed
  · intro node member other otherMember names
    obtain ⟨index, listed⟩ := List.mem_iff_getElem?.mp member
    obtain ⟨otherIndex, otherListed⟩ := List.mem_iff_getElem?.mp otherMember
    exact imports.agrees listed otherListed names
  · intro node member
    obtain ⟨index, listed⟩ := List.mem_iff_getElem?.mp member
    exact imports.forwards listed
  · obtain ⟨writes, after, posted, _⟩ := imports 0 []
    exact postConfig_isSome.mp ⟨writes, after, posted⟩

end ImportsExport

/-- Export and import agree for exactly the importable configurations. -/
theorem config_transfer_iff (cwd : Option Text) (config : Conf)
    : ImportsExport cwd config ↔ Importable cwd config := by
  refine ⟨ImportsExport.importable, fun importable wild stray => ?_⟩
  obtain ⟨writes, after, posted⟩ :=
    (@postConfig_isSome { cwd, wild, stray } config).mpr importable.short
  exact ⟨writes, after, posted, Importable.transfers importable posted⟩

/-- A configuration without TLS texts and bridges. -/
def plainConf : Conf :=
  {
    url := some (lit "nmq-tcp://0.0.0.0:1883")
    numTaskqThread := 0
    maxTaskqThread := 0
    parallel := 32
    propertySize := 32
    msqLen := 2048
    allowAnonymous := true
    daemon := false
    tls :=
      {
        enable := false, url := none, keyPassword := none, key := none, cert := none, ca := none,
        keyfile := none, certfile := none, cafile := none, verifyPeer := false, setFail := false
      }
    websocket := { enable := false, url := none, tlsUrl := none }
    httpServer :=
      { enable := true, port := 8081, username := none, password := none, authType := .BASIC }
    bridge :=
      {
        nodes := []
        sqlite :=
          {
            enable := false, diskCacheSize := 102400, flushMemThreshold := 100,
            resendInterval := 5000, mountedFilePath := none
          }
      }
  }

/-- The same with a password of the TLS key. -/
def passwordConf : Conf :=
  { plainConf with tls := { plainConf.tls with keyPassword := some (lit "pw") } }

/-- The password is emitted, and nothing is written at its key. -/
theorem password_lost
    : Emits passwordConf (.item .tls "key_password") (.single (.text (lit "pw")))
      ∧ passwordConf.place none (.item .tls "key_password")
        = some (.key (lit "tls.key_password"))
      ∧ (postConfig { cwd := none, wild := 0, stray := [] } (importRequest passwordConf)
            passwordConf).map
          (fun result =>
            result.1.any fun write => write.place = .key (lit "tls.key_password"))
        = some false := by
  refine ⟨.item (by decide +kernel), by decide +kernel, ?_⟩
  decide +kernel

end NanoMQ.Rest
