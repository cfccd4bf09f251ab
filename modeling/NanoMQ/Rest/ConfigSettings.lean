import NanoMQ.Rest.Config

/-! The settings behind the configuration object: what `get_config` emits for each of them, the
place in the configuration file that is its own, and when two settings have one place.
-/

namespace NanoMQ.Rest

open Bytes

-- Settings and their values

/-- The objects whose entries are settings. -/
inductive ConfGroup where
  | main
  | tls
  | websocket
  | httpServer
  | sqlite
  | node (index : Nat)
  | subscription (index sub : Nat)
  deriving DecidableEq, Repr

/-- A setting: an entry of an object, a TLS text, or the topics that a node forwards. The name
of a node is no setting, but a part of the keys of the others.
-/
inductive Setting where
  | item (group : ConfGroup) (key : String)
  | tlsText (which : TlsText)
  | forwards (index : Nat)

inductive SettingValue where
  | single (value : Value)
  | topics (topics : List Text)

def Conf.entries (config : Conf) : ConfGroup → List (String × Item)
  | .main => mainEntries config
  | .tls => tlsHeadEntries config.tls ++ tlsTailEntries config.tls
  | .websocket => websocketEntries config.websocket
  | .httpServer => httpServerEntries config.httpServer
  | .sqlite => sqliteEntries config.bridge.sqlite
  | .node index => config.bridge.nodes[index]?.elim [] nodeEntries
  | .subscription index sub =>
      (config.bridge.nodes[index]?.bind fun node => node.subList[sub]?).elim [] subEntries

namespace TlsText

variable (tls : ConfTls)

def text : TlsText → Option Text
  | .key => tls.key
  | .cert => tls.cert
  | .cacert => tls.ca

/-- The file that is configured. -/
def file : TlsText → Option Text
  | .key => tls.keyfile
  | .cert => tls.certfile
  | .cacert => tls.cafile

/-- The file that a text belongs into. -/
def path (cwd : Option Text) (which : TlsText) : Option Text :=
  (which.file tls).or (cwd.map (· ++ which.fileName))

end TlsText

/-- The settings that are emitted with a value other than null. -/
inductive Emits (config : Conf) : Setting → SettingValue → Prop
  | item {group : ConfGroup} {key : String} {value : Value}
    (emitted : (key, .value value) ∈ config.entries group)
    : Emits config (.item group key) (.single value)
  | tlsText {which : TlsText} {text : Text} (present : which.text config.tls = some text)
    : Emits config (.tlsText which) (.single (.text text))
  | forwards {index : Nat} {node : ConfBridgeNode}
    (listed : config.bridge.nodes[index]? = some node)
    : Emits config (.forwards index) (.topics node.forwards)

-- Places in the configuration file

inductive Place where
  | key (key : Text)
  | file (path : Text)
  deriving DecidableEq, Repr

/-- What stands between the start of a key and the key of the entry. -/
def ConfGroup.ext : ConfGroup → String
  | .main => ""
  | .tls => "tls."
  | .websocket => "websocket."
  | .httpServer => "http_server."
  | .sqlite => "bridge.sqlite."
  | .node _ | .subscription _ _ => "."

def Conf.nameOf (config : Conf) (index : Nat) : Option Text :=
  config.bridge.nodes[index]?.bind ConfBridgeNode.name

/-- The start of the keys of a group; it takes the name of a node. -/
def Conf.head (config : Conf) : ConfGroup → Option Text
  | .node index => (config.nameOf index).map nodeHead
  | .subscription index sub => (config.nameOf index).map (subHead · sub)
  | .main | .tls | .websocket | .httpServer | .sqlite => some []

/-- The place of a setting: its documented key in the configuration file, or its file. -/
def Conf.place (cwd : Option Text) (config : Conf) : Setting → Option Place
  | .item group key => (config.head group).map fun head => .key (head ++ lit (group.ext ++ key))
  | .tlsText which => (which.path config.tls cwd).map Place.file
  | .forwards index =>
      (config.head (.node index)).map fun head => .key (head ++ lit ".forwards")

def ConfWrite.place : ConfWrite → Place
  | .update key _ => .key key
  | .file path _ => .file path

def ConfWrite.value : ConfWrite → Value
  | .update _ value => value
  | .file _ text => .text text

/-- The topics of a text with commas between them; empty pieces are passed over. -/
def readTopics (text : Text) : List Text :=
  (text.splitOn 44).filter (· ≠ [])

/-- What is written says the value of the setting. -/
def SettingValue.Is : SettingValue → Value → Prop
  | .single value, written => written = value
  | .topics listed, written => ∃ text, written = .text text ∧ readTopics text = listed

-- Tables

/-- The keys of a group, each with the macro that reads its values. -/
def ConfGroup.keys : ConfGroup → List (String × Kind)
  | .main =>
      [
        ("url", .text), ("num_taskq_thread", .number .int),
        ("max_taskq_thread", .number .int), ("parallel", .number .u64),
        ("property_size", .number .int), ("msq_len", .number .int),
        ("allow_anonymous", .bool), ("daemon", .bool)
      ]
  | .tls =>
      [
        ("enable", .bool), ("url", .text), ("key_password", .text), ("verify_peer", .bool),
        ("fail_if_no_peer_cert", .bool)
      ]
  | .websocket => [("enable", .bool), ("url", .text), ("tls_url", .text)]
  | .httpServer =>
      [
        ("enable", .bool), ("port", .number .u16), ("username", .text), ("password", .text),
        ("auth_type", .text)
      ]
  | .sqlite =>
      [
        ("enable", .bool), ("disk_cache_size", .number .u64),
        ("flush_mem_threshold", .number .u64), ("resend_interval", .number .u64),
        ("mounted_file_path", .text)
      ]
  | .node _ =>
      [
        ("bridge_mode", .bool), ("address", .text), ("proto_ver", .number .u8),
        ("clientid", .text), ("clean_start", .bool), ("username", .text), ("password", .text),
        ("keepalive", .number .u16), ("parallel", .number .u64)
      ]
  | .subscription _ _ => [("topic", .text), ("qos", .number .u8)]

/-- The value has the type that the macro reads. -/
def Kind.Fits : Kind → Value → Prop
  | .text, .text _ => True
  | .bool, .bool _ => True
  | .number type, .number n => type.lower ≤ n ∧ n < type.upper
  | _, _ => False

/-- An entry has the key and the type that a line of the table gives. -/
def EntryFits (entry : String × Item) (line : String × Kind) : Prop :=
  entry.1 = line.1 ∧ ∀ value, entry.2 = .value value → line.2.Fits value

theorem addString_fits (key : String) (text : Option Text)
    : EntryFits (key, addString text) (key, .text) := by
  refine ⟨rfl, fun value isValue => ?_⟩
  cases text with
  | none => cases isValue
  | some text =>
      cases isValue
      trivial

theorem addStringOrNull_fits (key : String) (text : Option Text)
    : EntryFits (key, addStringOrNull text) (key, .text) := by
  refine ⟨rfl, fun value isValue => ?_⟩
  cases text with
  | none => cases isValue
  | some text =>
      cases isValue
      trivial

theorem addBool_fits (key : String) (flag : Bool)
    : EntryFits (key, addBool flag) (key, .bool) := by
  refine ⟨rfl, fun value isValue => ?_⟩
  cases isValue
  trivial

theorem addNumber_fits (key : String) {type : NumberType} {n : Int} (lower : type.lower ≤ n)
    (upper : n < type.upper)
    : EntryFits (key, addNumber n) (key, .number type) := by
  refine ⟨rfl, fun value isValue => ?_⟩
  cases isValue
  exact ⟨lower, upper⟩

theorem int_fits (key : String) (n : Int32)
    : EntryFits (key, addNumber n.toInt) (key, .number .int) :=
  addNumber_fits key n.le_toInt n.toInt_lt

theorem u8_fits (key : String) (n : UInt8)
    : EntryFits (key, addNumber n.toNat) (key, .number .u8) :=
  addNumber_fits key (Int.natCast_nonneg _) (Int.ofNat_lt.mpr n.toNat_lt)

theorem u16_fits (key : String) (n : UInt16)
    : EntryFits (key, addNumber n.toNat) (key, .number .u16) :=
  addNumber_fits key (Int.natCast_nonneg _) (Int.ofNat_lt.mpr n.toNat_lt)

theorem u64_fits (key : String) (n : UInt64)
    : EntryFits (key, addNumber n.toNat) (key, .number .u64) :=
  addNumber_fits key (Int.natCast_nonneg _) (Int.ofNat_lt.mpr n.toNat_lt)

theorem nodeEntries_fit (node : ConfBridgeNode) (index : Nat)
    : List.Forall₂ EntryFits (nodeEntries node) (ConfGroup.node index).keys := by
  simp only [nodeEntries, ConfGroup.keys, List.forall₂_cons, List.forall₂_nil_left_iff,
    addString_fits, addBool_fits, u8_fits, u16_fits, u64_fits, and_self]

theorem subEntries_fit (sub : Subscribe) (index position : Nat)
    : List.Forall₂ EntryFits (subEntries sub) (ConfGroup.subscription index position).keys := by
  simp only [subEntries, ConfGroup.keys, List.forall₂_cons, List.forall₂_nil_left_iff,
    addString_fits, u8_fits, and_self]

theorem entries_node {config : Conf} {index : Nat} {node : ConfBridgeNode}
    (listed : config.bridge.nodes[index]? = some node)
    : config.entries (.node index) = nodeEntries node := by
  rw [Conf.entries, listed]
  rfl

theorem entries_subscription {config : Conf} {index position : Nat} {node : ConfBridgeNode}
    {sub : Subscribe} (listed : config.bridge.nodes[index]? = some node)
    (inNode : node.subList[position]? = some sub)
    : config.entries (.subscription index position) = subEntries sub := by
  rw [Conf.entries, listed, Option.bind_some, inNode]
  rfl

theorem node_of_entry {config : Conf} {index : Nat} {entry : String × Item}
    (emitted : entry ∈ config.entries (.node index))
    : ∃ node, config.bridge.nodes[index]? = some node ∧ entry ∈ nodeEntries node := by
  rw [Conf.entries] at emitted
  cases listed : config.bridge.nodes[index]? with
  | none =>
      rw [listed] at emitted
      cases emitted
  | some node =>
      rw [listed] at emitted
      exact ⟨node, rfl, emitted⟩

theorem sub_of_entry {config : Conf} {index position : Nat} {entry : String × Item}
    (emitted : entry ∈ config.entries (.subscription index position))
    : ∃ node sub,
        config.bridge.nodes[index]? = some node
        ∧ node.subList[position]? = some sub
        ∧ entry ∈ subEntries sub := by
  rw [Conf.entries] at emitted
  cases found : config.bridge.nodes[index]?.bind fun node => node.subList[position]? with
  | none =>
      rw [found] at emitted
      cases emitted
  | some sub =>
      rw [found] at emitted
      obtain ⟨node, listed, inNode⟩ := Option.bind_eq_some_iff.mp found
      exact ⟨node, sub, listed, inNode, emitted⟩

/-- A group has the entries of its table, or it belongs to no node and has none. -/
theorem entries_fit (config : Conf) (group : ConfGroup) {entry : String × Item}
    (emitted : entry ∈ config.entries group)
    : List.Forall₂ EntryFits (config.entries group) group.keys := by
  cases group with
  | node index =>
      obtain ⟨node, listed, _⟩ := node_of_entry emitted
      rw [entries_node listed]
      exact nodeEntries_fit node index
  | subscription index position =>
      obtain ⟨node, sub, listed, inNode, _⟩ := sub_of_entry emitted
      rw [entries_subscription listed inNode]
      exact subEntries_fit sub index position
  | _ =>
      simp only [Conf.entries, mainEntries, tlsHeadEntries, tlsTailEntries, websocketEntries,
        httpServerEntries, sqliteEntries, ConfGroup.keys, List.cons_append, List.nil_append,
        List.forall₂_cons, List.forall₂_nil_left_iff, addString_fits, addStringOrNull_fits,
        addBool_fits, int_fits, u16_fits, u64_fits, and_self]

/-- The line of an entry. By induction on the entries. -/
theorem line_of_entry {entries : List (String × Item)} {lines : List (String × Kind)}
    {entry : String × Item} (fit : List.Forall₂ EntryFits entries lines)
    (member : entry ∈ entries)
    : ∃ line ∈ lines, EntryFits entry line := by
  induction fit with
  | nil => cases member
  | @cons first line rest others fits _ ih =>
      rcases List.mem_cons.mp member with rfl | later
      · exact ⟨line, List.mem_cons_self, fits⟩
      · obtain ⟨found, listed, foundFits⟩ := ih later
        exact ⟨found, List.mem_cons_of_mem line listed, foundFits⟩

theorem key_of_entry {config : Conf} {group : ConfGroup} {key : String} {value : Value}
    (emitted : (key, .value value) ∈ config.entries group)
    : ∃ kind, (key, kind) ∈ group.keys ∧ kind.Fits value := by
  obtain ⟨⟨name, kind⟩, listed, rfl, fits⟩ :=
    line_of_entry (entries_fit config group emitted) emitted
  exact ⟨kind, listed, fits value rfl⟩

theorem keys_of_fit {entries : List (String × Item)} {lines : List (String × Kind)}
    (fit : List.Forall₂ EntryFits entries lines)
    : entries.map Prod.fst = lines.map Prod.fst := by
  induction fit with
  | nil => rfl
  | cons fits _ ih => rw [List.map_cons, List.map_cons, fits.1, ih]

theorem keys_nodup (group : ConfGroup) : (group.keys.map Prod.fst).Nodup := by
  cases group with
  | node index =>
      change ((ConfGroup.node 0).keys.map Prod.fst).Nodup
      decide
  | subscription index position =>
      change ((ConfGroup.subscription 0 0).keys.map Prod.fst).Nodup
      decide
  | _ => decide

theorem entry_unique {config : Conf} {group : ConfGroup} {key : String} {item other : Item}
    (emitted : (key, item) ∈ config.entries group)
    (alsoEmitted : (key, other) ∈ config.entries group)
    : item = other := by
  have distinct := keys_nodup group
  rw [← keys_of_fit (entries_fit config group emitted)] at distinct
  have same := List.inj_on_of_nodup_map distinct emitted alsoEmitted rfl
  exact congrArg Prod.snd same

-- Settings with one place

theorem lit_append (left right : String) : lit (left ++ right) = lit left ++ lit right := by
  unfold lit ascii
  rw [String.toList_append, List.map_append]

theorem append_dot_inj {front other last otherLast : Text}
    (same : front ++ 46 :: last = other ++ 46 :: otherLast) (noDot : 46 ∉ last)
    (noOtherDot : 46 ∉ otherLast)
    : front = other ∧ last = otherLast := by
  rcases List.append_eq_append_iff.mp same with ⟨between, rfl, tails⟩ | ⟨between, rfl, tails⟩
  · cases between with
    | nil => exact ⟨(List.append_nil front).symm, List.tail_eq_of_cons_eq tails⟩
    | cons byte rest =>
        rw [List.tail_eq_of_cons_eq tails] at noDot
        exact absurd (List.mem_append_right rest List.mem_cons_self) noDot
  · cases between with
    | nil => exact ⟨List.append_nil other, (List.tail_eq_of_cons_eq tails).symm⟩
    | cons byte rest =>
        rw [List.tail_eq_of_cons_eq tails] at noOtherDot
        exact absurd (List.mem_append_right rest List.mem_cons_self) noOtherDot

/-- The keys of the configuration file that take no name. -/
def fixedLines : List (ConfGroup × String) :=
  [ConfGroup.main, .tls, .websocket, .httpServer, .sqlite].flatMap fun group =>
    group.keys.map fun line => (group, line.1)

def fixedText (line : ConfGroup × String) : Text :=
  lit (line.1.ext ++ line.2)

theorem fixedTexts_nodup : (fixedLines.map fixedText).Nodup := by
  decide +kernel

theorem fixedTexts_notBridge : ∀ line ∈ fixedLines, ¬lit "bridge.mqtt." <+: fixedText line := by
  decide +kernel

/-- The last parts of the keys behind a name. -/
def namedKeys : List String :=
  (ConfGroup.node 0).keys.map Prod.fst ++ "forwards"
    :: (ConfGroup.subscription 0 0).keys.map Prod.fst

theorem namedKeys_noDot : ∀ key ∈ namedKeys, 46 ∉ lit key := by
  decide

theorem namedKeys_inj
    : ∀ key ∈ namedKeys, ∀ other ∈ namedKeys, lit key = lit other → key = other := by
  decide

theorem nodeKeys_named : ∀ line ∈ (ConfGroup.node 0).keys, line.1 ∈ namedKeys := by
  decide

theorem subKeys_named : ∀ line ∈ (ConfGroup.subscription 0 0).keys, line.1 ∈ namedKeys := by
  decide

theorem nodeKeys_ne_forwards : ∀ line ∈ (ConfGroup.node 0).keys, line.1 ≠ "forwards" := by
  decide

theorem subKeys_ne_forwards
    : ∀ line ∈ (ConfGroup.subscription 0 0).keys, line.1 ≠ "forwards" := by
  decide

theorem nodeKeys_ne_subKeys
    : ∀ line ∈ (ConfGroup.node 0).keys, ∀ other ∈ (ConfGroup.subscription 0 0).keys,
        line.1 ≠ other.1 := by
  decide

/-- The key of a setting in the configuration file. -/
inductive Keyed (config : Conf) : Setting → Text → Prop
  | fixed {line : ConfGroup × String} (listed : line ∈ fixedLines)
    : Keyed config (.item line.1 line.2) (fixedText line)
  | node {index : Nat} {line : String × Kind} {name : Text}
    (listed : line ∈ (ConfGroup.node index).keys) (named : config.nameOf index = some name)
    : Keyed config (.item (.node index) line.1) (nodeHead name ++ 46 :: lit line.1)
  | forwards {index : Nat} {name : Text} (named : config.nameOf index = some name)
    : Keyed config (.forwards index) (nodeHead name ++ 46 :: lit "forwards")
  | subscription {index sub : Nat} {line : String × Kind} {name : Text}
    (listed : line ∈ (ConfGroup.subscription index sub).keys)
    (named : config.nameOf index = some name)
    : Keyed config (.item (.subscription index sub) line.1) (subHead name sub ++ 46 :: lit line.1)

/-- Settings whose places are the same. -/
inductive SharesPlace (config : Conf) : Setting → Setting → Prop
  | same (setting : Setting) : SharesPlace config setting setting
  | node {index other : Nat} (key : String) (names : config.nameOf index = config.nameOf other)
    : SharesPlace config (.item (.node index) key) (.item (.node other) key)
  | forwards {index other : Nat} (names : config.nameOf index = config.nameOf other)
    : SharesPlace config (.forwards index) (.forwards other)
  | subscription {index other sub : Nat} (key : String)
    (names : config.nameOf index = config.nameOf other)
    : SharesPlace config (.item (.subscription index sub) key)
        (.item (.subscription other sub) key)
  | tlsText (which other : TlsText) : SharesPlace config (.tlsText which) (.tlsText other)

theorem nodeHead_inj {name other : Text} (same : nodeHead name = nodeHead other) : name = other :=
  List.append_cancel_left same

theorem digits_noDot (n : Nat) : 46 ∉ ascii (Nat.toDigits 10 n) := by
  intro dot
  obtain ⟨char, member, isDot⟩ := List.mem_map.mp dot
  obtain ⟨byte, large, _⟩ := toNat_digit member
  rw [isDot] at byte
  exact absurd (byte ▸ large) (by decide)

theorem digits_inj {n m : Nat} (same : ascii (Nat.toDigits 10 n) = ascii (Nat.toDigits 10 m))
    : n = m := by
  have back (k : Nat)
      : (ascii (Nat.toDigits 10 k)).map (fun byte => Char.ofNat byte.toNat)
        = Nat.toDigits 10 k := by
    unfold ascii
    rw [List.map_map, List.map_congr_left (g := id), List.map_id]
    intro char member
    have byte := (toNat_digit member).1
    simp [byte]
  have digits : Nat.toDigits 10 n = Nat.toDigits 10 m := by
    rw [← back n, ← back m, same]
  rw [← @Nat.ofDigitChars_toDigits 10 n (by decide) (by decide), digits,
    Nat.ofDigitChars_toDigits (by decide) (by decide)]

theorem subHead_inj {name other : Text} {sub position : Nat}
    (same : subHead name sub = subHead other position)
    : name = other ∧ sub = position := by
  have cut (name : Text) (sub : Nat)
      : subHead name sub
        = (nodeHead name ++ lit ".subscription") ++ 46 :: ascii (Nat.toDigits 10 (sub + 1)) := by
    have dotted : lit ".subscription." = lit ".subscription" ++ [46] := by decide
    rw [subHead, dotted]
    simp
  rw [cut, cut] at same
  obtain ⟨heads, digits⟩ := append_dot_inj same (digits_noDot _) (digits_noDot _)
  exact ⟨nodeHead_inj (List.append_cancel_right heads), Nat.succ_inj.mp (digits_inj digits)⟩

section Keyed

variable {config : Conf} {setting other : Setting} {text : Text}

theorem named_inj {front otherFront : Text} {key otherKey : String}
    (same : front ++ 46 :: lit key = otherFront ++ 46 :: lit otherKey)
    (named : key ∈ namedKeys) (otherNamed : otherKey ∈ namedKeys)
    : front = otherFront ∧ key = otherKey := by
  obtain ⟨fronts, keys⟩ :=
    append_dot_inj same (namedKeys_noDot key named) (namedKeys_noDot otherKey otherNamed)
  exact ⟨fronts, namedKeys_inj key named otherKey otherNamed keys⟩

theorem bridge_isPrefix_nodeHead (name tail : Text)
    : lit "bridge.mqtt." <+: nodeHead name ++ tail := by
  rw [nodeHead, List.append_assoc]
  exact List.prefix_append _ _

theorem subHead_eq (name tail : Text) (sub : Nat)
    : ∃ more, subHead name sub ++ tail = nodeHead name ++ more := by
  refine ⟨lit ".subscription." ++ ascii (Nat.toDigits 10 (sub + 1)) ++ tail, ?_⟩
  simp only [subHead, List.append_assoc]

theorem Keyed.notFixed {line : ConfGroup × String} (keyed : Keyed config setting text)
    (listed : line ∈ fixedLines) (same : text = fixedText line)
    : setting = .item line.1 line.2 := by
  have notBridge := fixedTexts_notBridge line listed
  rw [← same] at notBridge
  cases keyed with
  | fixed alsoListed =>
      have one := List.inj_on_of_nodup_map fixedTexts_nodup alsoListed listed same
      rw [one]
  | node _ _ => exact absurd (bridge_isPrefix_nodeHead _ _) notBridge
  | forwards _ => exact absurd (bridge_isPrefix_nodeHead _ _) notBridge
  | @subscription index sub line name _ _ =>
      obtain ⟨more, isNode⟩ := subHead_eq name (46 :: lit line.1) sub
      rw [isNode] at notBridge
      exact absurd (bridge_isPrefix_nodeHead _ _) notBridge

/-- Settings with one key are the same, or belong to nodes of one name. By cases on both; a
key behind a name says by its last part what it is.
-/
theorem Keyed.shares (keyed : Keyed config setting text) (alsoKeyed : Keyed config other text)
    : SharesPlace config setting other := by
  have forwardsNamed : "forwards" ∈ namedKeys := by decide
  generalize sameText : text = otherText at alsoKeyed
  cases alsoKeyed with
  | fixed listed =>
      rw [keyed.notFixed listed sameText]
      exact .same _
  | @node otherIndex otherLine otherName alsoListed alsoNamed =>
      have isNamed := nodeKeys_named otherLine alsoListed
      cases keyed with
      | fixed listed =>
          rw [(Keyed.node alsoListed alsoNamed).notFixed listed sameText.symm]
          exact .same _
      | @node index line name listed named =>
          obtain ⟨heads, keys⟩ := named_inj sameText (nodeKeys_named line listed) isNamed
          rw [keys]
          exact .node _ (by rw [named, alsoNamed, nodeHead_inj heads])
      | forwards named =>
          obtain ⟨_, keys⟩ := named_inj sameText forwardsNamed isNamed
          exact absurd keys.symm (nodeKeys_ne_forwards otherLine alsoListed)
      | @subscription index sub line name listed named =>
          obtain ⟨_, keys⟩ := named_inj sameText (subKeys_named line listed) isNamed
          exact absurd keys.symm (nodeKeys_ne_subKeys otherLine alsoListed line listed)
  | @forwards otherIndex otherName alsoNamed =>
      cases keyed with
      | fixed listed =>
          rw [(Keyed.forwards alsoNamed).notFixed listed sameText.symm]
          exact .same _
      | @node index line name listed named =>
          obtain ⟨_, keys⟩ := named_inj sameText (nodeKeys_named line listed) forwardsNamed
          exact absurd keys (nodeKeys_ne_forwards line listed)
      | forwards named =>
          obtain ⟨heads, _⟩ := named_inj sameText forwardsNamed forwardsNamed
          exact .forwards (by rw [named, alsoNamed, nodeHead_inj heads])
      | @subscription index sub line name listed named =>
          obtain ⟨_, keys⟩ := named_inj sameText (subKeys_named line listed) forwardsNamed
          exact absurd keys (subKeys_ne_forwards line listed)
  | @subscription otherIndex position otherLine otherName alsoListed alsoNamed =>
      have isNamed := subKeys_named otherLine alsoListed
      cases keyed with
      | fixed listed =>
          rw [(Keyed.subscription alsoListed alsoNamed).notFixed listed sameText.symm]
          exact .same _
      | @node index line name listed named =>
          obtain ⟨_, keys⟩ := named_inj sameText (nodeKeys_named line listed) isNamed
          exact absurd keys (nodeKeys_ne_subKeys line listed otherLine alsoListed)
      | forwards named =>
          obtain ⟨_, keys⟩ := named_inj sameText forwardsNamed isNamed
          exact absurd keys.symm (subKeys_ne_forwards otherLine alsoListed)
      | @subscription index sub line name listed named =>
          obtain ⟨heads, keys⟩ := named_inj sameText (subKeys_named line listed) isNamed
          obtain ⟨names, rfl⟩ := subHead_inj heads
          rw [keys]
          exact .subscription _ (by rw [named, alsoNamed, names])

/-- The key of an entry that the table of its group lists. -/
theorem keyed_item {group : ConfGroup} {line : String × Kind} {head : Text}
    (listed : line ∈ group.keys) (isHead : config.head group = some head)
    : Keyed config (.item group line.1) (head ++ lit (group.ext ++ line.1)) := by
  have dot (key : String) : lit ("." ++ key) = 46 :: lit key := lit_append "." key
  have fixed (isFixed : (group, line.1) ∈ fixedLines) (noHead : some [] = some head)
      : Keyed config (.item group line.1) (head ++ lit (group.ext ++ line.1)) := by
    obtain rfl := Option.some.inj noHead
    exact .fixed isFixed
  have inFixed (member : group ∈ [ConfGroup.main, .tls, .websocket, .httpServer, .sqlite])
      : (group, line.1) ∈ fixedLines :=
    List.mem_flatMap.mpr ⟨group, member, List.mem_map_of_mem listed⟩
  cases group with
  | node index =>
      obtain ⟨name, named, rfl⟩ := Option.map_eq_some_iff.mp isHead
      rw [ConfGroup.ext, dot]
      exact .node listed named
  | subscription index sub =>
      obtain ⟨name, named, rfl⟩ := Option.map_eq_some_iff.mp isHead
      rw [ConfGroup.ext, dot]
      exact .subscription listed named
  | _ => exact fixed (inFixed (by decide)) isHead

theorem keyed_forwards {index : Nat} {head : Text}
    (isHead : config.head (.node index) = some head)
    : Keyed config (.forwards index) (head ++ lit ".forwards") := by
  obtain ⟨name, named, rfl⟩ := Option.map_eq_some_iff.mp isHead
  exact .forwards named

theorem keyed_of_place {cwd : Option Text} {value : SettingValue}
    (emits : Emits config setting value)
    (isPlace : config.place cwd setting = some (.key text))
    : Keyed config setting text := by
  cases emits with
  | item emitted =>
      obtain ⟨kind, listed, _⟩ := key_of_entry emitted
      obtain ⟨head, isHead, same⟩ := Option.map_eq_some_iff.mp isPlace
      rw [← Place.key.inj same]
      exact keyed_item listed isHead
  | tlsText present =>
      obtain ⟨path, _, same⟩ := Option.map_eq_some_iff.mp isPlace
      cases same
  | forwards listed =>
      obtain ⟨head, isHead, same⟩ := Option.map_eq_some_iff.mp isPlace
      rw [← Place.key.inj same]
      exact keyed_forwards isHead

theorem tlsText_of_place {cwd : Option Text} {path : Text}
    (isPlace : config.place cwd setting = some (.file path))
    : ∃ which, setting = .tlsText which ∧ which.path config.tls cwd = some path := by
  cases setting with
  | tlsText which =>
      obtain ⟨found, isPath, same⟩ := Option.map_eq_some_iff.mp isPlace
      rw [Place.file.inj same] at isPath
      exact ⟨which, rfl, isPath⟩
  | item group key =>
      obtain ⟨_, _, same⟩ := Option.map_eq_some_iff.mp isPlace
      cases same
  | forwards index =>
      obtain ⟨_, _, same⟩ := Option.map_eq_some_iff.mp isPlace
      cases same

/-- Emitted settings at one place are the same, or belong to nodes of one name, or are TLS
texts.
-/
theorem shares_of_place {cwd : Option Text} {value otherValue : SettingValue} {place : Place}
    (emits : Emits config setting value) (isPlace : config.place cwd setting = some place)
    (otherEmits : Emits config other otherValue)
    (otherPlace : config.place cwd other = some place)
    : SharesPlace config setting other := by
  cases place with
  | key text =>
      exact (keyed_of_place emits isPlace).shares (keyed_of_place otherEmits otherPlace)
  | file path =>
      obtain ⟨which, rfl, _⟩ := tlsText_of_place isPlace
      obtain ⟨otherWhich, rfl, _⟩ := tlsText_of_place otherPlace
      exact .tlsText which otherWhich

end Keyed

end NanoMQ.Rest
