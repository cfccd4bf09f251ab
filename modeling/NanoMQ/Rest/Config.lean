import NanoMQ.Rest.Authorize

/-! The configuration over the REST interface: the object that `get_config` emits, and the
writes to the configuration file that `post_config` makes of such an object.
-/

namespace NanoMQ.Rest

open Bytes

/-- A C string, without its terminator. -/
abbrev Text := List UInt8

/-- A text of the source. -/
def lit (text : String) : Text :=
  ascii text.toList

-- cJSON

/-- A cJSON value; the numbers here are the integers that a double can be. -/
inductive Json where
  | null
  | bool (value : Bool)
  | number (value : Int)
  | string (text : Text)
  | array (items : List Json)
  | object (entries : List (String × Json))

/-- Keys are compared without regard to case. -/
def sameKey (left right : String) : Bool :=
  left.toList.map Char.toLower == right.toList.map Char.toLower

/-- `cJSON_GetObjectItem`: the first entry with this key; NULL for anything but an object. -/
def getObjectItem (json : Option Json) (key : String) : Option Json :=
  match json with
  | some (.object entries) => (entries.find? fun entry => sameKey entry.1 key).map Prod.snd
  | _ => none

/-- The children that `cJSON_GetArraySize` and `cJSON_GetArrayItem` see. -/
def arrayItems : Option Json → List Json
  | some (.array items) => items
  | some (.object entries) => entries.map Prod.snd
  | _ => []

def isObject : Option Json → Bool
  | some (.object _) => true
  | _ => false

/-- The double nearest to a natural number, with ties to even. -/
def roundDouble (n : Nat) : Nat :=
  if n < 2 ^ 53 then n
  else
    let unit := 2 ^ (n.log2 - 52)
    let kept := n / unit
    let lost := n % unit
    (if 2 * lost < unit ∨ (2 * lost = unit ∧ kept % 2 = 0) then kept else kept + 1) * unit

/-- The conversion of an integer to double. -/
def toDouble (n : Int) : Int :=
  n.sign * roundDouble n.natAbs

-- The configuration

structure ConfTls where
  enable : Bool
  url : Option Text
  keyPassword : Option Text
  key : Option Text
  cert : Option Text
  ca : Option Text
  keyfile : Option Text
  certfile : Option Text
  cafile : Option Text
  verifyPeer : Bool
  setFail : Bool

structure ConfWebsocket where
  enable : Bool
  url : Option Text
  tlsUrl : Option Text

structure ConfHttpServer where
  enable : Bool
  port : UInt16
  username : Option Text
  password : Option Text
  authType : AuthType

structure ConfSqlite where
  enable : Bool
  diskCacheSize : UInt64
  flushMemThreshold : UInt64
  resendInterval : UInt64
  mountedFilePath : Option Text

structure Subscribe where
  topic : Option Text
  qos : UInt8

structure ConfBridgeNode where
  name : Option Text
  enable : Bool
  address : Option Text
  protoVer : UInt8
  clientid : Option Text
  cleanStart : Bool
  username : Option Text
  password : Option Text
  keepalive : UInt16
  parallel : UInt64
  forwards : List Text
  subList : List Subscribe

structure ConfBridge where
  nodes : List ConfBridgeNode
  sqlite : ConfSqlite

/-- The settings that the REST interface shows. -/
structure Conf where
  url : Option Text
  numTaskqThread : Int32
  maxTaskqThread : Int32
  parallel : UInt64
  propertySize : Int32
  msqLen : Int32
  allowAnonymous : Bool
  daemon : Bool
  tls : ConfTls
  websocket : ConfWebsocket
  httpServer : ConfHttpServer
  bridge : ConfBridge

-- get_config

/-- The value of one setting. -/
inductive Value where
  | text (text : Text)
  | bool (value : Bool)
  | number (value : Int)
  deriving DecidableEq, Repr

/-- What is added to an object for a key: nothing, as cJSON has no string for NULL; the value
null; or a value.
-/
inductive Item where
  | missing
  | null
  | value (value : Value)
  deriving DecidableEq, Repr

def Value.toJson : Value → Json
  | .text content => .string content
  | .bool flag => .bool flag
  | .number n => .number (toDouble n)

def Item.toJson : Item → Option Json
  | .missing => none
  | .null => some .null
  | .value given => some given.toJson

/-- `cJSON_AddStringToObject` -/
def addString (text : Option Text) : Item :=
  text.elim .missing fun text => .value (.text text)

/-- A string, or null for NULL. -/
def addStringOrNull (text : Option Text) : Item :=
  text.elim .null fun text => .value (.text text)

/-- `cJSON_AddBoolToObject` -/
def addBool (value : Bool) : Item :=
  .value (.bool value)

/-- `cJSON_AddNumberToObject` -/
def addNumber (n : Int) : Item :=
  .value (.number n)

def jsonEntries (entries : List (String × Item)) : List (String × Json) :=
  entries.filterMap fun entry => entry.2.toJson.map fun json => (entry.1, json)

def mainEntries (config : Conf) : List (String × Item) :=
  [
    ("url", addString config.url),
    ("num_taskq_thread", addNumber config.numTaskqThread.toInt),
    ("max_taskq_thread", addNumber config.maxTaskqThread.toInt),
    ("parallel", addNumber config.parallel.toNat),
    ("property_size", addNumber config.propertySize.toInt),
    ("msq_len", addNumber config.msqLen.toInt),
    ("allow_anonymous", addBool config.allowAnonymous),
    ("daemon", addBool config.daemon)
  ]

/-- The entries of the TLS object in front of the three texts. -/
def tlsHeadEntries (tls : ConfTls) : List (String × Item) :=
  [
    ("enable", addBool tls.enable),
    ("url", addString tls.url),
    ("key_password", addStringOrNull tls.keyPassword)
  ]

def tlsTextEntries (tls : ConfTls) : List (String × Item) :=
  [
    ("key", addStringOrNull tls.key),
    ("cert", addStringOrNull tls.cert),
    ("cacert", addStringOrNull tls.ca)
  ]

/-- The entries of the TLS object behind the three texts. -/
def tlsTailEntries (tls : ConfTls) : List (String × Item) :=
  [
    ("verify_peer", addBool tls.verifyPeer),
    ("fail_if_no_peer_cert", addBool tls.setFail)
  ]

def websocketEntries (websocket : ConfWebsocket) : List (String × Item) :=
  [
    ("enable", addBool websocket.enable),
    ("url", addString websocket.url),
    ("tls_url", addString websocket.tlsUrl)
  ]

def httpServerEntries (server : ConfHttpServer) : List (String × Item) :=
  [
    ("enable", addBool server.enable),
    ("port", addNumber server.port.toNat),
    ("username", addString server.username),
    ("password", addString server.password),
    ("auth_type",
      addString (some (if server.authType = .JWT then lit "jwt" else lit "basic")))
  ]

def sqliteEntries (sqlite : ConfSqlite) : List (String × Item) :=
  [
    ("enable", addBool sqlite.enable),
    ("disk_cache_size", addNumber sqlite.diskCacheSize.toNat),
    ("flush_mem_threshold", addNumber sqlite.flushMemThreshold.toNat),
    ("resend_interval", addNumber sqlite.resendInterval.toNat),
    ("mounted_file_path", addString sqlite.mountedFilePath)
  ]

/-- The entries of a node between its name and its arrays. -/
def nodeEntries (node : ConfBridgeNode) : List (String × Item) :=
  [
    ("bridge_mode", addBool node.enable),
    ("address", addString node.address),
    ("proto_ver", addNumber node.protoVer.toNat),
    ("clientid", addString node.clientid),
    ("clean_start", addBool node.cleanStart),
    ("username", addString node.username),
    ("password", addString node.password),
    ("keepalive", addNumber node.keepalive.toNat),
    ("parallel", addNumber node.parallel.toNat)
  ]

def subEntries (sub : Subscribe) : List (String × Item) :=
  [("topic", addString sub.topic), ("qos", addNumber sub.qos.toNat)]

def subObject (sub : Subscribe) : Json :=
  .object (jsonEntries (subEntries sub))

def nodeObject (node : ConfBridgeNode) : Json :=
  .object
    (jsonEntries [("name", addString node.name)] ++ jsonEntries (nodeEntries node)
      ++ [
        ("forwards", .array (node.forwards.map Json.string)),
        ("subscription", .array (node.subList.map subObject))
      ])

def tlsObject (tls : ConfTls) : Json :=
  .object
    (jsonEntries (tlsHeadEntries tls) ++ jsonEntries (tlsTextEntries tls)
      ++ jsonEntries (tlsTailEntries tls))

def sqliteObject (sqlite : ConfSqlite) : Json :=
  .object (jsonEntries (sqliteEntries sqlite))

def bridgeObject (bridge : ConfBridge) : Json :=
  .object
    [("nodes", .array (bridge.nodes.map nodeObject)), ("sqlite", sqliteObject bridge.sqlite)]

def confObject (config : Conf) : Json :=
  .object
    (jsonEntries (mainEntries config)
      ++ [
        ("tls", tlsObject config.tls),
        ("websocket", .object (jsonEntries (websocketEntries config.websocket))),
        ("http_server", .object (jsonEntries (httpServerEntries config.httpServer))),
        ("bridge", bridgeObject config.bridge)
      ])

/-- The body of the response. -/
def getConfig (config : Conf) : Json :=
  .object [("code", .number ResultCode.SUCCEED.value), ("data", confObject config)]

-- Reading an object back

/-- A write to the configuration file, or of a text to a file of its own. -/
inductive ConfWrite where
  | update (key : Text) (value : Value)
  | file (path : Text) (text : Text)
  deriving DecidableEq, Repr

/-- The type of the variable that a number is assigned to. -/
inductive NumberType where
  | int
  | u8
  | u16
  | u64
  deriving DecidableEq, Repr

def NumberType.lower : NumberType → Int
  | .int => -2 ^ 31
  | .u8 | .u16 | .u64 => 0

def NumberType.upper : NumberType → Int
  | .int => 2 ^ 31
  | .u8 => 2 ^ 8
  | .u16 => 2 ^ 16
  | .u64 => 2 ^ 64

/-- The macro that reads a field. -/
inductive Kind where
  | text
  | bool
  | number (type : NumberType)
  deriving DecidableEq, Repr

/-- A field that is read from an object and written to the configuration file: its key in the
object, the macro, and the end of its key in the file.
-/
structure Field where
  item : String
  kind : Kind
  ext : String
  deriving DecidableEq, Repr

/-- What the code finds outside of itself: the working directory, the result of a conversion
that is out of range, and the text at an allocation of no bytes.
-/
structure ConfEnv where
  cwd : Option Text
  wild : Int
  stray : Text

/-- The conversion of a double to an integer; out of range it is undefined. -/
def NumberType.convert (wild : Int) (type : NumberType) (double : Int) : Int :=
  if type.lower ≤ double ∧ double < type.upper then double else wild

/-- `getStringValue`, `getBoolValue` or `getNumberValue`, and the write if the item is there. -/
def Field.update (wild : Int) (head : Text) (json : Option Json) (field : Field)
    : List ConfWrite :=
  match field.kind, getObjectItem json field.item with
  | .text, some (.string text) => [.update (head ++ lit field.ext) (.text text)]
  | .bool, some (.bool value) => [.update (head ++ lit field.ext) (.bool value)]
  | .number type, some (.number double) =>
      [.update (head ++ lit field.ext) (.number (type.convert wild double))]
  | _, _ => []

/-- The fields of one object, in their order. -/
def updateFields (wild : Int) (head : Text) (json : Option Json) (fields : List Field)
    : List ConfWrite :=
  fields.flatMap (Field.update wild head json)

-- update_main_conf

def mainFields : List Field :=
  [
    ⟨"url", .text, "url"⟩,
    ⟨"daemon", .bool, "daemon"⟩,
    ⟨"num_taskq_thread", .number .int, "num_taskq_thread"⟩,
    ⟨"max_taskq_thread", .number .int, "max_taskq_thread"⟩,
    ⟨"parallel", .number .u64, "parallel"⟩,
    ⟨"property_size", .number .int, "property_size"⟩,
    ⟨"msq_len", .number .int, "msq_len"⟩,
    ⟨"qos_duration", .number .int, "qos_duration"⟩,
    ⟨"allow_anonymous", .bool, "allow_anonymous"⟩
  ]

def tlsHeadFields : List Field :=
  [
    ⟨"enable", .bool, "tls.enable"⟩,
    ⟨"url", .text, "tls.url"⟩,
    ⟨"keypass", .text, "tls.keypass"⟩
  ]

def tlsTailFields : List Field :=
  [
    ⟨"verify_peer", .bool, "tls.verify_peer"⟩,
    ⟨"fail_if_no_peer_cert", .bool, "tls.fail_if_no_peer_cert"⟩
  ]

def websocketFields : List Field :=
  [
    ⟨"enable", .bool, "websocket.enable"⟩,
    ⟨"url", .text, "websocket.url"⟩,
    ⟨"tls_url", .text, "websocket.tls_url"⟩
  ]

def httpServerFields : List Field :=
  [
    ⟨"enable", .bool, "http_server.enable"⟩,
    ⟨"port", .number .u16, "http_server.port"⟩,
    ⟨"username", .text, "http_server.username"⟩,
    ⟨"password", .text, "http_server.password"⟩
  ]

/-- The texts of the TLS object that go into files of their own. -/
inductive TlsText where
  | key
  | cert
  | cacert
  deriving DecidableEq, Repr

namespace TlsText

def item : TlsText → String
  | .key => "key"
  | .cert => "cert"
  | .cacert => "cacert"

/-- The file that is used if none is configured. -/
def fileName : TlsText → Text
  | .key => lit "/key.pem"
  | .cert => lit "/cert.pem"
  | .cacert => lit "/cacert.pem"

/-- The key of the file name in the configuration file. -/
def fileKey : TlsText → Text
  | .key => lit "tls.keyfile"
  | .cert => lit "tls.certfile"
  | .cacert => lit "tls.cacertfile"

end TlsText

/-- Write a TLS text into its file, and the configured file name afterwards. Without one the
file is put into the working directory; if that is not known, there is no file to write to.
-/
def updateTlsText (cwd : Option Text) (json : Option Json) (which : TlsText)
    (file : Option Text)
    : List ConfWrite × Option Text :=
  match getObjectItem json which.item with
  | some (.string text) =>
      match file, cwd with
      | some path, _ => ([.file path text], some path)
      | none, some dir =>
          let path := dir ++ which.fileName
          ([.update which.fileKey (.text path), .file path text], some path)
      | none, none => ([], none)
  | _ => ([], file)

def updateTls (env : ConfEnv) (json : Option Json) (tls : ConfTls)
    : List ConfWrite × ConfTls :=
  let (key, keyfile) := updateTlsText env.cwd json .key tls.keyfile
  let (cert, certfile) := updateTlsText env.cwd json .cert tls.certfile
  let (cacert, cafile) := updateTlsText env.cwd json .cacert tls.cafile
  (updateFields env.wild [] json tlsHeadFields ++ (key ++ cert ++ cacert)
      ++ updateFields env.wild [] json tlsTailFields,
    { tls with keyfile, certfile, cafile })

/-- Only two values of the authentication type are written. -/
def updateAuthType (json : Option Json) : List ConfWrite :=
  match getObjectItem json "auth_type" with
  | some (.string authType) =>
      if authType = lit "basic" ∨ authType = lit "jwt" then
        [.update (lit "http_server.auth_type") (.text authType)]
      else []
  | _ => []

def updateMainConf (env : ConfEnv) (json : Option Json) (config : Conf)
    : List ConfWrite × Conf :=
  let tls := getObjectItem json "tls"
  let websocket := getObjectItem json "websocket"
  let httpServer := getObjectItem json "http_server"
  let (tlsWrites, tlsConf) :=
    if isObject tls then updateTls env tls config.tls else ([], config.tls)
  (updateFields env.wild [] json mainFields ++ tlsWrites
      ++ (if isObject websocket then updateFields env.wild [] websocket websocketFields else [])
      ++ (if isObject httpServer then
          updateFields env.wild [] httpServer httpServerFields ++ updateAuthType httpServer
        else []),
    { config with tls := tlsConf })

-- update_bridge_conf

/-- The writes for every element, or none if one of them leaves the objects of the code. -/
def collect {α : Type} (step : α → Option (List ConfWrite)) : List α → Option (List ConfWrite)
  | [] => some []
  | element :: rest => do
      let writes ← step element
      let others ← collect step rest
      some (writes ++ others)

def sqliteFields : List Field :=
  [
    ⟨"enable", .bool, "bridge.sqlite.enable"⟩,
    ⟨"disk_cache_size", .number .u64, "bridge.sqlite.disk_cache_size"⟩,
    ⟨"mounted_file_path", .text, "bridge.sqlite.mounted_file_path"⟩,
    ⟨"flush_mem_threshold", .number .u64, "bridge.sqlite.flush_mem_threshold"⟩,
    ⟨"resend_interval", .number .u64, "bridge.sqlite.resend_interval"⟩
  ]

/-- The fields of a node, which `conf_update2` writes behind `bridge.mqtt.` and the name. -/
def nodeFields : List Field :=
  [
    ⟨"bridge_mode", .bool, ".bridge_mode"⟩,
    ⟨"address", .text, ".address"⟩,
    ⟨"proto_ver", .number .u8, ".proto_ver"⟩,
    ⟨"clientid", .text, ".clientid"⟩,
    ⟨"keepalive", .number .u16, ".keepalive"⟩,
    ⟨"clean_start", .bool, ".clean_start"⟩,
    ⟨"username", .text, ".username"⟩,
    ⟨"password", .text, ".password"⟩,
    ⟨"parallel", .number .u64, ".parallel"⟩
  ]

def nodeHead (name : Text) : Text :=
  lit "bridge.mqtt." ++ name

/-- The start of the key of a subscription, which is counted from one. -/
def subHead (name : Text) (index : Nat) : Text :=
  nodeHead name ++ lit ".subscription." ++ ascii (Nat.toDigits 10 (index + 1))

def subTopicField : Field :=
  ⟨"topic", .text, ".topic"⟩

def subQosField : Field :=
  ⟨"qos", .number .u8, ".qos"⟩

/-- A field of a subscription; its key is composed in a buffer of 100 bytes. -/
def updateSubField (wild : Int) (head : Text) (json : Json) (field : Field)
    : Option (List ConfWrite) :=
  match field.update wild head (some json) with
  | [] => some []
  | writes => if (head ++ lit field.ext).length < 100 then some writes else none

def updateSubscription (wild : Int) (name : Text) (element : Json × Nat)
    : Option (List ConfWrite) := do
  let head := subHead name element.2
  let topic ← updateSubField wild head element.1 subTopicField
  let qos ← updateSubField wild head element.1 subQosField
  some (topic ++ qos)

def Json.stringValue : Json → Option Text
  | .string text => some text
  | _ => none

theorem mapM_stringValue (topics : List Text)
    : (topics.map Json.string).mapM Json.stringValue = some topics := by
  rw [List.mapM_map]
  exact (List.mapM_pure).trans (congrArg some (List.map_id topics))

/-- The topics in one text with commas between them. For no topics the text has no bytes, not
even for its terminator. An element that is no string makes the code read at NULL.
-/
def updateForwards (stray name : Text) (json : Option Json) : Option (List ConfWrite) :=
  match json with
  | some (.array items) => do
      let topics ← items.mapM Json.stringValue
      let text := if topics = [] then stray else [44].intercalate topics
      some [.update (nodeHead name ++ lit ".forwards") (.text text)]
  | _ => some []

def updateSubscriptions (wild : Int) (name : Text) (json : Option Json)
    : Option (List ConfWrite) :=
  match json with
  | some (.array items) => collect (updateSubscription wild name) items.zipIdx
  | _ => some []

/-- A node without a name is passed over. -/
def updateNode (env : ConfEnv) (json : Json) : Option (List ConfWrite) :=
  match getObjectItem (some json) "name" with
  | some (.string name) => do
      let forwards ← updateForwards env.stray name (getObjectItem (some json) "forwards")
      let subs ← updateSubscriptions env.wild name (getObjectItem (some json) "subscription")
      some (updateFields env.wild (nodeHead name) (some json) nodeFields ++ forwards ++ subs)
  | _ => some []

def updateBridgeConf (env : ConfEnv) (json : Option Json) : Option (List ConfWrite) := do
  let sqlite := getObjectItem json "sqlite"
  let nodes ← collect (updateNode env) (arrayItems (getObjectItem json "nodes"))
  some (updateFields env.wild [] sqlite sqliteFields ++ nodes)

/-- The writes that a request leads to, and the configuration in memory. The result is none if
the code leaves its objects on the way.
-/
def postConfig (env : ConfEnv) (request : Json) (config : Conf)
    : Option (List ConfWrite × Conf) :=
  let data := getObjectItem (some request) "data"
  if isObject data then
    let (main, after) := updateMainConf env data config
    let bridge := getObjectItem data "bridge"
    let more := if isObject bridge then updateBridgeConf env bridge else some []
    more.map fun writes => (main ++ writes, after)
  else some ([], config)

end NanoMQ.Rest
