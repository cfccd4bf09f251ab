import NanoMQ.Library.Bytes

/-! Requests of the REST interface and the handler that `process_request` selects. -/

namespace NanoMQ.Rest

open Bytes

/-- An HTTP request as `rest_handle` passes it on: the strings are copied with `strdup`,
an absent header stays NULL, and the body keeps its length.
-/
structure HttpMsg where
  contentType : Option CString
  method : CString
  uri : CString
  token : Option CString
  data : List UInt8

/-- The result codes that `process_request` itself produces. -/
inductive ResultCode where
  | SUCCEED
  | UNKNOWN_MISTAKE
  | WRONG_USERNAME_OR_PASSWORD
  | EMPTY_USERNAME_OR_PASSWORD
  | REQ_PARAM_ERROR
  deriving DecidableEq, Repr

def ResultCode.value : ResultCode → Nat
  | .SUCCEED => 0
  | .UNKNOWN_MISTAKE => 102
  | .WRONG_USERNAME_OR_PASSWORD => 103
  | .EMPTY_USERNAME_OR_PASSWORD => 104
  | .REQ_PARAM_ERROR => 108

def NNG_HTTP_STATUS_UNAUTHORIZED : Nat := 401
def NNG_HTTP_STATUS_NOT_FOUND : Nat := 404
def NNG_HTTP_STATUS_METHOD_NOT_ALLOWED : Nat := 405

-- uri_parse

/-- One component of the path and whether it is the last one. -/
structure TreeNode where
  node : List UInt8
  isEnd : Bool
  deriving DecidableEq, Repr

def REST_URI_ROOT : List UInt8 := ascii ['/', 'a', 'p', 'i', '/', 'v', '4']

/-- `strstr`: the text from the first occurrence of the needle on. -/
def strstr (needle : List UInt8) : List UInt8 → Option (List UInt8)
  | [] => if needle.isPrefixOf [] then some [] else none
  | byte :: rest =>
      if needle.isPrefixOf (byte :: rest) then some (byte :: rest) else strstr needle rest

/-- The components in front of each slash, and the text behind the last slash. The
argument `current` holds the bytes since the previous slash, in reverse.
-/
def splitSlashes : List UInt8 → List UInt8 → List (List UInt8) × List UInt8
  | current, [] => ([], current.reverse)
  | current, byte :: rest =>
      if byte = 47 then
        let (components, last) := splitSlashes [] rest
        (current.reverse :: components, last)
      else splitSlashes (byte :: current) rest

/-- Mark the last node of a path. -/
def markEnd : List (List UInt8) → List TreeNode
  | [] => []
  | [last] => [{ node := last, isEnd := true }]
  | component :: rest => { node := component, isEnd := false } :: markEnd rest

/-- The path below the root, split at slashes. Without a slash there is no node; an empty
text behind the last slash is dropped.
-/
def uriParseTree (path : List UInt8) : List TreeNode :=
  match strstr REST_URI_ROOT path with
  | none => []
  | some found =>
      let (components, last) := splitSlashes [] (found.drop REST_URI_ROOT.length)
      if components = [] then []
      else if last = [] then markEnd components
      else markEnd (components ++ [last])

/-- The path components of a URI; everything from the first `?` on is a query. -/
def uriParse (uri : CString) : List TreeNode :=
  if uri.bytes = REST_URI_ROOT ∨ uri.bytes = REST_URI_ROOT ++ [47] then []
  else uriParseTree (uri.bytes.takeWhile (fun byte => byte != 63))

-- Dispatch on method and path

/-- The callback handed to `post_mqtt_msg` and `post_mqtt_msg_batch`. -/
inductive MqttMsgKind where
  | publish
  | subscribe
  | unsubscribe
  deriving DecidableEq, Repr

/-- The handlers of `rest_api.c` with the path components they are called with. -/
inductive RestCall where
  | getEndpoints
  | getBrokers
  | getNodes
  | getClients (clientId username : Option (List UInt8))
  | getSubscriptions (clientId : Option (List UInt8))
  | getRules (id : Option (List UInt8))
  | getTree
  | getConfig
  | postCtrl (action : List UInt8)
  | postConfig
  | postRules
  | postMqttMsg (batch : Bool) (kind : MqttMsgKind)
  | putRules (id : List UInt8)
  | deleteRules (id : List UInt8)
  deriving DecidableEq, Repr

/-- `nng_strcasecmp(text, name) == 0` for an upper-case ASCII name. -/
def strcasecmpEq (text name : List UInt8) : Bool :=
  text.map (fun byte => if 97 ≤ byte.toNat ∧ byte.toNat ≤ 122 then byte - 32 else byte)
  == name

/-- The node at a position carries this text. -/
def nodeIs (tree : List TreeNode) (position : Nat) (text : List Char) : Bool :=
  match tree[position]? with
  | none => false
  | some node => node.node == ascii text

/-- The path has exactly this many nodes and its last one is marked. -/
def endsAt (tree : List TreeNode) (count : Nat) : Bool :=
  tree.length == count && (tree.getLast?.all TreeNode.isEnd)

/-- The text of a node, for a position that exists. -/
def nodeText (tree : List TreeNode) (position : Nat) : List UInt8 :=
  (tree[position]?.map TreeNode.node).getD []

def textClients : List Char := ['c', 'l', 'i', 'e', 'n', 't', 's']
def textSubscriptions : List Char :=
  ['s', 'u', 'b', 's', 'c', 'r', 'i', 'p', 't', 'i', 'o', 'n', 's']
def textRules : List Char := ['r', 'u', 'l', 'e', 's']
def textConfiguration : List Char :=
  ['c', 'o', 'n', 'f', 'i', 'g', 'u', 'r', 'a', 't', 'i', 'o', 'n']
def textPublish : List Char := ['p', 'u', 'b', 'l', 'i', 's', 'h']
def textSubscribe : List Char := ['s', 'u', 'b', 's', 'c', 'r', 'i', 'b', 'e']
def textUnsubscribe : List Char := ['u', 'n'] ++ textSubscribe
def textBatch : List Char := ['_', 'b', 'a', 't', 'c', 'h']

/-- The GET handler of a path. -/
def routeGet (tree : List TreeNode) : Option RestCall :=
  if tree.length = 0 then some .getEndpoints
  else if endsAt tree 2 && nodeIs tree 1 ['b', 'r', 'o', 'k', 'e', 'r', 's'] then
    some .getBrokers
  else if endsAt tree 2 && nodeIs tree 1 ['n', 'o', 'd', 'e', 's'] then some .getNodes
  else if endsAt tree 2 && nodeIs tree 1 textClients then some (.getClients none none)
  else if endsAt tree 3 && nodeIs tree 1 textClients then
    some (.getClients (some (nodeText tree 2)) none)
  else if
    endsAt tree 4 && nodeIs tree 1 textClients
    && nodeIs tree 2 ['u', 's', 'e', 'r', 'n', 'a', 'm', 'e']
  then some (.getClients none (some (nodeText tree 3)))
  else if endsAt tree 2 && nodeIs tree 1 textSubscriptions then
    some (.getSubscriptions none)
  else if endsAt tree 3 && nodeIs tree 1 textSubscriptions then
    some (.getSubscriptions (some (nodeText tree 2)))
  else if endsAt tree 2 && nodeIs tree 1 textRules then some (.getRules none)
  else if endsAt tree 3 && nodeIs tree 1 textRules then
    some (.getRules (some (nodeText tree 2)))
  else if
    endsAt tree 2
    && nodeIs tree 1 ['t', 'o', 'p', 'i', 'c', '-', 't', 'r', 'e', 'e']
  then some .getTree
  else if endsAt tree 2 && nodeIs tree 1 textConfiguration then some .getConfig
  else none

/-- The POST handler of a path below `mqtt`. -/
def routeMqtt (tree : List TreeNode) : Option RestCall :=
  if nodeIs tree 2 textPublish then some (.postMqttMsg false .publish)
  else if nodeIs tree 2 (textPublish ++ textBatch) then some (.postMqttMsg true .publish)
  else if nodeIs tree 2 textSubscribe then some (.postMqttMsg false .subscribe)
  else if nodeIs tree 2 (textSubscribe ++ textBatch) then
    some (.postMqttMsg true .subscribe)
  else if nodeIs tree 2 textUnsubscribe then some (.postMqttMsg false .unsubscribe)
  else if nodeIs tree 2 (textUnsubscribe ++ textBatch) then
    some (.postMqttMsg true .unsubscribe)
  else none

/-- The POST handler of a path. -/
def routePost (tree : List TreeNode) : Option RestCall :=
  if endsAt tree 3 && nodeIs tree 1 ['c', 't', 'r', 'l'] then
    some (.postCtrl (nodeText tree 2))
  else if endsAt tree 2 && nodeIs tree 1 textConfiguration then some .postConfig
  else if endsAt tree 2 && nodeIs tree 1 textRules then some .postRules
  else if endsAt tree 3 && nodeIs tree 1 ['m', 'q', 't', 't'] then routeMqtt tree
  else none

/-- The handler of a rule path, the only one of PUT and DELETE. -/
def routeRule (call : List UInt8 → RestCall) (tree : List TreeNode) : Option RestCall :=
  if endsAt tree 3 && nodeIs tree 1 textRules then some (call (nodeText tree 2)) else none

/-- The handler of a request, or the status of the error response. -/
def route (msg : HttpMsg) : Except Nat RestCall :=
  let tree := uriParse msg.uri
  let found (call : Option RestCall) : Except Nat RestCall :=
    match call with
    | none => .error NNG_HTTP_STATUS_NOT_FOUND
    | some call => .ok call
  if strcasecmpEq msg.method.bytes (ascii ['G', 'E', 'T']) then found (routeGet tree)
  else if strcasecmpEq msg.method.bytes (ascii ['P', 'O', 'S', 'T']) then
    found (routePost tree)
  else if strcasecmpEq msg.method.bytes (ascii ['P', 'U', 'T']) then
    found (routeRule .putRules tree)
  else if strcasecmpEq msg.method.bytes (ascii ['D', 'E', 'L', 'E', 'T', 'E']) then
    found (routeRule .deleteRules tree)
  else .error NNG_HTTP_STATUS_METHOD_NOT_ALLOWED

end NanoMQ.Rest
