import NanoMQ.Publish.Encode
import NanoMQ.Subscriptions.Decode
import NanoMQ.Subscriptions.Handlers

/-! Work contexts of the broker, what they share, and the calls an activation makes. -/

namespace NanoMQ

-- Shared state

/-- An entry of `db_ret`: the message object is shared with its publisher. -/
structure RetainMsg where
  qos : BitVec 2
  message : MsgId
  deriving DecidableEq, Repr

/-- What the contexts share: the subscription stores, the topic aliases of each pipe, the
retained messages, and the message objects with the next unused identity.
-/
structure World where
  stores : Stores
  aliases : Pid → Nat → Option Topic
  retained : Topic → Option RetainMsg
  msgs : MsgId → NngMsg
  nextMsg : MsgId

/-- Change the contents of a message object. -/
def World.setMsg (world : World) (id : MsgId) (change : NngMsg → NngMsg) : World :=
  { world with msgs := Function.update world.msgs id (change (world.msgs id)) }

/-- A new message object. -/
def World.allocMsg (world : World) (msg : NngMsg) : World :=
  {
    world with
    msgs := Function.update world.msgs world.nextMsg msg
    nextMsg := world.nextMsg + 1
  }

def World.dbhashInsertAtpair (world : World) (pid : Pid) (topicAlias : Nat) (topic : Topic)
    : World :=
  {
    world with
    aliases := Function.update world.aliases pid
      (Function.update (world.aliases pid) topicAlias (some topic))
  }

def World.dbhashFindAtpair (world : World) (pid : Pid) (topicAlias : Nat) : Option Topic :=
  world.aliases pid topicAlias

/-- Put an entry into `db_ret`; the previous one is returned to the caller. -/
def World.dbtreeInsertRetain (world : World) (topic : Topic) (entry : RetainMsg) : World :=
  { world with retained := Function.update world.retained topic (some entry) }

def World.dbtreeDeleteRetain (world : World) (topic : Topic) : World :=
  { world with retained := Function.update world.retained topic none }

-- Work contexts

inductive WorkState where
  | INIT
  | RECV
  | WAIT
  | SEND
  | HOOK
  | END
  | CLOSE
  deriving DecidableEq, Repr

/-- The role of a context. -/
inductive WorkProto where
  | MQTT_BROKER
  | MQTT_BRIDGE
  | AWS_BRIDGE
  | HTTP_SERVER
  deriving DecidableEq, Repr

structure BridgeNode where
  enable : Bool
  forwards : List Topic

/-- The configuration that `server_cb` reads; `awsBridge` and `ruleEngine` are set when
these are built in and switched on.
-/
structure Conf where
  bridgeMode : Bool
  bridgeNodes : List BridgeNode
  awsBridge : Bool
  webHook : Bool
  ruleEngine : Bool

/-- A work context. The packets of SUBSCRIBE and UNSUBSCRIBE live within one activation and
are not kept here; `msgInfos` is the recipient list, empty when it is NULL.
-/
structure Work where
  state : WorkState
  proto : WorkProto
  protoVer : Nat
  flag : CmdType
  msg : Option MsgId
  pid : Pid
  code : ReasonCode
  msgInfos : List Pid
  cparam : ConnParam
  pubPacket : Option PubPacket
  config : Conf

-- Calls

/-- A message for a bridge, as `bridge_publish_msg` is asked to build it. -/
structure BridgeMsg where
  topic : Option (List UInt8)
  payload : MqttPayload
  dup : Bool
  qos : BitVec 2
  retain : Bool
  properties : Option (List Property)
  deriving DecidableEq, Repr

/-- The calls that an activation makes on its way. A send carries the message as it is at
that moment; `handlePub` records a call of `handle_pub` with the message it is given, what
that is decoded to, the result and the topic it is routed to. `cparamRead` stands for the
code that looks at `work->cparam`.
-/
inductive Effect where
  | ctxRecv (extra : Bool)
  | ctxSend (extra : Bool) (id : MsgId) (msg : NngMsg)
  | aioFinish
  | fatal
  | msgClone (id : MsgId)
  | msgFree (id : MsgId)
  | connParamClone (cparam : ConnParam)
  | connParamFree (cparam : ConnParam)
  | cparamRead
  | freePubPacket
  | handlePub (proto : Nat) (msg : NngMsg) (packet : PubPacket) (code : ReasonCode)
    (topic : Option Topic)
  | willProperties (properties : Option (List Property)) (propLen : Nat)
  | bridgeSend (node : Nat) (msg : BridgeMsg)
  | awsBridgeForward
  | webhook (flag : CmdType) (reason : UInt8)
  | ruleEngineInsertSql
  deriving DecidableEq, Repr

/-- What an activation does, in its order: calls, and accesses to the fields of the context and
to the contents of messages.
-/
inductive Step where
  | call (effect : Effect)
  | fields
  | contents (id : MsgId)
  deriving DecidableEq, Repr

/-- A context in the middle of an activation: its fields, the shared state, the calls so far,
and all steps so far.
-/
structure Cb where
  work : Work
  world : World
  trace : List Effect
  steps : List Step := []

namespace Cb

def emit (s : Cb) (effect : Effect) : Cb :=
  { s with trace := s.trace ++ [effect], steps := s.steps ++ [.call effect] }

/-- Look at fields or contents. -/
def read (s : Cb) (accesses : List Step) : Cb :=
  { s with steps := s.steps ++ accesses }

def setWork (s : Cb) (work : Work) : Cb :=
  { s with work, steps := s.steps ++ [.fields] }

def setWorld (s : Cb) (world : World) : Cb :=
  { s with world }

def setState (s : Cb) (state : WorkState) : Cb :=
  s.setWork { s.work with state }

/-- Change the contents of a message object. -/
def setMsg (s : Cb) (id : MsgId) (change : NngMsg → NngMsg) : Cb :=
  { s with world := s.world.setMsg id change, steps := s.steps ++ [.contents id] }

/-- A new message object. -/
def alloc (s : Cb) (msg : NngMsg) : Cb :=
  s.setWorld (s.world.allocMsg msg)

/-- Send a message object with its present contents. -/
def ctxSend (s : Cb) (extra : Bool) (id : MsgId) : Cb :=
  s.emit (.ctxSend extra id (s.world.msgs id))

/-- Receive on the context of the role: the broker's own or the extra one. -/
def ctxRecv (s : Cb) : Cb :=
  s.emit (.ctxRecv (decide (s.work.proto ≠ .MQTT_BROKER)))

/-- Free the message the context holds, if any, and forget it. -/
def dropMsg (s : Cb) : Cb :=
  match s.work.msg with
  | none => s
  | some id => (s.emit (.msgFree id)).setWork { s.work with msg := none }

end Cb

/-- The functions of nng and nanolib that `server_cb` calls, besides the parser. -/
structure Library where
  parser : MqttParser
  findClients : Stores → Topic → Option (List Pid)
  findRetain : (Topic → Option RetainMsg) → Topic → Option (List (Option MsgId))
  topicFilter : Topic → Option (List UInt8) → Bool
  mqttMsgDecode : Nat → NngMsg → NngMsg
  msgNotifyConnect : ConnParam → UInt8 → NngMsg
  pubmsgComposer
    : Bool → BitVec 2 → Option (List UInt8) → Option (List UInt8) → Nat → Nat → NngMsg
  dismsgComposer : ReasonCode → NngMsg
  propertyPubByWill : Option (List Property) → Option (List Property)
  getPropertiesLen : Option (List Property) → Nat
  emptyMsg : NngMsg

/-- What one activation meets: the result and message of its completion, memory it reads
without having set it, the shared-subscription choice, the state of the bridge and time.
-/
structure Env where
  aioResult : Nat
  aioMsg : Option NngMsg
  stray : Nat → UInt8
  freshNode : Nat → TopicNode
  freshUnsub : TopicPacket
  stale : List (Option MsgId)
  sharedClients : Topic → Option (List Pid)
  bridgeBusy : Nat → Bool
  clock : Nat
  freshCparam : Nat

def NNG_ECONNSHUT : Nat := 31

end NanoMQ
