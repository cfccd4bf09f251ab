import NanoMQ.Broker.HandlePub

/-! The callback `server_cb`: one activation of a work context.
Every state of the context is one function, and so is every kind of message that the state
RECV distinguishes. `fatal` ends the process, so nothing follows it.
-/

namespace NanoMQ

open Bytes Reading

-- Blocks that several states share

/-- Report an event to the web hook; the flag is cleared so that it is reported once. -/
def webhookEntry (reason : UInt8) (s : Cb) : Cb :=
  let s := s.emit .cparamRead
  if s.work.config.webHook then
    let s :=
      match s.work.flag with
      | .CONNACK | .PUBLISH | .DISCONNECT_EV => s.emit (.webhook s.work.flag reason)
      | _ => s
    s.setWork { s.work with flag := .other 0 }
  else s

/-- Send one message object to each recipient in turn. -/
def sendToEach (id : MsgId) : List Pid → Cb → Cb
  | [], s => s
  | pipe :: rest, s =>
      let s := s.emit (.msgClone id)
      let s := s.setWork { s.work with pid := pipe, msg := some id }
      let s := s.setMsg id (·.setPipe pipe)
      sendToEach id rest (s.ctxSend false id)

/-- Encode the packet into a message and send it to the recipients, if there are any. -/
def encodeAndSend (parser : MqttParser) (id : MsgId) (s : Cb) : Cb :=
  if s.work.msgInfos = [] then s.read [.fields]
  else
    let packet := s.work.pubPacket.getD .zeroed
    let encoded := encodePubMessage parser (s.world.msgs id) packet PUBLISH
    let s := (s.read [.fields, .contents id]).setMsg id (fun _ => encoded.msg)
    let s := s.setWork { s.work with pubPacket := some encoded.packet }
    if encoded.ok then sendToEach id s.work.msgInfos s else s

/-- Deliver the publication that the context holds. -/
def fanOut (parser : MqttParser) (s : Cb) : Cb :=
  match s.work.msg with
  | none => s
  | some id => encodeAndSend parser id s

/-- Free the packet and forget the recipients. -/
def Cb.clearPublication (s : Cb) : Cb :=
  (s.emit .freePubPacket).setWork { s.work with pubPacket := none, msgInfos := [] }

/-- The message for the bridges. -/
def bridgeMsg (work : Work) : BridgeMsg :=
  let packet := work.pubPacket.getD .zeroed
  {
    topic := packet.publish.topicName.body
    payload := packet.payload
    dup := packet.fixedHeader.dup
    qos := packet.fixedHeader.qos
    retain := packet.fixedHeader.retain
    properties :=
      if work.protoVer = MQTT_PROTOCOL_VERSION_v5 then packet.publish.properties else none
  }

/-- The forwards of one node: each filter that matches sends once, unless the bridge is
busy. The counter numbers the questions whether it is.
-/
def bridgeForwards (lib : Library) (env : Env) (msg : BridgeMsg) (node : Nat)
    : List Topic → Nat → Cb → Nat × Cb
  | [], asked, s => (asked, s)
  | filter :: rest, asked, s =>
      if lib.topicFilter filter msg.topic then
        let s := s.setState .SEND
        let s := if env.bridgeBusy asked then s else s.emit (.bridgeSend node msg)
        bridgeForwards lib env msg node rest (asked + 1) s
      else bridgeForwards lib env msg node rest asked s

/-- The enabled nodes in turn. -/
def bridgeNodes (lib : Library) (env : Env) (msg : BridgeMsg)
    : List BridgeNode → Nat → Nat → Cb → Cb
  | [], _, _, s => s
  | node :: rest, index, asked, s =>
      if node.enable then
        let out := bridgeForwards lib env msg index node.forwards asked s
        bridgeNodes lib env msg rest (index + 1) out.1 out.2
      else bridgeNodes lib env msg rest (index + 1) asked s

def bridgeHandler (lib : Library) (env : Env) (s : Cb) : Cb :=
  bridgeNodes lib env (bridgeMsg s.work) s.work.config.bridgeNodes 0 0 (s.read [.fields])

-- SUBSCRIBE and UNSUBSCRIBE

/-- The 32-bit value of a numeric property. -/
def PropertyValue.asU32 : PropertyValue → Nat
  | .u8 value | .u16 value | .u32 value | .varint value => value % 2 ^ 32
  | .str _ | .binary _ | .pair _ _ => 0

/-- A version 5 message has expired once its interval has passed; the interval in
milliseconds is computed in 32 bits.
-/
def checkMsgExp (clock : Nat) (msg : NngMsg) : Bool :=
  if msg.cmdType = .PUBLISH_V5 then
    match propertyGetValue msg.protoProperty MESSAGE_EXPIRY_INTERVAL with
    | none => true
    | some interval => decide (¬msg.timestamp + interval.asU32 * 1000 % 2 ^ 32 < clock)
  else true

/-- Send retained messages up to the first that has expired. -/
def sendRetained (clock : Nat) (pid : Pid) : List MsgId → Cb → Cb
  | [], s => s
  | id :: rest, s =>
      if checkMsgExp clock (s.world.msgs id) then
        let s := (s.read [.contents id]).emit (.msgClone id)
        let s := s.setMsg id (·.setPipe pid)
        sendRetained clock pid rest (s.ctxSend false id)
      else s.read [.contents id]

/-- A refused SUBSCRIBE closes the connection. -/
def refuseSubscribe (s : Cb) : Cb :=
  let s := s.emit (.connParamFree s.work.cparam)
  (s.setState .CLOSE).emit .aioFinish

/-- Acknowledge a SUBSCRIBE and deliver the retained messages. -/
def acknowledgeSubscribe (lib : Library) (env : Env) (id : MsgId) (packet : TopicPacket)
    (msgRet : List MsgId) (s : Cb)
    : Cb :=
  let pid := s.work.pid
  let s :=
    (s.read [.fields]).setMsg id fun msg =>
      encodeSubackMsg lib.parser msg packet s.work.protoVer
  let s := sendRetained env.clock pid msgRet s
  let s := s.setMsg id (fun msg => (msg.setCmdType .SUBACK).setPipe pid)
  let s := s.setWork { s.work with msg := none, state := .SEND }
  (s.ctxSend false id).emit .aioFinish

/-- A SUBSCRIBE: both decoding and handling can set the reason code of the context, and the
code decides.
-/
def recvSubscribe (lib : Library) (env : Env) (id : MsgId) (s : Cb) : Cb :=
  let decoded :=
    (decodeSubMsg lib.parser env.stray (s.world.msgs id) s.work.protoVer .zeroed).value
  let looked := s.read [.fields, .contents id]
  if decoded.1 ≠ SUCCESS then
    refuseSubscribe (looked.setWork { s.work with code := decoded.1 })
  else
    let handled :=
      subCtxHandle (lib.findRetain s.world.retained) env.stale s.work.pid decoded.2
        s.world.stores
    let s := looked.setWorld { s.world with stores := handled.2.stores }
    let s := if handled.1 ≠ 0 then s.setWork { s.work with code := handled.1 } else s
    if s.work.code ≠ SUCCESS then refuseSubscribe s
    else acknowledgeSubscribe lib env id decoded.2 handled.2.msgRet s

/-- An UNSUBSCRIBE is acknowledged whatever decoding and handling return. -/
def recvUnsubscribe (lib : Library) (env : Env) (id : MsgId) (s : Cb) : Cb :=
  let s := s.emit .cparamRead
  let protoVer := s.work.cparam.protover
  let decoded :=
    (decodeUnsubMsg lib.parser env.stray env.freshNode (s.world.msgs id) protoVer
      env.freshUnsub).value
  let handled :=
    if decoded.1 = 0 then unsubCtxHandle s.work.pid decoded.2.node s.world.stores
    else (decoded.2.node, s.world.stores)
  let packet := { decoded.2 with node := handled.1 }
  let s := (s.read [.fields, .contents id]).setWorld { s.world with stores := handled.2 }
  let s :=
    s.setMsg id (fun msg => (encodeUnsubackMsg lib.parser msg packet protoVer).setPipe 0)
  let s := s.setWork { s.work with pid := 0, msg := none, state := .SEND }
  (s.ctxSend false id).emit .aioFinish

-- PUBLISH, CONNACK and disconnect events

/-- Go on in the state WAIT. -/
def enterWait (s : Cb) : Cb :=
  (s.setState .WAIT).emit .aioFinish

/-- The broker closes the connection of a client whose PUBLISH is refused. -/
def refusePublish (s : Cb) : Cb :=
  let s := (s.setState .CLOSE).emit .freePubPacket
  let s := s.setWork { s.work with pubPacket := none }
  (s.emit (.connParamFree s.work.cparam)).emit .aioFinish

/-- The reply to a request over HTTP or inproc: an empty message on the extra context. -/
def replyExtra (lib : Library) (s : Cb) : Cb :=
  let reply := s.world.nextMsg
  let s := s.alloc lib.emptyMsg
  (s.setState (if s.work.code = SUCCESS then .WAIT else .SEND)).ctxSend true reply

/-- Go on after a PUBLISH with the result of `handle_pub`. -/
def settlePublish (lib : Library) (code : ReasonCode) (s : Cb) : Cb :=
  let s := (s.read [.fields]).setWork { s.work with code }
  match s.work.proto with
  | .HTTP_SERVER | .AWS_BRIDGE => replyExtra lib s
  | .MQTT_BRIDGE =>
      if s.work.code = SUCCESS then enterWait s else (s.setState .SEND).emit .aioFinish
  | .MQTT_BROKER => if s.work.code = SUCCESS then enterWait s else refusePublish s

/-- A PUBLISH, marked with the version of its connection. -/
def recvPublish (lib : Library) (env : Env) (id : MsgId) (s : Cb) : Cb :=
  let cmdType :=
    if s.work.protoVer = MQTT_PROTOCOL_VERSION_v5 then CmdType.PUBLISH_V5
    else CmdType.PUBLISH
  let s := (s.read [.fields]).setMsg id (·.setCmdType cmdType)
  let handled := handlePub lib env s.work.protoVer id s
  settlePublish lib handled.1 handled.2

/-- The broker passes a CONNACK on to the client. -/
def passConnack (id : MsgId) (s : Cb) : Cb :=
  if s.work.proto = .MQTT_BROKER then
    let s := (s.read [.fields]).setMsg id (·.setPipe s.work.pid)
    (s.emit (.msgClone id)).ctxSend false id
  else s.read [.fields]

/-- A CONNACK: in every role the connection is announced by a notification, which takes the
place of the message.
-/
def recvConnack (lib : Library) (env : Env) (id : MsgId) (s : Cb) : Cb :=
  let reason := { bytes := (s.world.msgs id).body, stray := env.stray : Buffer }.byteAt 1
  let s := (passConnack id (s.read [.contents id])).emit .cparamRead
  let notification := s.world.nextMsg
  let s := s.alloc ((lib.msgNotifyConnect s.work.cparam reason).setCmdType .PUBLISH)
  let s := webhookEntry reason s
  let s := s.emit (.msgFree id)
  let s := s.setWork { s.work with flag := .PUBLISH, msg := some notification }
  enterWait (handlePub lib env MQTT_PROTOCOL_VERSION_v311 notification s).2

/-- The connection has a will to publish. -/
def ConnParam.hasWill (cparam : ConnParam) : Bool :=
  cparam.willFlag && cparam.willTopic.isSome && cparam.willMsg.isSome

/-- Drop the subscriptions of a client that has gone; a will is left to the state END. -/
def settleDisconnect (s : Cb) : Cb :=
  let s :=
    (s.read [.fields]).setWorld
      { s.world with stores := disconnectClient s.work.pid s.world.stores }
  let s := s.emit .cparamRead
  if s.work.cparam.hasWill then
    (s.setState .END).emit .aioFinish
  else
    enterWait (s.emit (.connParamFree s.work.cparam))

/-- A disconnect event is published as a notification. -/
def recvDisconnect (lib : Library) (env : Env) (id : MsgId) (s : Cb) : Cb :=
  let s := webhookEntry 0 s
  let s := s.setMsg id (·.setCmdType .PUBLISH)
  let s := s.setWork { s.work with flag := .PUBLISH }
  settleDisconnect (handlePub lib env MQTT_PROTOCOL_VERSION_v311 id s).2

-- RECV

/-- Unpack a message of the inproc socket: header, body, client id and protocol version
behind one another. Allocation succeeds.
-/
def decodeCommonMqttMsg (lib : Library) (freshCparam : Nat) (stray : Nat → UInt8)
    (src : NngMsg)
    : Reader NngMsg := do
  let buffer : Buffer := { bytes := src.body, stray }
  let headerLen ← buffer.get32 0
  let header ← buffer.span 4 headerLen
  let bodyLen ← buffer.get32 (4 + headerLen)
  let body ← buffer.span (8 + headerLen) bodyLen
  let clientidSz ← buffer.get32 (8 + headerLen + bodyLen)
  let _clientid ← buffer.span (12 + headerLen + bodyLen) clientidSz
  let protoVer ← buffer.get8 (12 + headerLen + bodyLen + clientidSz)
  let cparam : ConnParam :=
    {
      id := freshCparam
      protover := protoVer.toNat
      willFlag := false
      willTopic := none
      willMsg := none
      willQos := 0
      willRetain := false
      willProperty := none
    }
  let decoded := lib.mqttMsgDecode protoVer.toNat { lib.emptyMsg with header, body }
  pure { decoded with connParam := cparam }

/-- Take a message over into the context; its version is asked of the new `cparam`. -/
def Cb.adopt (s : Cb) (id : MsgId) : Cb :=
  let msg := s.world.msgs id
  ((s.read [.contents id]).emit .cparamRead).setWork
    {
      s.work with
      msg := some id
      pid := msg.pipe
      cparam := msg.connParam
      protoVer := msg.connParam.protover
      flag := msg.cmdType
    }

/-- Take a message over and handle it by its command type. -/
def recvMsg (lib : Library) (env : Env) (id : MsgId) (s : Cb) : Cb :=
  match (s.world.msgs id).cmdType with
  | .SUBSCRIBE => recvSubscribe lib env id (s.adopt id)
  | .UNSUBSCRIBE => recvUnsubscribe lib env id (s.adopt id)
  | .PUBLISH => recvPublish lib env id (s.adopt id)
  | .CONNACK => recvConnack lib env id (s.adopt id)
  | .DISCONNECT_EV => recvDisconnect lib env id (s.adopt id)
  | _ => enterWait (s.adopt id)

/-- A bridge takes only CONNACK and PUBLISH from upstream. -/
def recvBridge (lib : Library) (env : Env) (id : MsgId) (s : Cb) : Cb :=
  let type := (s.world.msgs id).type
  let s := s.read [.contents id]
  if type = CONNACK then
    recvMsg lib env id (s.setMsg id (·.setCmdType .CONNACK))
  else if type = PUBLISH then
    let s := s.setMsg id (·.setCmdType .PUBLISH)
    recvMsg lib env id (s.emit (.connParamClone (s.world.msgs id).connParam))
  else
    ((s.read [.fields]).emit (.msgFree id)).ctxRecv

/-- HTTP and AWS contexts unpack the message first and take only PUBLISH. -/
def recvInproc (lib : Library) (env : Env) (id : MsgId) (s : Cb) : Cb :=
  let decoded :=
    (decodeCommonMqttMsg lib env.freshCparam env.stray (s.world.msgs id)).value
  let s := (s.read [.contents id]).emit (.msgFree id)
  let unpacked := s.world.nextMsg
  let s := (s.alloc decoded).read [.contents unpacked]
  if decoded.type = PUBLISH then
    let s := s.setMsg unpacked (·.setCmdType .PUBLISH)
    recvMsg lib env unpacked s
  else
    ((s.emit (.connParamFree decoded.connParam)).read [.fields]).ctxRecv

/-- A context that has received a message. -/
def Cb.received (work : Work) (world : World) (msg : NngMsg) : Cb :=
  (Cb.read { work, world, trace := [] } [.fields]).alloc msg

/-- A failed receive is repeated, except that the contexts of a bridge go on after
`NNG_ECONNSHUT`.
-/
def recvState (lib : Library) (env : Env) (s : Cb) : Cb :=
  if env.aioResult ≠ 0
      ∧ (s.work.proto = .MQTT_BROKER ∨ env.aioResult ≠ NNG_ECONNSHUT) then
    (s.read [.fields]).ctxRecv
  else
    match env.aioMsg with
    | none => (s.read [.fields]).emit .fatal
    | some msg =>
        let id := s.world.nextMsg
        let s := (s.read [.fields]).alloc msg
        match s.work.proto with
        | .MQTT_BROKER => recvMsg lib env id s
        | .MQTT_BRIDGE => recvBridge lib env id s
        | .HTTP_SERVER | .AWS_BRIDGE => recvInproc lib env id s

-- The other states

/-- The type of the message the context holds. -/
def Cb.heldType (s : Cb) : BitVec 4 :=
  match s.work.msg with
  | none => 0
  | some id => (s.world.msgs id).type

/-- Look at the message that the context holds. -/
def Cb.look (s : Cb) : Cb :=
  s.read (.fields :: s.work.msg.toList.map .contents)

/-- Forward to the bridges that are configured. -/
def forwardToBridges (lib : Library) (env : Env) (s : Cb) : Cb :=
  if s.work.config.bridgeMode then
    let s := bridgeHandler lib env s
    if s.work.config.awsBridge then s.emit .awsBridgeForward else s
  else s.read [.fields]

/-- Forget the publication of the context and receive the next message. -/
def finishPublication (s : Cb) : Cb :=
  let s := s.dropMsg
  let s := (s.emit (.connParamFree s.work.cparam)).clearPublication
  (s.setState .RECV).ctxRecv

/-- Deliver the publication. Web hook and rule engine see it in the state SEND. -/
def waitState (lib : Library) (env : Env) (s : Cb) : Cb :=
  if s.heldType = PUBLISH then
    if env.aioResult ≠ 0 then s.look.emit .fatal
    else
      let s := forwardToBridges lib env (fanOut lib.parser s.look)
      if s.work.config.webHook || s.work.config.ruleEngine then
        (s.setState .SEND).emit .aioFinish
      else finishPublication s
  else
    (s.look.dropMsg.setState .RECV).emit (.ctxRecv false)

def sendState (env : Env) (s : Cb) : Cb :=
  let s :=
    if s.work.flag = .PUBLISH ∧ s.work.config.ruleEngine then
      (s.read [.fields]).emit .ruleEngineInsertSql
    else s.read [.fields]
  let s := (webhookEntry 0 s).dropMsg
  if env.aioResult ≠ 0 then s.emit .fatal
  else
    let s := if s.work.pubPacket.isSome then s.clearPublication else s
    let s := s.emit (.connParamFree s.work.cparam)
    let s :=
      s.setWork { s.work with msgInfos := [], state := .RECV, flag := .other 0 }
    s.ctxRecv

/-- Give the packet of the context the properties of a will. -/
def Cb.attachWill (s : Cb) (properties : Option (List Property)) (propLen : Nat) : Cb :=
  let packet := (s.work.pubPacket.getD .zeroed).setProperties properties propLen
  (s.emit (.willProperties properties propLen)).setWork
    { s.work with pubPacket := some packet }

/-- Publish the will. Its properties reach the packet after `handle_pub`. -/
def publishWill (lib : Library) (env : Env) (s : Cb) : Cb :=
  let cparam := s.work.cparam
  let s := s.emit .cparamRead
  let will := s.world.nextMsg
  let composed :=
    lib.pubmsgComposer cparam.willRetain cparam.willQos cparam.willMsg cparam.willTopic
      cparam.protover env.clock
  let s := s.alloc composed
  let s := s.setWork { s.work with msg := some will, flag := .PUBLISH }
  if cparam.protover = MQTT_PROTOCOL_VERSION_v5 then
    let s := s.setMsg will (·.setCmdType .PUBLISH_V5)
    let s := (handlePub lib env MQTT_PROTOCOL_VERSION_v5 will s).2
    let properties := lib.propertyPubByWill cparam.willProperty
    enterWait (s.attachWill properties (lib.getPropertiesLen properties))
  else
    let s := s.setMsg will (·.setCmdType .PUBLISH)
    enterWait (handlePub lib env MQTT_PROTOCOL_VERSION_v311 will s).2

/-- Deliver the disconnect notification and go on with the will. The connection parameters
are freed after the context has been armed.
-/
def endState (lib : Library) (env : Env) (s : Cb) : Cb :=
  if s.heldType = PUBLISH then
    if env.aioResult ≠ 0 then s.look.emit .fatal
    else
      let s := webhookEntry 0 (fanOut lib.parser s.look)
      let s := s.dropMsg.clearPublication.emit .cparamRead
      let s :=
        if s.work.cparam.willFlag then publishWill lib env s
        else (s.setState .RECV).ctxRecv
      s.emit (.connParamFree s.work.cparam)
  else
    s.look.emit (.connParamFree s.work.cparam)

/-- Send a DISCONNECT with the reason code. -/
def closeState (lib : Library) (s : Cb) : Cb :=
  let disconnect := s.world.nextMsg
  let s := (s.read [.fields]).alloc ((lib.dismsgComposer s.work.code).setPipe s.work.pid)
  let s := s.dropMsg
  let s := (s.setWork { s.work with msg := some disconnect }).read [.contents disconnect]
  let s := s.ctxSend false disconnect
  let s := s.setWork { s.work with code := SUCCESS, state := .RECV }
  s.emit (.ctxRecv false)

/-- One activation of a context. -/
def serverCb (lib : Library) (env : Env) (work : Work) (world : World) : Cb :=
  let s : Cb := { work, world, trace := [] }
  match work.state with
  | .INIT => (s.setState .RECV).ctxRecv
  | .RECV => recvState lib env s
  | .WAIT => waitState lib env s
  | .SEND => sendState env s
  | .END => endState lib env s
  | .CLOSE => closeState lib s
  | .HOOK => s.emit .fatal

section States

variable {lib : Library} {env : Env} {work : Work} {world : World}

theorem serverCb_of_recv (state : work.state = .RECV)
    : serverCb lib env work world = recvState lib env { work, world, trace := [] } := by
  unfold serverCb
  rw [state]

theorem serverCb_of_wait (state : work.state = .WAIT)
    : serverCb lib env work world = waitState lib env { work, world, trace := [] } := by
  unfold serverCb
  rw [state]

theorem serverCb_of_send (state : work.state = .SEND)
    : serverCb lib env work world = sendState env { work, world, trace := [] } := by
  unfold serverCb
  rw [state]

theorem serverCb_of_end (state : work.state = .END)
    : serverCb lib env work world = endState lib env { work, world, trace := [] } := by
  unfold serverCb
  rw [state]

end States

end NanoMQ
