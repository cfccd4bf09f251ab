import NanoMQ.Broker.Resolution
import NanoMQ.Nng.Reference

/-! A small instance of nng and nanolib for concrete runs of the broker. -/

namespace NanoMQ

open Bytes Contexts

/-- A PUBLISH with packet id zero and no properties. -/
def composePublish (retain : Bool) (qos : BitVec 2) (topic payload : List UInt8)
    (protover : Nat)
    : NngMsg :=
  let header : FixedHeader := { retain, qos, dup := false, packetType := PUBLISH, remainLen := 0 }
  let body :=
    putU16 topic.length ++ topic ++ packetIdBytes qos 0
    ++ (if protover = MQTT_PROTOCOL_VERSION_v5 then [0] else [])
    ++ payload
  .received .PUBLISH (header.toByte :: putVarint 4 body.length) body 0 (.plain protover)

theorem composePublish_type (retain : Bool) (qos : BitVec 2) (topic payload : List UInt8)
    (protover : Nat)
    : (composePublish retain qos topic payload protover).type = PUBLISH :=
  congrArg FixedHeader.packetType (FixedHeader.ofByte_toByte _ 0)

theorem referenceParser_rejectsNul : referenceParser.RejectsNul := by
  intro text valid zero
  have nonzero := List.all_eq_true.mp valid 0 zero
  cases nonzero

/-- A library whose subscription tree answers with these clients; notifications go to topic
`n`, and a topic filter matches only itself.
-/
def referenceLibrary (clients : Topic → Option (List Pid)) : Library :=
  {
    parser := referenceParser
    findClients := fun _ => clients
    findRetain := fun retained topic =>
      (retained topic).map (fun entry => [some entry.message])
    topicFilter := fun filter topic => topic == some filter
    mqttMsgDecode := fun _ msg => { msg with remainingLen := msg.body.length }
    msgNotifyConnect := fun _ reason =>
      composePublish false 0 [110] [reason] MQTT_PROTOCOL_VERSION_v311
    pubmsgComposer := fun retain qos payload topic protover _ =>
      composePublish retain qos (topic.getD []) (payload.getD []) protover
    dismsgComposer := fun code =>
      .received (.other 0xE0) [0xE0, 1] [reasonByte code] 0 (.plain 5)
    propertyPubByWill := fun properties => properties
    getPropertiesLen := fun properties =>
      ((referenceParser.encodeProperties properties .PUBLISH).getD []).length - 1
    emptyMsg := .received (.other 0) [] [] 0 (.plain 4)
  }

theorem referenceLibrary_notifies (clients : Topic → Option (List Pid))
    : (referenceLibrary clients).NotifiesPublish :=
  fun _ _ => composePublish_type _ _ _ _ _

theorem referenceLibrary_composes (clients : Topic → Option (List Pid))
    : (referenceLibrary clients).ComposesPublish :=
  {
    notifies := referenceLibrary_notifies clients
    wills := fun _ _ _ _ _ _ => composePublish_type _ _ _ _ _
  }

/-- A context of this role before its first activation. -/
def Work.idle (proto : WorkProto) : Work :=
  {
    state := .INIT
    proto
    protoVer := 0
    flag := .other 0
    msg := none
    pid := 0
    code := SUCCESS
    msgInfos := []
    cparam := .plain 4
    pubPacket := none
    config :=
      {
        bridgeMode := false
        bridgeNodes := []
        awsBridge := false
        webHook := false
        ruleEngine := false
      }
  }

/-- A context of this role that waits for its first message. -/
def Work.receiving (proto : WorkProto) : Work :=
  { Work.idle proto with state := .RECV }

/-- Nothing is stored and no message exists. -/
def World.empty : World :=
  {
    stores := .empty
    aliases := fun _ _ => none
    retained := fun _ => none
    msgs := fun _ => .received (.other 0) [] [] 0 (.plain 4)
    nextMsg := 0
  }

/-- A completion without error that brings this message. -/
def Env.brings (msg : Option NngMsg) : Env :=
  {
    aioResult := 0
    aioMsg := msg
    stray := fun _ => 0
    freshNode := fun _ => .zeroed
    freshUnsub := .zeroed
    stale := []
    sharedClients := fun _ => none
    bridgeBusy := fun _ => false
    clock := 0
    freshCparam := 0
  }

theorem Env.delivers_brings_none : (Env.brings none).Delivers := by
  intro msg brings
  cases brings

/-- A broker with one context. -/
def oneContext : System Unit Work World :=
  { locals := fun _ => .idle .MQTT_BROKER, shared := .empty }

theorem oneContext_starts : Starts oneContext :=
  {
    init := fun _ => rfl
    idle := fun _ => rfl
    aliases := fun _ _ => rfl
    retained := fun _ => rfl
  }

/-- The one context meets these completions in turn. -/
def completions (msgs : List (Option NngMsg)) : List (Unit × Env) :=
  msgs.map fun msg => ((), .brings msg)

end NanoMQ
