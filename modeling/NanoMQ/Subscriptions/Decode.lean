import NanoMQ.Nng.Message

/-! Decoding of SUBSCRIBE and UNSUBSCRIBE, and the acknowledgements.
Offsets are kept in two coordinates: `vpos` counts from the start of the body, `bpos` from
the payload pointer of the message.
-/

namespace NanoMQ

open Bytes Reading

/-- One decoded entry of a topic list and the offset of the next one; without a next offset
the packet is refused.
-/
structure DecodedEntry where
  node : TopicNode
  next : Option Nat

/-- The loop over the entries of a payload. An entry is decoded before the guard looks
whether any bytes remain. The fuel bounds the number of entries.
-/
def entryLoop (entry : Nat → Nat → Reader DecodedEntry) (remainingLen vpos : Nat)
    : Nat → Nat → Nat → Reader (ReasonCode × List TopicNode)
  | 0, _, _ => pure (SUCCESS, [])
  | fuel + 1, index, bpos => do
      let decoded ← entry index bpos
      match decoded.next with
      | none => pure (PROTOCOL_ERROR, [decoded.node])
      | some bpos => do
          let size ← sizeMinus remainingLen vpos
          if bpos < size then do
            let rest ← entryLoop entry remainingLen vpos fuel (index + 1) bpos
            pure (rest.1, decoded.node :: rest.2)
          else
            pure (SUCCESS, [decoded.node])

/-- Fuel for a loop whose offset grows with every entry. -/
def loopFuel (remainingLen vpos : Nat) : Nat :=
  (sizeMinus remainingLen vpos).value + 1

section EntryLoop

variable {entry : Nat → Nat → Reader DecodedEntry} {remainingLen vpos : Nat}

/-- More fuel changes nothing once it exceeds the distance from the offset to the end, as
every entry advances. By induction on the smaller fuel.
-/
theorem entryLoop_fuel
    (advances
      : ∀ index bpos next, (entry index bpos).value.next = some next → bpos < next)
    {fuel more index bpos : Nat} (running : 0 < fuel) (atLeast : fuel ≤ more)
    (enough : (sizeMinus remainingLen vpos).value < fuel + bpos)
    : entryLoop entry remainingLen vpos more index bpos
      = entryLoop entry remainingLen vpos fuel index bpos := by
  induction fuel generalizing more index bpos with
  | zero => exact absurd running (Nat.lt_irrefl 0)
  | succ fuel ih =>
      obtain ⟨more, rfl⟩ := Nat.exists_eq_succ_of_ne_zero (by omega : more ≠ 0)
      have advance := advances index bpos
      rw [entryLoop, entryLoop]
      apply Traced.bind_congr
      cases next : (entry index bpos).value.next with
      | none => rfl
      | some later =>
          have further := advance later next
          apply Traced.bind_congr
          split
          · rename_i left
            rw [ih (by omega) (by omega) (by omega)]
          · rfl

end EntryLoop

section Decode

variable (nng : MqttParser) (buffer : Buffer) (payloadPtr protoVer : Nat)

def SHARE : List UInt8 :=
  ascii ['$', 's', 'h', 'a', 'r', 'e', '/']

/-- The options refuse the packet: a retain handling above 2, or for version 5 no-local on
a shared subscription.
-/
def optionsRefused (topic : List UInt8) (options : TopicOptions) : Bool :=
  decide (2 < options.retainHandling)
  || (decide (protoVer = MQTT_PROTOCOL_VERSION_v5)
    && strncmpEq 7 topic SHARE
    && options.noLocal)

/-- What follows a copied filter. A filter that is empty or not valid UTF-8 gets an error
code, and one more byte is skipped for its options.
-/
def decodeSubOptions (bpos : Nat) (copied : StrResult) : Reader DecodedEntry :=
  let node : TopicNode :=
    {
      TopicNode.zeroed with
      reasonCode := GRANTED_QOS_2
      topicBody := copied.body
      topicLen := (copied.len % 2 ^ 32).toNat
    }
  let bpos := bpos + copied.used
  match copied.body with
  | none =>
      let reasonCode :=
        if protoVer = MQTT_PROTOCOL_VERSION_v5 then TOPIC_FILTER_INVALID
        else UNSPECIFIED_ERROR
      pure { node := { node with reasonCode }, next := some (bpos + 1) }
  | some topic => do
      let option ← buffer.get8 (payloadPtr + bpos)
      let node := { node with options := nng.topicOptions option }
      if optionsRefused protoVer topic node.options then
        pure { node := { node with reasonCode := UNSPECIFIED_ERROR }, next := none }
      else
        pure { node, next := some (bpos + 1) }

/-- One iteration of `decode_sub_msg`. -/
def decodeSubEntry (bpos : Nat) : Reader DecodedEntry := do
  let copied ← copyUtf8Str nng buffer (payloadPtr + bpos)
  decodeSubOptions nng buffer payloadPtr protoVer bpos copied

/-- The node of a filter that was pointed at; an invalid one refuses the packet. -/
def decodeUnsubFilter (node : TopicNode) (bpos : Nat) (pointed : StrResult) : DecodedEntry :=
  let node := { node with topicBody := pointed.body }
  if pointed.len = -1 then
    { node := { node with reasonCode := UNSPECIFIED_ERROR }, next := none }
  else
    {
      node := { node with topicLen := pointed.len.toNat }
      next := some (bpos + pointed.used)
    }

/-- One iteration of `decode_unsub_msg`; the node comes from `nng_alloc` as it is. -/
def decodeUnsubEntry (fresh : Nat → TopicNode) (index bpos : Nat) : Reader DecodedEntry := do
  let pointed ← getUtf8Str nng buffer (fresh index).topicBody (payloadPtr + bpos)
  pure (decodeUnsubFilter (fresh index) bpos pointed)

end Decode

/-- The properties of a version 5 packet, checked; none for other versions. -/
def decodeTopicProperties (nng : MqttParser) (protoVer : Nat) (body : List UInt8)
    : PropertySection :=
  if protoVer = MQTT_PROTOCOL_VERSION_v5 then decodeProperties nng body 2
  else { properties := none, propLen := 0, consumed := 0 }

/-- The property check of a version 5 packet fails. -/
def topicPropertiesRefused (nng : MqttParser) (protoVer : Nat) (body : List UInt8) : Bool :=
  decide (protoVer = MQTT_PROTOCOL_VERSION_v5)
  && !nng.checkProperties (decodeProperties nng body 2).properties

/-- Decode a SUBSCRIBE. Allocation succeeds. -/
def decodeSubMsg (nng : MqttParser) (stray : Nat → UInt8) (msg : NngMsg) (protoVer : Nat)
    (packet : TopicPacket)
    : Reader (ReasonCode × TopicPacket) := do
  let buffer : Buffer := { bytes := msg.body, stray }
  let packetId ← buffer.get16 0
  if packetId = 0 then
    pure (PROTOCOL_ERROR, { packet with packetId, node := [] })
  else do
    let found := decodeTopicProperties nng protoVer msg.body
    let packet : TopicPacket :=
      { packetId, properties := found.properties, propLen := found.propLen, node := [] }
    if topicPropertiesRefused nng protoVer msg.body then
      pure (PROTOCOL_ERROR, packet)
    else do
      let vpos := 2 + found.consumed
      let entries ←
        entryLoop (fun _ => decodeSubEntry nng buffer msg.payloadPtr protoVer)
          msg.remainingLen vpos (loopFuel msg.remainingLen vpos) 0 0
      pure (entries.1, { packet with node := entries.2 })

/-- Decode an UNSUBSCRIBE. The packet id is not checked; the packet structure and the nodes
come from `nng_alloc`.
-/
def decodeUnsubMsg (nng : MqttParser) (stray : Nat → UInt8) (fresh : Nat → TopicNode)
    (msg : NngMsg) (protoVer : Nat) (packet : TopicPacket)
    : Reader (ReasonCode × TopicPacket) := do
  let buffer : Buffer := { bytes := msg.body, stray }
  let packetId ← buffer.get16 0
  let found := decodeTopicProperties nng protoVer msg.body
  let packet : TopicPacket :=
    {
      packet with
      packetId
      properties := found.properties
      propLen := found.propLen
    }
  if topicPropertiesRefused nng protoVer msg.body then
    pure (PROTOCOL_ERROR, packet)
  else do
    let vpos := 2 + found.consumed
    let entries ←
      entryLoop (decodeUnsubEntry nng buffer msg.payloadPtr fresh)
        msg.remainingLen vpos (loopFuel msg.remainingLen vpos) 0 0
    pure (entries.1, { packet with node := entries.2 })

-- Acknowledgements

/-- A reason code as it is written. -/
def reasonByte (code : ReasonCode) : UInt8 :=
  UInt8.ofNat code.toNat

/-- The variable header of an acknowledgement: the packet id and, for version 5, an empty
property list.
-/
def ackVariableHeader (nng : MqttParser) (cmd : CmdType) (protoVer packetId : Nat)
    : List UInt8 :=
  putU16 packetId
  ++ (if protoVer = MQTT_PROTOCOL_VERSION_v5 then (nng.encodeProperties none cmd).getD []
    else [])

/-- A message with this body and a header of this type in front of its length. -/
def NngMsg.acknowledge (msg : NngMsg) (first : UInt8) (body : List UInt8) : NngMsg :=
  { msg with header := first :: putVarint 4 (body.length % 2 ^ 32), body }

/-- One code for each entry; without entries a code that says why there are none. -/
def encodeSubackMsg (nng : MqttParser) (msg : NngMsg) (packet : TopicPacket)
    (protoVer : Nat)
    : NngMsg :=
  msg.acknowledge CMD_SUBACK_BYTE
    (ackVariableHeader nng .SUBACK protoVer packet.packetId
      ++ (if packet.packetId = 0 then [reasonByte PACKET_IDENTIFIER_IN_USE] else [])
      ++ packet.node.map (fun node => reasonByte node.reasonCode)
      ++ (if packet.node = [] ∧ packet.packetId ≠ 0 then [reasonByte UNSPECIFIED_ERROR]
        else []))

/-- Version 5 has one code for each entry, older versions none. -/
def encodeUnsubackMsg (nng : MqttParser) (msg : NngMsg) (packet : TopicPacket)
    (protoVer : Nat)
    : NngMsg :=
  msg.acknowledge CMD_UNSUBACK_BYTE
    (ackVariableHeader nng .UNSUBACK protoVer packet.packetId
      ++ (if protoVer = MQTT_PROTOCOL_VERSION_v5 then
            packet.node.map (fun node => reasonByte node.reasonCode)
          else []))

end NanoMQ
