import NanoMQ.Publish.Layout

/-! The encoder `encode_pub_message`. -/

namespace NanoMQ

open Bytes

/-- Whether encoding succeeded, with the message and the packet it leaves behind. -/
structure Encoded where
  ok : Bool
  msg : NngMsg
  packet : PubPacket

/-- The topic field; an empty topic leaves out the length as well. -/
def encodeTopicName (topic : MqttString) : List UInt8 :=
  if 0 < topic.len then putU16 topic.len ++ (topic.body.getD []).take topic.len else []

def encodePayload (payload : MqttPayload) : List UInt8 :=
  if 0 < payload.len then (payload.data.getD []).take payload.len else []

/-- The property section of a message marked as version 5. -/
def encodePublishProperties (nng : MqttParser) (cmdType : CmdType)
    (properties : Option (List Property))
    : Option (List UInt8) :=
  if cmdType = .PUBLISH_V5 then nng.encodeProperties properties .PUBLISH else some []

/-- The PUBLISH case. Without a property section the message stays half built. -/
def encodePublish (nng : MqttParser) (dest : NngMsg) (packet : PubPacket) : Encoded :=
  let packet :=
    { packet with fixedHeader := { packet.fixedHeader with packetType := PUBLISH } }
  let first := packet.fixedHeader.toByte
  let front :=
    encodeTopicName packet.publish.topicName
    ++ packetIdBytes packet.fixedHeader.qos packet.publish.packetId
  match encodePublishProperties nng dest.cmdType packet.publish.properties with
  | none => { ok := false, msg := { dest with header := [first], body := front }, packet }
  | some propertyBytes =>
      let body := front ++ (propertyBytes ++ encodePayload packet.payload)
      let remainLen := body.length % 2 ^ 32
      {
        ok := true
        msg :=
          {
            dest with
            header := first :: putVarint 4 remainLen
            body
            remainingLen := remainLen
          }
        packet := { packet with fixedHeader := { packet.fixedHeader with remainLen } }
      }

/-- The cases PUBREL, PUBACK, PUBREC and PUBCOMP fall through to the same response: every
one of them ends with the command type of PUBCOMP.
-/
def encodePubResponse (dest : NngMsg) (packet : PubPacket) (cmd : BitVec 4) : Encoded :=
  let header : FixedHeader :=
    { retain := false, qos := 0, dup := false, packetType := cmd, remainLen := 2 }
  {
    ok := true
    msg :=
      {
        dest with
        cmdType := .PUBCOMP
        header := header.toByte :: putVarint 4 header.remainLen
        body := putU16 packet.publish.packetId
      }
    packet
  }

/-- Encode a packet into a message. -/
def encodePubMessage (nng : MqttParser) (dest : NngMsg) (packet : PubPacket)
    (cmd : BitVec 4)
    : Encoded :=
  if cmd = PUBLISH then encodePublish nng dest packet
  else if cmd = PUBREL ∨ cmd = PUBACK ∨ cmd = PUBREC ∨ cmd = PUBCOMP then
    encodePubResponse dest packet cmd
  else { ok := true, msg := { dest with header := [], body := [] }, packet }

/-- With a property section the message is complete: its parts in order, and a header that
holds their total length.
-/
theorem encodePublish_written {nng : MqttParser} {dest : NngMsg} {packet : PubPacket}
    {propertyBytes body : List UInt8}
    (written
      : encodePublishProperties nng dest.cmdType packet.publish.properties
        = some propertyBytes)
    (parts
      : body
        = encodeTopicName packet.publish.topicName
          ++ (packetIdBytes packet.fixedHeader.qos packet.publish.packetId
            ++ (propertyBytes ++ encodePayload packet.payload)))
    : (encodePublish nng dest packet).ok = true
      ∧ (encodePublish nng dest packet).msg
        = {
          dest with
          header :=
            { packet.fixedHeader with packetType := PUBLISH }.toByte
            :: putVarint 4 (body.length % 2 ^ 32)
          body
          remainingLen := body.length % 2 ^ 32
        } := by
  simp only [encodePublish, written, parts, List.append_assoc, and_self]

-- The fixed header

/-- Storing the bit fields in a byte and reading them back gives the same fields. -/
theorem FixedHeader.ofByte_toByte (header : FixedHeader) (remainLen : Nat)
    : FixedHeader.ofByte header.toByte remainLen = { header with remainLen } := by
  have bits
      : ∀ (retain dup : Bool) (qos : BitVec 2) (packetType : BitVec 4),
          let byte := packetType ++ BitVec.ofBool dup ++ qos ++ BitVec.ofBool retain
          byte.getLsbD 0 = retain
          ∧ byte.extractLsb' 1 2 = qos
          ∧ byte.getLsbD 3 = dup
          ∧ byte.extractLsb' 4 4 = packetType := by
    decide
  obtain ⟨retain, qos, dup, packetType⟩ :=
    bits header.retain header.dup header.qos header.packetType
  simp only [FixedHeader.ofByte, FixedHeader.toByte, FixedHeader.mk.injEq, and_true]
  exact ⟨retain, qos, dup, packetType⟩

end NanoMQ
