import NanoMQ.Publish.Acceptance
import NanoMQ.Publish.Encode

/-! Encoding and decoding of PUBLISH packets are inverse to each other. -/

namespace NanoMQ

open Bytes Reading

/-- A message marked with this command type is meant for this protocol version. -/
def SameVersion (cmdType : CmdType) (proto : Nat) : Prop :=
  cmdType = .PUBLISH_V5 ↔ proto = MQTT_PROTOCOL_VERSION_v5

/-- These bytes are the encoding of a property list, and any reader of a body that goes on
with them finds the list again.
-/
structure CanonicalProperties (nng : MqttParser) (properties : Option (List Property))
    (bytes : List UInt8)
    : Prop where
  encodes : nng.encodeProperties properties .PUBLISH = some bytes
  decodes
    : ∀ rest, ∃ propLen,
        nng.propertySection (bytes ++ rest)
        = some { properties, propLen, consumed := bytes.length }

/-- A topic that may stand in a PUBLISH: not empty, at most 65535 bytes of valid UTF-8, no
wildcards.
-/
structure PublishTopic (nng : MqttParser) (topic : List UInt8) : Prop where
  nonempty : topic ≠ []
  short : topic.length ≤ 65535
  valid : nng.utf8Check topic = true
  plain : (43 : UInt8) ∉ topic ∧ (35 : UInt8) ∉ topic

/-- A packet that has an encoding: its topic may stand in a PUBLISH, its payload has the
length it says, and for version 5 its properties are valid and canonical.
-/
structure PubPacket.Encodable (packet : PubPacket) (nng : MqttParser) (proto : Nat)
    (topic : List UInt8)
    : Prop where
  topicName : packet.publish.topicName = { body := some topic, len := topic.length }
  publishTopic : PublishTopic nng topic
  packetId : packet.publish.packetId < 65536
  payload : packet.payload.len = (packet.payload.data.getD []).length
  propertiesValid
    : proto = MQTT_PROTOCOL_VERSION_v5
      → publishPropertiesValid nng packet.publish.properties = true
  canonical
    : proto = MQTT_PROTOCOL_VERSION_v5
      → ∃ bytes, CanonicalProperties nng packet.publish.properties bytes

/-- Two packets agree in everything that a PUBLISH of this version carries. -/
structure PubPacket.SameContent (proto : Nat) (left right : PubPacket) : Prop where
  retain : left.fixedHeader.retain = right.fixedHeader.retain
  qos : left.fixedHeader.qos = right.fixedHeader.qos
  dup : left.fixedHeader.dup = right.fixedHeader.dup
  topicName : left.publish.topicName = right.publish.topicName
  packetId : left.fixedHeader.qos ≠ 0 → left.publish.packetId = right.publish.packetId
  properties
    : proto = MQTT_PROTOCOL_VERSION_v5 → left.publish.properties = right.publish.properties
  payloadLen : left.payload.len = right.payload.len
  payload : left.payload.data.getD [] = right.payload.data.getD []

-- Decoding what was encoded

section Encoded

variable {nng : MqttParser} {packet : PubPacket} {proto : Nat} {topic : List UInt8}
  (encodable : packet.Encodable nng proto topic)

include encodable

theorem PubPacket.Encodable.encodePayload_eq
    : encodePayload packet.payload = packet.payload.data.getD [] := by
  unfold encodePayload
  rw [encodable.payload]
  split
  · exact List.take_length
  · rename_i zero
    exact (List.eq_nil_of_length_eq_zero (by omega)).symm

theorem PubPacket.Encodable.exists_properties {cmdType : CmdType}
    (same : SameVersion cmdType proto)
    : ∃ propertyBytes,
        encodePublishProperties nng cmdType packet.publish.properties = some propertyBytes
        ∧ PropertiesValid nng proto propertyBytes (packet.payload.data.getD [])
        ∧ (proto = MQTT_PROTOCOL_VERSION_v5
          → CanonicalProperties nng packet.publish.properties propertyBytes) := by
  unfold encodePublishProperties PropertiesValid
  by_cases v5 : proto = MQTT_PROTOCOL_VERSION_v5
  · obtain ⟨bytes, canonical⟩ := encodable.canonical v5
    obtain ⟨propLen, parsed⟩ := canonical.decodes (packet.payload.data.getD [])
    refine ⟨bytes, ?_, ?_, fun _ => canonical⟩
    · rw [if_pos (same.mpr v5), canonical.encodes]
    · rw [if_pos v5]
      exact ⟨_, parsed, rfl, encodable.propertiesValid v5⟩
  · refine ⟨[], ?_, ?_, fun is_v5 => absurd is_v5 v5⟩
    · rw [if_neg (fun marked => v5 (same.mp marked))]
    · rw [if_neg v5]

/-- An encodable packet becomes a message whose body is a layout of its parts. -/
theorem PubPacket.Encodable.encoded {dest : NngMsg} (same : SameVersion dest.cmdType proto)
    : ∃ layout : PublishLayout nng proto packet.fixedHeader.qos,
        layout.topic = topic
        ∧ layout.packetId = packet.publish.packetId
        ∧ layout.payload = packet.payload.data.getD []
        ∧ (proto = MQTT_PROTOCOL_VERSION_v5
          → CanonicalProperties nng packet.publish.properties layout.propertyBytes)
        ∧ (encodePublish nng dest packet).ok = true
        ∧ (encodePublish nng dest packet).msg
          = {
            dest with
            header :=
              { packet.fixedHeader with packetType := PUBLISH }.toByte
              :: putVarint 4 (layout.bytes.length % 2 ^ 32)
            body := layout.bytes
            remainingLen := layout.bytes.length % 2 ^ 32
          } := by
  obtain ⟨propertyBytes, written, valid, canonical⟩ := encodable.exists_properties same
  have publishTopic := encodable.publishTopic
  have short := publishTopic.short
  let layout : PublishLayout nng proto packet.fixedHeader.qos :=
    {
      topic
      packetId := packet.publish.packetId
      propertyBytes
      payload := packet.payload.data.getD []
      topic_short := by omega
      topic_valid := Or.inr publishTopic.valid
      topic_plain := publishTopic.plain
      packetId_short := encodable.packetId
      properties_valid := valid
    }
  have topicField : encodeTopicName packet.publish.topicName = putU16 topic.length ++ topic := by
    have positive := List.length_pos_iff.mpr publishTopic.nonempty
    rw [encodable.topicName, encodeTopicName, if_pos positive, Option.getD_some,
      List.take_length]
  refine ⟨layout, rfl, rfl, rfl, canonical, encodePublish_written written ?_⟩
  rw [topicField, encodable.encodePayload_eq, List.append_assoc]
  rfl

theorem PubPacket.Encodable.payload_short {dest : NngMsg}
    (same : SameVersion dest.cmdType proto)
    (fits : (encodePublish nng dest packet).msg.body.length ≤ 268435455)
    : packet.payload.len < 2 ^ 32 := by
  obtain ⟨layout, _, _, payloadEq, _, _, msgEq⟩ := encodable.encoded same
  have size := layout.length_eq
  rw [msgEq] at fits
  rw [encodable.payload, ← payloadEq]
  change layout.bytes.length ≤ 268435455 at fits
  omega

/-- Decoding the encoded message gives back what the packet carries. -/
theorem PubPacket.Encodable.decoded {dest : NngMsg} (stray : Nat → UInt8)
    (same : SameVersion dest.cmdType proto) (payloadShort : packet.payload.len < 2 ^ 32)
    : (decodePubMessage nng stray (encodePublish nng dest packet).msg .zeroed proto).value.1
        = SUCCESS
      ∧ PubPacket.SameContent proto packet
          (decodePubMessage nng stray (encodePublish nng dest packet).msg .zeroed
            proto).value.2 := by
  obtain ⟨layout, topicEq, idEq, payloadEq, canonical, _, msgEq⟩ := encodable.encoded same
  generalize (encodePublish nng dest packet).msg = msg at msgEq
  have body : msg.body = layout.bytes := by rw [msgEq]
  have header : msg.fixedHeader
      = {
        packet.fixedHeader with
        packetType := PUBLISH
        remainLen := layout.bytes.length % 2 ^ 32
      } := by
    rw [msgEq]
    exact FixedHeader.ofByte_toByte _ _
  have publish : msg.type = PUBLISH := congrArg FixedHeader.packetType header
  have sameQos : msg.fixedHeader.qos = packet.fixedHeader.qos := by rw [header]
  have complete : msg.remainingLen ≤ msg.body.length := by
    rw [msgEq]
    exact Nat.mod_le _ _
  have short : layout.payload.length < 2 ^ 32 := by
    rw [payloadEq, ← encodable.payload]
    exact payloadShort
  have carried : (decodePubMessage nng stray msg .zeroed proto).value.2.Carries layout :=
    layout.carries body publish sameQos complete short
  have decodedHeader
      : (decodePubMessage nng stray msg .zeroed proto).value.2.fixedHeader
        = msg.fixedHeader :=
    layout.decoded_fixedHeader .zeroed body publish sameQos complete
  refine ⟨congrArg Prod.fst (layout.decoded .zeroed body publish sameQos complete), ?_⟩
  refine {
      retain := ?_
      qos := ?_
      dup := ?_
      topicName := ?_
      packetId := ?_
      properties := ?_
      payloadLen := ?_
      payload := ?_
    }
  · rw [decodedHeader, header]
  · rw [decodedHeader, header]
  · rw [decodedHeader, header]
  · rw [carried.topic, topicEq, storedTopic, if_neg encodable.publishTopic.nonempty,
      encodable.topicName]
  · intro present
    rw [carried.packetId present, idEq]
  · intro v5
    obtain ⟨propLen, parsed⟩ := (canonical v5).decodes layout.payload
    rw [layout.decoded_properties .zeroed body publish sameQos complete v5 parsed]
  · rw [carried.payloadLen, payloadEq, encodable.payload]
  · rw [carried.payload, payloadEq]

theorem PubPacket.Encodable.header_length {dest : NngMsg}
    (same : SameVersion dest.cmdType proto)
    (fits : (encodePublish nng dest packet).msg.body.length ≤ 268435455)
    : getVarint 4 ((encodePublish nng dest packet).msg.header.drop 1)
      = some ((encodePublish nng dest packet).msg.body.length, []) := by
  obtain ⟨layout, _, _, _, _, _, msgEq⟩ := encodable.encoded same
  rw [msgEq] at fits ⊢
  have size : layout.bytes.length % 2 ^ 32 = layout.bytes.length :=
    Nat.mod_eq_of_lt (Nat.lt_of_le_of_lt fits (by decide))
  have written := getVarint_putVarint 3 layout.bytes.length []
    (Nat.lt_of_le_of_lt fits (by decide))
  rw [List.append_nil] at written
  rw [size]
  exact written

end Encoded

-- Encoding what was decoded

/-- The body has a non-empty topic that is read, and for version 5 a canonical property
section.
-/
structure CanonicalBody (nng : MqttParser) (buffer : Buffer) (proto : Nat) (qos : BitVec 2)
    : Prop where
  nonempty : announcedLength buffer ≠ 0
  read : ¬TopicRejected nng buffer
  canonical
    : proto = MQTT_PROTOCOL_VERSION_v5
      → ∃ found,
          let rest := buffer.bytes.drop (2 + announcedLength buffer + packetIdSize qos)
          nng.propertySection rest = some found
          ∧ nng.encodeProperties found.properties .PUBLISH
            = some (rest.take found.consumed)

theorem publishAccepted_of_success {nng : MqttParser} {stray : Nat → UInt8} {msg : NngMsg}
    {packet : PubPacket} {proto : Nat} (publish : msg.type = PUBLISH)
    (success : (decodePubMessage nng stray msg packet proto).value.1 = SUCCESS)
    : msg.remainingLen ≤ msg.body.length
      ∧ PublishAccepted nng { bytes := msg.body, stray } proto msg.fixedHeader.qos := by
  rcases Nat.lt_or_ge msg.body.length msg.remainingLen with incomplete | complete
  · rw [decodePubMessage_incomplete packet incomplete] at success
    cases success
  · refine ⟨complete, ?_⟩
    by_contra refused
    have failed
        : (decodePublish nng { bytes := msg.body, stray } proto
            { packet with fixedHeader := msg.fixedHeader }).value.1
          = PROTOCOL_ERROR :=
      decodePublish_refused refused
    rw [decodePubMessage_publish packet publish complete, failed] at success
    cases success

theorem encodePayload_storedPayload {payload : List UInt8} (short : payload.length < 2 ^ 32)
    : encodePayload (storedPayload { data := none, len := 0 } payload) = payload := by
  obtain ⟨len, data⟩ := storedPayload_eq short
  unfold encodePayload
  rw [len, data]
  split
  · exact List.take_length
  · rename_i zero
    exact (List.eq_nil_of_length_eq_zero (by omega)).symm

theorem packetIdBytes_storePacketId (packet : PubPacket) (buffer : Buffer) (pos : Nat)
    : packetIdBytes packet.fixedHeader.qos (packet.storePacketId buffer pos).publish.packetId
      = packetIdBytes packet.fixedHeader.qos (buffer.get16 pos).value := by
  unfold packetIdBytes
  split
  · rfl
  · rename_i present
    rw [PubPacket.storePacketId_packetId _ _ present]

theorem encodeTopicName_storedTopic {topic : List UInt8} (nonempty : topic ≠ [])
    : encodeTopicName (storedTopic topic) = putU16 topic.length ++ topic := by
  have positive := List.length_pos_iff.mpr nonempty
  rw [storedTopic, if_neg nonempty, encodeTopicName, if_pos positive, Option.getD_some,
    List.take_length]

theorem CanonicalBody.exists_properties {nng : MqttParser} {buffer : Buffer} {proto : Nat}
    {qos : BitVec 2} {cmdType : CmdType} (canonical : CanonicalBody nng buffer proto qos)
    (same : SameVersion cmdType proto) (packet : PubPacket)
    : let start := 2 + announcedLength buffer + packetIdSize qos
      ∃ propertyBytes,
        encodePublishProperties nng cmdType
            (packet.storeRest nng proto buffer.bytes start).publish.properties
          = some propertyBytes
        ∧ buffer.bytes.drop start
          = propertyBytes
            ++ buffer.bytes.drop (payloadStart nng proto buffer.bytes start) := by
  intro start
  unfold encodePublishProperties payloadStart
  rw [PubPacket.storeRest_properties]
  by_cases v5 : proto = MQTT_PROTOCOL_VERSION_v5
  · obtain ⟨found, parsed, encodes⟩ := canonical.canonical v5
    change nng.propertySection (buffer.bytes.drop start) = _ at parsed
    change _ = some ((buffer.bytes.drop start).take found.consumed) at encodes
    clear_value start
    have decoded : decodeProperties nng buffer.bytes start = found := by
      rw [decodeProperties, parsed]
    refine ⟨(buffer.bytes.drop start).take found.consumed, ?_, ?_⟩
    · rw [if_pos (same.mpr v5), if_pos v5, decoded, encodes]
    · rw [if_pos v5, decoded, ← List.drop_drop, List.take_append_drop]
  · refine ⟨[], ?_, ?_⟩
    · rw [if_neg (fun marked => v5 (same.mp marked))]
    · rw [if_neg v5, List.nil_append]

/-- The fields that are stored from a canonical body are written as the body again. -/
theorem CanonicalBody.encode_stored {nng : MqttParser} {buffer : Buffer} {proto : Nat}
    {packet : PubPacket} {dest : NngMsg}
    (canonical : CanonicalBody nng buffer proto packet.fixedHeader.qos)
    (rest
      : RestAccepted nng proto buffer.bytes
          (2 + announcedLength buffer + packetIdSize packet.fixedHeader.qos))
    (noPayload : packet.payload = { data := none, len := 0 })
    (same : SameVersion dest.cmdType proto) (fits : buffer.bytes.length ≤ 268435455)
    : let stored :=
        ((packet.setTopicName (storedTopic (announcedTopic buffer))).storePacketId buffer
            (2 + announcedLength buffer)).storeRest
          nng proto buffer.bytes
          (2 + announcedLength buffer + packetIdSize packet.fixedHeader.qos)
      (encodePublish nng dest stored).ok = true
      ∧ (encodePublish nng dest stored).msg.body = buffer.bytes := by
  intro stored
  have inside := rest.start_le
  have size : (announcedTopic buffer).length = announcedLength buffer :=
    length_announcedTopic (by omega)
  have nonempty : announcedTopic buffer ≠ [] := by
    intro empty
    rw [empty] at size
    exact canonical.nonempty size.symm
  obtain ⟨propertyBytes, written, restField⟩ := canonical.exists_properties same
    ((packet.setTopicName (storedTopic (announcedTopic buffer))).storePacketId buffer
      (2 + announcedLength buffer))
  have parts
      : buffer.bytes
        = encodeTopicName stored.publish.topicName
          ++ (packetIdBytes stored.fixedHeader.qos stored.publish.packetId
            ++ (propertyBytes ++ encodePayload stored.payload)) := by
    have topicField
        : encodeTopicName stored.publish.topicName
          = putU16 (announcedLength buffer) ++ announcedTopic buffer := by
      rw [PubPacket.storeRest_topicName, PubPacket.storePacketId_topicName, ← size]
      exact encodeTopicName_storedTopic nonempty
    have idField
        : packetIdBytes stored.fixedHeader.qos stored.publish.packetId
          = packetIdBytes packet.fixedHeader.qos
              (buffer.get16 (2 + announcedLength buffer)).value := by
      rw [PubPacket.storeRest_fixedHeader, PubPacket.storePacketId_fixedHeader,
        PubPacket.storeRest_packetId]
      exact packetIdBytes_storePacketId _ _ _
    have payloadField
        : encodePayload stored.payload
          = buffer.bytes.drop
              (payloadStart nng proto buffer.bytes
                (2 + announcedLength buffer + packetIdSize packet.fixedHeader.qos)) := by
      rw [PubPacket.storeRest_payload, PubPacket.storePacketId_payload]
      change encodePayload (storedPayload packet.payload _) = _
      rw [noPayload]
      apply encodePayload_storedPayload
      rw [List.length_drop]
      omega
    rw [topicField, idField, payloadField, ← restField, List.append_assoc]
    exact bytes_eq_fields packet.fixedHeader.qos inside
  obtain ⟨ok, msg⟩ := encodePublish_written written parts
  exact ⟨ok, by rw [msg]⟩

theorem CanonicalBody.reencoded {nng : MqttParser} {stray : Nat → UInt8} {msg dest : NngMsg}
    {proto : Nat}
    (canonical : CanonicalBody nng { bytes := msg.body, stray } proto msg.fixedHeader.qos)
    (publish : msg.type = PUBLISH)
    (success : (decodePubMessage nng stray msg .zeroed proto).value.1 = SUCCESS)
    (same : SameVersion dest.cmdType proto) (fits : msg.body.length ≤ 268435455)
    : let decoded := (decodePubMessage nng stray msg .zeroed proto).value.2
      (encodePublish nng dest decoded).ok = true
      ∧ (encodePublish nng dest decoded).msg.body = msg.body := by
  obtain ⟨complete, accepted⟩ := publishAccepted_of_success publish success
  obtain ⟨rejected, _⟩ | ⟨read, hidden, rest⟩ := accepted
  · exact absurd rejected canonical.read
  · rw [decodePubMessage_stored .zeroed publish complete read hidden rest]
    let packet : PubPacket := { PubPacket.zeroed with fixedHeader := msg.fixedHeader }
    have ofPacket : CanonicalBody nng { bytes := msg.body, stray } proto packet.fixedHeader.qos :=
      canonical
    exact ofPacket.encode_stored rest rfl same fits

-- Both directions

/-- Under one protocol version, decoding an encoded packet gives back what it carries and
the header holds the length of the body; and encoding what was decoded from a canonical
body gives the body again.
-/
theorem publish_encode_decode_inverse (nng : MqttParser) (stray : Nat → UInt8) (proto : Nat)
    (dest : NngMsg) (same : SameVersion dest.cmdType proto)
    : (∀ packet topic,
        packet.Encodable nng proto topic
        → let encoded := encodePubMessage nng dest packet PUBLISH
          let decoded := (decodePubMessage nng stray encoded.msg .zeroed proto).value
          encoded.msg.body.length ≤ 268435455
          → encoded.ok = true
            ∧ getVarint 4 (encoded.msg.header.drop 1) = some (encoded.msg.body.length, [])
            ∧ decoded.1 = SUCCESS
            ∧ PubPacket.SameContent proto packet decoded.2)
      ∧ (∀ msg,
        msg.type = PUBLISH
        → msg.body.length ≤ 268435455
        → CanonicalBody nng { bytes := msg.body, stray } proto msg.fixedHeader.qos
        → let decoded := (decodePubMessage nng stray msg .zeroed proto).value
          let encoded := encodePubMessage nng dest decoded.2 PUBLISH
          decoded.1 = SUCCESS → encoded.ok = true ∧ encoded.msg.body = msg.body) := by
  constructor
  · intro packet topic encodable encoded decoded fits
    obtain ⟨_, _, _, _, _, ok, _⟩ := encodable.encoded same
    exact ⟨ok, encodable.header_length same fits,
      encodable.decoded stray same (encodable.payload_short same fits)⟩
  · intro msg publish fits canonical decoded encoded success
    exact canonical.reencoded publish success same fits

/-- A version 5 packet of QoS 1 to topic `a` with topic alias 1 and payload `x`. -/
def aliasPacket : PubPacket :=
  {
    PubPacket.zeroed with
    fixedHeader := { retain := true, qos := 1, dup := false, packetType := 3, remainLen := 0 }
    publish :=
      {
        packetId := 7
        topicName := { body := some [97], len := 1 }
        properties := some [{ id := TOPIC_ALIAS, value := .u16 1 }]
        propLen := 3
      }
    payload := { data := some [120], len := 1 }
  }

theorem aliasPacket_encodable
    : aliasPacket.Encodable referenceParser MQTT_PROTOCOL_VERSION_v5 [97] := by
  let content : List UInt8 := [35, 0, 1]
  have parsed
      : readFixed content.length content
        = some [{ id := TOPIC_ALIAS, value := .u16 1 }] := by
    decide
  refine {
      topicName := rfl
      publishTopic :=
        { nonempty := by decide, short := by decide, valid := by decide, plain := by decide }
      packetId := by decide
      payload := rfl
      propertiesValid := fun _ => by decide
      canonical := fun _ => ⟨[3, 35, 0, 1], { encodes := by decide, decodes := ?_ }⟩
    }
  exact fun rest => ⟨3, readSection_append (by decide) parsed⟩

/-- The packet with a topic alias round-trips, and so does the body it is encoded to. -/
theorem aliasPacket_roundTrips
    : let dest := NngMsg.received .PUBLISH_V5 [] [] 1 (.plain 5)
      let encoded := encodePubMessage referenceParser dest aliasPacket PUBLISH
      let decoded :=
        (decodePubMessage referenceParser (fun _ => 0) encoded.msg .zeroed
          MQTT_PROTOCOL_VERSION_v5).value
      (encoded.ok = true
        ∧ getVarint 4 (encoded.msg.header.drop 1) = some (encoded.msg.body.length, [])
        ∧ decoded.1 = SUCCESS
        ∧ PubPacket.SameContent MQTT_PROTOCOL_VERSION_v5 aliasPacket decoded.2)
      ∧ (encodePubMessage referenceParser dest decoded.2 PUBLISH).msg.body
        = encoded.msg.body := by
  intro dest encoded decoded
  have inverse := publish_encode_decode_inverse referenceParser (fun _ => 0)
    MQTT_PROTOCOL_VERSION_v5 dest (by unfold SameVersion; decide)
  have forth := inverse.1 aliasPacket [97] aliasPacket_encodable (by decide)
  refine ⟨forth, (inverse.2 encoded.msg (by decide) (by decide) ?_ forth.2.2.1).2⟩
  refine { nonempty := by decide, read := by unfold TopicRejected; decide, canonical := ?_ }
  intro _
  exact ⟨{
      properties := some [{ id := TOPIC_ALIAS, value := .u16 1 }]
      propLen := 3
      consumed := 4
    }, by decide, by decide⟩

end NanoMQ
