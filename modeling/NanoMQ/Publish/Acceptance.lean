import NanoMQ.Publish.Layout
import NanoMQ.Nng.Reference

/-! Which PUBLISH messages `decode_pub_message` accepts. -/

namespace NanoMQ

open Bytes Reading

/-- The topic name a decoder stores for a topic: NULL for the empty one. -/
def storedTopic (topic : List UInt8) : MqttString :=
  if topic = [] then { body := none, len := 0 }
  else { body := some topic, len := topic.length }

/-- A packet holds the topic, packet id and payload of a layout. -/
structure PubPacket.Carries {nng : MqttParser} {proto : Nat} {qos : BitVec 2}
    (packet : PubPacket) (layout : PublishLayout nng proto qos)
    : Prop where
  topic : packet.publish.topicName = storedTopic layout.topic
  packetId : qos ≠ 0 → packet.publish.packetId = layout.packetId
  payload : packet.payload.data.getD [] = layout.payload
  payloadLen : packet.payload.len = layout.payload.length

/-- The result that well-formedness of the body asks for: a complete and well-formed body
is accepted with its parts, and everything else is a protocol error.
-/
structure DecodesAsSpecified (nng : MqttParser) (stray : Nat → UInt8) (msg : NngMsg)
    (proto : Nat)
    : Prop where
  accepts
    : ∀ layout : PublishLayout nng proto msg.fixedHeader.qos,
        msg.remainingLen ≤ msg.body.length
        → msg.body = layout.bytes
        → (decodePubMessage nng stray msg .zeroed proto).value.1 = SUCCESS
          ∧ (decodePubMessage nng stray msg .zeroed proto).value.2.Carries layout
  refuses
    : (¬(msg.remainingLen ≤ msg.body.length
        ∧ ∃ layout : PublishLayout nng proto msg.fixedHeader.qos,
            msg.body = layout.bytes))
      → (decodePubMessage nng stray msg .zeroed proto).value.1 = PROTOCOL_ERROR

/-- A wildcard that `strchr` finds. -/
def VisibleWildcard (topic : List UInt8) : Prop :=
  (43 : UInt8) ∈ cstr topic ∨ (35 : UInt8) ∈ cstr topic

/-- The bodies that are accepted although they should not be, or with another payload:
the topic is rejected and the rest passes from where the string reader stopped; or the
topic is read and the rest passes, but a wildcard hides behind a NUL, or there is no valid
property section, or the payload length does not fit in 32 bits.
-/
def Misaccepted (nng : MqttParser) (buffer : Buffer) (proto : Nat) (qos : BitVec 2) : Prop :=
  let size := announcedLength buffer
  let topic := announcedTopic buffer
  let start := 2 + size + packetIdSize qos
  (TopicRejected nng buffer
    ∧ RestAccepted nng proto buffer.bytes (nng.copynRejectSkip size + packetIdSize qos))
  ∨ (¬TopicRejected nng buffer
    ∧ RestAccepted nng proto buffer.bytes start
    ∧ ¬VisibleWildcard topic
    ∧ ((43 : UInt8) ∈ topic
      ∨ (35 : UInt8) ∈ topic
      ∨ (proto = MQTT_PROTOCOL_VERSION_v5
        ∧ nng.propertySection (buffer.bytes.drop start) = none)
      ∨ 2 ^ 32 ≤ buffer.bytes.length - payloadStart nng proto buffer.bytes start))

-- What the PUBLISH case returns

section Publish

variable {nng : MqttParser} {buffer : Buffer} {proto : Nat}

theorem copynUtf8Str_rejected (rejected : TopicRejected nng buffer)
    : (copynUtf8Str nng buffer 0 buffer.bytes.length).value
      = { body := none, len := -1, used := nng.copynRejectSkip (announcedLength buffer) } := by
  have outcome := copynUtf8Str_topicRead nng buffer
  generalize (copynUtf8Str nng buffer 0 buffer.bytes.length).value = result at outcome ⊢
  cases outcome with
  | empty zero => exact absurd zero rejected.1
  | copied nonzero fits valid =>
      rcases rejected.2 with tooLong | invalid
      · omega
      · rw [valid] at invalid
        cases invalid
  | rejected reason => rfl

/-- A rejected topic is stored as NULL with length 2^32 - 1, and decoding goes on. -/
theorem decodeWithTopic_rejected (packet : PubPacket) (topicLen : Nat)
    (rejected : TopicRejected nng buffer)
    : decodeWithTopic nng buffer proto packet topicLen
        (copynUtf8Str nng buffer 0 buffer.bytes.length).value
      = decodeAfterTopic nng buffer proto
          (packet.setTopicName { body := none, len := 2 ^ 32 - 1 })
          (nng.copynRejectSkip (announcedLength buffer)) := by
  rw [copynUtf8Str_rejected rejected]
  rfl

/-- What the string reader returns for a topic that is not rejected. -/
theorem copynUtf8Str_read (read : ¬TopicRejected nng buffer)
    : (copynUtf8Str nng buffer 0 buffer.bytes.length).value
      = {
        body := (storedTopic (announcedTopic buffer)).body
        len := (storedTopic (announcedTopic buffer)).len
        used := 2 + announcedLength buffer
      } := by
  have outcome := copynUtf8Str_topicRead nng buffer
  generalize (copynUtf8Str nng buffer 0 buffer.bytes.length).value = result at outcome ⊢
  cases outcome with
  | empty zero =>
      have nothing : announcedTopic buffer = [] := by
        rw [announcedTopic, zero, List.take_zero]
      rw [nothing, zero]
      rfl
  | copied nonzero fits valid =>
      have size := length_announcedTopic fits
      have nonempty : announcedTopic buffer ≠ [] := by
        intro nothing
        rw [nothing] at size
        exact nonzero size.symm
      rw [storedTopic, if_neg nonempty, size]
  | rejected reason => exact absurd reason read

/-- Where decoding goes on behind the topic field. -/
def topicEnd (nng : MqttParser) (buffer : Buffer) : Nat :=
  (copynUtf8Str nng buffer 0 buffer.bytes.length).value.used

theorem topicEnd_read (read : ¬TopicRejected nng buffer)
    : topicEnd nng buffer = 2 + announcedLength buffer := by
  rw [topicEnd, copynUtf8Str_read read]

theorem topicEnd_rejected (rejected : TopicRejected nng buffer)
    : topicEnd nng buffer = nng.copynRejectSkip (announcedLength buffer) := by
  rw [topicEnd, copynUtf8Str_rejected rejected]

/-- The text of the topic field, if it is read and not empty. -/
def ownTopic (nng : MqttParser) (buffer : Buffer) : Option (List UInt8) :=
  (copynUtf8Str nng buffer 0 buffer.bytes.length).value.body

theorem ownTopic_read (read : ¬TopicRejected nng buffer)
    : ownTopic nng buffer = (storedTopic (announcedTopic buffer)).body := by
  rw [ownTopic, copynUtf8Str_read read]

theorem ownTopic_rejected (rejected : TopicRejected nng buffer) : ownTopic nng buffer = none := by
  rw [ownTopic, copynUtf8Str_rejected rejected]

theorem hasWildcard_storedTopic (topic : List UInt8)
    : (storedTopic topic).hasWildcard = true ↔ VisibleWildcard topic := by
  unfold storedTopic MqttString.hasWildcard VisibleWildcard
  cases topic with
  | nil => simp [cstr]
  | cons byte rest => simp

theorem storedTopic_len_lt (buffer : Buffer)
    : (storedTopic (announcedTopic buffer)).len < 65536 := by
  have bound : (announcedTopic buffer).length < 65536 :=
    Nat.lt_of_le_of_lt (List.length_take_le _ _) (value_get16_lt buffer 0)
  unfold storedTopic
  split
  · decide
  · exact bound

/-- A topic that is read stops the decoding only if it has a wildcard. -/
theorem decodeWithTopic_read (packet : PubPacket) (topicLen : Nat)
    (read : ¬TopicRejected nng buffer)
    : let topicName := storedTopic (announcedTopic buffer)
      decodeWithTopic nng buffer proto packet topicLen
        (copynUtf8Str nng buffer 0 buffer.bytes.length).value
      = if topicName.hasWildcard then
          pure (PROTOCOL_ERROR, packet.setTopicName topicName)
        else
          decodeAfterTopic nng buffer proto (packet.setTopicName topicName)
            (2 + announcedLength buffer) := by
  intro topicName
  have small : topicName.len < 65536 := storedTopic_len_lt buffer
  have unsigned : ((topicName.len : Int) % 2 ^ 32).toNat = topicName.len := by omega
  rw [copynUtf8Str_read read]
  unfold decodeWithTopic
  dsimp only
  rw [unsigned, if_pos (Nat.zero_le _)]

theorem decodePublish_value (packet : PubPacket)
    : (decodePublish nng buffer proto packet).value
      = (decodeWithTopic nng buffer proto packet (announcedLength buffer)
          (copynUtf8Str nng buffer 0 buffer.bytes.length).value).value :=
  rfl

theorem decodePublish_stored {packet : PubPacket} (read : ¬TopicRejected nng buffer)
    (hidden : ¬VisibleWildcard (announcedTopic buffer))
    (accepted
      : RestAccepted nng proto buffer.bytes
          (2 + announcedLength buffer + packetIdSize packet.fixedHeader.qos))
    : (decodePublish nng buffer proto packet).value
      = (SUCCESS,
          ((packet.setTopicName (storedTopic (announcedTopic buffer))).storePacketId buffer
              (2 + announcedLength buffer)).storeRest
            nng proto buffer.bytes
            (2 + announcedLength buffer + packetIdSize packet.fixedHeader.qos)) := by
  rw [decodePublish_value, decodeWithTopic_read packet _ read,
    if_neg (mt (hasWildcard_storedTopic _).mp hidden), decodeAfterTopic_value]
  exact decodePropertiesAndPayload_accepted _ accepted

/-- The bodies that the PUBLISH case accepts, rejected topics included. -/
def PublishAccepted (nng : MqttParser) (buffer : Buffer) (proto : Nat) (qos : BitVec 2)
    : Prop :=
  (TopicRejected nng buffer
    ∧ RestAccepted nng proto buffer.bytes
        (nng.copynRejectSkip (announcedLength buffer) + packetIdSize qos))
  ∨ (¬TopicRejected nng buffer
    ∧ ¬VisibleWildcard (announcedTopic buffer)
    ∧ RestAccepted nng proto buffer.bytes (2 + announcedLength buffer + packetIdSize qos))

theorem decodePublish_accepted {packet : PubPacket}
    (accepted : PublishAccepted nng buffer proto packet.fixedHeader.qos)
    : (decodePublish nng buffer proto packet).value.1 = SUCCESS := by
  rcases accepted with ⟨rejected, rest⟩ | ⟨read, hidden, rest⟩
  · rw [decodePublish_value, decodeWithTopic_rejected packet _ rejected,
      decodeAfterTopic_value]
    exact congrArg Prod.fst (decodePropertiesAndPayload_accepted _ rest)
  · exact congrArg Prod.fst (decodePublish_stored read hidden rest)

theorem decodePublish_refused {packet : PubPacket}
    (refused : ¬PublishAccepted nng buffer proto packet.fixedHeader.qos)
    : (decodePublish nng buffer proto packet).value.1 = PROTOCOL_ERROR := by
  rw [decodePublish_value]
  by_cases rejected : TopicRejected nng buffer
  · rw [decodeWithTopic_rejected packet _ rejected, decodeAfterTopic_value]
    exact decodePropertiesAndPayload_refused _ (fun rest => refused (Or.inl ⟨rejected, rest⟩))
  · rw [decodeWithTopic_read packet _ rejected]
    split
    · rfl
    · rename_i plain
      have hidden := mt (hasWildcard_storedTopic _).mpr plain
      rw [decodeAfterTopic_value]
      exact decodePropertiesAndPayload_refused _
        (fun rest => refused (Or.inr ⟨rejected, hidden, rest⟩))

theorem PublishLayout.accepted {qos : BitVec 2} (layout : PublishLayout nng proto qos)
    (stray : Nat → UInt8)
    : PublishAccepted nng { bytes := layout.bytes, stray } proto qos := by
  refine Or.inr ⟨layout.not_topicRejected stray, ?_, ?_⟩
  · rw [layout.announcedTopic_eq]
    rintro (plus | hash)
    · exact layout.topic_plain.1 ((cstr_isPrefix _).subset plus)
    · exact layout.topic_plain.2 ((cstr_isPrefix _).subset hash)
  · rw [layout.announcedLength_eq]
    exact layout.restAccepted

end Publish

-- Acceptance as specified

theorem storedPayload_eq {payload : List UInt8} (short : payload.length < 2 ^ 32)
    : (storedPayload { data := none, len := 0 } payload).len = payload.length
      ∧ (storedPayload { data := none, len := 0 } payload).data.getD [] = payload := by
  simp only [storedPayload, Nat.mod_eq_of_lt short, List.take_length, true_and]
  cases payload with
  | nil => rfl
  | cons byte rest => simp

section Specified

variable {nng : MqttParser} {stray : Nat → UInt8} {msg : NngMsg} {proto : Nat}

theorem decodePubMessage_publish (packet : PubPacket) (publish : msg.type = PUBLISH)
    (complete : msg.remainingLen ≤ msg.body.length)
    : decodePubMessage nng stray msg packet proto
      = decodePublish nng { bytes := msg.body, stray } proto
          { packet with fixedHeader := msg.fixedHeader } :=
  (if_neg (Nat.not_lt.mpr complete)).trans (if_pos publish)

theorem decodePubMessage_incomplete (packet : PubPacket)
    (incomplete : msg.body.length < msg.remainingLen)
    : decodePubMessage nng stray msg packet proto
      = pure (PROTOCOL_ERROR, { packet with fixedHeader := msg.fixedHeader }) :=
  if_pos incomplete

theorem decodePubMessage_stored (packet : PubPacket) (publish : msg.type = PUBLISH)
    (complete : msg.remainingLen ≤ msg.body.length)
    (read : ¬TopicRejected nng { bytes := msg.body, stray })
    (hidden : ¬VisibleWildcard (announcedTopic { bytes := msg.body, stray }))
    (rest
      : RestAccepted nng proto msg.body
          (2 + announcedLength { bytes := msg.body, stray }
            + packetIdSize msg.fixedHeader.qos))
    : (decodePubMessage nng stray msg packet proto).value
      = (SUCCESS,
          (({ packet with fixedHeader := msg.fixedHeader }.setTopicName
                (storedTopic (announcedTopic { bytes := msg.body, stray }))).storePacketId
              { bytes := msg.body, stray }
              (2 + announcedLength { bytes := msg.body, stray })).storeRest
            nng proto msg.body
            (2 + announcedLength { bytes := msg.body, stray }
              + packetIdSize msg.fixedHeader.qos)) := by
  rw [decodePubMessage_publish packet publish complete]
  exact decodePublish_stored read hidden rest

section Layout

variable {qos : BitVec 2} (layout : PublishLayout nng proto qos) (packet : PubPacket)
  (body : msg.body = layout.bytes) (publish : msg.type = PUBLISH)
  (sameQos : msg.fixedHeader.qos = qos) (complete : msg.remainingLen ≤ msg.body.length)

include body publish sameQos complete

theorem PublishLayout.decoded
    : (decodePubMessage nng stray msg packet proto).value
      = (SUCCESS,
          (({ packet with fixedHeader := msg.fixedHeader }.setTopicName
                (storedTopic layout.topic)).storePacketId
              { bytes := layout.bytes, stray } (2 + layout.topic.length)).storeRest
            nng proto layout.bytes layout.restStart) := by
  subst sameQos
  have accepted := layout.accepted stray
  rw [← body] at accepted
  obtain ⟨rejected, _⟩ | ⟨read, hidden, rest⟩ := accepted
  · rw [body] at rejected
    exact absurd rejected (layout.not_topicRejected stray)
  · rw [decodePubMessage_stored packet publish complete read hidden rest, body,
      layout.announcedLength_eq, layout.announcedTopic_eq]
    rfl

theorem PublishLayout.decoded_payload
    : (decodePubMessage nng stray msg .zeroed proto).value.2.payload
      = storedPayload { data := none, len := 0 } layout.payload := by
  rw [layout.decoded .zeroed body publish sameQos complete, PubPacket.storeRest_payload,
    PubPacket.storePacketId_payload, layout.drop_properties]
  rfl

theorem PublishLayout.decoded_fixedHeader
    : (decodePubMessage nng stray msg packet proto).value.2.fixedHeader
      = msg.fixedHeader := by
  rw [layout.decoded packet body publish sameQos complete, PubPacket.storeRest_fixedHeader,
    PubPacket.storePacketId_fixedHeader]
  rfl

theorem PublishLayout.decoded_properties {found : PropertySection}
    (v5 : proto = MQTT_PROTOCOL_VERSION_v5)
    (parsed : nng.propertySection (layout.propertyBytes ++ layout.payload) = some found)
    : (decodePubMessage nng stray msg packet proto).value.2.publish.properties
      = found.properties := by
  rw [layout.decoded packet body publish sameQos complete, PubPacket.storeRest_properties,
    if_pos v5, decodeProperties, layout.drop_packetId, parsed]

theorem PublishLayout.carries (short : layout.payload.length < 2 ^ 32)
    : (decodePubMessage nng stray msg .zeroed proto).value.2.Carries layout := by
  obtain ⟨len, data⟩ := storedPayload_eq short
  have payload
      : (decodePubMessage nng stray msg .zeroed proto).value.2.payload = _ :=
    layout.decoded_payload body publish sameQos complete
  refine { topic := ?_, packetId := ?_, payload := ?_, payloadLen := ?_ }
  · rw [layout.decoded .zeroed body publish sameQos complete, PubPacket.storeRest_topicName,
      PubPacket.storePacketId_topicName]
    rfl
  · intro present
    rw [layout.decoded .zeroed body publish sameQos complete, PubPacket.storeRest_packetId,
      PubPacket.storePacketId_packetId _ _ (sameQos.symm ▸ present)]
    apply value_get16_put layout.packetId_short
    rw [layout.drop_topic, packetIdBytes, if_neg present]
  · rw [payload, data]
  · rw [payload, len]

end Layout

theorem Misaccepted.accepted {qos : BitVec 2} {buffer : Buffer}
    (misaccepted : Misaccepted nng buffer proto qos)
    : PublishAccepted nng buffer proto qos := by
  obtain ⟨rejected, rest⟩ | ⟨read, rest, hidden, _⟩ := misaccepted
  · exact Or.inl ⟨rejected, rest⟩
  · exact Or.inr ⟨read, hidden, rest⟩

theorem PublishLayout.misaccepted_iff {qos : BitVec 2} (layout : PublishLayout nng proto qos)
    : Misaccepted nng { bytes := layout.bytes, stray } proto qos
      ↔ 2 ^ 32 ≤ layout.payload.length := by
  have size
      : layout.bytes.length - payloadStart nng proto layout.bytes layout.restStart
        = layout.payload.length := by
    rw [← List.length_drop, layout.drop_properties]
  obtain ⟨rejected, _⟩ | ⟨read, hidden, rest⟩ := layout.accepted stray
  · exact absurd rejected (layout.not_topicRejected stray)
  · constructor
    · rintro (⟨rejected, _⟩ | ⟨_, _, _, reason⟩)
      · exact absurd rejected read
      · simp only [layout.announcedTopic_eq, layout.announcedLength_eq] at reason
        obtain plus | hash | ⟨v5, malformed⟩ | long := reason
        · exact absurd plus layout.topic_plain.1
        · exact absurd hash layout.topic_plain.2
        · have found := layout.propertySection_isSome v5
          rw [PublishLayout.restStart, malformed] at found
          cases found
        · exact size ▸ long
    · intro long
      refine Or.inr ⟨read, rest, hidden, Or.inr (Or.inr (Or.inr ?_))⟩
      rw [layout.announcedLength_eq]
      exact size.symm ▸ long

theorem exists_layout_of_accepted {qos : BitVec 2} {buffer : Buffer}
    (accepted : PublishAccepted nng buffer proto qos)
    (exact_ : ¬Misaccepted nng buffer proto qos)
    : ∃ layout : PublishLayout nng proto qos, buffer.bytes = layout.bytes := by
  obtain ⟨rejected, rest⟩ | ⟨read, hidden, rest⟩ := accepted
  · exact absurd (Or.inl ⟨rejected, rest⟩) exact_
  · have reasons := fun reason => exact_ (Or.inr ⟨read, rest, hidden, reason⟩)
    refine exists_layout read rest ⟨?_, ?_⟩ ?_
    · exact fun plus => reasons (Or.inl plus)
    · exact fun hash => reasons (Or.inr (Or.inl hash))
    · exact fun v5 malformed => reasons (Or.inr (Or.inr (Or.inl ⟨v5, malformed⟩)))

/-- The decoder does what is specified exactly for the bodies it does not misaccept. -/
theorem decodePubMessage_asSpecified_iff (nng : MqttParser) (stray : Nat → UInt8)
    (msg : NngMsg) (proto : Nat) (publish : msg.type = PUBLISH)
    : DecodesAsSpecified nng stray msg proto
      ↔ msg.body.length < msg.remainingLen
        ∨ ¬Misaccepted nng { bytes := msg.body, stray } proto msg.fixedHeader.qos := by
  rcases Nat.lt_or_ge msg.body.length msg.remainingLen with incomplete | complete
  · refine iff_of_true ?_ (Or.inl incomplete)
    exact {
      accepts := fun _ complete _ => absurd incomplete (Nat.not_lt.mpr complete)
      refuses := fun _ => by rw [decodePubMessage_incomplete .zeroed incomplete]; rfl
    }
  · rw [or_iff_right (Nat.not_lt.mpr complete)]
    have decoded
        : decodePubMessage nng stray msg .zeroed proto
          = decodePublish nng { bytes := msg.body, stray } proto
              { PubPacket.zeroed with fixedHeader := msg.fixedHeader } :=
      decodePubMessage_publish .zeroed publish complete
    constructor
    · intro specified misaccepted
      have code : (decodePubMessage nng stray msg .zeroed proto).value.1 = SUCCESS := by
        rw [decoded]
        exact decodePublish_accepted misaccepted.accepted
      by_cases wellFormed
          : ∃ layout : PublishLayout nng proto msg.fixedHeader.qos, msg.body = layout.bytes
      · obtain ⟨layout, body⟩ := wellFormed
        have carried := (specified.accepts layout complete body).2.payloadLen
        rw [layout.decoded_payload body publish rfl complete] at carried
        rw [body, layout.misaccepted_iff] at misaccepted
        have stored : layout.payload.length % 2 ^ 32 = layout.payload.length := carried
        omega
      · have refused := specified.refuses (fun both => wellFormed both.2)
        rw [code] at refused
        exact absurd refused (by decide)
    · intro exact_
      refine { accepts := ?_, refuses := ?_ }
      · intro layout _ body
        have accepted := layout.accepted stray
        rw [← body] at accepted
        refine ⟨?_, layout.carries body publish rfl complete ?_⟩
        · rw [decoded]
          exact decodePublish_accepted accepted
        · rw [body, layout.misaccepted_iff] at exact_
          exact Nat.lt_of_not_le exact_
      · intro malformed
        rw [decoded]
        refine decodePublish_refused (fun accepted => malformed ⟨complete, ?_⟩)
        exact exists_layout_of_accepted accepted exact_

end Specified

/-- A PUBLISH of QoS 1 to topic `a` with packet id 7 and payload `x`. -/
def plainLayout : PublishLayout referenceParser MQTT_PROTOCOL_VERSION_v311 1 :=
  {
    topic := [97]
    packetId := 7
    propertyBytes := []
    payload := [120]
    topic_short := by decide
    topic_valid := Or.inr rfl
    topic_plain := by decide
    packetId_short := by decide
    properties_valid := rfl
  }

/-- The plain PUBLISH is decoded as specified. -/
theorem plainLayout_asSpecified
    : let msg := NngMsg.received .PUBLISH [0x32, 6] plainLayout.bytes 1 (.plain 4)
      msg.type = PUBLISH
      ∧ DecodesAsSpecified referenceParser (fun _ => 0) msg MQTT_PROTOCOL_VERSION_v311 := by
  refine ⟨by decide, ?_⟩
  refine (decodePubMessage_asSpecified_iff _ _ _ _ (by decide)).mpr (Or.inr ?_)
  exact plainLayout.misaccepted_iff.not.mpr (by decide)

/-- A version 3.1.1 PUBLISH whose topic is the single byte 0xFF is accepted: the topic
becomes NULL and its byte part of the payload.
-/
theorem invalid_topic_accepted
    : let msg := NngMsg.received .PUBLISH [0x30, 4] [0, 1, 0xFF, 120] 1 (.plain 4)
      let decoded :=
        (decodePubMessage referenceParser (fun _ => 0) msg .zeroed
          MQTT_PROTOCOL_VERSION_v311).value
      decoded.1 = SUCCESS
      ∧ decoded.2.publish.topicName = { body := none, len := 2 ^ 32 - 1 }
      ∧ decoded.2.payload = { data := some [0xFF, 120], len := 2 }
      ∧ ¬DecodesAsSpecified referenceParser (fun _ => 0) msg MQTT_PROTOCOL_VERSION_v311 := by
  refine ⟨by decide, by decide, by decide, ?_⟩
  intro specified
  refine absurd (specified.refuses ?_) (by decide)
  rintro ⟨_, layout, body⟩
  have read := layout.not_topicRejected (fun _ => 0)
  rw [← body] at read
  exact read ⟨by decide, Or.inr (by decide)⟩

end NanoMQ
