import NanoMQ.Publish.RoundTrip

/-! What is known about a packet that `decode_pub_message` has accepted, and that it can be
encoded again under the topic it is routed to.
-/

namespace NanoMQ

open Bytes Reading

/-- Valid strings have no NUL, so that a C string is the whole of it. -/
def MqttParser.RejectsNul (nng : MqttParser) : Prop :=
  ∀ text, nng.utf8Check text = true → (0 : UInt8) ∉ text

/-- The topic name is NULL, or it is the whole of a topic that may stand in a PUBLISH. -/
def MqttString.Sound (topicName : MqttString) (nng : MqttParser) : Prop :=
  topicName.body = none
  ∨ ∃ topic,
      topicName = { body := some topic, len := topic.length } ∧ PublishTopic nng topic

/-- What decoding guarantees of a packet. -/
structure PubPacket.Sound (packet : PubPacket) (nng : MqttParser) (proto : Nat) : Prop where
  topicName : packet.publish.topicName.Sound nng
  packetId : packet.publish.packetId < 65536
  payload : packet.payload.len = (packet.payload.data.getD []).length
  payloadShort : packet.payload.len < 2 ^ 32
  propertiesValid
    : proto = MQTT_PROTOCOL_VERSION_v5
      → publishPropertiesValid nng packet.publish.properties = true

section Decoded

variable {nng : MqttParser} {buffer : Buffer} {proto : Nat}

theorem storedTopic_sound (rejectsNul : nng.RejectsNul) (read : ¬TopicRejected nng buffer)
    (hidden : ¬VisibleWildcard (announcedTopic buffer))
    : (storedTopic (announcedTopic buffer)).Sound nng := by
  unfold storedTopic
  split
  · exact Or.inl rfl
  · rename_i nonempty
    have nonzero : announcedLength buffer ≠ 0 := by
      intro zero
      exact nonempty (by rw [announcedTopic, zero, List.take_zero])
    have valid : nng.utf8Check (announcedTopic buffer) = true := by
      by_contra invalid
      exact read ⟨nonzero, Or.inr (Bool.eq_false_of_not_eq_true invalid)⟩
    have bound : (announcedTopic buffer).length < 65536 :=
      Nat.lt_of_le_of_lt (List.length_take_le _ _) (value_get16_lt buffer 0)
    unfold VisibleWildcard at hidden
    rw [cstr_of_not_mem (rejectsNul _ valid), not_or] at hidden
    exact Or.inr ⟨_, rfl, { nonempty, short := by omega, valid, plain := hidden }⟩

/-- An accepted body is a topic name, a packet id and a rest that is accepted behind it; the
name is NULL, or it is the topic that was announced and read.
-/
theorem decodePublish_accepts {packet : PubPacket}
    (accepted : PublishAccepted nng buffer proto packet.fixedHeader.qos)
    : ∃ topicName,
        (topicName.body = none ∧ TopicRejected nng buffer
          ∨ topicName = storedTopic (announcedTopic buffer)
            ∧ ¬TopicRejected nng buffer
            ∧ ¬VisibleWildcard (announcedTopic buffer))
        ∧ RestAccepted nng proto buffer.bytes
            (topicEnd nng buffer + packetIdSize packet.fixedHeader.qos)
        ∧ (decodePublish nng buffer proto packet).value.2
          = ((packet.setTopicName topicName).storePacketId buffer
              (topicEnd nng buffer)).storeRest nng proto buffer.bytes
                (topicEnd nng buffer + packetIdSize packet.fixedHeader.qos) := by
  rcases accepted with ⟨rejected, rest⟩ | ⟨read, hidden, rest⟩
  · rw [topicEnd_rejected rejected]
    refine ⟨{ body := none, len := 2 ^ 32 - 1 }, Or.inl ⟨rfl, rejected⟩, rest, ?_⟩
    rw [decodePublish_value, decodeWithTopic_rejected packet _ rejected,
      decodeAfterTopic_value]
    exact congrArg Prod.snd (decodePropertiesAndPayload_accepted _ rest)
  · rw [topicEnd_read read]
    exact ⟨storedTopic (announcedTopic buffer), Or.inr ⟨rfl, read, hidden⟩, rest,
      congrArg Prod.snd (decodePublish_stored read hidden rest)⟩

theorem decodePubMessage_stores {stray : Nat → UInt8} {msg : NngMsg}
    (publish : msg.type = PUBLISH)
    (success : (decodePubMessage nng stray msg .zeroed proto).value.1 = SUCCESS)
    : let buffer : Buffer := { bytes := msg.body, stray }
      let start := topicEnd nng buffer + packetIdSize msg.fixedHeader.qos
      ∃ topicName,
        (topicName.body = none ∧ TopicRejected nng buffer
          ∨ topicName = storedTopic (announcedTopic buffer)
            ∧ ¬TopicRejected nng buffer
            ∧ ¬VisibleWildcard (announcedTopic buffer))
        ∧ RestAccepted nng proto msg.body start
        ∧ (decodePubMessage nng stray msg .zeroed proto).value.2
          = (({ PubPacket.zeroed with fixedHeader := msg.fixedHeader }.setTopicName
                topicName).storePacketId buffer (topicEnd nng buffer)).storeRest nng proto
              msg.body start := by
  obtain ⟨complete, accepted⟩ := publishAccepted_of_success publish success
  rw [decodePubMessage_publish .zeroed publish complete]
  exact @decodePublish_accepts nng _ proto
    { PubPacket.zeroed with fixedHeader := msg.fixedHeader } accepted

/-- An accepted PUBLISH keeps its fixed header, and its topic name is NULL or has a length. -/
theorem decodePubMessage_accepts {stray : Nat → UInt8} {msg : NngMsg}
    (publish : msg.type = PUBLISH)
    (success : (decodePubMessage nng stray msg .zeroed proto).value.1 = SUCCESS)
    : let packet := (decodePubMessage nng stray msg .zeroed proto).value.2
      packet.fixedHeader = msg.fixedHeader
      ∧ (packet.publish.topicName.body ≠ none → 0 < packet.publish.topicName.len) := by
  obtain ⟨topicName, named, _, stored⟩ := decodePubMessage_stores publish success
  rw [stored]
  dsimp only
  rw [PubPacket.storeRest_topicName, PubPacket.storePacketId_topicName,
    PubPacket.storeRest_fixedHeader, PubPacket.storePacketId_fixedHeader]
  refine ⟨rfl, ?_⟩
  change topicName.body ≠ none → 0 < topicName.len
  intro present
  rcases named with ⟨nothing, _⟩ | ⟨rfl, _, _⟩
  · exact absurd nothing present
  · unfold storedTopic at present ⊢
    split at present
    · exact absurd rfl present
    · rename_i nonempty
      rw [if_neg nonempty]
      exact List.length_pos_iff.mpr nonempty

theorem storedPayload_sound (bytes : List UInt8)
    : let payload := storedPayload { data := none, len := 0 } bytes
      payload.len = (payload.data.getD []).length ∧ payload.len < 2 ^ 32 := by
  have bound := Nat.mod_lt bytes.length (by decide : 0 < 2 ^ 32)
  have below := Nat.mod_le bytes.length (2 ^ 32)
  unfold storedPayload
  dsimp only
  split
  · rw [Option.getD_some, List.length_take]
    omega
  · rw [Option.getD_none, List.length_nil]
    omega

theorem RestAccepted.propertiesValid {start : Nat} {body : List UInt8}
    (accepted : RestAccepted nng proto body start) (packet : PubPacket)
    (v5 : proto = MQTT_PROTOCOL_VERSION_v5)
    : publishPropertiesValid nng
        (packet.storeRest nng proto body start).publish.properties
      = true := by
  rw [PubPacket.storeRest_properties, if_pos v5]
  rw [RestAccepted, if_pos v5] at accepted
  exact accepted.1

theorem decodePubMessage_sound {stray : Nat → UInt8} {msg : NngMsg}
    (rejectsNul : nng.RejectsNul) (publish : msg.type = PUBLISH)
    (success : (decodePubMessage nng stray msg .zeroed proto).value.1 = SUCCESS)
    : (decodePubMessage nng stray msg .zeroed proto).value.2.Sound nng proto
      ∧ (decodePubMessage nng stray msg .zeroed proto).value.2.fixedHeader
        = msg.fixedHeader := by
  obtain ⟨topicName, named, rest, stored⟩ := decodePubMessage_stores publish success
  rw [stored]
  refine ⟨?_, ?_⟩
  · refine {
        topicName := ?_
        packetId := ?_
        payload := ?_
        payloadShort := ?_
        propertiesValid := rest.propertiesValid _
      }
    · rw [PubPacket.storeRest_topicName, PubPacket.storePacketId_topicName]
      rcases named with ⟨nothing, _⟩ | ⟨rfl, read, hidden⟩
      · exact Or.inl nothing
      · exact storedTopic_sound rejectsNul read hidden
    · rw [PubPacket.storeRest_packetId]
      unfold PubPacket.storePacketId
      split
      · exact (by decide : 0 < 65536)
      · exact value_get16_lt _ _
    · rw [PubPacket.storeRest_payload, PubPacket.storePacketId_payload]
      exact (storedPayload_sound _).1
    · rw [PubPacket.storeRest_payload, PubPacket.storePacketId_payload]
      exact (storedPayload_sound _).2
  · rw [PubPacket.storeRest_fixedHeader, PubPacket.storePacketId_fixedHeader]
    rfl

end Decoded

end NanoMQ
