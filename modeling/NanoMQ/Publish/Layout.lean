import NanoMQ.Publish.Decode

/-! Well-formed PUBLISH bodies, and what the decoder finds in one. -/

namespace NanoMQ

open Bytes Reading

/-- The packet id field, present for QoS above zero. -/
def packetIdBytes (qos : BitVec 2) (packetId : Nat) : List UInt8 :=
  if qos = 0 then [] else putU16 packetId

theorem length_packetIdBytes (qos : BitVec 2) (packetId : Nat)
    : (packetIdBytes qos packetId).length = packetIdSize qos := by
  unfold packetIdBytes packetIdSize
  split <;> rfl

/-- These bytes are the valid property section in front of a payload; only version 5 has
one.
-/
def PropertiesValid (nng : MqttParser) (proto : Nat) (propertyBytes payload : List UInt8)
    : Prop :=
  if proto = MQTT_PROTOCOL_VERSION_v5 then
    ∃ found,
      nng.propertySection (propertyBytes ++ payload) = some found
      ∧ found.consumed = propertyBytes.length
      ∧ publishPropertiesValid nng found.properties = true
  else propertyBytes = []

/-- The parts of a well-formed PUBLISH body: a topic without wildcards, a packet id for
QoS above zero, for version 5 a valid property section, and the payload.
-/
structure PublishLayout (nng : MqttParser) (proto : Nat) (qos : BitVec 2) where
  topic : List UInt8
  packetId : Nat
  propertyBytes : List UInt8
  payload : List UInt8
  topic_short : topic.length < 65536
  topic_valid : topic = [] ∨ nng.utf8Check topic = true
  topic_plain : (43 : UInt8) ∉ topic ∧ (35 : UInt8) ∉ topic
  packetId_short : packetId < 65536
  properties_valid : PropertiesValid nng proto propertyBytes payload

namespace PublishLayout

variable {nng : MqttParser} {proto : Nat} {qos : BitVec 2}
  (layout : PublishLayout nng proto qos) (stray : Nat → UInt8)

/-- The body that is made of these parts. -/
def bytes : List UInt8 :=
  putU16 layout.topic.length
  ++ (layout.topic
    ++ (packetIdBytes qos layout.packetId ++ (layout.propertyBytes ++ layout.payload)))

/-- The position behind the packet id. -/
def restStart : Nat :=
  2 + layout.topic.length + packetIdSize qos

theorem drop_length
    : layout.bytes.drop 2
      = layout.topic
        ++ (packetIdBytes qos layout.packetId ++ (layout.propertyBytes ++ layout.payload)) := by
  exact List.drop_left' (length_putU16 _)

theorem drop_topic
    : layout.bytes.drop (2 + layout.topic.length)
      = packetIdBytes qos layout.packetId ++ (layout.propertyBytes ++ layout.payload) := by
  rw [← List.drop_drop, layout.drop_length]
  exact List.drop_left

theorem drop_packetId
    : layout.bytes.drop layout.restStart = layout.propertyBytes ++ layout.payload := by
  rw [restStart, ← List.drop_drop, layout.drop_topic]
  exact List.drop_left' (length_packetIdBytes _ _)

theorem length_eq
    : layout.bytes.length
      = layout.restStart + (layout.propertyBytes.length + layout.payload.length) := by
  simp only [bytes, List.length_append, length_putU16, length_packetIdBytes, restStart]
  omega

theorem announcedLength_eq
    : announcedLength { bytes := layout.bytes, stray } = layout.topic.length :=
  value_get16_put layout.topic_short rfl

theorem announcedTopic_eq : announcedTopic { bytes := layout.bytes, stray } = layout.topic := by
  rw [announcedTopic, layout.announcedLength_eq, layout.drop_length]
  exact List.take_left

theorem not_topicRejected : ¬TopicRejected nng { bytes := layout.bytes, stray } := by
  rintro ⟨nonempty, tooLong | invalid⟩
  · have size := layout.length_eq
    simp only [layout.announcedLength_eq, restStart] at tooLong size
    omega
  · rw [layout.announcedLength_eq] at nonempty
    rw [layout.announcedTopic_eq] at invalid
    rcases layout.topic_valid with empty | valid
    · exact nonempty (by rw [empty]; rfl)
    · rw [valid] at invalid
      cases invalid

theorem payloadStart_eq
    : payloadStart nng proto layout.bytes layout.restStart
      = layout.restStart + layout.propertyBytes.length := by
  have section_valid := layout.properties_valid
  unfold PropertiesValid at section_valid
  unfold payloadStart
  split
  · rename_i v5
    rw [if_pos v5] at section_valid
    obtain ⟨found, parsed, consumed, _⟩ := section_valid
    rw [decodeProperties, layout.drop_packetId, parsed, consumed]
  · rename_i old
    rw [if_neg old] at section_valid
    rw [section_valid]
    rfl

theorem restAccepted : RestAccepted nng proto layout.bytes layout.restStart := by
  have section_valid := layout.properties_valid
  unfold PropertiesValid at section_valid
  have size := layout.length_eq
  unfold RestAccepted
  split
  · rename_i v5
    rw [if_pos v5] at section_valid
    obtain ⟨found, parsed, consumed, valid⟩ := section_valid
    rw [decodeProperties, layout.drop_packetId, parsed]
    exact ⟨valid, by rw [consumed]; omega⟩
  · omega

theorem drop_properties
    : layout.bytes.drop (payloadStart nng proto layout.bytes layout.restStart)
      = layout.payload := by
  rw [layout.payloadStart_eq, ← List.drop_drop, layout.drop_packetId]
  exact List.drop_left

theorem propertySection_isSome (v5 : proto = MQTT_PROTOCOL_VERSION_v5)
    : (nng.propertySection (layout.bytes.drop layout.restStart)).isSome := by
  have section_valid := layout.properties_valid
  unfold PropertiesValid at section_valid
  rw [if_pos v5] at section_valid
  obtain ⟨found, parsed, _⟩ := section_valid
  rw [layout.drop_packetId, parsed]
  rfl

end PublishLayout

theorem RestAccepted.start_le {nng : MqttParser} {proto : Nat} {body : List UInt8}
    {start : Nat} (accepted : RestAccepted nng proto body start)
    : start ≤ body.length := by
  unfold RestAccepted at accepted
  split at accepted
  · exact Nat.le_trans (Nat.le_add_right _ _) accepted.2
  · exact accepted

theorem length_announcedTopic {buffer : Buffer}
    (fits : 2 + announcedLength buffer ≤ buffer.bytes.length)
    : (announcedTopic buffer).length = announcedLength buffer := by
  rw [announcedTopic, List.length_take, List.length_drop]
  omega

theorem drop_eq_packetIdBytes (qos : BitVec 2) {buffer : Buffer} {pos : Nat}
    (inside : pos + packetIdSize qos ≤ buffer.bytes.length)
    : buffer.bytes.drop pos
      = packetIdBytes qos (buffer.get16 pos).value
        ++ buffer.bytes.drop (pos + packetIdSize qos) := by
  unfold packetIdSize packetIdBytes at *
  split
  · rfl
  · rename_i present
    rw [if_neg present] at inside
    exact drop_eq_putU16 inside

theorem bytes_eq_fields (qos : BitVec 2) {buffer : Buffer}
    (inside : 2 + announcedLength buffer + packetIdSize qos ≤ buffer.bytes.length)
    : buffer.bytes
      = putU16 (announcedLength buffer)
        ++ (announcedTopic buffer
          ++ (packetIdBytes qos (buffer.get16 (2 + announcedLength buffer)).value
            ++ buffer.bytes.drop (2 + announcedLength buffer + packetIdSize qos))) := by
  have topicField
      : buffer.bytes.drop 2
        = announcedTopic buffer ++ buffer.bytes.drop (2 + announcedLength buffer) := by
    rw [announcedTopic, ← List.drop_drop, List.take_append_drop]
  rw [← drop_eq_packetIdBytes qos inside, ← topicField]
  exact drop_eq_putU16 (show 0 + 2 ≤ buffer.bytes.length by omega)

/-- An accepted rest with a valid property section splits into properties and payload. -/
theorem exists_properties {nng : MqttParser} {proto : Nat} {body : List UInt8} {start : Nat}
    (accepted : RestAccepted nng proto body start)
    (parsed
      : proto = MQTT_PROTOCOL_VERSION_v5 → nng.propertySection (body.drop start) ≠ none)
    : ∃ propertyBytes payload,
        body.drop start = propertyBytes ++ payload
        ∧ PropertiesValid nng proto propertyBytes payload := by
  unfold RestAccepted at accepted
  unfold PropertiesValid
  by_cases v5 : proto = MQTT_PROTOCOL_VERSION_v5
  · simp only [v5, if_true] at accepted ⊢
    cases found : nng.propertySection (body.drop start) with
    | none => exact absurd found (parsed v5)
    | some properties =>
        have decoded : decodeProperties nng body start = properties := by
          rw [decodeProperties, found]
        rw [decoded] at accepted
        obtain ⟨valid, within⟩ := accepted
        refine ⟨(body.drop start).take properties.consumed,
          (body.drop start).drop properties.consumed,
          (List.take_append_drop _ _).symm, properties, ?_, ?_, valid⟩
        · rw [List.take_append_drop, found]
        · rw [List.length_take, List.length_drop]
          omega
  · simp only [v5, if_false]
    exact ⟨[], body.drop start, rfl, rfl⟩

/-- A body whose topic is read, whose rest is accepted and which has neither a wildcard nor
an invalid property section is well formed. Witness: cut the body at the positions the
decoder passes.
-/
theorem exists_layout {nng : MqttParser} {proto : Nat} {qos : BitVec 2} {buffer : Buffer}
    (read : ¬TopicRejected nng buffer)
    (accepted
      : RestAccepted nng proto buffer.bytes
          (2 + announcedLength buffer + packetIdSize qos))
    (plain : (43 : UInt8) ∉ announcedTopic buffer ∧ (35 : UInt8) ∉ announcedTopic buffer)
    (parsed
      : proto = MQTT_PROTOCOL_VERSION_v5
        → nng.propertySection
            (buffer.bytes.drop (2 + announcedLength buffer + packetIdSize qos))
          ≠ none)
    : ∃ layout : PublishLayout nng proto qos, buffer.bytes = layout.bytes := by
  have inside := accepted.start_le
  have fits : 2 + announcedLength buffer ≤ buffer.bytes.length := by omega
  have size := length_announcedTopic fits
  have valid : announcedTopic buffer = [] ∨ nng.utf8Check (announcedTopic buffer) = true := by
    rcases Nat.eq_zero_or_pos (announcedLength buffer) with zero | some
    · exact Or.inl (List.eq_nil_of_length_eq_zero (size.trans zero))
    · refine Or.inr (Bool.not_eq_false _ ▸ fun invalid => ?_)
      exact read ⟨Nat.ne_of_gt some, Or.inr invalid⟩
  obtain ⟨propertyBytes, payload, restField, propertiesValid⟩ :=
    exists_properties accepted parsed
  refine ⟨{
      topic := announcedTopic buffer
      packetId := (buffer.get16 (2 + announcedLength buffer)).value
      propertyBytes
      payload
      topic_short := by rw [size]; exact value_get16_lt buffer 0
      topic_valid := valid
      topic_plain := plain
      packetId_short := value_get16_lt _ _
      properties_valid := propertiesValid
    }, ?_⟩
  simp only [PublishLayout.bytes]
  rw [← restField, size]
  exact bytes_eq_fields qos inside

end NanoMQ
