import NanoMQ.Nng.Message

/-! The PUBLISH packet of `pub_handler.h` and `decode_pub_message`. -/

namespace NanoMQ

open Bytes Reading

/-- The fixed header: the bit fields of its first byte and the remaining length. -/
structure FixedHeader where
  retain : Bool
  qos : BitVec 2
  dup : Bool
  packetType : BitVec 4
  remainLen : Nat
  deriving DecidableEq, Repr

/-- The bit fields of a header byte, the lowest bit first. -/
def FixedHeader.ofByte (byte : UInt8) (remainLen : Nat) : FixedHeader :=
  {
    retain := byte.toBitVec.getLsbD 0
    qos := byte.toBitVec.extractLsb' 1 2
    dup := byte.toBitVec.getLsbD 3
    packetType := byte.toBitVec.extractLsb' 4 4
    remainLen
  }

/-- The byte that holds the bit fields. -/
def FixedHeader.toByte (header : FixedHeader) : UInt8 :=
  .ofBitVec
    (header.packetType ++ BitVec.ofBool header.dup ++ header.qos
      ++ BitVec.ofBool header.retain)

structure MqttString where
  body : Option (List UInt8)
  len : Nat
  deriving DecidableEq, Repr

structure PublishHeader where
  packetId : Nat
  topicName : MqttString
  properties : Option (List Property)
  propLen : Nat
  deriving DecidableEq, Repr

structure PubArrcHeader where
  packetId : Nat
  reasonCode : UInt8
  properties : Option (List Property)
  propLen : Nat
  deriving DecidableEq, Repr

structure MqttPayload where
  data : Option (List UInt8)
  len : Nat
  deriving DecidableEq, Repr

/-- A decoded packet. The two views of the variable header share memory in the source;
the packet type selects the one in use, so they are kept apart here.
-/
structure PubPacket where
  fixedHeader : FixedHeader
  publish : PublishHeader
  pubArrc : PubArrcHeader
  payload : MqttPayload
  deriving DecidableEq, Repr

/-- A packet as `nng_zalloc` returns it. -/
def PubPacket.zeroed : PubPacket :=
  {
    fixedHeader := { retain := false, qos := 0, dup := false, packetType := 0, remainLen := 0 }
    publish :=
      { packetId := 0, topicName := { body := none, len := 0 }, properties := none, propLen := 0 }
    pubArrc := { packetId := 0, reasonCode := 0, properties := none, propLen := 0 }
    payload := { data := none, len := 0 }
  }

def PubPacket.setTopicName (packet : PubPacket) (topicName : MqttString) : PubPacket :=
  { packet with publish := { packet.publish with topicName } }

def PubPacket.setPacketId (packet : PubPacket) (packetId : Nat) : PubPacket :=
  { packet with publish := { packet.publish with packetId } }

def PubPacket.setProperties (packet : PubPacket) (properties : Option (List Property))
    (propLen : Nat)
    : PubPacket :=
  { packet with publish := { packet.publish with properties, propLen } }

-- decode_pub_message

/-- A wildcard in a topic that is there; `strchr` looks no further than the first NUL. -/
def MqttString.hasWildcard (topic : MqttString) : Bool :=
  match topic.body with
  | none => false
  | some text =>
      decide (0 < topic.len) && ((cstr text).contains 43 || (cstr text).contains 35)

/-- The properties of a PUBLISH are checked only when there are any. -/
def publishPropertiesValid (nng : MqttParser) (properties : Option (List Property)) : Bool :=
  match properties with
  | none => true
  | some _ =>
      nng.checkProperties properties
      && (propertyGetValue properties SUBSCRIPTION_IDENTIFIER).isNone

section Decode

variable (nng : MqttParser) (buffer : Buffer)

/-- The payload is what is left; its length is stored in 32 bits. -/
def decodePayload (packet : PubPacket) (pos : Nat) : Reader (ReasonCode × PubPacket) := do
  if buffer.bytes.length < pos then
    return (PROTOCOL_ERROR, packet)
  else
    let len := (buffer.bytes.length - pos) % 2 ^ 32
    if 0 < len then do
      let data ← buffer.span pos len
      return (SUCCESS, { packet with payload := { data := some data, len } })
    else
      return (SUCCESS, { packet with payload := { packet.payload with len } })

/-- The properties of a version 5 packet, and the payload. -/
def decodePropertiesAndPayload (proto : Nat) (packet : PubPacket) (pos : Nat)
    : Reader (ReasonCode × PubPacket) :=
  if proto = MQTT_PROTOCOL_VERSION_v5 then
    let found := decodeProperties nng buffer.bytes pos
    let packet := packet.setProperties found.properties found.propLen
    if publishPropertiesValid nng found.properties then
      decodePayload buffer packet (pos + found.consumed)
    else
      pure (PROTOCOL_ERROR, packet)
  else
    decodePayload buffer packet pos

/-- What follows the topic: the packet id when there is one, properties and payload. -/
def decodeAfterTopic (proto : Nat) (packet : PubPacket) (pos : Nat)
    : Reader (ReasonCode × PubPacket) := do
  if packet.fixedHeader.qos = 0 then
    decodePropertiesAndPayload nng buffer proto packet pos
  else
    let packetId ← buffer.get16 pos
    decodePropertiesAndPayload nng buffer proto (packet.setPacketId packetId) (pos + 2)

/-- Go on with the topic that was copied. Its length is kept in an unsigned variable, so
the test for a rejected string never fails.
-/
def decodeWithTopic (proto : Nat) (packet : PubPacket) (topicLen : Nat) (copied : StrResult)
    : Reader (ReasonCode × PubPacket) :=
  let len : Nat := (copied.len % 2 ^ 32).toNat
  if 0 ≤ len then
    let topicName : MqttString := { body := copied.body, len }
    if topicName.hasWildcard then
      pure (PROTOCOL_ERROR, packet.setTopicName topicName)
    else
      decodeAfterTopic nng buffer proto (packet.setTopicName topicName) copied.used
  else
    pure (PROTOCOL_ERROR, packet.setTopicName { body := copied.body, len := topicLen })

/-- The PUBLISH case. -/
def decodePublish (proto : Nat) (packet : PubPacket) : Reader (ReasonCode × PubPacket) := do
  let topicLen ← buffer.get16 0
  let copied ← copynUtf8Str nng buffer 0 buffer.bytes.length
  decodeWithTopic nng buffer proto packet topicLen copied

/-- The cases PUBACK, PUBREC, PUBREL and PUBCOMP. -/
def decodePubArrc (proto : Nat) (packet : PubPacket) : Reader (ReasonCode × PubPacket) := do
  let packetId ← buffer.get16 0
  if proto = MQTT_PROTOCOL_VERSION_v5 then
    let reasonCode ← buffer.get8 2
    let found := decodeProperties nng buffer.bytes 3
    let packet :=
      {
        packet with
        pubArrc :=
          { packetId, reasonCode, properties := found.properties, propLen := found.propLen }
      }
    return (if nng.checkProperties found.properties then SUCCESS else PROTOCOL_ERROR, packet)
  else
    return (SUCCESS, { packet with pubArrc := { packet.pubArrc with packetId } })

end Decode

/-- The fixed header of a message: its first header byte and its remaining length. -/
def NngMsg.fixedHeader (msg : NngMsg) : FixedHeader :=
  .ofByte (msg.header.headD 0) msg.remainingLen

/-- Decode a message into a packet structure. -/
def decodePubMessage (nng : MqttParser) (stray : Nat → UInt8) (msg : NngMsg)
    (packet : PubPacket) (proto : Nat)
    : Reader (ReasonCode × PubPacket) :=
  let packet := { packet with fixedHeader := msg.fixedHeader }
  let buffer : Buffer := { bytes := msg.body, stray }
  let type := packet.fixedHeader.packetType
  if msg.body.length < packet.fixedHeader.remainLen then pure (PROTOCOL_ERROR, packet)
  else if type = PUBLISH then decodePublish nng buffer proto packet
  else if type = PUBACK ∨ type = PUBREC ∨ type = PUBREL ∨ type = PUBCOMP then
    decodePubArrc nng buffer proto packet
  else pure (SUCCESS, packet)

-- What follows the topic

/-- The number of bytes of the packet id. -/
def packetIdSize (qos : BitVec 2) : Nat :=
  if qos = 0 then 0 else 2

/-- The packet with the id that stands at a position, when the QoS asks for one. -/
def PubPacket.storePacketId (packet : PubPacket) (buffer : Buffer) (pos : Nat) : PubPacket :=
  if packet.fixedHeader.qos = 0 then packet
  else packet.setPacketId (buffer.get16 pos).value

/-- From this position on the body is accepted as properties and payload. -/
def RestAccepted (nng : MqttParser) (proto : Nat) (body : List UInt8) (start : Nat) : Prop :=
  if proto = MQTT_PROTOCOL_VERSION_v5 then
    let found := decodeProperties nng body start
    publishPropertiesValid nng found.properties = true
    ∧ start + found.consumed ≤ body.length
  else start ≤ body.length

/-- Where the payload begins. -/
def payloadStart (nng : MqttParser) (proto : Nat) (body : List UInt8) (start : Nat) : Nat :=
  if proto = MQTT_PROTOCOL_VERSION_v5 then
    start + (decodeProperties nng body start).consumed
  else start

/-- The payload as it is stored: the length modulo 2^32, and no data for length zero. -/
def storedPayload (old : MqttPayload) (bytes : List UInt8) : MqttPayload :=
  let len := bytes.length % 2 ^ 32
  { data := if 0 < len then some (bytes.take len) else old.data, len }

/-- The packet after its properties and payload have been stored. -/
def PubPacket.storeRest (packet : PubPacket) (nng : MqttParser) (proto : Nat)
    (body : List UInt8) (start : Nat)
    : PubPacket :=
  let found := decodeProperties nng body start
  let packet :=
    if proto = MQTT_PROTOCOL_VERSION_v5 then
      packet.setProperties found.properties found.propLen
    else packet
  {
    packet with
    payload :=
      storedPayload packet.payload (body.drop (payloadStart nng proto body start))
  }

@[simp]
theorem PubPacket.storePacketId_fixedHeader (packet : PubPacket) (buffer : Buffer) (pos : Nat)
    : (packet.storePacketId buffer pos).fixedHeader = packet.fixedHeader := by
  unfold PubPacket.storePacketId
  split <;> rfl

@[simp]
theorem PubPacket.storePacketId_topicName (packet : PubPacket) (buffer : Buffer) (pos : Nat)
    : (packet.storePacketId buffer pos).publish.topicName = packet.publish.topicName := by
  unfold PubPacket.storePacketId
  split <;> rfl

@[simp]
theorem PubPacket.storePacketId_properties (packet : PubPacket) (buffer : Buffer) (pos : Nat)
    : (packet.storePacketId buffer pos).publish.properties = packet.publish.properties := by
  unfold PubPacket.storePacketId
  split <;> rfl

@[simp]
theorem PubPacket.storePacketId_payload (packet : PubPacket) (buffer : Buffer) (pos : Nat)
    : (packet.storePacketId buffer pos).payload = packet.payload := by
  unfold PubPacket.storePacketId
  split <;> rfl

theorem PubPacket.storePacketId_packetId {packet : PubPacket} (buffer : Buffer) (pos : Nat)
    (present : packet.fixedHeader.qos ≠ 0)
    : (packet.storePacketId buffer pos).publish.packetId = (buffer.get16 pos).value := by
  rw [PubPacket.storePacketId, if_neg present]
  rfl

section StoreRest

variable (packet : PubPacket) (nng : MqttParser) (proto : Nat) (body : List UInt8)
  (start : Nat)

@[simp]
theorem PubPacket.storeRest_fixedHeader
    : (packet.storeRest nng proto body start).fixedHeader = packet.fixedHeader := by
  unfold PubPacket.storeRest
  split <;> rfl

@[simp]
theorem PubPacket.storeRest_topicName
    : (packet.storeRest nng proto body start).publish.topicName
      = packet.publish.topicName := by
  unfold PubPacket.storeRest
  split <;> rfl

@[simp]
theorem PubPacket.storeRest_packetId
    : (packet.storeRest nng proto body start).publish.packetId = packet.publish.packetId := by
  unfold PubPacket.storeRest
  split <;> rfl

@[simp]
theorem PubPacket.storeRest_payload
    : (packet.storeRest nng proto body start).payload
      = storedPayload packet.payload (body.drop (payloadStart nng proto body start)) := by
  unfold PubPacket.storeRest
  split <;> rfl

theorem PubPacket.storeRest_properties
    : (packet.storeRest nng proto body start).publish.properties
      = if proto = MQTT_PROTOCOL_VERSION_v5 then (decodeProperties nng body start).properties
        else packet.publish.properties := by
  unfold PubPacket.storeRest
  split <;> rfl

end StoreRest

theorem decodePayload_value (buffer : Buffer) (packet : PubPacket) (pos : Nat)
    : (decodePayload buffer packet pos).value
      = if pos ≤ buffer.bytes.length then
          (SUCCESS,
            { packet with payload := storedPayload packet.payload (buffer.bytes.drop pos) })
        else (PROTOCOL_ERROR, packet) := by
  unfold decodePayload storedPayload
  rcases Nat.lt_or_ge buffer.bytes.length pos with outside | inside
  · rw [if_pos outside, if_neg (by omega)]
    rfl
  · rw [if_neg (by omega), if_pos inside]
    simp only [List.length_drop]
    by_cases some : 0 < (buffer.bytes.length - pos) % 2 ^ 32
    · have fits : pos + (buffer.bytes.length - pos) % 2 ^ 32 ≤ buffer.bytes.length := by
        have := Nat.mod_le (buffer.bytes.length - pos) (2 ^ 32)
        omega
      rw [if_pos some, if_pos some, Traced.value_bind, Traced.value_pure, value_span fits]
    · rw [if_neg some, if_neg some, Traced.value_pure]

theorem decodePropertiesAndPayload_accepted {nng : MqttParser} {buffer : Buffer}
    {proto : Nat} {start : Nat} (packet : PubPacket)
    (accepted : RestAccepted nng proto buffer.bytes start)
    : (decodePropertiesAndPayload nng buffer proto packet start).value
      = (SUCCESS, packet.storeRest nng proto buffer.bytes start) := by
  unfold RestAccepted at accepted
  unfold decodePropertiesAndPayload PubPacket.storeRest payloadStart
  by_cases v5 : proto = MQTT_PROTOCOL_VERSION_v5
  · simp only [v5, if_true] at accepted ⊢
    obtain ⟨valid, fits⟩ := accepted
    rw [if_pos valid, decodePayload_value, if_pos fits]
  · simp only [v5, if_false] at accepted ⊢
    rw [decodePayload_value, if_pos accepted]

theorem decodePropertiesAndPayload_refused {nng : MqttParser} {buffer : Buffer}
    {proto : Nat} {start : Nat} (packet : PubPacket)
    (refused : ¬RestAccepted nng proto buffer.bytes start)
    : (decodePropertiesAndPayload nng buffer proto packet start).value.1
      = PROTOCOL_ERROR := by
  unfold RestAccepted at refused
  unfold decodePropertiesAndPayload
  by_cases v5 : proto = MQTT_PROTOCOL_VERSION_v5
  · simp only [v5, if_true] at refused ⊢
    split
    · rename_i valid
      rw [decodePayload_value, if_neg (fun fits => refused ⟨valid, fits⟩)]
    · rfl
  · simp only [v5, if_false] at refused ⊢
    rw [decodePayload_value, if_neg refused]

theorem decodeAfterTopic_value (nng : MqttParser) (buffer : Buffer) (proto : Nat)
    (packet : PubPacket) (pos : Nat)
    : (decodeAfterTopic nng buffer proto packet pos).value
      = (decodePropertiesAndPayload nng buffer proto (packet.storePacketId buffer pos)
          (pos + packetIdSize packet.fixedHeader.qos)).value := by
  unfold decodeAfterTopic PubPacket.storePacketId packetIdSize
  split <;> rfl

-- The topic

/-- The length that the first two bytes of the body announce. -/
def announcedLength (buffer : Buffer) : Nat :=
  (buffer.get16 0).value

/-- The bytes of the announced topic, as far as the body has them. -/
def announcedTopic (buffer : Buffer) : List UInt8 :=
  (buffer.bytes.drop 2).take (announcedLength buffer)

/-- The announced topic is not empty, and it does not fit or is not valid UTF-8. -/
def TopicRejected (nng : MqttParser) (buffer : Buffer) : Prop :=
  announcedLength buffer ≠ 0
  ∧ (buffer.bytes.length < 2 + announcedLength buffer
    ∨ nng.utf8Check (announcedTopic buffer) = false)

/-- What `copyn_utf8_str` makes of the topic: there is none, it is copied, or it is
rejected.
-/
inductive TopicRead (nng : MqttParser) (buffer : Buffer) : StrResult → Prop where
  | empty (zero : announcedLength buffer = 0)
    : TopicRead nng buffer { body := none, len := 0, used := 2 }
  | copied (nonzero : announcedLength buffer ≠ 0)
      (fits : 2 + announcedLength buffer ≤ buffer.bytes.length)
      (valid : nng.utf8Check (announcedTopic buffer) = true)
    : TopicRead nng buffer
        {
          body := some (announcedTopic buffer)
          len := announcedLength buffer
          used := 2 + announcedLength buffer
        }
  | rejected (reason : TopicRejected nng buffer)
    : TopicRead nng buffer
        { body := none, len := -1, used := nng.copynRejectSkip (announcedLength buffer) }

theorem copynUtf8Str_topicRead (nng : MqttParser) (buffer : Buffer)
    : TopicRead nng buffer (copynUtf8Str nng buffer 0 buffer.bytes.length).value := by
  have read : (buffer.get16 0).value = announcedLength buffer := rfl
  simp only [copynUtf8Str, Traced.value_bind, read, Nat.zero_add]
  by_cases zero : announcedLength buffer = 0
  · rw [if_pos zero]
    exact .empty zero
  · rw [if_neg zero]
    by_cases fits : 2 + announcedLength buffer ≤ buffer.bytes.length
    · have text : (buffer.span 2 (announcedLength buffer)).value = announcedTopic buffer :=
        value_span fits
      rw [if_pos fits, Traced.value_bind, text]
      cases valid : nng.utf8Check (announcedTopic buffer) with
      | true => exact .copied zero fits valid
      | false => exact .rejected ⟨zero, Or.inr valid⟩
    · rw [if_neg fits]
      exact .rejected ⟨zero, Or.inl (by omega)⟩

end NanoMQ
