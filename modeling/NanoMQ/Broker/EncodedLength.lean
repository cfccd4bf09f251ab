import NanoMQ.Broker.Activation
import NanoMQ.Broker.Reference
import NanoMQ.Broker.Resolution

/-! The remaining length of a forwarded PUBLISH. The packet that `encode_pub_message` writes is
not the one that was received: the topic of an alias is written out and the properties are
encoded again. Its length has a four-byte form exactly if what these fields grow by still fits.
-/

namespace NanoMQ

open Bytes Reading

/-- The largest remaining length, with four groups of seven bits. -/
def MAX_REMAINING_LEN : Nat := 268435455

/-- The header of an encoded message holds the length of its body. -/
structure LengthEncoded (encoded : Encoded) : Prop where
  remainLen : encoded.packet.fixedHeader.remainLen ≤ MAX_REMAINING_LEN
  varint
    : getVarint 4 (encoded.msg.header.drop 1) = some (encoded.msg.body.length, [])

-- What is received and what is written

/-- The property section of a body; only version 5 has one. -/
def receivedProperties (nng : MqttParser) (proto : Nat) (body : List UInt8) (start : Nat)
    : PropertySection :=
  if proto = MQTT_PROTOCOL_VERSION_v5 then decodeProperties nng body start
  else { properties := none, propLen := 0, consumed := 0 }

/-- The size of a topic field; an empty topic leaves out the length as well. -/
def topicFieldSize (topic : Topic) : Nat :=
  if 0 < topic.length then 2 + topic.length else 0

/-- The topic that a topic alias among the properties stands for. -/
def aliasTopic (world : World) (pid : Pid) (properties : Option (List Property)) : Option Topic :=
  (propertyGetValue properties TOPIC_ALIAS).bind fun value =>
    world.dbhashFindAtpair pid value.asU16

/-- The topic of a received message: its own, or else the one that its alias stands for. -/
def receivedTopic (nng : MqttParser) (stray : Nat → UInt8) (proto : Nat) (world : World)
    (pid : Pid) (msg : NngMsg)
    : Topic :=
  let buffer : Buffer := { bytes := msg.body, stray }
  let found :=
    receivedProperties nng proto msg.body
      (topicEnd nng buffer + packetIdSize msg.fixedHeader.qos)
  (ownTopic nng buffer).getD ((aliasTopic world pid found.properties).getD [])

/-- The body still fits when this topic is written in place of its topic field, and its
properties as they are encoded in place of its property section.
-/
def FitsRewritten (nng : MqttParser) (stray : Nat → UInt8) (proto : Nat) (msg : NngMsg)
    (topic : Topic)
    : Prop :=
  let taken := topicEnd nng { bytes := msg.body, stray }
  let found :=
    receivedProperties nng proto msg.body (taken + packetIdSize msg.fixedHeader.qos)
  ∀ written,
    encodePublishProperties nng msg.cmdType found.properties = some written
    → msg.body.length + topicFieldSize topic + written.length
      ≤ MAX_REMAINING_LEN + taken + found.consumed

theorem payloadStart_eq_add (nng : MqttParser) (proto : Nat) (body : List UInt8) (start : Nat)
    : payloadStart nng proto body start
      = start + (receivedProperties nng proto body start).consumed := by
  unfold payloadStart receivedProperties
  split <;> rfl

theorem RestAccepted.payloadStart_le {nng : MqttParser} {proto : Nat} {body : List UInt8}
    {start : Nat} (accepted : RestAccepted nng proto body start)
    : payloadStart nng proto body start ≤ body.length := by
  unfold RestAccepted at accepted
  unfold payloadStart
  split
  · rename_i v5
    rw [if_pos v5] at accepted
    exact accepted.2
  · rename_i old
    rw [if_neg old] at accepted
    exact accepted

/-- The parts of an accepted PUBLISH. -/
structure ReceivedParts (nng : MqttParser) (stray : Nat → UInt8) (proto : Nat) (msg : NngMsg)
    (start : Nat) (packet : PubPacket)
    : Prop where
  fixedHeader : packet.fixedHeader = msg.fixedHeader
  own : packet.publish.topicName.body = ownTopic nng { bytes := msg.body, stray }
  whole
    : ∀ text,
        packet.publish.topicName.body = some text
        → 0 < text.length
          ∧ packet.publish.topicName = { body := some text, len := text.length }
  properties
    : packet.publish.properties = (receivedProperties nng proto msg.body start).properties
  payload
    : packet.payload
      = storedPayload { data := none, len := 0 }
          (msg.body.drop (payloadStart nng proto msg.body start))
  inside : payloadStart nng proto msg.body start ≤ msg.body.length

theorem storedTopic_eq_of_body {topic text : List UInt8}
    (present : (storedTopic topic).body = some text)
    : 0 < text.length ∧ storedTopic topic = { body := some text, len := text.length } := by
  unfold storedTopic at present ⊢
  split at present
  · cases present
  · rename_i nonempty
    cases present
    rw [if_neg nonempty]
    exact ⟨List.length_pos_iff.mpr nonempty, rfl⟩

theorem decodePubMessage_parts {nng : MqttParser} {stray : Nat → UInt8} {proto : Nat}
    {msg : NngMsg} (publish : msg.type = PUBLISH)
    (success : (decodePubMessage nng stray msg .zeroed proto).value.1 = SUCCESS)
    : ReceivedParts nng stray proto msg
        (topicEnd nng { bytes := msg.body, stray } + packetIdSize msg.fixedHeader.qos)
        (decodePubMessage nng stray msg .zeroed proto).value.2 := by
  obtain ⟨topicName, named, rest, stored⟩ := decodePubMessage_stores publish success
  rw [stored]
  exact {
    fixedHeader := by
      rw [PubPacket.storeRest_fixedHeader, PubPacket.storePacketId_fixedHeader]
      rfl
    own := by
      rw [PubPacket.storeRest_topicName, PubPacket.storePacketId_topicName]
      change topicName.body = _
      rcases named with ⟨nothing, rejected⟩ | ⟨rfl, read, _⟩
      · rw [nothing, ownTopic_rejected rejected]
      · rw [ownTopic_read read]
    whole := by
      rw [PubPacket.storeRest_topicName, PubPacket.storePacketId_topicName]
      intro text present
      change topicName.body = some text at present
      rcases named with ⟨nothing, _⟩ | ⟨rfl, _⟩
      · rw [nothing] at present
        cases present
      · exact storedTopic_eq_of_body present
    properties := by
      rw [PubPacket.storeRest_properties, PubPacket.storePacketId_properties, receivedProperties]
      split <;> rfl
    payload := by
      rw [PubPacket.storeRest_payload, PubPacket.storePacketId_payload]
      rfl
    inside := rest.payloadStart_le
  }

theorem length_encodeTopicName (text : List UInt8)
    : (encodeTopicName { body := some text, len := text.length }).length
      = topicFieldSize text := by
  unfold encodeTopicName topicFieldSize
  split
  · simp
  · rfl

-- The length of the encoded message

theorem varint_holds_iff (length : Nat)
    : (length % 2 ^ 32 ≤ MAX_REMAINING_LEN
        ∧ getVarint 4 (putVarint 4 (length % 2 ^ 32)) = some (length, []))
      ↔ length ≤ MAX_REMAINING_LEN := by
  have readBack {value : Nat} (fits : value ≤ MAX_REMAINING_LEN)
      : getVarint 4 (putVarint 4 value) = some (value, []) := by
    have written := getVarint_putVarint 3 value [] (Nat.lt_of_le_of_lt fits (by decide))
    rwa [List.append_nil] at written
  constructor
  · rintro ⟨fits, varint⟩
    rw [readBack fits] at varint
    have same : length % 2 ^ 32 = length := congrArg Prod.fst (Option.some.inj varint)
    rwa [same] at fits
  · intro fits
    have same : length % 2 ^ 32 = length :=
      Nat.mod_eq_of_lt (Nat.lt_of_le_of_lt fits (by decide))
    rw [same]
    exact ⟨fits, readBack fits⟩

theorem encodePublish_lengthEncoded_iff {nng : MqttParser} {dest : NngMsg} {packet : PubPacket}
    {written : List UInt8}
    (encodes
      : encodePublishProperties nng dest.cmdType packet.publish.properties = some written)
    : LengthEncoded (encodePublish nng dest packet)
      ↔ (encodeTopicName packet.publish.topicName).length
          + packetIdSize packet.fixedHeader.qos
          + written.length
          + (encodePayload packet.payload).length
        ≤ MAX_REMAINING_LEN := by
  let body :=
    encodeTopicName packet.publish.topicName
    ++ packetIdBytes packet.fixedHeader.qos packet.publish.packetId
    ++ (written ++ encodePayload packet.payload)
  have size
      : body.length
        = (encodeTopicName packet.publish.topicName).length
          + packetIdSize packet.fixedHeader.qos
          + written.length
          + (encodePayload packet.payload).length := by
    simp only [body, List.length_append, length_packetIdBytes]
    omega
  have encoded
      : LengthEncoded (encodePublish nng dest packet)
        ↔ body.length % 2 ^ 32 ≤ MAX_REMAINING_LEN
          ∧ getVarint 4 (putVarint 4 (body.length % 2 ^ 32)) = some (body.length, []) := by
    unfold encodePublish
    simp only [encodes]
    exact ⟨fun holds => ⟨holds.remainLen, holds.varint⟩, fun holds => ⟨holds.1, holds.2⟩⟩
  rw [encoded, varint_holds_iff, size]

theorem encodePublish_ok_iff {nng : MqttParser} {dest : NngMsg} {packet : PubPacket}
    : (encodePublish nng dest packet).ok = true
      ↔ ∃ written,
          encodePublishProperties nng dest.cmdType packet.publish.properties = some written := by
  cases encodes : encodePublishProperties nng dest.cmdType packet.publish.properties with
  | none => simp [encodePublish, encodes]
  | some written => simp [encodePublish, encodes]

/-- A packet that was decoded from a message and gets a topic fits exactly if the message fits
with the fields that are written anew.
-/
theorem ReceivedParts.lengthEncoded_iff {nng : MqttParser} {stray : Nat → UInt8} {proto : Nat}
    {msg dest : NngMsg} {decoded : PubPacket}
    (parts
      : ReceivedParts nng stray proto msg
          (topicEnd nng { bytes := msg.body, stray } + packetIdSize msg.fixedHeader.qos) decoded)
    (small : msg.body.length ≤ MAX_REMAINING_LEN) (sameType : dest.cmdType = msg.cmdType)
    (topic : Topic)
    : let encoded :=
        encodePublish nng dest (decoded.setTopicName { body := some topic, len := topic.length })
      (encoded.ok = true → LengthEncoded encoded) ↔ FitsRewritten nng stray proto msg topic := by
  intro encoded
  have inside := parts.inside
  have payloadSize
      : (encodePayload decoded.payload).length
        = msg.body.length - payloadStart nng proto msg.body
            (topicEnd nng { bytes := msg.body, stray } + packetIdSize msg.fixedHeader.qos) := by
    rw [parts.payload, encodePayload_storedPayload, List.length_drop]
    rw [List.length_drop]
    exact Nat.lt_of_le_of_lt (Nat.sub_le _ _) (Nat.lt_of_le_of_lt small (by decide))
  rw [payloadStart_eq_add] at inside payloadSize
  have properties
      : (decoded.setTopicName { body := some topic, len := topic.length }).publish.properties
        = (receivedProperties nng proto msg.body
            (topicEnd nng { bytes := msg.body, stray }
              + packetIdSize msg.fixedHeader.qos)).properties :=
    parts.properties
  rw [encodePublish_ok_iff, FitsRewritten, sameType, properties, forall_exists_index]
  refine forall_congr' fun written => forall_congr' fun encodes => ?_
  rw [← properties, ← sameType] at encodes
  rw [encodePublish_lengthEncoded_iff encodes]
  dsimp only [PubPacket.setTopicName]
  rw [payloadSize, length_encodeTopicName, parts.fixedHeader]
  omega

-- Messages that handle_pub routes

/-- A packet with a topic to route to gets its own topic or that of its alias, and is otherwise
unchanged.
-/
theorem resolveTopic_packet {world : World} {pid : Pid} {proto : Nat} {decoded : PubPacket}
    (whole
      : ∀ text,
          decoded.publish.topicName.body = some text
          → 0 < text.length
            ∧ decoded.publish.topicName = { body := some text, len := text.length })
    {topic : Topic} (found : (resolveTopic world pid proto decoded).topic = some topic)
    : let sent :=
        decoded.publish.topicName.body.getD
          ((aliasTopic world pid decoded.publish.properties).getD [])
      (resolveTopic world pid proto decoded).packet
        = decoded.setTopicName { body := some sent, len := sent.length } := by
  intro sent
  have ofOwn {text : List UInt8} (present : decoded.publish.topicName.body = some text)
      : decoded = decoded.setTopicName { body := some sent, len := sent.length } := by
    have isSent : sent = text := by simp only [sent, present, Option.getD_some]
    rw [isSent, ← (whole text present).2]
    rfl
  unfold resolveTopic at found ⊢
  dsimp only at found ⊢
  split at found
  · rename_i version
    rw [if_pos version]
    split at found
    · obtain ⟨text, present, _⟩ := Option.map_eq_some_iff.mp found
      exact ofOwn present
    · rename_i value isAlias
      split at found
      · rename_i named
        obtain ⟨text, present, _⟩ := Option.map_eq_some_iff.mp found
        rw [if_pos named]
        exact ofOwn present
      · rename_i unnamed
        rw [if_neg unnamed]
        have noOwn : decoded.publish.topicName.body = none := by
          rw [Option.eq_none_iff_forall_ne_some]
          intro text present
          obtain ⟨nonempty, named⟩ := whole text present
          exact unnamed (by rw [named]; simpa [MqttString.present] using nonempty)
        split at found
        · cases found
        · rename_i aliased isKnown
          have isSent : sent = aliased := by simp [sent, noOwn, aliasTopic, isAlias, isKnown]
          rw [isSent]
  · rename_i version
    rw [if_neg version]
    obtain ⟨text, present, _⟩ := Option.map_eq_some_iff.mp found
    exact ofOwn present

/-- A message with recipients was accepted, and its packet has the topic that it was resolved
to.
-/
theorem handlePub_hasRecipients {lib : Library} {env : Env} {proto : Nat} {id : MsgId} {s : Cb}
    (routed : (handlePub lib env proto id s).2.work.msgInfos ≠ [])
    : ∃ decoded topic,
        (s.world.msgs id).type = PUBLISH
        ∧ (decodePubMessage lib.parser env.stray (s.world.msgs id) .zeroed proto).value
          = (SUCCESS, decoded)
        ∧ (resolveTopic s.world s.work.pid proto decoded).topic = some topic
        ∧ (handlePub lib env proto id s).2.work.pubPacket
          = some (resolveTopic s.world s.work.pid proto decoded).packet := by
  have handles := handlePub_handles lib env proto id s
  generalize handlePub lib env proto id s = result at handles routed ⊢
  cases handles with
  | refused => exact absurd rfl routed
  | unresolved => exact absurd rfl routed
  | routed accepted publish resolved =>
      rename_i decoded packet topic aliases
      refine ⟨decoded, topic, publish, accepted, by rw [resolved], ?_⟩
      rw [resolved]
      exact congrArg Work.pubPacket (handlePubRetain_work _ _ _ _)

/-- The encoder finds the length of a forwarded PUBLISH in range, and the header holds it,
exactly if the received body fits with the fields that are written anew.
-/
theorem forwarded_length_encoded_iff (lib : Library) (env : Env) (proto : Nat) (id : MsgId)
    (s : Cb) (whole : (s.world.msgs id).remainingLen = (s.world.msgs id).body.length)
    (small : (s.world.msgs id).remainingLen ≤ MAX_REMAINING_LEN)
    (routed : (handlePub lib env proto id s).2.work.msgInfos ≠ [])
    : let after := (handlePub lib env proto id s).2
      let packet := after.work.pubPacket.getD .zeroed
      let encoded := encodePubMessage lib.parser (after.world.msgs id) packet PUBLISH
      (encoded.ok = true → LengthEncoded encoded)
      ↔ FitsRewritten lib.parser env.stray proto (s.world.msgs id)
          (receivedTopic lib.parser env.stray proto s.world s.work.pid (s.world.msgs id)) := by
  intro after packet encoded
  have sameType : (after.world.msgs id).cmdType = (s.world.msgs id).cmdType := by
    obtain ⟨properties, kept⟩ := handlePub_msg lib env proto id s
    rw [show after.world.msgs id = _ from kept]
    rfl
  obtain ⟨decoded, topic, publish, accepted, found, stored⟩ := handlePub_hasRecipients routed
  have parts := decodePubMessage_parts publish (congrArg Prod.fst accepted)
  rw [accepted] at parts
  have isPacket := resolveTopic_packet parts.whole found
  rw [parts.own, parts.properties] at isPacket
  have isEncoded
      : encoded = encodePublish lib.parser (after.world.msgs id)
          (resolveTopic s.world s.work.pid proto decoded).packet := by
    simp only [encoded, packet, after, stored, Option.getD_some]
    rfl
  rw [isEncoded, isPacket]
  exact parts.lengthEncoded_iff (whole ▸ small) sameType _

/-- Where the properties are written as long as they were, only the topic can make the packet
longer.
-/
theorem fitsRewritten_iff_of_canonical {nng : MqttParser} {stray : Nat → UInt8} {proto : Nat}
    {msg : NngMsg} {topic : Topic} {written : List UInt8}
    (encodes
      : encodePublishProperties nng msg.cmdType
          (receivedProperties nng proto msg.body
            (topicEnd nng { bytes := msg.body, stray }
              + packetIdSize msg.fixedHeader.qos)).properties
        = some written)
    (canonical
      : written.length
        = (receivedProperties nng proto msg.body
            (topicEnd nng { bytes := msg.body, stray }
              + packetIdSize msg.fixedHeader.qos)).consumed)
    : FitsRewritten nng stray proto msg topic
      ↔ msg.body.length + topicFieldSize topic
        ≤ MAX_REMAINING_LEN + topicEnd nng { bytes := msg.body, stray } := by
  unfold FitsRewritten
  dsimp only
  rw [encodes]
  constructor
  · intro fits
    have sum := fits written rfl
    omega
  · intro fits other same
    cases same
    omega

/-- A version 5 PUBLISH without a topic, under topic alias 1. -/
def aliasMsg (payload : List UInt8) : NngMsg :=
  .received .PUBLISH_V5 [0x30] ([0, 0, 3, 35, 0, 1] ++ payload) 1 (.plain 5)

/-- The message arrives on pipe 1, where alias 1 stands for topic `a` with one subscriber. -/
def aliasState (msg : NngMsg) : Cb :=
  {
    work := { Work.receiving .MQTT_BROKER with pid := 1 }
    world :=
      {
        World.empty.allocMsg msg with
        aliases := fun pid id => if pid = 1 ∧ id = 1 then some [97] else none
      }
    trace := []
  }

/-- The packet that a short message is routed with fits. -/
theorem short_alias_fits
    : let lib := referenceLibrary fun _ => some [2]
      let after := (handlePub lib (.brings none) 5 0 (aliasState (aliasMsg [120]))).2
      let packet := after.work.pubPacket.getD .zeroed
      let encoded := encodePubMessage lib.parser (after.world.msgs 0) packet PUBLISH
      after.work.msgInfos = [2] ∧ encoded.ok = true ∧ LengthEncoded encoded := by
  intro lib after packet encoded
  have fits
      := forwarded_length_encoded_iff lib (.brings none) 5 0 (aliasState (aliasMsg [120])) rfl
        (by decide) (by decide)
  refine ⟨by decide, by decide, fits.mpr ?_ (by decide)⟩
  rw [@fitsRewritten_iff_of_canonical _ _ _ _ _ [3, 35, 0, 1] (by decide) (by decide)]
  decide

/-- The packet that such a message is decoded to. -/
def aliasedPacket (payload : List UInt8) : PubPacket :=
  {
    PubPacket.zeroed with
    fixedHeader :=
      {
        retain := false
        qos := 0
        dup := false
        packetType := PUBLISH
        remainLen := (aliasMsg payload).body.length
      }
    publish :=
      {
        packetId := 0
        topicName := { body := none, len := 0 }
        properties := some [{ id := TOPIC_ALIAS, value := .u16 1 }]
        propLen := 3
      }
    payload := storedPayload { data := none, len := 0 } payload
  }

theorem aliasMsg_fixedHeader (payload : List UInt8)
    : (aliasMsg payload).fixedHeader = (aliasedPacket payload).fixedHeader := by
  have bits
      : (0x30 : UInt8).toBitVec.getLsbD 0 = false
        ∧ (0x30 : UInt8).toBitVec.extractLsb' 1 2 = 0
        ∧ (0x30 : UInt8).toBitVec.getLsbD 3 = false
        ∧ (0x30 : UInt8).toBitVec.extractLsb' 4 4 = PUBLISH := by
    decide
  exact FixedHeader.mk.injEq .. ▸ ⟨bits.1, bits.2.1, bits.2.2.1, bits.2.2.2, rfl⟩

theorem aliasMsg_decoded (payload : List UInt8)
    : (decodePubMessage referenceParser (fun _ => 0) (aliasMsg payload) .zeroed 5).value
      = (SUCCESS, aliasedPacket payload) := by
  have parsed
      : referenceParser.propertySection ([3, 35, 0, 1] ++ payload)
        = some {
            properties := some [{ id := TOPIC_ALIAS, value := .u16 1 }]
            propLen := 3
            consumed := 4
          } :=
    @readSection_append [35, 0, 1] payload [{ id := TOPIC_ALIAS, value := .u16 1 }] (by decide)
      (by decide)
  let layout : PublishLayout referenceParser 5 0 :=
    {
      topic := []
      packetId := 0
      propertyBytes := [3, 35, 0, 1]
      payload
      topic_short := by decide
      topic_valid := .inl rfl
      topic_plain := ⟨List.not_mem_nil, List.not_mem_nil⟩
      packetId_short := by decide
      properties_valid := ⟨_, parsed, rfl, rfl⟩
    }
  have body : (aliasMsg payload).body = layout.bytes := by
    simp [aliasMsg, NngMsg.received, layout, PublishLayout.bytes, packetIdBytes, putU16]
  have header := aliasMsg_fixedHeader payload
  rw [layout.decoded .zeroed body (congrArg FixedHeader.packetType header)
    (congrArg FixedHeader.qos header) (Nat.le_refl _), header]
  have found
      : decodeProperties referenceParser layout.bytes layout.restStart
        = {
            properties := some [{ id := TOPIC_ALIAS, value := .u16 1 }]
            propLen := 3
            consumed := 4
          } := by
    rw [decodeProperties, layout.drop_packetId, parsed]
  unfold PubPacket.storeRest
  rw [layout.drop_properties, found]
  rfl

/-- Written out, the topic makes the packet longer than the received one by its own length. -/
theorem aliasMsg_grows (payload : List UInt8) (short : payload.length < 2 ^ 32)
    : let lib := referenceLibrary fun _ => some [2]
      let after := (handlePub lib (.brings none) 5 0 (aliasState (aliasMsg payload))).2
      let packet := after.work.pubPacket.getD .zeroed
      let encoded := encodePubMessage lib.parser (after.world.msgs 0) packet PUBLISH
      after.work.msgInfos = [2]
      ∧ encoded.ok = true
      ∧ encoded.msg.body.length = (aliasMsg payload).body.length + 1 := by
  intro lib after packet encoded
  have routed
      : after.work.msgInfos = [2]
        ∧ packet
          = (aliasedPacket payload).setTopicName { body := some [97], len := 1 } := by
    have decoded
        : (decodePubMessage lib.parser (Env.brings none).stray
            ((aliasState (aliasMsg payload)).world.msgs 0) .zeroed 5).value
          = (SUCCESS, aliasedPacket payload) :=
      aliasMsg_decoded payload
    simp only [packet, after]
    unfold handlePub
    dsimp only
    rw [decoded]
    exact ⟨rfl, rfl⟩
  have version : (after.world.msgs 0).cmdType = .PUBLISH_V5 := by
    obtain ⟨properties, kept⟩ :=
      handlePub_msg lib (.brings none) 5 0 (aliasState (aliasMsg payload))
    rw [show after.world.msgs 0 = _ from kept]
    rfl
  have written
      : encodePublishProperties lib.parser (after.world.msgs 0).cmdType
          packet.publish.properties
        = some [3, 35, 0, 1] := by
    rw [version, routed.2]
    have encodes
        : writeSection (some [{ id := TOPIC_ALIAS, value := .u16 1 }]) = some [3, 35, 0, 1] := by
      decide
    exact encodes
  have parts
      : [0, 1, 97, 3, 35, 0, 1] ++ payload
        = encodeTopicName packet.publish.topicName
          ++ (packetIdBytes packet.fixedHeader.qos packet.publish.packetId
            ++ ([3, 35, 0, 1] ++ encodePayload packet.payload)) := by
    have topicField : encodeTopicName { body := some [97], len := 1 } = [0, 1, 97] := by decide
    have idField : packetIdBytes 0 0 = [] := by decide
    rw [routed.2]
    change _
      = encodeTopicName { body := some [97], len := 1 }
        ++ (packetIdBytes 0 0
          ++ ([3, 35, 0, 1]
            ++ encodePayload (storedPayload { data := none, len := 0 } payload)))
    rw [topicField, idField, encodePayload_storedPayload short]
    rfl
  obtain ⟨ok, msg⟩ := encodePublish_written written parts
  have body : encoded.msg.body = [0, 1, 97, 3, 35, 0, 1] ++ payload :=
    congrArg NngMsg.body msg
  refine ⟨routed.1, ok, ?_⟩
  rw [body]
  simp [aliasMsg, NngMsg.received]

/-- A packet of the largest size, without a topic: with the topic written out its remaining
length has no four-byte form any more.
-/
theorem largest_alias_outgrows
    : ∃ payload,
        let lib := referenceLibrary fun _ => some [2]
        let after := (handlePub lib (.brings none) 5 0 (aliasState (aliasMsg payload))).2
        let packet := after.work.pubPacket.getD .zeroed
        let encoded := encodePubMessage lib.parser (after.world.msgs 0) packet PUBLISH
        (aliasMsg payload).remainingLen = 268435455
        ∧ after.work.msgInfos = [2]
        ∧ encoded.ok = true
        ∧ encoded.msg.body.length = 268435456 := by
  obtain ⟨payload, payloadSize⟩ : ∃ payload : List UInt8, payload.length = 268435449 :=
    ⟨List.replicate _ 120, List.length_replicate⟩
  have bodySize : (aliasMsg payload).body.length = 268435455 := by
    simp [aliasMsg, NngMsg.received, payloadSize]
  obtain ⟨routed, ok, grown⟩ := aliasMsg_grows payload (by rw [payloadSize]; decide)
  refine ⟨payload, bodySize, routed, ok, ?_⟩
  rw [grown, bodySize]

end NanoMQ
