import NanoMQ.Broker.Retained

/-! Which topic a PUBLISH is routed to: its own, or the one its topic alias stands for. -/

namespace NanoMQ

open Bytes Contexts Reading

-- The topic that a packet is resolved to

/-- The topic alias among the properties of a packet. -/
def PubPacket.topicAlias (packet : PubPacket) : Option Nat :=
  (propertyGetValue packet.publish.properties TOPIC_ALIAS).map PropertyValue.asU16

/-- The topic that a packet is resolved to: its own, or in version 5 what its alias stands for
if it has none. A topic that could not be read is no topic here.
-/
def namedTopic (aliases : Pid → Nat → Option Topic) (pid : Pid) (proto : Nat)
    (packet : PubPacket)
    : Option Topic :=
  if packet.publish.topicName.present then packet.publish.topicName.body.map cstr
  else if proto = MQTT_PROTOCOL_VERSION_v5 then packet.topicAlias.bind (aliases pid)
  else none

/-- The topic name is NULL or has a length. -/
def MqttString.WellFormed (topicName : MqttString) : Prop :=
  topicName.body ≠ none → 0 < topicName.len

theorem MqttString.present_iff (topicName : MqttString)
    : topicName.present = true ↔ 0 < topicName.len ∧ topicName.body ≠ none := by
  simp [MqttString.present, Option.isSome_iff_ne_none]

theorem MqttString.WellFormed.body_eq_none {topicName : MqttString}
    (wellFormed : topicName.WellFormed) (absent : topicName.present = false)
    : topicName.body = none := by
  by_contra named
  have present := topicName.present_iff.mpr ⟨wellFormed named, named⟩
  rw [absent] at present
  cases present

theorem resolveTopic_topic (world : World) (pid : Pid) (proto : Nat) {packet : PubPacket}
    (wellFormed : packet.publish.topicName.WellFormed)
    : (resolveTopic world pid proto packet).topic
      = namedTopic world.aliases pid proto packet := by
  unfold resolveTopic namedTopic PubPacket.topicAlias
  dsimp only
  cases present : packet.publish.topicName.present with
  | true =>
      split
      · split <;> rfl
      · rfl
  | false =>
      have nothing := wellFormed.body_eq_none present
      split
      · cases propertyGetValue packet.publish.properties TOPIC_ALIAS with
        | none => simp [nothing]
        | some value =>
            cases known : world.aliases pid value.asU16 <;>
              simp [World.dbhashFindAtpair, known]
      · simp [nothing]

/-- The topic that a packet makes an alias stand for. -/
def PubPacket.defines (packet : PubPacket) (topicAlias : Nat) : Option Topic :=
  if packet.topicAlias = some topicAlias ∧ 0 < packet.publish.topicName.len then
    packet.publish.topicName.body
  else none

theorem PubPacket.defines_of_absent {packet : PubPacket} (topicAlias : Nat)
    (absent : packet.publish.topicName.present = false)
    : packet.defines topicAlias = none := by
  unfold PubPacket.defines
  split
  · rename_i defining
    by_contra named
    have present := packet.publish.topicName.present_iff.mpr ⟨defining.2, named⟩
    rw [absent] at present
    cases present
  · rfl

/-- Resolving a version 5 packet defines its alias for the pipe, and no other. -/
theorem resolveTopic_defines (world : World) (pid : Pid) {proto : Nat} {packet : PubPacket}
    (whole : packet.publish.topicName.body.map cstr = packet.publish.topicName.body)
    (v5 : proto = MQTT_PROTOCOL_VERSION_v5) (other : Pid) (topicAlias : Nat)
    : (resolveTopic world pid proto packet).world.aliases other topicAlias
      = (if pid = other then packet.defines topicAlias else none).or
          (world.aliases other topicAlias) := by
  unfold resolveTopic
  dsimp only
  rw [if_pos v5]
  cases aliased : propertyGetValue packet.publish.properties TOPIC_ALIAS with
  | none =>
      have defines : packet.defines topicAlias = none := by
        simp [PubPacket.defines, PubPacket.topicAlias, aliased]
      simp [defines]
  | some value =>
      dsimp only
      cases present : packet.publish.topicName.present with
      | true =>
          obtain ⟨positive, named⟩ := packet.publish.topicName.present_iff.mp present
          obtain ⟨text, body⟩ := Option.ne_none_iff_exists'.mp named
          have defines
              : packet.defines topicAlias
                = if value.asU16 = topicAlias then some text else none := by
            simp [PubPacket.defines, PubPacket.topicAlias, aliased, positive, body]
          rw [defines, whole, body]
          rcases eq_or_ne pid other with rfl | differentPid
          · rcases eq_or_ne value.asU16 topicAlias with rfl | differentAlias
            · simp [World.dbhashInsertAtpair]
            · simp [World.dbhashInsertAtpair, differentAlias, differentAlias.symm]
          · simp [World.dbhashInsertAtpair, differentPid, differentPid.symm]
      | false =>
          have defines := packet.defines_of_absent topicAlias present
          cases known : world.dbhashFindAtpair pid value.asU16 <;> simp [defines]

theorem resolveTopic_older (world : World) (pid : Pid) {proto : Nat} (packet : PubPacket)
    (older : proto ≠ MQTT_PROTOCOL_VERSION_v5)
    : (resolveTopic world pid proto packet).world = world := by
  unfold resolveTopic
  dsimp only
  rw [if_neg older]

-- The topic that a message names

instance (nng : MqttParser) (buffer : Buffer) : Decidable (TopicRejected nng buffer) :=
  inferInstanceAs (Decidable (_ ∧ (_ ∨ _)))

/-- The topic that the bytes of a PUBLISH name: the text of the topic field, or in version 5
for an empty field what the topic alias stands for. A topic field that does not fit or is not
valid UTF-8 names none.
-/
def messageTopic (nng : MqttParser) (stray : Nat → UInt8) (aliases : Pid → Nat → Option Topic)
    (pid : Pid) (proto : Nat) (msg : NngMsg)
    : Option Topic :=
  let buffer : Buffer := { bytes := msg.body, stray }
  if TopicRejected nng buffer then none
  else if announcedLength buffer ≠ 0 then some (cstr (announcedTopic buffer))
  else if proto = MQTT_PROTOCOL_VERSION_v5 then
    let found := decodeProperties nng msg.body (2 + packetIdSize msg.fixedHeader.qos)
    (propertyGetValue found.properties TOPIC_ALIAS).bind fun value => aliases pid value.asU16
  else none

section Named

variable {nng : MqttParser} {stray : Nat → UInt8} {proto : Nat} {msg : NngMsg}

theorem not_topicRejected_of_named {aliases : Pid → Nat → Option Topic} {pid : Pid}
    {topic : Topic} (named : messageTopic nng stray aliases pid proto msg = some topic)
    : ¬TopicRejected nng { bytes := msg.body, stray } := by
  intro rejected
  rw [messageTopic, if_pos rejected] at named
  cases named

/-- A message that is accepted and has a readable topic field is resolved to the topic that
it names.
-/
theorem namedTopic_decoded (publish : msg.type = PUBLISH)
    (success : (decodePubMessage nng stray msg .zeroed proto).value.1 = SUCCESS)
    (read : ¬TopicRejected nng { bytes := msg.body, stray })
    (aliases : Pid → Nat → Option Topic) (pid : Pid)
    : namedTopic aliases pid proto (decodePubMessage nng stray msg .zeroed proto).value.2
      = messageTopic nng stray aliases pid proto msg := by
  obtain ⟨complete, accepted⟩ := publishAccepted_of_success publish success
  rcases accepted with ⟨rejected, _⟩ | ⟨_, hidden, rest⟩
  · exact absurd rejected read
  · rw [decodePubMessage_stored .zeroed publish complete read hidden rest, messageTopic,
      if_neg read]
    unfold namedTopic PubPacket.topicAlias
    simp only [PubPacket.storeRest_topicName, PubPacket.storePacketId_topicName,
      PubPacket.storeRest_properties]
    have topicName (packet : PubPacket) (name : MqttString)
        : (packet.setTopicName name).publish.topicName = name := rfl
    rw [topicName]
    by_cases empty : announcedLength { bytes := msg.body, stray } = 0
    · have nothing : announcedTopic { bytes := msg.body, stray } = [] := by
        rw [announcedTopic, empty, List.take_zero]
      rw [nothing, empty, if_neg (not_not.mpr rfl)]
      by_cases v5 : proto = MQTT_PROTOCOL_VERSION_v5
      · simp [storedTopic, MqttString.present, v5, Option.bind_map]
      · simp [storedTopic, MqttString.present, v5]
    · have fits : 2 + announcedLength { bytes := msg.body, stray } ≤ msg.body.length := by
        by_contra short
        exact read ⟨empty, Or.inl (Nat.lt_of_not_le short)⟩
      have length := length_announcedTopic fits
      have nonempty : announcedTopic { bytes := msg.body, stray } ≠ [] := by
        intro nothing
        rw [nothing] at length
        exact empty length.symm
      rw [if_pos empty]
      simp [storedTopic, MqttString.present, nonempty, List.length_pos_iff]

end Named

-- What handle_pub reports

/-- From `s` to `t` a packet was routed to a topic: the recipients are the clients of the
topic, and a packet with the retain flag has set or deleted the entry of the topic.
-/
structure RoutedTo (lib : Library) (env : Env) (id : MsgId) (packet : PubPacket)
    (topic : Topic) (s t : Cb)
    : Prop where
  recipients
    : t.work.msgInfos
      = ((lib.findClients s.world.stores topic).getD []).filter (· != 0)
        ++ ((env.sharedClients topic).getD []).filter (· != 0)
  retained
    : packet.fixedHeader.retain = true
      → t.world.retained
        = Function.update s.world.retained topic (RetainMsg.of id packet)

section Reports

variable (lib : Library) (env : Env) (proto : Nat) (id : MsgId) (s : Cb)

/-- What `handle_pub` decodes the message to. -/
def handledPacket : ReasonCode × PubPacket :=
  (decodePubMessage lib.parser env.stray (s.world.msgs id) .zeroed proto).value

/-- The topic that the bytes of the message name. -/
def handledTopic : Option Topic :=
  messageTopic lib.parser env.stray s.world.aliases s.work.pid proto (s.world.msgs id)

/-- The code SUCCESS is reported for a message that was routed to the topic it names, and
for no message that names none.
-/
structure ReportsRouting : Prop where
  routed
    : (handlePub lib env proto id s).1 = SUCCESS
      → ∃ topic,
          topic ≠ []
          ∧ handledTopic lib env proto id s = some topic
          ∧ RoutedTo lib env id (handledPacket lib env proto id s).2 topic s
              (handlePub lib env proto id s).2
  refused
    : handledTopic lib env proto id s = none → (handlePub lib env proto id s).1 ≠ SUCCESS

variable {lib env proto id s}

theorem handlePub_code
    : (handlePub lib env proto id s).1 = (handledPacket lib env proto id s).1 := by
  unfold handlePub handledPacket
  dsimp only
  split <;> rfl

/-- A PUBLISH that is accepted and names a topic is routed to it. -/
theorem handlePub_routedTo {topic : Topic} (publish : (s.world.msgs id).type = PUBLISH)
    (success : (handledPacket lib env proto id s).1 = SUCCESS)
    (named : handledTopic lib env proto id s = some topic)
    : RoutedTo lib env id (handledPacket lib env proto id s).2 topic s
        (handlePub lib env proto id s).2 := by
  have read := not_topicRejected_of_named named
  rw [handledTopic, ← namedTopic_decoded publish success read] at named
  obtain ⟨header, wellFormed⟩ := decodePubMessage_accepts publish success
  have handles := handlePub_handles lib env proto id s
  unfold handledPacket at success ⊢
  rw [← resolveTopic_topic s.world s.work.pid proto wellFormed] at named
  generalize handlePub lib env proto id s = result at handles
  cases handles with
  | refused decoded refused =>
      rw [decoded] at header success
      rcases refused with code | type
      · exact absurd success code
      · exact absurd ((congrArg FixedHeader.packetType header).trans publish) type
  | unresolved accepted _ resolved =>
      rw [accepted, resolved] at named
      cases named
  | routed accepted _ resolved =>
      rename_i decoded packet routedTopic aliases _
      obtain ⟨sameHeader, samePayload⟩ :=
        (resolveTopic_resolves s.world s.work.pid proto decoded).sameMessage
      rw [resolved] at sameHeader samePayload
      rw [accepted, resolved] at named
      cases named
      rw [accepted]
      refine { recipients := ?_, retained := ?_ }
      · rw [← recipients_eq]
        exact congrArg Work.msgInfos (handlePubRetain_work _ _ _ _)
      · intro retain
        refine (handlePubRetain_retained id packet topic _).trans ?_
        rw [sameHeader, if_pos retain]
        unfold RetainMsg.of
        rw [sameHeader, samePayload]
        rfl

/-- `handle_pub` reports the routing rightly exactly for the messages that are incomplete or
not acceptable and for those that name a topic that is not empty.
-/
theorem handlePub_reports_routing_iff (publish : (s.world.msgs id).type = PUBLISH)
    : ReportsRouting lib env proto id s
      ↔ ((s.world.msgs id).remainingLen ≤ (s.world.msgs id).body.length
        → PublishAccepted lib.parser { bytes := (s.world.msgs id).body, stray := env.stray }
            proto (s.world.msgs id).fixedHeader.qos
        → ∃ topic, topic ≠ [] ∧ handledTopic lib env proto id s = some topic) := by
  constructor
  · intro reports complete accepted
    have success : (handledPacket lib env proto id s).1 = SUCCESS := by
      rw [handledPacket, decodePubMessage_publish .zeroed publish complete]
      exact decodePublish_accepted accepted
    obtain ⟨topic, nonempty, named, _⟩ := reports.routed (handlePub_code.trans success)
    exact ⟨topic, nonempty, named⟩
  · intro names
    have named (reported : (handlePub lib env proto id s).1 = SUCCESS)
        : ∃ topic, topic ≠ [] ∧ handledTopic lib env proto id s = some topic := by
      obtain ⟨complete, accepted⟩ :=
        publishAccepted_of_success publish (handlePub_code.symm.trans reported)
      exact names complete accepted
    refine { routed := ?_, refused := ?_ }
    · intro reported
      obtain ⟨topic, nonempty, isNamed⟩ := named reported
      exact ⟨topic, nonempty, isNamed,
        handlePub_routedTo publish (handlePub_code.symm.trans reported) isNamed⟩
    · intro unnamed reported
      obtain ⟨topic, _, isNamed⟩ := named reported
      rw [unnamed] at isNamed
      cases isNamed

end Reports

/-- A context of the broker that holds this message, and nothing else is known. -/
def Cb.holding (msg : NngMsg) : Cb :=
  {
    work := { Work.receiving .MQTT_BROKER with msg := some 0, pid := msg.pipe }
    world := World.empty.allocMsg msg
    trace := []
  }

/-- The routing of a message with a topic and an alias is reported rightly. -/
theorem aliasMessage_reports_routing
    : ReportsRouting (referenceLibrary fun _ => some [0, 7, 9]) (.brings none)
        MQTT_PROTOCOL_VERSION_v5 0 (.holding aliasMessage) :=
  (handlePub_reports_routing_iff (by decide)).mpr
    fun _ _ => ⟨[97], by decide, by decide⟩

/-- A context that holds this message, where alias 1 of pipe 3 stands for `a`. -/
def Cb.knowingAlias (msg : NngMsg) : Cb :=
  let s := Cb.holding msg
  s.setWorld (s.world.dbhashInsertAtpair 3 1 [97])

/-- SUCCESS is reported for a version 5 PUBLISH whose alias is unknown, for a PUBLISH without
topic or alias, and for one whose topic is not valid UTF-8; none of them is routed. A version
5 PUBLISH whose topic is not valid UTF-8 is even routed to what its alias stands for.
-/
theorem unrouted_messages_succeed
    : let lib := referenceLibrary fun _ => some [7]
      let unknownAlias := retainedByAlias
      let noTopic := NngMsg.received .PUBLISH [0x30, 3] [0, 0, 120] 3 (.plain 4)
      let notUtf8 := NngMsg.received .PUBLISH [0x30, 4] [0, 1, 0xFF, 120] 3 (.plain 4)
      let aliased :=
        Cb.knowingAlias (.received .PUBLISH [0x30, 7] [0, 4, 3, 35, 0, 1, 120] 3 (.plain 5))
      (∀ message ∈ [(unknownAlias, 5), (noTopic, 4), (notUtf8, 4)],
        message.1.type = PUBLISH
        ∧ handledTopic lib (.brings none) message.2 0 (.holding message.1) = none
        ∧ (handlePub lib (.brings none) message.2 0 (.holding message.1)).1 = SUCCESS
        ∧ (handlePub lib (.brings none) message.2 0 (.holding message.1)).2.work.msgInfos
          = [])
      ∧ (aliased.world.msgs 0).type = PUBLISH
      ∧ handledTopic lib (.brings none) 5 0 aliased = none
      ∧ (handlePub lib (.brings none) 5 0 aliased).1 = SUCCESS
      ∧ (handlePub lib (.brings none) 5 0 aliased).2.work.msgInfos = [7] := by
  decide

-- Aliases and the history

/-- A version 5 PUBLISH of this pipe that `handle_pub` has accepted. -/
def Effect.acceptedFrom (pid : Pid) : Effect → Option PubPacket
  | .handlePub proto msg packet code _ =>
      if proto = MQTT_PROTOCOL_VERSION_v5 ∧ code = SUCCESS ∧ msg.type = PUBLISH
          ∧ msg.pipe = pid then
        some packet
      else none
  | _ => none

/-- The version 5 PUBLISH packets of a pipe that were accepted, in order. -/
def acceptedFrom (history : List Effect) (pid : Pid) : List PubPacket :=
  history.filterMap (Effect.acceptedFrom pid)

/-- The topic of the last packet that has both a topic and this alias. -/
def latestAlias (packets : List PubPacket) (topicAlias : Nat) : Option Topic :=
  (packets.filterMap fun packet => packet.defines topicAlias).getLast?

theorem latestAlias_append (earlier later : List PubPacket) (topicAlias : Nat)
    : latestAlias (earlier ++ later) topicAlias
      = (latestAlias later topicAlias).or (latestAlias earlier topicAlias) := by
  unfold latestAlias
  rw [List.filterMap_append, List.getLast?_append]

theorem Effect.acceptedFrom_eq_none {effect : Effect} (pid : Pid)
    (other : effect.kind ≠ .handling)
    : effect.acceptedFrom pid = none := by
  cases effect with
  | handlePub _ _ _ _ _ => exact absurd rfl other
  | _ => rfl

/-- A composed will has no topic alias. -/
def Library.ComposesNoAlias (lib : Library) : Prop :=
  ∀ will stray,
    lib.Composes will
    → (decodePubMessage lib.parser stray (will.setCmdType .PUBLISH_V5) .zeroed
        MQTT_PROTOCOL_VERSION_v5).value.2.topicAlias
      = none

section Latest

variable {lib : Library} {env : Env} {mine : MsgId → Prop} {kinds : List EffectKind}
  {proto : Nat} {id : MsgId} {s t : Cb}

theorem acceptedFrom_of_grows {before after : List Effect}
    (grown : Grows (fun effect => effect.kind ≠ .handling) before after) (pid : Pid)
    : acceptedFrom after pid = acceptedFrom before pid :=
  grown.filterMap_eq fun _ other => Effect.acceptedFrom_eq_none pid other

theorem Frame.acceptedFrom_eq (frame : Frame mine kinds s t) (quiet : .handling ∉ kinds)
    (pid : Pid)
    : acceptedFrom t.trace pid = acceptedFrom s.trace pid := by
  refine acceptedFrom_of_grows (frame.trace.mono ?_) pid
  intro effect member handling
  rw [handling] at member
  exact quiet member

theorem Attached.acceptedFrom_eq {will : Option (Option (List Property) × Nat)}
    (attach : Attached s will t) (pid : Pid)
    : acceptedFrom t.trace pid = acceptedFrom s.trace pid := by
  cases attach with
  | nothing => rfl
  | will properties propLen =>
      change acceptedFrom (s.trace ++ [Effect.willProperties properties propLen]) pid = _
      unfold acceptedFrom
      rw [List.filterMap_append]
      exact List.append_nil _

theorem acceptedFrom_snoc (history : List Effect) (effect : Effect) (pid : Pid)
    : acceptedFrom (history ++ [effect]) pid
      = acceptedFrom history pid ++ (effect.acceptedFrom pid).toList := by
  unfold acceptedFrom
  rw [List.filterMap_append]
  cases accepted : effect.acceptedFrom pid <;> simp [accepted]

/-- A call of `handle_pub` either accepts nothing and leaves the aliases alone, or it accepts
one packet and the aliases are those after resolving its topic.
-/
theorem handlePub_accepted (rejectsNul : lib.parser.RejectsNul) (pid : Pid)
    : ((handlePub lib env proto id s).2.world.aliases = s.world.aliases
        ∧ acceptedFrom (handlePub lib env proto id s).2.trace pid = acceptedFrom s.trace pid)
      ∨ ∃ packet : PubPacket,
          (decodePubMessage lib.parser env.stray (s.world.msgs id) .zeroed proto).value
            = (SUCCESS, packet)
          ∧ packet.Sound lib.parser proto
          ∧ (handlePub lib env proto id s).2.world.aliases
            = (resolveTopic s.world s.work.pid proto packet).world.aliases
          ∧ acceptedFrom (handlePub lib env proto id s).2.trace pid
            = acceptedFrom s.trace pid
              ++ (if proto = MQTT_PROTOCOL_VERSION_v5 ∧ (s.world.msgs id).pipe = pid then
                  [packet]
                else []) := by
  have accepts : ∀ packet topic (publish : (s.world.msgs id).type = PUBLISH),
      (Effect.acceptedFrom pid
          (.handlePub proto (s.world.msgs id) packet SUCCESS topic)).toList
        = if proto = MQTT_PROTOCOL_VERSION_v5 ∧ (s.world.msgs id).pipe = pid then [packet]
          else [] := by
    intro packet topic publish
    unfold Effect.acceptedFrom
    by_cases v5 : proto = MQTT_PROTOCOL_VERSION_v5 <;>
      by_cases same : (s.world.msgs id).pipe = pid <;> simp [v5, same, publish]
  have handles := handlePub_handles lib env proto id s
  generalize handlePub lib env proto id s = result at handles
  cases handles with
  | refused decoded refused =>
      rename_i code packet
      have nothing
          : (Effect.handlePub proto (s.world.msgs id) packet code none).acceptedFrom pid
            = none := by
        refine if_neg ?_
        rintro ⟨_, success, publish, _⟩
        have header := (decodePubMessage_accepts publish
          ((congrArg Prod.fst decoded).trans success)).1
        rw [decoded] at header
        rcases refused with failed | type
        · exact absurd success failed
        · exact absurd ((congrArg FixedHeader.packetType header).trans publish) type
      refine Or.inl ⟨rfl, (acceptedFrom_snoc _ _ _).trans ?_⟩
      rw [nothing]
      exact List.append_nil _
  | unresolved accepted publish resolved =>
      rename_i packet
      have sound := (decodePubMessage_sound rejectsNul publish (congrArg Prod.fst accepted)).1
      rw [accepted] at sound
      refine Or.inr ⟨packet, accepted, sound, ?_, ?_⟩
      · have same := (resolveTopic_resolves s.world s.work.pid proto packet).world_of_none
          resolved
        exact congrArg World.aliases same.symm
      · exact (acceptedFrom_snoc _ _ _).trans (congrArg _ (accepts _ _ publish))
  | routed accepted publish resolved =>
      rename_i decoded packet topic aliases
      have sound := (decodePubMessage_sound rejectsNul publish (congrArg Prod.fst accepted)).1
      rw [accepted] at sound
      refine Or.inr ⟨decoded, accepted, sound, ?_, ?_⟩
      · rw [resolved]
        exact handlePubRetain_aliases _ _ _ _
      · refine (acceptedFrom_snoc _ _ _).trans (congrArg₂ _ ?_ (accepts _ _ publish))
        refine acceptedFrom_of_grows ((handlePubRetain_trace id packet topic _).mono ?_) pid
        intro effect isOther handling
        rw [isOther] at handling
        cases handling

theorem MqttString.Sound.body_cstr {nng : MqttParser} {topicName : MqttString}
    (sound : topicName.Sound nng) (rejectsNul : nng.RejectsNul)
    : topicName.body.map cstr = topicName.body := by
  rcases sound with nothing | ⟨text, rfl, valid⟩
  · rw [nothing]
    rfl
  · exact congrArg some (cstr_of_not_mem (rejectsNul text valid.valid))

/-- The call that `handle_pub` logs tells what the message was decoded to, and for an accepted
PUBLISH how its topic was resolved.
-/
theorem handlePub_logged {usedProto : Nat} {msg : NngMsg} {packet : PubPacket}
    {routed : Option Topic} (notBefore : ∀ effect ∈ s.trace, effect.kind ≠ .handling)
    (publish : msg.type = PUBLISH)
    (logged
      : .handlePub proto msg packet SUCCESS routed
        ∈ (handlePub lib env usedProto id s).2.trace)
    : usedProto = proto
      ∧ s.world.msgs id = msg
      ∧ (decodePubMessage lib.parser env.stray msg .zeroed proto).value = (SUCCESS, packet)
      ∧ routed = (resolveTopic s.world s.work.pid proto packet).topic := by
  have absent : .handlePub proto msg packet SUCCESS routed ∉ s.trace :=
    fun earlier => notBefore _ earlier rfl
  have handles := handlePub_handles lib env usedProto id s
  generalize handlePub lib env usedProto id s = result at handles logged
  cases handles with
  | refused decoded refused =>
      rcases List.mem_append.mp logged with earlier | last
      · exact absurd earlier absent
      · cases List.mem_singleton.mp last
        have header := (decodePubMessage_accepts publish (congrArg Prod.fst decoded)).1
        rw [decoded] at header
        rcases refused with failed | type
        · exact absurd rfl failed
        · exact absurd ((congrArg FixedHeader.packetType header).trans publish) type
  | unresolved accepted _ resolved =>
      rcases List.mem_append.mp logged with earlier | last
      · exact absurd earlier absent
      · cases List.mem_singleton.mp last
        exact ⟨rfl, rfl, accepted, resolved.symm⟩
  | routed accepted _ resolved =>
      rcases List.mem_append.mp logged with earlier | last
      · exact absurd ((handlePubRetain_trace _ _ _ _).mem_of_mem earlier nofun) absent
      · cases List.mem_singleton.mp last
        refine ⟨rfl, rfl, accepted, ?_⟩
        rw [resolved]

variable (rejectsNul : lib.parser.RejectsNul) (composes : lib.ComposesNoAlias)

include rejectsNul composes

/-- After `handle_pub` an alias stands for the topic that this call has given it, or for the
one it had before.
-/
theorem handlePub_latest (env : Env) (pid : Pid) (topicAlias : Nat)
    (origin
      : proto = MQTT_PROTOCOL_VERSION_v5
        → s.work.pid = (s.world.msgs id).pipe
          ∨ ∃ will, lib.Composes will ∧ s.world.msgs id = will.setCmdType .PUBLISH_V5)
    (started : acceptedFrom s.trace pid = [])
    : (handlePub lib env proto id s).2.world.aliases pid topicAlias
      = (latestAlias (acceptedFrom (handlePub lib env proto id s).2.trace pid) topicAlias).or
          (s.world.aliases pid topicAlias) := by
  rcases handlePub_accepted rejectsNul pid with
    ⟨aliases, accepted⟩ | ⟨packet, decoded, sound, aliases, accepted⟩
  · rw [aliases, accepted, started]
    rfl
  · rw [aliases, accepted, started, List.nil_append]
    by_cases v5 : proto = MQTT_PROTOCOL_VERSION_v5
    · rw [resolveTopic_defines s.world s.work.pid (sound.topicName.body_cstr rejectsNul) v5]
      rcases origin v5 with own | ⟨will, composed, isWill⟩
      · rw [own]
        by_cases same : (s.world.msgs id).pipe = pid
        · cases defines : packet.defines topicAlias <;>
            simp [latestAlias, v5, same, defines]
        · simp [latestAlias, same]
      · -- A will defines no alias, whatever pipe the context has in its fields.
        have unaliased := composes will env.stray composed
        rw [← isWill, ← v5, decoded] at unaliased
        have defines : packet.defines topicAlias = none := by
          unfold PubPacket.defines
          rw [unaliased]
          simp
        have latest : ∀ packets : List PubPacket, (∀ p ∈ packets, p = packet)
            → latestAlias packets topicAlias = none := by
          intro packets all
          unfold latestAlias
          rw [List.filterMap_eq_nil_iff.mpr fun p member => (all p member).symm ▸ defines]
          rfl
        rw [defines, latest _ (by split <;> simp)]
        split <;> rfl
    · rw [resolveTopic_older s.world s.work.pid packet v5]
      simp [latestAlias, v5]

/-- An activation leaves every alias as the latest packet of the pipe defines it. -/
theorem Activates.latest {limit : MsgId} (activates : Activates lib env limit mine s t)
    (silent : s.trace = []) (pid : Pid) (topicAlias : Nat)
    : t.world.aliases pid topicAlias
      = (latestAlias (acceptedFrom t.trace pid) topicAlias).or
          (s.world.aliases pid topicAlias) := by
  have started : acceptedFrom s.trace pid = [] := by
    rw [silent]
    rfl
  cases activates with
  | quiet rearms =>
      rw [(rearms.frame.databases (by decide)).1,
        rearms.frame.acceptedFrom_eq (by decide) pid, started]
      rfl
  | publishes publishes =>
      obtain ⟨proto, id, before, _, _, _, _, attach, after, _, origin⟩ := publishes
      have begun := (before.acceptedFrom_eq (by decide) pid).trans started
      have handled := handlePub_latest rejectsNul composes env pid topicAlias origin begun
      rw [(before.databases (by decide)).1] at handled
      rw [(after.frame.databases (by decide)).1, after.frame.acceptedFrom_eq (by decide) pid,
        attach.acceptedFrom_eq pid, ← handled]
      cases attach with
      | nothing => rfl
      | will _ _ => rfl

omit rejectsNul in
/-- An accepted version 5 PUBLISH with an alias is routed to the topic it names under the
aliases of its own pipe.
-/
theorem Publishes.logged {limit : MsgId} {msg : NngMsg} {packet : PubPacket}
    {routed : Option Topic} (publishes : Publishes lib env limit mine s t)
    (silent : s.trace = []) (publish : msg.type = PUBLISH)
    (logged : .handlePub MQTT_PROTOCOL_VERSION_v5 msg packet SUCCESS routed ∈ t.trace)
    (aliased : packet.topicAlias ≠ none)
    : routed = namedTopic s.world.aliases msg.pipe MQTT_PROTOCOL_VERSION_v5 packet := by
  obtain ⟨proto, id, before, _, _, _, _, attach, after, _, origin⟩ := publishes
  have inHandled := attach.handlePub_mem (after.frame.handling_mem (by decide) rfl logged)
  obtain ⟨rfl, rfl, decoded, resolved⟩ :=
    handlePub_logged (before.handling_not_mem (by decide) silent) publish inHandled
  have wellFormed := (decodePubMessage_accepts publish (congrArg Prod.fst decoded)).2
  rw [decoded] at wellFormed
  rw [resolved, resolveTopic_topic _ _ _ wellFormed, (before.databases (by decide)).1]
  rcases origin rfl with own | ⟨will, composed, isWill⟩
  · rw [own]
  · have unaliased := composes will env.stray composed
    rw [← isWill, decoded] at unaliased
    exact absurd unaliased aliased

end Latest

-- Runs

/-- Every alias stands for the topic of the latest packet of its pipe that defines it. -/
structure AliasesLatest (nng : MqttParser) (world : World) (history : List Effect)
    : Prop where
  valid : AliasesValid nng world
  latest
    : ∀ pid topicAlias,
        world.aliases pid topicAlias = latestAlias (acceptedFrom history pid) topicAlias

section Runs

variable {Index : Type} [DecidableEq Index] {lib : Library}
  {first system : System Index Work World} {history : List Effect}

theorem Starts.reachable_latest (starts : Starts first) (notifies : lib.NotifiesPublish)
    (rejectsNul : lib.parser.RejectsNul) (composes : lib.ComposesNoAlias)
    (reached : Reach (activate lib) (fun _ => Permitted lib) first system history)
    : Invariant (AliasesLatest lib.parser) Holds Apart system history := by
  refine reached.invariant Apart.symm ?_ (starts.invariant ?_)
  · intro _ env work world history permitted aliases holds
    have activates := serverCb_activates holds.fits permitted.alive
    refine holds.preserved notifies permitted { valid := ?_, latest := ?_ }
    · exact activates.aliases rejectsNul aliases.valid
    · intro pid topicAlias
      rw [acceptedFrom, List.filterMap_append]
      refine (activates.latest rejectsNul composes rfl pid topicAlias).trans ?_
      rw [aliases.latest]
      exact (latestAlias_append _ _ _).symm
  · refine { valid := ?_, latest := ?_ }
    · intro pid topicAlias topic known
      rw [starts.aliases] at known
      cases known
    · intro pid topicAlias
      rw [starts.aliases]
      rfl

/-- In every run, a PUBLISH that has no topic but an alias is routed to the topic of the
latest accepted packet of its pipe that had both a topic and this alias, and to none if
there is no such packet. The packet gets this topic, which has no wildcards.
-/
theorem alias_resolves_to_latest (starts : Starts first) (notifies : lib.NotifiesPublish)
    (rejectsNul : lib.parser.RejectsNul) (composes : lib.ComposesNoAlias)
    (reached : Reach (activate lib) (fun _ => Permitted lib) first system history)
    (index : Index) (env : Env)
    (permitted : Permitted lib env (system.locals index) system.shared) (msg : NngMsg)
    (packet : PubPacket) (topicAlias : Nat) (routed : Option Topic)
    : let after := serverCb lib env (system.locals index) system.shared
      .handlePub MQTT_PROTOCOL_VERSION_v5 msg packet SUCCESS routed ∈ after.trace
      → msg.type = PUBLISH
      → packet.publish.topicName.len = 0
      → packet.topicAlias = some topicAlias
      → routed = latestAlias (acceptedFrom history msg.pipe) topicAlias
        ∧ ∀ topic,
            routed = some topic
            → after.work.msgInfos
                = ((lib.findClients system.shared.stores topic).getD []).filter (· != 0)
                  ++ ((env.sharedClients topic).getD []).filter (· != 0)
              ∧ after.work.pubPacket.map (·.publish.topicName)
                = some { body := some topic, len := topic.length }
              ∧ topic ≠ []
              ∧ (43 : UInt8) ∉ topic
              ∧ (35 : UInt8) ∉ topic := by
  intro after logged publish empty aliased
  have invariant := starts.reachable_latest notifies rejectsNul composes reached
  have activates := serverCb_activates (invariant.own index).fits permitted.alive
  cases activates with
  | quiet rearms => cases rearms.frame.handling_mem (by decide) rfl logged
  | publishes publishes =>
      have aliases := invariant.globally
      refine ⟨?_, ?_⟩
      · have named := publishes.logged composes rfl publish logged
          (by rw [aliased]; exact Option.some_ne_none _)
        rw [named, ← aliases.latest, namedTopic]
        have absent : packet.publish.topicName.present = false := by
          simp [MqttString.present, empty]
        simp [absent, aliased]
      · rintro topic rfl
        obtain ⟨_, _, publishTopic, awaits⟩ :=
          publishes.awaits rejectsNul aliases.valid rfl logged
        refine ⟨?_, ?_, publishTopic.nonempty, publishTopic.plain⟩
        · rw [← recipients_eq]
          exact awaits.msgInfos
        · rw [awaits.pubPacket, Option.map_some, publication_topicName]

end Runs

/-- A version 5 PUBLISH of QoS 0 to topic `w` with payload `x` and without properties. -/
def willLayout : PublishLayout referenceParser MQTT_PROTOCOL_VERSION_v5 0 :=
  {
    topic := [119]
    packetId := 0
    propertyBytes := [0]
    payload := [120]
    topic_short := by decide
    topic_valid := Or.inr rfl
    topic_plain := by decide
    packetId_short := by decide
    properties_valid := ⟨{ properties := none, propLen := 0, consumed := 1 }, by decide⟩
  }

/-- A library that composes the same will for every connection. -/
def fixedWillLibrary : Library :=
  {
    referenceLibrary (fun _ => some [7]) with
    pubmsgComposer := fun _ _ _ _ _ _ =>
      .received .PUBLISH [0x30, 5] willLayout.bytes 0 (.plain 5)
  }

theorem willLayout_noAlias (stray : Nat → UInt8)
    : (decodePubMessage referenceParser stray
        (.received .PUBLISH_V5 [0x30, 5] willLayout.bytes 0 (.plain 5)) .zeroed
        MQTT_PROTOCOL_VERSION_v5).value.2.topicAlias
      = none := by
  have parsed : referenceParser.propertySection (willLayout.propertyBytes ++ willLayout.payload)
      = some { properties := none, propLen := 0, consumed := 1 } := by
    decide
  unfold PubPacket.topicAlias
  rw [willLayout.decoded_properties .zeroed rfl (by decide) (by decide) (by decide) rfl parsed]
  rfl

theorem fixedWillLibrary_composesNoAlias : fixedWillLibrary.ComposesNoAlias := by
  rintro _ stray ⟨retain, qos, payload, topic, clock, rfl⟩
  have composed
      : (fixedWillLibrary.pubmsgComposer retain qos payload topic MQTT_PROTOCOL_VERSION_v5
          clock).setCmdType .PUBLISH_V5
        = .received .PUBLISH_V5 [0x30, 5] willLayout.bytes 0 (.plain 5) :=
    rfl
  have parser : fixedWillLibrary.parser = referenceParser := rfl
  rw [composed, parser]
  exact willLayout_noAlias stray

/-- A version 5 PUBLISH of another pipe to topic `b`, also with topic alias 1. -/
def otherDefinition : NngMsg :=
  .received .PUBLISH [0x30, 8] [0, 1, 98, 3, 35, 0, 1, 120] 4 (.plain 5)

/-- Pipe 3 defines topic alias 1, then pipe 4 does so too. -/
def aliasesDefined : List (Unit × Env) :=
  completions [none, some aliasDefinition, none, some otherDefinition, none]

/-- A message that names its topic by an alias goes to the topic that its own pipe has given
this alias.
-/
theorem retainedByAlias_resolves
    : let system := oneContext.run (activate fixedWillLibrary) aliasesDefined
      let history := oneContext.log (activate fixedWillLibrary) aliasesDefined
      let after :=
        serverCb fixedWillLibrary (.brings (some retainedByAlias)) (system.locals ())
          system.shared
      latestAlias (acceptedFrom history 3) 1 = some [97]
      ∧ after.work.msgInfos = [7]
      ∧ after.work.pubPacket.map (·.publish.topicName)
        = some { body := some [97], len := 1 } := by
  have reached
      : Reach (activate fixedWillLibrary) (fun _ => Permitted fixedWillLibrary) oneContext
          (oneContext.run (activate fixedWillLibrary) aliasesDefined)
          ([] ++ oneContext.log (activate fixedWillLibrary) aliasesDefined) :=
    .run _ .start aliasesDefined (by decide)
  have permitted
      : Permitted fixedWillLibrary (.brings (some retainedByAlias))
          ((oneContext.run (activate fixedWillLibrary) aliasesDefined).locals ())
          (oneContext.run (activate fixedWillLibrary) aliasesDefined).shared := by
    decide
  have trace
      : .handlePub MQTT_PROTOCOL_VERSION_v5 (retainedByAlias.setCmdType .PUBLISH_V5)
          {
            PubPacket.zeroed with
            fixedHeader :=
              { retain := true, qos := 0, dup := false, packetType := 3, remainLen := 7 }
            publish :=
              {
                packetId := 0
                topicName := { body := none, len := 0 }
                properties := some [{ id := TOPIC_ALIAS, value := .u16 1 }]
                propLen := 3
              }
            payload := { data := some [121], len := 1 }
          }
          SUCCESS (some [97])
        ∈ (serverCb fixedWillLibrary (.brings (some retainedByAlias))
            ((oneContext.run (activate fixedWillLibrary) aliasesDefined).locals ())
            (oneContext.run (activate fixedWillLibrary) aliasesDefined).shared).trace := by
    decide
  have notifies : fixedWillLibrary.NotifiesPublish :=
    fun _ _ => composePublish_type _ _ _ _ _
  have rejectsNul : fixedWillLibrary.parser.RejectsNul := referenceParser_rejectsNul
  have resolves := alias_resolves_to_latest oneContext_starts notifies rejectsNul
    fixedWillLibrary_composesNoAlias reached () (.brings (some retainedByAlias)) permitted
  rw [List.nil_append] at resolves
  dsimp only at resolves ⊢
  obtain ⟨latest, resolved⟩ := resolves _ _ 1 (some [97]) trace (by decide) rfl (by decide)
  obtain ⟨recipients, topicName, _⟩ := resolved [97] rfl
  refine ⟨latest.symm, recipients.trans (by decide), topicName⟩

end NanoMQ
