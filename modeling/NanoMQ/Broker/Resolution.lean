import NanoMQ.Broker.System
import NanoMQ.Publish.Forwarding

/-! How `handle_pub` resolves the topic of a PUBLISH and collects its recipients. -/

namespace NanoMQ

open Bytes Contexts

-- Topics

/-- Every alias stands for a topic that may stand in a PUBLISH. -/
def AliasesValid (nng : MqttParser) (world : World) : Prop :=
  ∀ pid topicAlias topic, world.aliases pid topicAlias = some topic → PublishTopic nng topic

section Resolve

variable {nng : MqttParser} {world : World} {pid : Pid} {proto : Nat} {packet : PubPacket}

theorem MqttString.Sound.own {topicName : MqttString} {topic : Topic}
    (sound : topicName.Sound nng) (rejectsNul : nng.RejectsNul)
    (own : topicName.body.map cstr = some topic)
    : PublishTopic nng topic ∧ topicName = { body := some topic, len := topic.length } := by
  rcases sound with nothing | ⟨text, named, valid⟩
  · rw [nothing] at own
    cases own
  · subst named
    rw [Option.map_some, cstr_of_not_mem (rejectsNul text valid.valid)] at own
    cases own
    exact ⟨valid, rfl⟩

/-- The packet is given the topic it is routed to, and that topic is valid. -/
theorem resolveTopic_sound {topic : Topic} (rejectsNul : nng.RejectsNul)
    (aliases : AliasesValid nng world) (sound : packet.publish.topicName.Sound nng)
    (resolved : (resolveTopic world pid proto packet).topic = some topic)
    : PublishTopic nng topic
      ∧ (resolveTopic world pid proto packet).packet
        = packet.setTopicName { body := some topic, len := topic.length } := by
  have ofOwn
      : packet.publish.topicName.body.map cstr = some topic
        → PublishTopic nng topic
          ∧ packet = packet.setTopicName { body := some topic, len := topic.length } := by
    intro own
    obtain ⟨valid, named⟩ := sound.own rejectsNul own
    refine ⟨valid, ?_⟩
    rw [← named]
    rfl
  have resolves := resolveTopic_resolves world pid proto packet
  generalize resolveTopic world pid proto packet = result at resolves resolved
  cases resolves with
  | own => exact ofOwn resolved
  | defines topicAlias present =>
      apply ofOwn
      rw [present]
      exact resolved
  | unknown => cases resolved
  | found topicAlias known =>
      cases resolved
      exact ⟨aliases pid _ _ known, rfl⟩

theorem resolveTopic_aliases (rejectsNul : nng.RejectsNul) (aliases : AliasesValid nng world)
    (sound : packet.publish.topicName.Sound nng)
    : AliasesValid nng (resolveTopic world pid proto packet).world := by
  have resolves := resolveTopic_resolves world pid proto packet
  generalize resolveTopic world pid proto packet = result at resolves
  cases resolves with
  | own => exact aliases
  | defines topicAlias present =>
      rename_i text
      have own : packet.publish.topicName.body.map cstr = some (cstr text) := by
        rw [present, Option.map_some]
      have valid := (sound.own rejectsNul own).1
      intro otherPid otherAlias topic found
      unfold World.dbhashInsertAtpair at found
      dsimp only at found
      rcases eq_or_ne otherPid pid with rfl | differentPid
      · rw [Function.update_self] at found
        rcases eq_or_ne otherAlias topicAlias with rfl | differentAlias
        · rw [Function.update_self] at found
          cases found
          exact valid
        · rw [Function.update_of_ne differentAlias] at found
          exact aliases _ _ _ found
      · rw [Function.update_of_ne differentPid] at found
        exact aliases _ _ _ found
  | unknown => exact aliases
  | found _ _ => exact aliases

end Resolve

-- handle_pub

/-- Everything `handle_pub` can do: refuse the message, accept it without a topic to route
it to, or route it.
-/
inductive HandlesPub (lib : Library) (env : Env) (proto : Nat) (id : MsgId) (s : Cb)
    : ReasonCode × Cb → Prop
  | refused {code : ReasonCode} {packet : PubPacket}
    (decoded
      : (decodePubMessage lib.parser env.stray (s.world.msgs id) .zeroed proto).value
        = (code, packet))
    (refused : code ≠ SUCCESS ∨ packet.fixedHeader.packetType ≠ PUBLISH)
    : HandlesPub lib env proto id s
        (code,
          ((s.read [.fields, .contents id]).setWork
            { s.work with msgInfos := [], pubPacket := some packet }).emit
            (.handlePub proto (s.world.msgs id) packet code none))
  | unresolved {packet : PubPacket}
    (accepted
      : (decodePubMessage lib.parser env.stray (s.world.msgs id) .zeroed proto).value
        = (SUCCESS, packet))
    (publish : (s.world.msgs id).type = PUBLISH)
    (resolved : (resolveTopic s.world s.work.pid proto packet).topic = none)
    : HandlesPub lib env proto id s
        (SUCCESS,
          ((s.read [.fields, .contents id]).setWork
            { s.work with msgInfos := [], pubPacket := some packet }).emit
            (.handlePub proto (s.world.msgs id) packet SUCCESS none))
  | routed {decoded packet : PubPacket} {topic : Topic} {aliases : Pid → Nat → Option Topic}
    (accepted
      : (decodePubMessage lib.parser env.stray (s.world.msgs id) .zeroed proto).value
        = (SUCCESS, decoded))
    (publish : (s.world.msgs id).type = PUBLISH)
    (resolved
      : resolveTopic s.world s.work.pid proto decoded
        = { world := { s.world with aliases }, packet, topic := some topic })
    : HandlesPub lib env proto id s
        (SUCCESS,
          (handlePubRetain id packet topic
            ((((s.read [.fields, .contents id]).setWork
                  { s.work with msgInfos := [], pubPacket := some decoded }).setWorld
                { s.world with aliases }).setWork
              {
                s.work with
                msgInfos := recipients lib env s.world.stores topic
                pubPacket := some packet
              })).emit
            (.handlePub proto (s.world.msgs id) decoded SUCCESS (some topic)))

/-- A packet that is decoded as a PUBLISH comes from a PUBLISH. -/
theorem type_of_packetType {nng : MqttParser} {stray : Nat → UInt8} {msg : NngMsg}
    {packet : PubPacket} {proto : Nat}
    (decoded
      : (decodePubMessage nng stray msg packet proto).value.2.fixedHeader.packetType
        = PUBLISH)
    : msg.type = PUBLISH := by
  by_contra other
  have kept
      : (decodePubMessage nng stray msg packet proto).value.2.fixedHeader
        = msg.fixedHeader := by
    have notPublish : msg.fixedHeader.packetType ≠ PUBLISH := other
    unfold decodePubMessage
    dsimp only
    rw [if_neg notPublish]
    split
    · rfl
    · split
      · unfold decodePubArrc
        by_cases v5 : proto = MQTT_PROTOCOL_VERSION_v5
        · simp only [v5, if_true]
          rfl
        · simp only [v5, if_false]
          rfl
      · rfl
  rw [kept] at decoded
  exact other decoded

theorem Resolves.world_of_none {world : World} {pid : Pid} {packet : PubPacket}
    {resolved : Resolved} (resolves : Resolves world pid packet resolved)
    (nowhere : resolved.topic = none)
    : resolved.world = world := by
  cases resolves with
  | own => rfl
  | defines _ _ => cases nowhere
  | unknown => rfl
  | found _ _ => rfl

theorem handlePub_handles (lib : Library) (env : Env) (proto : Nat) (id : MsgId) (s : Cb)
    : HandlesPub lib env proto id s (handlePub lib env proto id s) := by
  unfold handlePub
  dsimp only
  generalize decoding
    : (decodePubMessage lib.parser env.stray (s.world.msgs id) .zeroed proto).value = result
  obtain ⟨code, decoded⟩ := result
  split
  · rename_i refused
    exact .refused decoding refused
  · rename_i accepted
    obtain ⟨success, packetType⟩ := not_or.mp accepted
    obtain rfl : code = SUCCESS := not_not.mp success
    have publish : (s.world.msgs id).type = PUBLISH := by
      have ofDecoded := congrArg (fun value => value.2.fixedHeader.packetType) decoding
      exact type_of_packetType (ofDecoded.trans (not_not.mp packetType))
    have unchanged :=
      (resolveTopic_resolves s.world s.work.pid proto decoded).world_of_none
    obtain ⟨aliases, sameWorld⟩ := resolveTopic_world s.world s.work.pid proto decoded
    have unresolved
        : (resolveTopic s.world s.work.pid proto decoded).topic = none
          → HandlesPub lib env proto id s
              (SUCCESS,
                ((s.read [.fields, .contents id]).setWork
                  { s.work with msgInfos := [], pubPacket := some decoded }).emit
                  (.handlePub proto (s.world.msgs id) decoded SUCCESS none)) :=
      .unresolved decoding publish
    change HandlesPub lib env proto id s
      (SUCCESS,
        (routePub lib env id (resolveTopic s.world s.work.pid proto decoded) _).emit
          (.handlePub proto _ decoded SUCCESS
            (resolveTopic s.world s.work.pid proto decoded).topic))
    generalize resolution : resolveTopic s.world s.work.pid proto decoded = resolved
      at unchanged sameWorld unresolved ⊢
    obtain ⟨world, packet, topic⟩ := resolved
    cases topic with
    | none =>
        obtain rfl : world = s.world := unchanged rfl
        exact unresolved rfl
    | some topic =>
        obtain rfl : world = { s.world with aliases } := sameWorld
        exact .routed decoding publish resolution

-- Aliases over whole runs

theorem AliasesValid.of_eq {nng : MqttParser} {world other : World}
    (valid : AliasesValid nng world) (same : other.aliases = world.aliases)
    : AliasesValid nng other := by
  intro pid topicAlias topic known
  rw [same] at known
  exact valid pid topicAlias topic known

theorem handlePubRetain_aliases (id : MsgId) (packet : PubPacket) (topic : Topic) (s : Cb)
    : (handlePubRetain id packet topic s).world.aliases = s.world.aliases := by
  unfold handlePubRetain
  split
  · dsimp only
    split
    · rw [Cb.freeRetained_world]
      split <;> rfl
    · rw [Cb.freeRetained_world]
      rfl
  · rfl

section Aliases

variable {lib : Library} {env : Env} (rejectsNul : lib.parser.RejectsNul)

include rejectsNul

theorem handlePub_aliases {s : Cb} (proto : Nat) (id : MsgId)
    (valid : AliasesValid lib.parser s.world)
    : AliasesValid lib.parser (handlePub lib env proto id s).2.world := by
  have handles := handlePub_handles lib env proto id s
  generalize handlePub lib env proto id s = result at handles
  cases handles with
  | refused _ _ => exact valid
  | unresolved _ _ _ => exact valid
  | routed accepted publish resolved =>
      have sound := (decodePubMessage_sound rejectsNul publish
        (congrArg Prod.fst accepted)).1.topicName
      rw [accepted] at sound
      have resolvedAliases
          : AliasesValid lib.parser (resolveTopic s.world s.work.pid proto _).world :=
        resolveTopic_aliases rejectsNul valid sound
      rw [resolved] at resolvedAliases
      exact resolvedAliases.of_eq (handlePubRetain_aliases _ _ _ _)

theorem Activates.aliases {limit : MsgId} {mine : MsgId → Prop} {s t : Cb}
    (activates : Activates lib env limit mine s t) (valid : AliasesValid lib.parser s.world)
    : AliasesValid lib.parser t.world := by
  cases activates with
  | quiet rearms => exact valid.of_eq (rearms.frame.databases (by decide)).1
  | publishes publishes =>
      obtain ⟨proto, id, before, _, _, _, _, attach, after, _⟩ := publishes
      have handled : AliasesValid lib.parser (handlePub lib env proto id _).2.world :=
        handlePub_aliases rejectsNul proto id (valid.of_eq (before.databases (by decide)).1)
      have later := (after.frame.databases (by decide)).1
      cases attach with
      | nothing => exact handled.of_eq later
      | will properties propLen => exact handled.of_eq later

theorem Starts.reachable_aliases {Index : Type} [DecidableEq Index]
    {first system : System Index Work World} {history : List Effect} (starts : Starts first)
    (notifies : lib.NotifiesPublish)
    (reached : Reach (activate lib) (fun _ => Permitted lib) first system history)
    : Invariant (fun world _ => AliasesValid lib.parser world) Holds Apart system history := by
  refine reached.invariant Apart.symm ?_ (starts.invariant ?_)
  · intro _ env work world _ permitted valid holds
    exact holds.preserved notifies permitted
      ((serverCb_activates holds.fits permitted.alive).aliases rejectsNul valid)
  · intro pid topicAlias topic known
    rw [starts.aliases] at known
    cases known

end Aliases

end NanoMQ
