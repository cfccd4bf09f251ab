import NanoMQ.Broker.Work

/-! Routing of a PUBLISH: `handle_pub`, `foreach_client` and `handle_pub_retain`. -/

namespace NanoMQ

open Bytes

/-- Append the pipes of a client list; zero marks an empty slot. -/
def foreachClient (clients : Option (List Pid)) (msgInfos : List Pid) : List Pid :=
  match clients with
  | none => msgInfos
  | some clients => msgInfos ++ clients.filter (fun pid => pid != 0)

/-- The pipes a message to a topic is sent to: the subscribers, then the clients chosen for
shared subscriptions.
-/
def recipients (lib : Library) (env : Env) (stores : Stores) (topic : Topic) : List Pid :=
  foreachClient (env.sharedClients topic) (foreachClient (lib.findClients stores topic) [])

/-- The topic name is there and has a length. -/
def MqttString.present (topic : MqttString) : Bool :=
  decide (0 < topic.len) && topic.body.isSome

/-- A packet with the topic its message is routed to, and the aliases after it. -/
structure Resolved where
  world : World
  packet : PubPacket
  topic : Option Topic

/-- Resolve the topic. A version 5 message with a topic and an alias defines the alias; one
without a topic looks it up, and the topic found replaces the empty one.
-/
def resolveTopic (world : World) (pid : Pid) (proto : Nat) (packet : PubPacket) : Resolved :=
  let own := packet.publish.topicName.body.map cstr
  if proto = MQTT_PROTOCOL_VERSION_v5 then
    match propertyGetValue packet.publish.properties TOPIC_ALIAS with
    | none => { world, packet, topic := own }
    | some value =>
        if packet.publish.topicName.present then
          {
            world := world.dbhashInsertAtpair pid value.asU16 (own.getD [])
            packet
            topic := own
          }
        else
          match world.dbhashFindAtpair pid value.asU16 with
          | none => { world, packet, topic := none }
          | some topic =>
              {
                world
                packet := packet.setTopicName { body := some topic, len := topic.length }
                topic := some topic
              }
  else { world, packet, topic := own }

/-- Everything the resolution of a topic can do: take the packet's own topic, define an
alias for it, or look an alias up.
-/
inductive Resolves (world : World) (pid : Pid) (packet : PubPacket) : Resolved → Prop
  | own : Resolves world pid packet
      { world, packet, topic := packet.publish.topicName.body.map cstr }
  | defines (topicAlias : Nat) {text : List UInt8}
    (present : packet.publish.topicName.body = some text)
    : Resolves world pid packet
        {
          world := world.dbhashInsertAtpair pid topicAlias (cstr text)
          packet
          topic := some (cstr text)
        }
  | unknown : Resolves world pid packet { world, packet, topic := none }
  | found (topicAlias : Nat) {topic : Topic}
    (known : world.dbhashFindAtpair pid topicAlias = some topic)
    : Resolves world pid packet
        {
          world
          packet := packet.setTopicName { body := some topic, len := topic.length }
          topic := some topic
        }

theorem resolveTopic_resolves (world : World) (pid : Pid) (proto : Nat) (packet : PubPacket)
    : Resolves world pid packet (resolveTopic world pid proto packet) := by
  unfold resolveTopic
  dsimp only
  split
  · split
    · exact .own
    · rename_i value _
      split
      · rename_i present
        obtain ⟨_, named⟩ := Bool.and_eq_true_iff.mp present
        obtain ⟨text, body⟩ := Option.isSome_iff_exists.mp named
        rw [body]
        exact .defines value.asU16 body
      · split
        · exact .unknown
        · rename_i known
          exact .found value.asU16 known
  · exact .own

/-- Free the message of the entry that an update of `db_ret` has replaced. -/
def Cb.freeRetained (s : Cb) (old : Option RetainMsg) : Cb :=
  match old with
  | none => s
  | some entry => s.emit (.msgFree entry.message)

/-- Store a retained message under its topic, or delete the entry for an empty payload. The
entry refers to the message object itself.
-/
def handlePubRetain (id : MsgId) (packet : PubPacket) (topic : Topic) (s : Cb) : Cb :=
  if packet.fixedHeader.retain then
    let old := s.world.retained topic
    if 0 < packet.payload.len then
      let s := s.emit (.msgClone id)
      let s :=
        if s.work.protoVer = MQTT_PROTOCOL_VERSION_v5 ∧ packet.publish.properties ≠ none then
          (s.read [.fields]).setMsg id (·.protoSetProperty packet.publish.properties)
        else s.read [.fields]
      let entry : RetainMsg := { qos := packet.fixedHeader.qos, message := id }
      (s.setWorld (s.world.dbtreeInsertRetain topic entry)).freeRetained old
    else
      (s.setWorld (s.world.dbtreeDeleteRetain topic)).freeRetained old
  else s

/-- Collect the recipients of a resolved topic and update the retained messages; without a
topic nothing happens.
-/
def routePub (lib : Library) (env : Env) (id : MsgId) (resolved : Resolved) (s : Cb) : Cb :=
  let s := s.setWorld resolved.world
  match resolved.topic with
  | none => s
  | some topic =>
      let msgInfos := recipients lib env s.world.stores topic
      let s := s.setWork { s.work with msgInfos, pubPacket := some resolved.packet }
      handlePubRetain id resolved.packet topic s

/-- Decode the message of the context and route it, if it is a PUBLISH. The result is that
of decoding, also when there is no topic to route to.
-/
def handlePub (lib : Library) (env : Env) (proto : Nat) (id : MsgId) (s : Cb)
    : ReasonCode × Cb :=
  let msg := s.world.msgs id
  let decoded := (decodePubMessage lib.parser env.stray msg .zeroed proto).value
  let s :=
    (s.read [.fields, .contents id]).setWork
      { s.work with msgInfos := [], pubPacket := some decoded.2 }
  if decoded.1 ≠ SUCCESS ∨ decoded.2.fixedHeader.packetType ≠ PUBLISH then
    (decoded.1, s.emit (.handlePub proto msg decoded.2 decoded.1 none))
  else
    let resolved := resolveTopic s.world s.work.pid proto decoded.2
    (decoded.1,
      (routePub lib env id resolved s).emit
        (.handlePub proto msg decoded.2 decoded.1 resolved.topic))

end NanoMQ
