import NanoMQ.Broker.FanOut

/-! Retained messages. An entry of `db_ret` shares the message object with its publisher,
who may encode it again before delivering it, so that its bytes can change later.
-/

namespace NanoMQ

open Contexts

-- Bytes of a message

/-- Two messages have the same bytes. -/
structure NngMsg.SameBytes (left right : NngMsg) : Prop where
  header : left.header = right.header
  body : left.body = right.body
  remainingLen : left.remainingLen = right.remainingLen

theorem NngMsg.SameBytes.trans {first second third : NngMsg}
    (left : first.SameBytes second) (right : second.SameBytes third)
    : first.SameBytes third :=
  {
    header := left.header.trans right.header
    body := left.body.trans right.body
    remainingLen := left.remainingLen.trans right.remainingLen
  }

theorem NngMsg.SameBytes.symm {left right : NngMsg} (same : left.SameBytes right)
    : right.SameBytes left :=
  {
    header := same.header.symm
    body := same.body.symm
    remainingLen := same.remainingLen.symm
  }

theorem NngMsg.sameBytes_setPipe (msg : NngMsg) (pipe : Pid)
    : (msg.setPipe pipe).SameBytes msg :=
  { header := rfl, body := rfl, remainingLen := rfl }

theorem NngMsg.SameBytes.decoded {left right : NngMsg} (same : left.SameBytes right)
    (nng : MqttParser) (stray : Nat → UInt8) (packet : PubPacket) (proto : Nat)
    : decodePubMessage nng stray left packet proto
      = decodePubMessage nng stray right packet proto := by
  obtain ⟨header, body, remainingLen⟩ := same
  cases left
  cases right
  dsimp only at header body remainingLen
  subst header body remainingLen
  rfl

-- What was published

/-- A retained publication: the version and the message that `handle_pub` was given, and
what was published with it.
-/
structure Retained where
  proto : Nat
  msg : NngMsg
  packet : PubPacket
  deriving DecidableEq

/-- The retained publications by topic, and the topic of the last one. -/
structure RetainLog where
  entries : Topic → Option Retained
  last : Option Topic

def RetainLog.empty : RetainLog :=
  { entries := fun _ => none, last := none }

/-- A routed message with the retain flag replaces the publication of its topic, or deletes
it when the payload is empty. Properties of a will belong to the message published last.
-/
def RetainLog.record (log : RetainLog) : Effect → RetainLog
  | .handlePub proto msg packet _ (some topic) =>
      if packet.fixedHeader.retain then
        let packet := packet.setTopicName { body := some topic, len := topic.length }
        let entry := if 0 < packet.payload.len then some { proto, msg, packet } else none
        { entries := Function.update log.entries topic entry, last := some topic }
      else { log with last := none }
  | .handlePub _ _ _ _ none => { log with last := none }
  | .willProperties properties propLen =>
      match log.last with
      | none => log
      | some topic =>
          let attached := fun entry : Retained =>
            { entry with packet := entry.packet.setProperties properties propLen }
          {
            log with
            entries := Function.update log.entries topic ((log.entries topic).map attached)
          }
  | _ => log

/-- The retained publications that a history of calls leaves behind. -/
def retainedBy (history : List Effect) : RetainLog :=
  history.foldl RetainLog.record .empty

/-- The message is what the encoder writes for the publication. -/
structure Retained.Canonical (entry : Retained) (nng : MqttParser) (topic : Topic)
    : Prop where
  encodable : entry.packet.Encodable nng entry.proto topic
  payloadShort : entry.packet.payload.len < 2 ^ 32
  encoded
    : ∀ dest : NngMsg,
        SameVersion dest.cmdType entry.proto
        → (encodePublish nng dest entry.packet).msg.SameBytes entry.msg

theorem Retained.Canonical.decoded {entry : Retained} {nng : MqttParser} {topic : Topic}
    (canonical : entry.Canonical nng topic) (stray : Nat → UInt8)
    : let decoded := (decodePubMessage nng stray entry.msg .zeroed entry.proto).value
      decoded.1 = SUCCESS ∧ PubPacket.SameContent entry.proto entry.packet decoded.2 := by
  let cmdType : CmdType :=
    if entry.proto = MQTT_PROTOCOL_VERSION_v5 then .PUBLISH_V5 else .PUBLISH
  let dest : NngMsg := { entry.msg with cmdType }
  have version : SameVersion dest.cmdType entry.proto := by
    change (if entry.proto = MQTT_PROTOCOL_VERSION_v5 then CmdType.PUBLISH_V5 else .PUBLISH)
      = .PUBLISH_V5 ↔ _
    by_cases v5 : entry.proto = MQTT_PROTOCOL_VERSION_v5 <;> simp [v5]
  have decoded := canonical.encodable.decoded stray version canonical.payloadShort
  rw [(canonical.encoded dest version).decoded] at decoded
  exact decoded

/-- Every message with a payload that this activation retains is canonical. -/
def RetainsCanonical (lib : Library) (env : Env) (work : Work) (world : World) : Prop :=
  let trace := (serverCb lib env work world).trace
  ∀ proto msg packet topic,
    .handlePub proto msg packet SUCCESS (some topic) ∈ trace
    → packet.fixedHeader.retain = true
    → 0 < packet.payload.len
    → Retained.Canonical { proto, msg, packet := publication packet topic trace } lib.parser
        topic

/-- The message of an entry has the bytes of its publication. -/
structure AsPublished (nng : MqttParser) (world : World) (topic : Topic)
    (entry : RetainMsg) (published : Retained)
    : Prop where
  known : entry.message < world.nextMsg
  bytes : (world.msgs entry.message).SameBytes published.msg
  canonical : published.Canonical nng topic

-- The log over a stretch of an activation

section Log

variable {log : RetainLog} {mine : MsgId → Prop} {kinds : List EffectKind} {s t : Cb}

theorem RetainLog.record_of_other {effect : Effect} (other : effect.kind ≠ .handling)
    : log.record effect = log := by
  cases effect with
  | handlePub _ _ _ _ _ => exact absurd rfl other
  | willProperties _ _ => exact absurd rfl other
  | _ => rfl

theorem recorded_of_grows {before after : List Effect} {allowed : Effect → Prop}
    (grown : Grows allowed before after)
    (other : ∀ effect, allowed effect → effect.kind ≠ .handling)
    : after.foldl RetainLog.record log = before.foldl RetainLog.record log := by
  obtain ⟨added, rfl, addedAllowed⟩ := grown
  rw [List.foldl_append]
  generalize before.foldl RetainLog.record log = current
  induction added with
  | nil => rfl
  | cons effect rest ih =>
      obtain ⟨first, later⟩ := List.forall_mem_cons.mp addedAllowed
      rw [List.foldl_cons, RetainLog.record_of_other (other effect first)]
      exact ih later

theorem Frame.recorded (frame : Frame mine kinds s t) (silent : .handling ∉ kinds)
    : t.trace.foldl RetainLog.record log = s.trace.foldl RetainLog.record log := by
  apply recorded_of_grows frame.trace
  intro effect member handling
  rw [handling] at member
  exact silent member

/-- The entry that a routed packet leaves under its topic. -/
def RetainMsg.of (id : MsgId) (packet : PubPacket) : Option RetainMsg :=
  if 0 < packet.payload.len then some { qos := packet.fixedHeader.qos, message := id }
  else none

theorem handlePubRetain_retained (id : MsgId) (packet : PubPacket) (topic : Topic) (s : Cb)
    : (handlePubRetain id packet topic s).world.retained
      = if packet.fixedHeader.retain then
          Function.update s.world.retained topic (RetainMsg.of id packet)
        else s.world.retained := by
  unfold handlePubRetain RetainMsg.of
  split
  · dsimp only
    split
    · rw [Cb.freeRetained_world]
      split <;> rfl
    · rw [Cb.freeRetained_world]
      rfl
  · rfl

end Log

-- What an activation does to the entries

/-- Everything an activation can do to the retained messages and to the log: nothing, or
update the topic of the message that it has routed.
-/
inductive Retains (lib : Library) (env : Env) (limit : MsgId) (log : RetainLog) (s t : Cb)
    : Prop
  | kept (retained : t.world.retained = s.world.retained)
    (entries : (t.trace.foldl RetainLog.record log).entries = log.entries)
  | changed {proto : Nat} {msg : NngMsg} {packet : PubPacket} {topic : Topic} {id : MsgId}
    (routed : .handlePub proto msg packet SUCCESS (some topic) ∈ t.trace)
    (retain : packet.fixedHeader.retain = true)
    (retained
      : t.world.retained
        = Function.update s.world.retained topic (RetainMsg.of id packet))
    (entries
      : (t.trace.foldl RetainLog.record log).entries
        = Function.update log.entries topic
            (if 0 < packet.payload.len then
              some { proto, msg, packet := publication packet topic t.trace }
            else none))
    (fresh : limit ≤ id) (known : id < t.world.nextMsg) (held : t.work.msg = some id)
    (bytes : (t.world.msgs id).SameBytes msg)
    (awaits
      : Awaits proto (recipients lib env s.world.stores topic)
          (publication packet topic t.trace) t.work t.world)

section Retains

variable {lib : Library} {env : Env} {limit : MsgId} {mine : MsgId → Prop}
  {log : RetainLog} {s t : Cb}

theorem Attached.recorded_of_none {will : Option (Option (List Property) × Nat)}
    (attach : Attached s will t) (nothing : (s.trace.foldl RetainLog.record log).last = none)
    : t.trace.foldl RetainLog.record log = s.trace.foldl RetainLog.record log := by
  cases attach with
  | nothing => rfl
  | will properties propLen =>
      change (s.trace ++ [Effect.willProperties properties propLen]).foldl _ _ = _
      rw [List.foldl_append, List.foldl_cons, List.foldl_nil]
      generalize s.trace.foldl RetainLog.record log = current at nothing
      unfold RetainLog.record
      rw [nothing]

theorem Attached.recorded_of_some {will : Option (Option (List Property) × Nat)}
    {current : RetainLog} {topic : Topic} {entry : Option Retained}
    (attach : Attached s will t) (recorded : s.trace.foldl RetainLog.record log = current)
    (last : current.last = some topic)
    (entries : current.entries = Function.update log.entries topic entry)
    : (t.trace.foldl RetainLog.record log).entries
      = Function.update log.entries topic
          (entry.map (fun entry => { entry with packet := entry.packet.attach will })) := by
  cases attach with
  | nothing =>
      rw [recorded, entries]
      cases entry <;> rfl
  | will properties propLen =>
      change RetainLog.entries
        ((s.trace ++ [Effect.willProperties properties propLen]).foldl _ _) = _
      rw [List.foldl_append, List.foldl_cons, List.foldl_nil, recorded]
      unfold RetainLog.record
      rw [last]
      dsimp only
      rw [entries, Function.update_self, Function.update_idem]
      rfl

theorem Resolves.sameMessage {world : World} {pid : Pid} {packet : PubPacket}
    {resolved : Resolved} (resolves : Resolves world pid packet resolved)
    : resolved.packet.fixedHeader = packet.fixedHeader
      ∧ resolved.packet.payload = packet.payload := by
  cases resolves with
  | own => exact ⟨rfl, rfl⟩
  | defines _ _ => exact ⟨rfl, rfl⟩
  | unknown => exact ⟨rfl, rfl⟩
  | found _ _ => exact ⟨rfl, rfl⟩

/-- `handle_pub` leaves the retained messages alone, or it updates the topic that it routes
to, and the log shows the same.
-/
theorem handlePub_recorded {proto : Nat} {id : MsgId}
    (started : s.trace.foldl RetainLog.record log = log)
    : ((handlePub lib env proto id s).2.world.retained = s.world.retained
        ∧ (handlePub lib env proto id s).2.trace.foldl RetainLog.record log
          = { log with last := none })
      ∨ ∃ packet topic,
          .handlePub proto (s.world.msgs id) packet SUCCESS (some topic)
            ∈ (handlePub lib env proto id s).2.trace
          ∧ (handlePub lib env proto id s).1 = SUCCESS
          ∧ packet.fixedHeader.retain = true
          ∧ (handlePub lib env proto id s).2.world.retained
            = Function.update s.world.retained topic (RetainMsg.of id packet)
          ∧ (handlePub lib env proto id s).2.trace.foldl RetainLog.record log
            = log.record (.handlePub proto (s.world.msgs id) packet SUCCESS (some topic)) := by
  have emitted : ∀ effect,
      (s.trace ++ [effect]).foldl RetainLog.record log = log.record effect := by
    intro effect
    rw [List.foldl_append, started]
    rfl
  have handles := handlePub_handles lib env proto id s
  generalize handlePub lib env proto id s = result at handles
  cases handles with
  | refused _ _ => exact Or.inl ⟨rfl, emitted _⟩
  | unresolved _ _ _ => exact Or.inl ⟨rfl, emitted _⟩
  | routed accepted publish resolved =>
      rename_i decoded packet topic _
      obtain ⟨sameHeader, samePayload⟩ :=
        (resolveTopic_resolves s.world s.work.pid proto decoded).sameMessage
      rw [resolved] at sameHeader samePayload
      let effect := Effect.handlePub proto (s.world.msgs id) decoded SUCCESS (some topic)
      have recorded : ∀ t : Cb,
          Grows (fun effect => effect.kind = .other) s.trace t.trace
          → (t.trace ++ [effect]).foldl RetainLog.record log = log.record effect := by
        intro t grown
        have silent : t.trace.foldl RetainLog.record log = log := by
          rw [recorded_of_grows grown fun _ other => by rw [other]; nofun, started]
        rw [List.foldl_append, silent]
        rfl
      have sameEntry : RetainMsg.of id packet = RetainMsg.of id decoded := by
        unfold RetainMsg.of
        rw [sameHeader, samePayload]
      by_cases retain : decoded.fixedHeader.retain = true
      · refine Or.inr ⟨decoded, topic, ?_, rfl, retain, ?_, recorded _ ?_⟩
        · exact List.mem_append_right _ List.mem_cons_self
        · refine (handlePubRetain_retained id packet topic _).trans ?_
          rw [sameHeader, if_pos retain, sameEntry]
          rfl
        · exact handlePubRetain_trace _ _ _ _
      · refine Or.inl ⟨?_, (recorded _ ?_).trans (if_neg retain)⟩
        · refine (handlePubRetain_retained id packet topic _).trans ?_
          rw [sameHeader, if_neg retain]
          rfl
        · exact handlePubRetain_trace _ _ _ _

theorem Publishes.retains (publishes : Publishes lib env limit mine s t)
    (rejectsNul : lib.parser.RejectsNul) (aliases : AliasesValid lib.parser s.world)
    (silent : s.trace = [])
    : Retains lib env limit log s t := by
  have again := publishes
  obtain ⟨proto, id, before, fresh, known, held, _, attach, after, continues⟩ := publishes
  rename_i start attached will _ _
  let handled := handlePub lib env proto id start
  have startLog : start.trace.foldl RetainLog.record log = log := by
    rw [before.recorded (by decide), silent]
    rfl
  have laterLog : t.trace.foldl RetainLog.record log
      = attached.trace.foldl RetainLog.record log :=
    after.frame.recorded (by decide)
  have attachFrame : Frame (fun _ => False) [.handling] handled.2 attached :=
    attach.frame (by decide)
  have attachedRetained : attached.world.retained = handled.2.world.retained := by
    cases attach with
    | nothing => rfl
    | will _ _ => rfl
  have laterRetained : t.world.retained = handled.2.world.retained :=
    (after.frame.databases (by decide)).2.trans attachedRetained
  have startRetained : start.world.retained = s.world.retained :=
    (before.databases (by decide)).2
  rcases handlePub_recorded startLog with
    ⟨retained, recorded⟩ | ⟨packet, topic, routed, success, retain, retained, recorded⟩
  · refine .kept (laterRetained.trans (retained.trans startRetained)) ?_
    rw [laterLog, attach.recorded_of_none (by rw [recorded]), recorded]
  · have laterRouted := after.frame.trace.mem (attachFrame.trace.mem routed)
    obtain ⟨_, _, _, awaits⟩ := again.awaits rejectsNul aliases silent laterRouted
    have willEq := attach.will_after before silent after
    refine .changed laterRouted retain ?_ ?_ fresh ?_ (continues success).held ?_ awaits
    · rw [laterRetained, retained, startRetained]
    · let published : Retained :=
        {
          proto
          msg := start.world.msgs id
          packet := packet.setTopicName { body := some topic, len := topic.length }
        }
      have current : log.record (.handlePub proto published.msg packet SUCCESS (some topic))
          = {
            entries := Function.update log.entries topic
              (if 0 < packet.payload.len then some published else none)
            last := some topic
          } :=
        if_pos retain
      rw [laterLog, attach.recorded_of_some (recorded.trans current) rfl rfl]
      unfold publication
      rw [willEq]
      split <;> rfl
    · have handledFrame : Frame (fun _ => True) [.other, .handling] start handled.2 :=
        (Frame.refl start).handlePub lib env proto trivial (by decide) (by decide)
      exact Nat.lt_of_lt_of_le known
        (Nat.le_trans handledFrame.next (Nat.le_trans attachFrame.next after.frame.next))
    · obtain ⟨properties, handledMsg⟩ := handlePub_msg lib env proto id start
      obtain ⟨pipe, attachedMsg⟩ := attachFrame.msgs id nofun
      obtain ⟨laterPipe, laterMsg⟩ := after.frame.msgs id (Nat.not_le_of_lt known)
      rw [laterMsg, attachedMsg, handledMsg]
      exact { header := rfl, body := rfl, remainingLen := rfl }

theorem Activates.retains (activates : Activates lib env limit mine s t)
    (rejectsNul : lib.parser.RejectsNul) (aliases : AliasesValid lib.parser s.world)
    (silent : s.trace = [])
    : Retains lib env limit log s t := by
  cases activates with
  | quiet rearms =>
      refine .kept (rearms.frame.databases (by decide)).2 ?_
      rw [rearms.frame.recorded (by decide), silent]
      rfl
  | publishes publishes => exact publishes.retains rejectsNul aliases silent

theorem Retains.of_known {topic : Topic} {entry : RetainMsg}
    (retains : Retains lib env limit log s t)
    (retained : t.world.retained topic = some entry) (known : entry.message < limit)
    : s.world.retained topic = some entry := by
  cases retains with
  | kept sameRetained _ =>
      rw [sameRetained] at retained
      exact retained
  | @changed _ _ packet changedTopic id _ _ updated _ fresh _ _ _ _ =>
      rw [updated] at retained
      rcases eq_or_ne topic changedTopic with rfl | different
      · rw [Function.update_self] at retained
        unfold RetainMsg.of at retained
        split at retained
        · cases retained
          exact absurd known (Nat.not_lt_of_le fresh)
        · cases retained
      · rw [Function.update_of_ne different] at retained
        exact retained

end Retains

-- Contexts that hold a retained message

/-- The context waits to deliver this message, and encoding it again writes the same bytes.
-/
def Reproduces (nng : MqttParser) (work : Work) (world : World) (id : MsgId) : Prop :=
  ∃ proto pipes packet topic,
    Awaits proto pipes packet work world
    ∧ packet.Encodable nng proto topic
    ∧ ∀ dest : NngMsg,
        SameVersion dest.cmdType proto
        → (encodePublish nng dest packet).msg.SameBytes (world.msgs id)

/-- A context that holds a retained message is about to deliver it, or done with it. -/
def KeepsRetained (nng : MqttParser) (work : Work) (world : World) : Prop :=
  ∀ id topic entry,
    work.msg = some id
    → world.retained topic = some entry
    → entry.message = id
    → work.state = .SEND ∨ Reproduces nng work world id

section Bytes

variable {lib : Library} {env : Env} {s : Cb} {id : MsgId}

theorem sendToEach_bytes (id : MsgId) (pipes : List Pid) (s : Cb)
    : ((sendToEach id pipes s).world.msgs id).SameBytes (s.world.msgs id) := by
  induction pipes generalizing s with
  | nil => exact { header := rfl, body := rfl, remainingLen := rfl }
  | cons pipe rest ih =>
      let addressed := ((s.emit (.msgClone id)).setWork
        { s.work with pid := pipe, msg := some id }).setMsg id (·.setPipe pipe)
      have contents : addressed.world.msgs id = (s.world.msgs id).setPipe pipe :=
        Cb.setMsg_self _ id (·.setPipe pipe)
      have later := ih (addressed.ctxSend false id)
      change NngMsg.SameBytes _ (addressed.world.msgs id) at later
      rw [contents] at later
      exact later.trans (NngMsg.sameBytes_setPipe _ _)

theorem fanOut_bytes {parser : MqttParser} {packet : PubPacket} (held : s.work.msg = some id)
    (pubPacket : s.work.pubPacket = some packet)
    (encoded
      : (encodePublish parser (s.world.msgs id) packet).msg.SameBytes (s.world.msgs id))
    : ((fanOut parser s).world.msgs id).SameBytes (s.world.msgs id) := by
  unfold fanOut
  rw [held]
  dsimp only
  unfold encodeAndSend
  split
  · exact { header := rfl, body := rfl, remainingLen := rfl }
  · have same : encodePubMessage parser (s.world.msgs id) packet PUBLISH
        = encodePublish parser (s.world.msgs id) packet := rfl
    rw [pubPacket, Option.getD_some]
    dsimp only
    rw [same]
    let encoding := encodePublish parser (s.world.msgs id) packet
    let written := ((s.read [.fields, .contents id]).setMsg id fun _ => encoding.msg).setWork
      { s.work with pubPacket := some encoding.packet }
    have contents : (written.world.msgs id).SameBytes (s.world.msgs id) := by
      have stored : written.world.msgs id = encoding.msg :=
        Cb.setMsg_self s id fun _ => encoding.msg
      rw [stored]
      exact encoded
    split
    · exact (sendToEach_bytes id _ written).trans contents
    · exact contents

variable {work : Work} {world : World}

/-- Bytes of a retained message do not change. Witness: whether the context holds it. -/
theorem serverCb_bytes {topic : Topic} {entry : RetainMsg} (holds : Holds work world)
    (keeps : KeepsRetained lib.parser work world) (permitted : Permitted lib env work world)
    (retained : world.retained topic = some entry) (known : entry.message < world.nextMsg)
    : ((serverCb lib env work world).world.msgs entry.message).SameBytes
        (world.msgs entry.message) := by
  let s : Cb := { work, world, trace := [] }
  by_cases held : work.msg = some entry.message
  · have alive := permitted.alive
    rcases keeps _ topic entry held retained rfl with sending | reproduces
    · rw [serverCb_of_send sending] at alive ⊢
      have activates : Activates lib env world.nextMsg (world.nextMsg ≤ ·) s (sendState env s) :=
        sendState_activates alive
      obtain ⟨pipe, kept⟩ := (activates.rearms (fun _ => id) (Nat.le_refl _)).frame.msgs
        entry.message (Nat.not_le_of_lt known)
      rw [kept]
      exact NngMsg.sameBytes_setPipe _ _
    · obtain ⟨proto, pipes, packet, _, awaits, _, encoded⟩ := reproduces
      obtain ⟨id, isHeld, _, version⟩ := awaits.message
      obtain rfl : entry.message = id := Option.some.inj (held.symm.trans isHeld)
      have fanned : ((fanOut lib.parser s.look).world.msgs entry.message).SameBytes
          (world.msgs entry.message) :=
        fanOut_bytes held awaits.pubPacket (encoded _ version)
      rcases awaits.waiting with state | state
      · rw [serverCb_of_wait state] at alive ⊢
        have rest : Frame (fun _ => False) _ _ _ := waitState_frame awaits.heldType alive
        obtain ⟨pipe, kept⟩ := rest.msgs entry.message nofun
        rw [kept]
        exact (NngMsg.sameBytes_setPipe _ _).trans fanned
      · rw [serverCb_of_end state] at alive ⊢
        have sent : Frame (fun _ => True) [.other, .delivery] s (fanOut lib.parser s.look) :=
          ((Frame.refl s).read _).fanOut lib.parser (fun _ _ => trivial) (by decide) (by decide)
        have rest := endState_frame awaits.heldType (fun _ => id) alive
        obtain ⟨pipe, kept⟩ := rest.msgs entry.message
          (Nat.not_le_of_lt (Nat.lt_of_lt_of_le known sent.next))
        rw [kept]
        exact (NngMsg.sameBytes_setPipe _ _).trans fanned
  · obtain ⟨pipe, kept⟩ := (holds.frame permitted).msgs entry.message (by
      rintro (fresh | isHeld)
      · exact absurd known (Nat.not_lt_of_le fresh)
      · exact held isHeld)
    rw [kept]
    exact NngMsg.sameBytes_setPipe _ _

theorem sendState_msg (alive : .fatal ∉ (sendState env s).trace)
    : (sendState env s).work.msg = none := by
  revert alive
  unfold sendState
  dsimp only
  generalize (if s.work.flag = .PUBLISH ∧ s.work.config.ruleEngine then _ else _) = ruled
  split
  · exact fun alive => absurd (List.mem_append_right _ List.mem_cons_self) alive
  · intro _
    split
    · exact Cb.dropMsg_msg _
    · exact Cb.dropMsg_msg _

theorem waitState_msg (alive : .fatal ∉ (waitState lib env s).trace)
    : (waitState lib env s).work.msg = none ∨ (waitState lib env s).work.state = .SEND := by
  revert alive
  unfold waitState
  split
  · split
    · exact fun alive => absurd (List.mem_append_right _ List.mem_cons_self) alive
    · intro _
      dsimp only
      split
      · exact Or.inr rfl
      · exact Or.inl (Cb.dropMsg_msg _)
  · exact fun _ => Or.inl (Cb.dropMsg_msg _)

theorem publishWill_msg : (publishWill lib env s).work.msg = some s.world.nextMsg := by
  unfold publishWill
  dsimp only
  split
  · exact handlePub_held rfl
  · exact handlePub_held rfl

theorem endState_msg (publish : s.heldType = PUBLISH)
    (alive : .fatal ∉ (endState lib env s).trace)
    : (endState lib env s).work.msg = none
      ∨ ∃ will, (endState lib env s).work.msg = some will ∧ s.world.nextMsg ≤ will := by
  have sent : Frame (fun _ => True) [.other, .delivery] s
      (webhookEntry 0 (fanOut lib.parser s.look)).dropMsg.clearPublication :=
    (((((Frame.refl s).read _).fanOut lib.parser (fun _ _ => trivial) (by decide)
      (by decide)).webhookEntry 0 (by decide)).dropMsg (by decide)).clearPublication
        (by decide)
  revert alive
  unfold endState
  rw [if_pos publish]
  split
  · exact fun alive => absurd (List.mem_append_right _ List.mem_cons_self) alive
  · intro _
    dsimp only
    split
    · exact Or.inr ⟨_, publishWill_msg, sent.next⟩
    · exact Or.inl (Cb.dropMsg_msg _)

theorem serverCb_keeps_held {topic : Topic} {entry : RetainMsg}
    (keeps : KeepsRetained lib.parser work world) (permitted : Permitted lib env work world)
    (retained : world.retained topic = some entry) (known : entry.message < world.nextMsg)
    (held : work.msg = some entry.message)
    (heldAfter : (serverCb lib env work world).work.msg = some entry.message)
    : (serverCb lib env work world).work.state = .SEND := by
  have alive := permitted.alive
  rcases keeps _ topic entry held retained rfl with sending | reproduces
  · rw [serverCb_of_send sending] at alive heldAfter
    cases (sendState_msg alive).symm.trans heldAfter
  · obtain ⟨_, _, _, _, awaits, _, _⟩ := reproduces
    rcases awaits.waiting with state | state
    · rw [serverCb_of_wait state] at alive heldAfter ⊢
      rcases waitState_msg alive with nothing | sending
      · cases nothing.symm.trans heldAfter
      · exact sending
    · rw [serverCb_of_end state] at alive heldAfter
      rcases endState_msg awaits.heldType alive with nothing | ⟨will, holdsWill, fresh⟩
      · cases nothing.symm.trans heldAfter
      · obtain rfl := Option.some.inj (heldAfter.symm.trans holdsWill)
        exact absurd known (Nat.not_lt_of_le fresh)

end Bytes

-- Whole runs

/-- All aliases are valid, and the entries of `db_ret` are those of the log. -/
structure RetainedMatches (nng : MqttParser) (world : World) (history : List Effect) : Prop
    where
  aliases : AliasesValid nng world
  entries
    : ∀ topic,
        Option.Rel (AsPublished nng world topic) (world.retained topic)
          ((retainedBy history).entries topic)

/-- A context as in every run, which in addition keeps what it holds of `db_ret`. -/
structure HoldsRetained (nng : MqttParser) (work : Work) (world : World) : Prop where
  holds : Holds work world
  keeps : KeepsRetained nng work world

section Preserved

variable {lib : Library} {env : Env} {work : Work} {world : World} {history : List Effect}

theorem RetainedMatches.stays (matches_ : RetainedMatches lib.parser world history)
    (own : HoldsRetained lib.parser work world) (permitted : Permitted lib env work world)
    (topic : Topic)
    : Option.Rel (AsPublished lib.parser (serverCb lib env work world).world topic)
        (world.retained topic) ((retainedBy history).entries topic) := by
  have rel := matches_.entries topic
  have next := (own.holds.frame permitted).next
  generalize retained : world.retained topic = entry at rel ⊢
  generalize (retainedBy history).entries topic = published at rel ⊢
  cases rel with
  | none => exact .none
  | some as =>
      exact .some {
          known := Nat.lt_of_lt_of_le as.known next
          bytes := (serverCb_bytes own.holds own.keeps permitted retained as.known).trans as.bytes
          canonical := as.canonical
        }

theorem RetainedMatches.known (matches_ : RetainedMatches lib.parser world history)
    {topic : Topic} {entry : RetainMsg} (retained : world.retained topic = some entry)
    : entry.message < world.nextMsg := by
  have rel := matches_.entries topic
  rw [retained] at rel
  generalize (retainedBy history).entries topic = published at rel
  cases rel with
  | some as => exact as.known

variable (permitted : Permitted lib env work world)
  (matches_ : RetainedMatches lib.parser world history)
  (own : HoldsRetained lib.parser work world)
  (retains
    : Retains lib env world.nextMsg (retainedBy history) { work, world, trace := [] }
        (serverCb lib env work world))

include permitted matches_ own retains

/-- The entries stay those of the log, if what is retained is canonical. -/
theorem RetainedMatches.step (canonical : RetainsCanonical lib env work world) (topic : Topic)
    : Option.Rel (AsPublished lib.parser (serverCb lib env work world).world topic)
        ((serverCb lib env work world).world.retained topic)
        ((retainedBy (history ++ (serverCb lib env work world).trace)).entries topic) := by
  have stays := matches_.stays own permitted topic
  rw [retainedBy, List.foldl_append]
  cases retains with
  | kept retained entries =>
      rw [retained, ← retainedBy, entries]
      exact stays
  | @changed proto msg packet changedTopic id routed retain retained entries _ known _ bytes _ =>
      rw [retained, ← retainedBy, entries]
      rcases eq_or_ne topic changedTopic with rfl | different
      · rw [Function.update_self, Function.update_self]
        unfold RetainMsg.of
        split
        · rename_i payload
          exact .some {
              known
              bytes
              canonical := canonical proto msg packet topic routed retain payload
            }
        · exact .none
      · rw [Function.update_of_ne different, Function.update_of_ne different]
        exact stays

theorem HoldsRetained.step (canonical : RetainsCanonical lib env work world)
    : KeepsRetained lib.parser (serverCb lib env work world).work
        (serverCb lib env work world).world := by
  intro id topic entry held retained same
  subst same
  rcases Nat.lt_or_ge entry.message world.nextMsg with old | new
  · have retainedBefore := retains.of_known retained old
    rcases (own.holds.frame permitted).held _ held with heldBefore | ⟨fresh | heldBefore, _⟩
    · exact Or.inl (serverCb_keeps_held own.keeps permitted retainedBefore old heldBefore held)
    · exact absurd old (Nat.not_lt_of_le fresh)
    · exact Or.inl (serverCb_keeps_held own.keeps permitted retainedBefore old heldBefore held)
  · right
    cases retains with
    | kept sameRetained _ =>
        rw [sameRetained] at retained
        exact absurd (matches_.known retained) (Nat.not_lt_of_le new)
    | @changed proto msg packet changedTopic id routed retain updated _ _ _ _ bytes awaits =>
        rw [updated] at retained
        rcases eq_or_ne topic changedTopic with rfl | different
        · rw [Function.update_self] at retained
          unfold RetainMsg.of at retained
          split at retained
          · rename_i payload
            cases retained
            have isCanonical := canonical proto msg packet topic routed retain payload
            exact ⟨proto, _, _, topic, awaits, isCanonical.encodable,
              fun dest version => (isCanonical.encoded dest version).trans bytes.symm⟩
          · cases retained
        · rw [Function.update_of_ne different] at retained
          exact absurd (matches_.known retained) (Nat.not_lt_of_le new)

omit matches_

theorem HoldsRetained.other {other : Work} (otherOwn : HoldsRetained lib.parser other world)
    (apart : Apart work other)
    : KeepsRetained lib.parser other (serverCb lib env work world).world := by
  intro id topic entry held retained same
  subst same
  have known := otherOwn.holds.known _ held
  rcases otherOwn.keeps _ topic entry held (retains.of_known retained known) rfl with
    sending | ⟨proto, pipes, packet, published, awaits, encodable, encoded⟩
  · exact Or.inl sending
  · right
    obtain ⟨pipe, kept⟩ := own.holds.bystander permitted otherOwn.holds apart held
    refine ⟨proto, pipes, packet, published,
      awaits.bystander own.holds permitted otherOwn.holds apart, encodable, ?_⟩
    intro dest version
    rw [kept]
    exact (encoded dest version).trans (NngMsg.sameBytes_setPipe _ _).symm

end Preserved

section Runs

variable {Index : Type} [DecidableEq Index] {lib : Library}
  {first system : System Index Work World} {history : List Effect}

/-- In every run in which only canonical messages are retained, `db_ret` matches the log. -/
theorem Starts.reachable_retained (starts : Starts first) (notifies : lib.NotifiesPublish)
    (rejectsNul : lib.parser.RejectsNul)
    (reached
      : Reach (activate lib)
          (fun _ env work world =>
            Permitted lib env work world ∧ RetainsCanonical lib env work world)
          first system history)
    : Invariant (RetainedMatches lib.parser) (HoldsRetained lib.parser) Apart system
        history := by
  refine reached.invariant Apart.symm ?_ ?_
  · rintro _ env work world history ⟨permitted, canonical⟩ matches_ own
    have activates := serverCb_activates own.holds.fits permitted.alive
    have retains : Retains lib env world.nextMsg (retainedBy history)
        { work, world, trace := [] } (serverCb lib env work world) :=
      activates.retains rejectsNul matches_.aliases rfl
    have base : Preserved (fun _ _ => True) Holds Apart world history work
        (activate lib env work world) :=
      own.holds.preserved notifies permitted trivial
    refine {
        globally :=
          {
            aliases := activates.aliases rejectsNul matches_.aliases
            entries := matches_.step permitted own retains canonical
          }
        own := { holds := base.own, keeps := own.step permitted matches_ retains canonical }
        others := ?_
      }
    intro other otherOwn apart
    obtain ⟨otherHolds, stillApart⟩ := base.others other otherOwn.holds apart
    exact ⟨{ holds := otherHolds, keeps := own.other permitted retains otherOwn apart },
      stillApart⟩
  · have base : Invariant (fun _ _ => True) Holds Apart first [] := starts.invariant trivial
    refine {
        globally := { aliases := ?_, entries := ?_ }
        own := fun index => { holds := base.own index, keeps := ?_ }
        apart := base.apart
      }
    · intro pid topicAlias topic known
      rw [starts.aliases] at known
      cases known
    · intro topic
      rw [starts.retained]
      exact .none
    · intro id topic entry held
      rw [starts.idle] at held
      cases held

/-- In every run in which every message with a payload that is retained is the encoding of
what is published, `db_ret` holds, for each topic, the message retained last, with the
bytes that were published; they are decoded to this topic and to what was published.
-/
theorem retained_as_published (starts : Starts first) (notifies : lib.NotifiesPublish)
    (rejectsNul : lib.parser.RejectsNul)
    (reached
      : Reach (activate lib)
          (fun _ env work world =>
            Permitted lib env work world ∧ RetainsCanonical lib env work world)
          first system history)
    (topic : Topic)
    : Option.Rel
        (fun entry published =>
          let stored := system.shared.msgs entry.message
          stored.SameBytes published.msg
          ∧ ∀ stray,
              let decoded :=
                (decodePubMessage lib.parser stray stored .zeroed published.proto).value
              decoded.1 = SUCCESS
              ∧ PubPacket.SameContent published.proto published.packet decoded.2
              ∧ decoded.2.publish.topicName = { body := some topic, len := topic.length })
        (system.shared.retained topic) ((retainedBy history).entries topic) := by
  have rel := (starts.reachable_retained notifies rejectsNul reached).globally.entries topic
  generalize system.shared.retained topic = entry at rel ⊢
  generalize (retainedBy history).entries topic = published at rel ⊢
  cases rel with
  | none => exact .none
  | some as =>
      refine .some ⟨as.bytes, ?_⟩
      intro stray
      obtain ⟨success, content⟩ := as.canonical.decoded stray
      rw [as.bytes.decoded]
      refine ⟨success, content, ?_⟩
      rw [← content.topicName]
      exact as.canonical.encodable.topicName

end Runs

/-- The one context receives the message with a topic alias, which nobody subscribes to. -/
def aliasSchedule : List (Unit × Env) :=
  completions [none, some aliasMessage]

/-- The message with a topic alias is retained as it was published. -/
theorem aliasMessage_retained
    : let lib := referenceLibrary (fun _ => none)
      let after := oneContext.run (activate lib) aliasSchedule
      let packet :=
        { aliasPacket with fixedHeader := { aliasPacket.fixedHeader with remainLen := 10 } }
      after.shared.retained [97] = some { qos := 1, message := 0 }
      ∧ (after.shared.msgs 0).SameBytes aliasMessage
      ∧ ∀ stray,
          let decoded :=
            (decodePubMessage lib.parser stray (after.shared.msgs 0) .zeroed
              MQTT_PROTOCOL_VERSION_v5).value
          decoded.1 = SUCCESS
          ∧ PubPacket.SameContent MQTT_PROTOCOL_VERSION_v5 packet decoded.2
          ∧ decoded.2.publish.topicName = { body := some [97], len := 1 } := by
  have started
      : RetainsCanonical (referenceLibrary fun _ => none) (.brings none)
          (oneContext.locals ()) oneContext.shared := by
    have silent
        : (serverCb (referenceLibrary fun _ => none) (.brings none) (oneContext.locals ())
            oneContext.shared).trace
          = [.ctxRecv false] := by
      decide
    unfold RetainsCanonical
    rw [silent]
    simp
  let receiving :=
    oneContext.step (activate (referenceLibrary fun _ => none)) () (.brings none)
  have canonical
      : RetainsCanonical (referenceLibrary fun _ => none) (.brings (some aliasMessage))
          (receiving.locals ()) receiving.shared := by
    have trace
        : (serverCb (referenceLibrary fun _ => none) (.brings (some aliasMessage))
            (receiving.locals ()) receiving.shared).trace
          = [
            .cparamRead,
            .msgClone 0,
            .handlePub 5 (aliasMessage.setCmdType .PUBLISH_V5)
              {
                aliasPacket with
                fixedHeader := { aliasPacket.fixedHeader with remainLen := 10 }
              }
              SUCCESS (some [97]),
            .aioFinish
          ] := by
      decide
    unfold RetainsCanonical
    rw [trace]
    dsimp only
    intro proto msg published topic handled _ _
    simp only [List.mem_cons, List.not_mem_nil, Effect.handlePub.injEq, reduceCtorEq,
      Option.some.injEq, or_false, false_or] at handled
    obtain ⟨rfl, rfl, rfl, _, rfl⟩ := handled
    refine {
        encodable := { aliasPacket_encodable with }
        payloadShort := by decide
        encoded := ?_
      }
    intro dest version
    have isV5 : dest.cmdType = .PUBLISH_V5 := version.mpr rfl
    cases dest
    cases isV5
    exact { header := by rfl, body := by rfl, remainingLen := by rfl }
  have retained := retained_as_published oneContext_starts (referenceLibrary_notifies _)
    referenceParser_rejectsNul
    (.run _ .start aliasSchedule ⟨⟨by decide, started⟩, ⟨by decide, canonical⟩, trivial⟩) [97]
  have entry
      : (oneContext.run (activate (referenceLibrary fun _ => none))
            aliasSchedule).shared.retained [97]
        = some { qos := 1, message := 0 } := by
    decide
  have published
      : (retainedBy
            ([] ++ oneContext.log (activate (referenceLibrary fun _ => none))
              aliasSchedule)).entries [97]
        = some
            {
              proto := MQTT_PROTOCOL_VERSION_v5
              msg := aliasMessage.setCmdType .PUBLISH_V5
              packet :=
                {
                  aliasPacket with
                  fixedHeader := { aliasPacket.fixedHeader with remainLen := 10 }
                }
            } := by
    decide
  rw [entry, published] at retained
  obtain ⟨bytes, decoded⟩ := Option.rel_some_some.mp retained
  dsimp only at bytes decoded ⊢
  refine ⟨entry, bytes.trans { header := rfl, body := rfl, remainingLen := rfl }, ?_⟩
  exact decoded

/-- A version 5 PUBLISH to topic `a` that defines topic alias 1. -/
def aliasDefinition : NngMsg :=
  .received .PUBLISH [0x30, 8] [0, 1, 97, 3, 35, 0, 1, 120] 3 (.plain 5)

/-- A retained version 5 PUBLISH that names its topic by alias 1. -/
def retainedByAlias : NngMsg :=
  .received .PUBLISH [0x31, 7] [0, 0, 3, 35, 0, 1, 121] 3 (.plain 5)

/-- A message that is retained under the topic of an alias and has no recipient stays in
`db_ret` with its empty topic.
-/
theorem retained_alias_without_topic
    : let lib := referenceLibrary (fun _ => none)
      let schedule :=
        completions [none, some aliasDefinition, none, some retainedByAlias, none]
      let after := oneContext.run (activate lib) schedule
      let history := oneContext.log (activate lib) schedule
      Reach (activate lib) (fun _ => Permitted lib) oneContext after history
      ∧ (after.locals ()).state = .RECV
      ∧ ((retainedBy history).entries [97]).map (·.packet.publish.topicName)
        = some { body := some [97], len := 1 }
      ∧ (after.shared.retained [97]).map
            (fun entry =>
              (decodePubMessage lib.parser (fun _ => 0) (after.shared.msgs entry.message)
                .zeroed MQTT_PROTOCOL_VERSION_v5).value.2.publish.topicName)
          = some { body := none, len := 0 } := by
  intro lib schedule after history
  exact ⟨.run _ .start schedule (by decide), by decide, by decide, by decide⟩

end NanoMQ
