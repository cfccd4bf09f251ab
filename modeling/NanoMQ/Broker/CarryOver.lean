import NanoMQ.Broker.Reference
import NanoMQ.Broker.SubscribeRequest
import NanoMQ.Broker.Turns

/-! A context carries nothing over from one message to the next.
Packet and recipients are set while a publication is handled and are gone when the context
receives again, and so is the reason code of a refused request.
-/

namespace NanoMQ

open Contexts

-- Assumptions

/-- The command type agrees with the header: a PUBLISH and a disconnect event have the header
of a PUBLISH, other messages do not.
-/
def NngMsg.Agrees (msg : NngMsg) : Prop :=
  msg.type = PUBLISH ↔ msg.cmdType = .PUBLISH ∨ msg.cmdType = .DISCONNECT_EV

instance (msg : NngMsg) : Decidable msg.Agrees :=
  inferInstanceAs (Decidable (_ ↔ _))

/-- The activations of a run in which the broker receives messages that agree. -/
structure Agreeing (lib : Library) (env : Env) (work : Work) (world : World) : Prop where
  permitted : Permitted lib env work world
  agrees : work.proto = .MQTT_BROKER → ∀ msg ∈ env.aioMsg, msg.Agrees

instance (lib : Library) (env : Env) (work : Work) (world : World)
    : Decidable (Agreeing lib env work world) :=
  decidable_of_iff
    (Permitted lib env work world
      ∧ (work.proto = .MQTT_BROKER → ∀ msg ∈ env.aioMsg, msg.Agrees))
    ⟨fun ⟨permitted, agrees⟩ => { permitted, agrees },
      fun agreeing => ⟨agreeing.permitted, agreeing.agrees⟩⟩

/-- What a context takes over agrees, also where the header decides the command type. -/
theorem Agreeing.taken {lib : Library} {env : Env} {work : Work} {world : World}
    {msg : NngMsg} (agreeing : Agreeing lib env work world)
    (taken : takenOver lib env work = some msg)
    : msg.Agrees := by
  rcases takenOver_cases taken with
    ⟨broker, _, brings⟩ | ⟨_, ⟨connack, type⟩ | ⟨publish, type⟩⟩
  · exact agreeing.agrees broker msg brings
  · refine ⟨fun publish => (nomatch type.symm.trans publish), ?_⟩
    rintro (publish | event)
    · cases connack.symm.trans publish
    · cases connack.symm.trans event
  · exact ⟨fun _ => Or.inl publish, fun _ => type⟩

-- The fields between two messages

/-- The publication of a context fits its state. -/
structure Settled (work : Work) (world : World) : Prop where
  idle
    : work.state = .INIT ∨ work.state = .RECV ∨ work.state = .CLOSE
      → work.pubPacket.isSome = false
  waiting
    : work.state = .WAIT
      → (work.pubPacket.isSome ↔ Cb.heldType { work, world, trace := [] } = PUBLISH)
  ending : work.state = .END → work.pubPacket.isSome
  clean : work.proto = .MQTT_BROKER → work.state ≠ .CLOSE → work.code = SUCCESS

section Settled

variable {lib : Library} {env : Env} {work : Work} {world : World} {t : Cb}

theorem Leaves.settled {after : Work} {state : WorkState} {msg : Option MsgId} {packet : Bool}
    {cparam : ConnParam} {shared : World} (leaves : Leaves work after state msg packet cparam)
    (idle : state = .INIT ∨ state = .RECV ∨ state = .CLOSE → packet = false)
    (waiting
      : state = .WAIT
        → (packet ↔ Cb.heldType { work := after, world := shared, trace := [] } = PUBLISH))
    (ending : state = .END → packet)
    (clean
      : work.proto = .MQTT_BROKER
        → state ≠ .CLOSE
        → work.code = SUCCESS ∨ after.code = SUCCESS)
    : Settled after shared := by
  obtain ⟨entered, _, kept, _, _, role, cleaned⟩ := leaves
  subst entered kept
  refine { idle, waiting, ending, clean := ?_ }
  intro broker notClosed
  rcases clean (role.symm.trans broker) notClosed with before | now
  · exact cleaned (role.symm.trans broker) notClosed before
  · exact now

theorem TakesOver.settled {arrived : World} {id : MsgId} {msg : NngMsg} {calls : List Effect}
    (composes : lib.ComposesPublish) (agrees : msg.Agrees) (settled : Settled work world)
    (receiving : work.state = .RECV) (takes : TakesOver lib env work arrived id msg t calls)
    : Settled t.work t.world := by
  have packetless : work.pubPacket.isSome = false :=
    settled.idle (Or.inr (Or.inl receiving))
  have clean (after : ReasonCode)
      : work.proto = .MQTT_BROKER → work.code = SUCCESS ∨ after = SUCCESS :=
    fun broker => Or.inl (settled.clean broker (by rw [receiving]; nofun))
  cases takes with
  | refusedSubscribe kind leaves _ =>
      exact leaves.settled (fun _ => packetless) nofun nofun fun _ closed => absurd rfl closed
  | subscribed ack kind deliveries leaves _ =>
      exact leaves.settled nofun nofun nofun fun broker _ => clean _ broker
  | unsubscribed ack kind leaves _ =>
      exact leaves.settled nofun nofun nofun fun broker _ => clean _ broker
  | published kind goesOn handles resumes leaves type _ =>
      have held : t.heldType = PUBLISH := type.trans (agrees.mpr (Or.inl kind))
      rcases goesOn with rfl | rfl
      · exact leaves.settled nofun (fun _ => ⟨fun _ => held, fun _ => rfl⟩) nofun
          fun broker _ => clean _ broker
      · exact leaves.settled nofun nofun nofun fun broker _ => clean _ broker
  | refusedPublish kind handles leaves _ =>
      exact leaves.settled (fun _ => rfl) nofun nofun fun _ closed => absurd rfl closed
  | connected kind passes reports handles leaves type _ =>
      have held : t.heldType = PUBLISH := type.trans (composes.notifies _ _)
      exact leaves.settled nofun (fun _ => ⟨fun _ => held, fun _ => rfl⟩) nofun
        fun broker _ => clean _ broker
  | disconnected kind reports handles leaves type _ =>
      have held : t.heldType = PUBLISH := type.trans (agrees.mpr (Or.inr kind))
      exact leaves.settled nofun (fun _ => ⟨fun _ => held, fun _ => rfl⟩) nofun
        fun broker _ => clean _ broker
  | willLeft kind hasWill reports handles leaves type _ =>
      exact leaves.settled nofun nofun (fun _ => rfl) fun broker _ => clean _ broker
  | ignored notSubscribe notUnsubscribe notPublish notConnack notEvent leaves type _ =>
      have other : t.heldType ≠ PUBLISH := by
        intro held
        rcases agrees.mp (type.symm.trans held) with publish | event
        · exact notPublish publish
        · exact notEvent event
      refine leaves.settled nofun (fun _ => ?_) nofun fun broker _ => clean _ broker
      rw [packetless]
      exact ⟨nofun, fun held => absurd held other⟩

theorem Settled.receiving {shared : World} (settled : Settled work world)
    (idle : work.state = .INIT ∨ work.state = .RECV)
    : Settled { work with state := .RECV } shared := by
  have packetless : work.pubPacket.isSome = false :=
    settled.idle (idle.imp_right Or.inl)
  have open_ : work.state ≠ .CLOSE := by
    rcases idle with state | state
    · rw [state]
      nofun
    · rw [state]
      nofun
  exact {
    idle := fun _ => packetless
    waiting := nofun
    ending := nofun
    clean := fun broker _ => settled.clean broker open_
  }

/-- Every activation leaves a context that is settled. -/
theorem Turn.settled (composes : lib.ComposesPublish)
    (agrees : ∀ msg, takenOver lib env work = some msg → msg.Agrees)
    (settled : Settled work world) (turn : Turn lib env work world t)
    : Settled t.work t.world := by
  have clean (after : ReasonCode) (notClosed : work.state ≠ .CLOSE)
      : work.proto = .MQTT_BROKER → work.code = SUCCESS ∨ after = SUCCESS :=
    fun broker => Or.inl (settled.clean broker notClosed)
  have unchanged (state : work.state = .RECV) : Settled work t.world := by
    have same : { work with state := .RECV } = work := by
      rw [← state]
    rw [← same]
    exact settled.receiving (Or.inr state)
  cases turn with
  | idle extra state trace after _ =>
      rw [after]
      exact settled.receiving (state.imp_right And.left)
  | dropped extra state nothing trace after _ =>
      rw [after]
      exact unchanged state
  | rejected extra cparam state inproc brings other nothing trace after _ =>
      rw [after]
      exact unchanged state
  | takes state taken arrives next retained stores takes trace =>
      exact takes.settled composes (agrees _ taken) settled state
  | delivered state held publish deliveries bridges trace leaves _ =>
      exact leaves.settled nofun nofun nofun
        fun broker _ => clean _ (by rw [state]; nofun) broker
  | finished extra state held publish deliveries bridges trace leaves _ =>
      exact leaves.settled (fun _ => rfl) nofun nofun
        fun broker _ => clean _ (by rw [state]; nofun) broker
  | nothingToDo state other trace leaves _ =>
      have packetless : work.pubPacket.isSome = false := by
        rw [Bool.eq_false_iff]
        exact fun packet => other ((settled.waiting state).mp packet)
      exact leaves.settled (fun _ => packetless) nofun nofun
        fun broker _ => clean _ (by rw [state]; nofun) broker
  | sent extra state records reports trace leaves _ =>
      exact leaves.settled (fun _ => rfl) nofun nofun
        fun broker _ => clean _ (by rw [state]; nofun) broker
  | willPublished state held deliveries reports flagged handles attaches trace leaves composed
      type _ =>
      obtain ⟨retain, qos, payload, topic, protover, clock, rfl⟩ := composed
      have publish : t.heldType = PUBLISH := type.trans (composes.wills _ _ _ _ _ _)
      exact leaves.settled nofun (fun _ => ⟨fun _ => publish, fun _ => rfl⟩) nofun
        fun broker _ => clean _ (by rw [state]; nofun) broker
  | ended extra state held deliveries reports unflagged trace leaves _ =>
      exact leaves.settled (fun _ => rfl) nofun nofun
        fun broker _ => clean _ (by rw [state]; nofun) broker
  | closed disconnect state trace leaves cleared _ =>
      exact leaves.settled (fun _ => settled.idle (Or.inr (Or.inr state))) nofun nofun
        fun _ _ => Or.inr cleared

end Settled

-- Packets

/-- What a call does to the packet of its context: `handle_pub` allocates one, and
`free_pub_packet` frees it.
-/
def Effect.allocates : Effect → Option Bool
  | .handlePub _ _ _ _ _ => some true
  | .freePubPacket => some false
  | _ => none

/-- Allocate or free the packet. A packet that is held must not be overwritten, and one that
is not held cannot be freed.
-/
def usePacket (held allocates : Bool) : Option Bool :=
  if held = allocates then none else some allocates

/-- Whether a packet is held after these calls. -/
def packetAfter (held : Bool) (calls : List Effect) : Option Bool :=
  (calls.filterMap Effect.allocates).foldlM usePacket held

theorem packetAfter_append (held : Bool) (calls more : List Effect)
    : packetAfter held (calls ++ more)
      = (packetAfter held calls).bind (packetAfter · more) := by
  unfold packetAfter
  rw [List.filterMap_append, List.foldlM_append]
  rfl

theorem packetAfter_of_quiet (held : Bool) {calls : List Effect}
    (quiet : calls.filterMap Effect.allocates = [])
    : packetAfter held calls = some held := by
  rw [packetAfter, quiet]
  rfl

theorem packetAfter_cparamRead (held : Bool) (calls : List Effect)
    : packetAfter held (.cparamRead :: calls) = packetAfter held calls :=
  rfl

theorem packetAfter_msgFree (held : Bool) (id : MsgId) (calls : List Effect)
    : packetAfter held (.msgFree id :: calls) = packetAfter held calls :=
  rfl

section Packets

variable {lib : Library} {env : Env} {work : Work} {world : World} {t : Cb}

theorem Handles.allocates {id : MsgId} {before after : Topic → Option RetainMsg}
    {handled : List Effect} (handles : Handles id before after handled)
    : handled.filterMap Effect.allocates = [true] := by
  obtain ⟨_, _, _, _, _, viewed⟩ :=
    handles.filterMap_eq Effect.allocates (fun _ => rfl) (fun _ => rfl)
  exact viewed

theorem Handles.packet {id : MsgId} {before after : Topic → Option RetainMsg}
    {handled : List Effect} (handles : Handles id before after handled)
    : packetAfter false handled = some true := by
  rw [packetAfter, handles.allocates]
  rfl

theorem Hooks.allocates {hooks : List Effect} (reports : Hooks hooks)
    : hooks.filterMap Effect.allocates = [] :=
  reports.filterMap_eq_nil rfl fun _ _ => rfl

theorem Deliveries.allocates {allowed : MsgId → Prop} {sends : List Effect}
    (deliveries : Deliveries allowed sends)
    : sends.filterMap Effect.allocates = [] :=
  deliveries.filterMap_eq_nil (fun _ => rfl) fun _ _ => rfl

theorem Forwards.allocates {forwards : List Effect} (bridges : Forwards forwards)
    : forwards.filterMap Effect.allocates = [] :=
  bridges.filterMap_eq_nil (fun _ _ => rfl) rfl

theorem Passes.allocates {id : MsgId} {passed : List Effect} (passes : Passes id passed)
    : passed.filterMap Effect.allocates = [] := by
  cases passes with
  | nothing => rfl
  | returned msg => rfl

theorem freeHeld_allocates (held : Option MsgId)
    : (freeHeld held).filterMap Effect.allocates = [] :=
  freeHeld_filterMap_eq_nil (fun _ => rfl) held

theorem Records.allocates {recorded : List Effect} (records : Records recorded)
    : recorded.filterMap Effect.allocates = [] := by
  cases records with
  | nothing => rfl
  | inserted => rfl

theorem Attaches.allocates {attached : List Effect} (attaches : Attaches attached)
    : attached.filterMap Effect.allocates = [] := by
  cases attaches with
  | nothing => rfl
  | will _ _ => rfl

theorem TakesOver.packets {arrived : World} {id : MsgId} {msg : NngMsg} {calls : List Effect}
    (packetless : work.pubPacket.isSome = false)
    (takes : TakesOver lib env work arrived id msg t calls)
    : packetAfter false calls = some t.work.pubPacket.isSome := by
  cases takes with
  | refusedSubscribe kind leaves _ =>
      rw [leaves.kept, packetless]
      rfl
  | subscribed ack kind deliveries leaves _ =>
      rw [leaves.kept, packetless, packetAfter_append, packetAfter_cparamRead,
        packetAfter_of_quiet _ deliveries.allocates]
      rfl
  | unsubscribed ack kind leaves _ =>
      rw [leaves.kept, packetless]
      rfl
  | published kind goesOn handles resumes leaves type _ =>
      rw [leaves.kept, packetAfter_append, packetAfter_cparamRead, handles.packet]
      cases resumes with
      | finish => rfl
      | reply msg => rfl
  | refusedPublish kind handles leaves _ =>
      rw [leaves.kept, packetAfter_append, packetAfter_cparamRead, handles.packet]
      rfl
  | connected kind passes reports handles leaves type _ =>
      rw [leaves.kept]
      simp only [packetAfter_append, packetAfter_cparamRead, packetAfter_msgFree,
        packetAfter_of_quiet _ passes.allocates, packetAfter_of_quiet _ reports.allocates,
        handles.packet, List.cons_append, Option.bind_some]
      rfl
  | disconnected kind reports handles leaves type _ =>
      rw [leaves.kept, packetAfter_append, packetAfter_append, packetAfter_cparamRead,
        packetAfter_of_quiet _ reports.allocates, Option.bind_some, handles.packet]
      rfl
  | willLeft kind hasWill reports handles leaves type _ =>
      rw [leaves.kept, packetAfter_append, packetAfter_append, packetAfter_cparamRead,
        packetAfter_of_quiet _ reports.allocates, Option.bind_some, handles.packet]
      rfl
  | ignored notSubscribe notUnsubscribe notPublish notConnack notEvent leaves type _ =>
      rw [leaves.kept, packetless]
      rfl

/-- In every activation a packet is allocated only when none is held, and freed only when
one is held.
-/
theorem Turn.packets (settled : Settled work world) (turn : Turn lib env work world t)
    : packetAfter work.pubPacket.isSome t.trace = some t.work.pubPacket.isSome := by
  cases turn with
  | idle extra state trace after _ =>
      rw [trace, after]
      rfl
  | dropped extra state nothing trace after _ =>
      rw [trace, after]
      rfl
  | rejected extra cparam state inproc brings other nothing trace after _ =>
      rw [trace, after]
      rfl
  | takes state taken arrives next retained stores takes trace =>
      have packetless := settled.idle (Or.inr (Or.inl state))
      rw [trace, packetless, packetAfter_append]
      cases arrives with
      | received => exact takes.packets packetless
      | upstream cparam => exact takes.packets packetless
      | unpacked => exact takes.packets packetless
  | delivered state held publish deliveries bridges trace leaves _ =>
      rw [trace, leaves.kept]
      simp only [packetAfter_append, packetAfter_of_quiet _ deliveries.allocates,
        packetAfter_of_quiet _ bridges.allocates, Option.bind_some]
      rfl
  | finished extra state held publish deliveries bridges trace leaves _ =>
      have packet : work.pubPacket.isSome :=
        (settled.waiting state).mpr ((Cb.heldType_of_held held).trans publish)
      rw [trace, leaves.kept, packet]
      simp only [packetAfter_append, packetAfter_of_quiet _ deliveries.allocates,
        packetAfter_of_quiet _ bridges.allocates, Option.bind_some]
      rfl
  | nothingToDo state other trace leaves _ =>
      rw [trace, leaves.kept, packetAfter_append,
        packetAfter_of_quiet _ (freeHeld_allocates work.msg)]
      rfl
  | sent extra state records reports trace leaves _ =>
      rw [trace, leaves.kept]
      simp only [packetAfter_append, packetAfter_of_quiet _ records.allocates,
        packetAfter_of_quiet _ reports.allocates,
        packetAfter_of_quiet _ (freeHeld_allocates work.msg), Option.bind_some]
      cases work.pubPacket.isSome with
      | false => rfl
      | true => rfl
  | willPublished state held deliveries reports flagged handles attaches trace leaves composed
      type _ =>
      rw [trace, leaves.kept, settled.ending state]
      simp only [packetAfter_append, packetAfter_of_quiet _ deliveries.allocates,
        packetAfter_of_quiet _ reports.allocates, Option.bind_some]
      change (((packetAfter false _).bind _).bind _) = _
      rw [handles.packet, Option.bind_some, packetAfter_of_quiet _ attaches.allocates]
      rfl
  | ended extra state held deliveries reports unflagged trace leaves _ =>
      rw [trace, leaves.kept, settled.ending state]
      simp only [packetAfter_append, packetAfter_of_quiet _ deliveries.allocates,
        packetAfter_of_quiet _ reports.allocates, Option.bind_some]
      rfl
  | closed disconnect state trace leaves cleared _ =>
      rw [trace, leaves.kept, packetAfter_append,
        packetAfter_of_quiet _ (freeHeld_allocates work.msg)]
      rfl

end Packets

-- Whole runs

/-- A context that is ready and settled. -/
structure Rested (work : Work) (world : World) : Prop where
  ready : Ready work world
  settled : Settled work world

section Runs

variable {lib : Library} {env : Env} {work : Work} {world : World}

/-- An activation keeps the contexts settled. The publication of another context still fits
its state.
-/
theorem Rested.preserved {history : List Effect} (composes : lib.ComposesPublish)
    (agreeing : Agreeing lib env work world) (rested : Rested work world)
    : Preserved (fun _ _ => True) Rested Apart world history work
        (activate lib env work world) := by
  obtain ⟨ready, settled⟩ := rested
  have preserved : Preserved (fun _ _ => True) Ready Apart world history work
      (activate lib env work world) :=
    ready.preserved composes.notifies agreeing.permitted trivial
  refine { globally := trivial, own := ?_, others := ?_ }
  · exact {
      ready := preserved.own
      settled := (ready.turn agreeing.permitted).settled composes (fun _ => agreeing.taken)
        settled
    }
  · intro other otherRested apart
    obtain ⟨otherReady, stillApart⟩ := preserved.others other otherRested.ready apart
    have sameType := ready.holds.other_heldType agreeing.permitted otherRested.ready.holds apart
    refine ⟨{ ready := otherReady, settled := ?_ }, stillApart⟩
    refine { otherRested.settled with waiting := fun waiting => ?_ }
    refine (otherRested.settled.waiting waiting).trans ?_
    rw [← sameType]
    rfl

variable {Index : Type} {first : System Index Work World}

theorem Starts.rested (starts : Starts first) (fresh : ∀ index, (first.locals index).Fresh)
    : Invariant (fun _ (_ : List Effect) => True) Rested Apart first [] := by
  have ready : Invariant (fun _ (_ : List Effect) => True) Ready Apart first [] :=
    starts.ready fresh trivial
  refine { globally := trivial, own := fun index => ?_, apart := ready.apart }
  have init := starts.init index
  exact {
    ready := ready.own index
    settled := {
      idle := fun _ => by
        rw [(fresh index).packet]
        rfl
      waiting := fun waiting => nomatch init.symm.trans waiting
      ending := fun ending => nomatch init.symm.trans ending
      clean := fun _ _ => (fresh index).code
    }
  }

variable [DecidableEq Index]

theorem Starts.reachable_rested {system : System Index Work World} {history : List Effect}
    (starts : Starts first) (fresh : ∀ index, (first.locals index).Fresh)
    (composes : lib.ComposesPublish)
    (reached : Reach (activate lib) (fun _ => Agreeing lib) first system history)
    : Invariant (fun _ _ => True) Rested Apart system history :=
  reached.invariant Apart.symm
    (fun _ _ _ _ _ agreeing _ rested => rested.preserved composes agreeing)
    (starts.rested fresh)

/-- The packets of one context over a whole run, by induction on the run. -/
theorem Starts.packets {system : System Index Work World} {index : Index}
    {turns : List (List Effect)} (starts : Starts first)
    (fresh : ∀ index, (first.locals index).Fresh) (composes : lib.ComposesPublish)
    (followed : Follows (activate lib) (fun _ => Agreeing lib) index first system turns)
    : packetAfter false turns.flatten = some (system.locals index).pubPacket.isSome := by
  refine followed.track
    (fun own _ turns => packetAfter false turns.flatten = some own.pubPacket.isSome) Apart.symm
    (fun _ _ _ _ _ agreeing _ rested => rested.preserved composes agreeing)
    (starts.rested fresh) ?_ ?_ ?_
  · intro env own shared turns agreeing rested tracked
    rw [List.flatten_append, packetAfter_append, tracked, List.flatten_singleton]
    exact (rested.ready.turn agreeing.permitted).packets rested.settled
  · exact fun _ _ _ _ _ _ _ _ _ _ _ tracked => tracked
  · rw [(fresh index).packet]
    rfl

end Runs

-- Acceptance of a SUBSCRIBE

/-- A SUBSCRIBE that is accepted: it can be decoded, and has a packet id and topics. The
memory behind the message is part of what is decoded.
-/
def SubscribeAccepted (lib : Library) (stray : Nat → UInt8) (msg : NngMsg) : Prop :=
  let decoded := (decodeSubMsg lib.parser stray msg msg.connParam.protover .zeroed).value
  decoded.1 = SUCCESS ∧ decoded.2.node ≠ [] ∧ decoded.2.packetId ≠ 0

theorem subCtxHandle_accepts (findRetain : Topic → Option (List (Option MsgId)))
    (stale : List (Option MsgId)) (pid : Pid) (packet : TopicPacket) (stores : Stores)
    : (subCtxHandle findRetain stale pid packet stores).1 = 0
      ↔ packet.node ≠ [] ∧ packet.packetId ≠ 0 := by
  unfold subCtxHandle
  split
  · rename_i empty
    simp [empty]
  · rename_i topics
    split
    · rename_i noId
      simp [noId]
    · rename_i hasId
      simp [topics, hasId]

/-- With a clean context the message alone decides. -/
theorem recvSubscribe_accepted {lib : Library} {env : Env} {s : Cb} {id : MsgId}
    (clean : s.work.code = SUCCESS)
    : (recvSubscribe lib env id (s.adopt id)).work.state = .SEND
      ↔ SubscribeAccepted lib env.stray (s.world.msgs id) := by
  unfold SubscribeAccepted
  dsimp only
  rw [← subCtxHandle_accepts (lib.findRetain s.world.retained) env.stale (s.world.msgs id).pipe
    _ s.world.stores]
  unfold recvSubscribe
  dsimp only
  split
  · rename_i failed
    exact ⟨nofun, fun accepted => absurd accepted.1 failed⟩
  · rename_i decoded
    split
    · rename_i refused
      split
      · exact ⟨nofun, fun accepted => absurd accepted.2 refused⟩
      · rename_i success
        exact absurd (not_not.mp success) refused
    · rename_i handled
      split
      · rename_i unclean
        exact absurd clean unclean
      · exact ⟨fun _ => ⟨not_not.mp decoded, not_not.mp handled⟩, fun _ => rfl⟩

/-- In every reachable state a context that is about to handle a received message has no
packet and no recipients, and the code of a broker's context is SUCCESS. So the broker accepts
a SUBSCRIBE by the message alone. Each packet that a context allocates is freed exactly once,
before the next one is allocated. Witness: the invariant of settled contexts, and the packets
along the activations of one context.
-/
theorem nothing_carried_over {Index : Type} [DecidableEq Index] {lib : Library}
    {first : System Index Work World} (starts : Starts first)
    (fresh : ∀ index, (first.locals index).Fresh) (composes : lib.ComposesPublish)
    : (∀ system history,
        Reach (activate lib) (fun _ => Agreeing lib) first system history
        → ∀ index,
            (system.locals index).state = .RECV
            → (system.locals index).pubPacket = none
              ∧ (system.locals index).msgInfos = []
              ∧ ((system.locals index).proto = .MQTT_BROKER
                → (system.locals index).code = SUCCESS
                  ∧ ∀ env msg,
                      takenOver lib env (system.locals index) = some msg
                      → msg.cmdType = .SUBSCRIBE
                      → ((activate lib env (system.locals index) system.shared).own.state = .SEND
                        ↔ SubscribeAccepted lib env.stray msg)))
      ∧ ∀ system index turns,
          Follows (activate lib) (fun _ => Agreeing lib) index first system turns
          → packetAfter false turns.flatten
            = some (system.locals index).pubPacket.isSome := by
  refine ⟨?_, fun system index turns => starts.packets fresh composes⟩
  intro system history reached index receiving
  obtain ⟨ready, settled⟩ := (starts.reachable_rested fresh composes reached).own index
  have packetless := settled.idle (Or.inr (Or.inl receiving))
  refine ⟨?_, ready.recipients packetless, ?_⟩
  · exact Option.not_isSome_iff_eq_none.mp (Bool.eq_false_iff.mp packetless)
  · intro broker
    have clean := settled.clean broker (by rw [receiving]; nofun)
    refine ⟨clean, ?_⟩
    intro env msg taken subscribe
    obtain ⟨completed, brings⟩ : env.aioResult = 0 ∧ env.aioMsg = some msg := by
      rcases takenOver_cases taken with ⟨_, received⟩ | ⟨elsewhere, _⟩
      · exact received
      · exact absurd broker elsewhere
    change (serverCb lib env (system.locals index) system.shared).work.state = .SEND ↔ _
    rw [serverCb_subscribe receiving broker completed brings subscribe,
      recvSubscribe_accepted clean, Cb.received_self]

/-- The one context receives a PUBLISH and delivers it. -/
def publishSchedule : List (Unit × Env) :=
  completions [none, some (composePublish false 0 [97] [120] MQTT_PROTOCOL_VERSION_v311), none]

/-- A context that has delivered a PUBLISH accepts the next SUBSCRIBE by the message alone. -/
theorem publication_not_carried_over
    : let lib := referenceLibrary fun _ => none
      let after := oneContext.run (activate lib) publishSchedule
      (after.locals ()).pubPacket = none
      ∧ (after.locals ()).msgInfos = []
      ∧ ((activate lib (.brings (some mixedSubscribe)) (after.locals ()) after.shared).own.state
          = .SEND
        ↔ SubscribeAccepted lib (fun _ => 0) mixedSubscribe)
      ∧ packetAfter false (oneContext.turns (activate lib) () publishSchedule).flatten
        = some false := by
  have permits
      : oneContext.Permits (activate (referenceLibrary fun _ => none))
          (fun _ => Agreeing (referenceLibrary fun _ => none)) publishSchedule := by
    decide
  obtain ⟨cleared, packets⟩ := nothing_carried_over oneContext_starts
    (fun _ => { packet := rfl, recipients := rfl, code := rfl })
    (referenceLibrary_composes fun _ => none)
  obtain ⟨packetless, recipients, broker⟩ :=
    cleared _ _ (.run _ .start publishSchedule permits) () (by decide)
  obtain ⟨_, accepts⟩ := broker (by decide)
  refine ⟨packetless, recipients, accepts (.brings (some mixedSubscribe)) _ rfl rfl, ?_⟩
  have freed := packets _ () _ (.run _ .start publishSchedule permits)
  rw [packetless] at freed
  exact freed

end NanoMQ
