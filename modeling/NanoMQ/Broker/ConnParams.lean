import NanoMQ.Broker.Reference
import NanoMQ.Broker.Turns

/-! References to connection parameters.
From the activation that takes over a message to the one after which the context receives
again, `conn_param_free` is called as often as the protocol layer has cloned the parameters
for that message, and nothing looks at them after the last call.
-/

namespace NanoMQ

open Contexts

/-- The connection parameters that a call frees. -/
def Effect.freedParam : Effect → Option ConnParam
  | .connParamFree cparam => some cparam
  | _ => none

/-- The call looks at `work->cparam` or frees it. Web hook, rule engine and AWS bridge are
given the whole context.
-/
def Effect.usesParam : Effect → Bool
  | .cparamRead | .webhook _ _ | .ruleEngineInsertSql | .awsBridgeForward
  | .connParamFree _ => true
  | _ => false

def freedParams (calls : List Effect) : List ConnParam :=
  calls.filterMap Effect.freedParam

/-- The last call that uses the parameters. -/
def lastUse (calls : List Effect) : Option Effect :=
  (calls.filter Effect.usesParam).getLast?

/-- How often the parameters are freed for a message of this kind. -/
def CmdType.frees : CmdType → Option Nat
  | .SUBSCRIBE | .UNSUBSCRIBE | .PUBLISH | .CONNACK => some 1
  | .DISCONNECT_EV => some 2
  | _ => none

/-- How often a context in this state has yet to free the parameters. -/
def WorkState.owed : WorkState → Nat
  | .WAIT | .SEND => 1
  | .END => 2
  | .INIT | .RECV | .HOOK | .CLOSE => 0

/-- How many activations it takes at most until a context in this state receives again. -/
def WorkState.turnsLeft : WorkState → Nat
  | .CLOSE | .SEND => 1
  | .WAIT => 2
  | .END => 3
  | .INIT | .RECV | .HOOK => 0

/-- After these calls for a message with connection parameters `cparam`, what has been freed
and what the context still owes are `total` together.
-/
structure Accounts (cparam : ConnParam) (total : Nat) (own : Work) (shared : World)
    (calls : List Effect)
    : Prop where
  param : own.cparam = cparam
  freed
    : ∃ count,
        freedParams calls = List.replicate count cparam ∧ count + own.state.owed = total
  last : own.state.owed = 0 → lastUse calls = some (.connParamFree cparam)
  waiting
    : own.state = .WAIT → Cb.heldType { work := own, world := shared, trace := [] } = PUBLISH
  ending : own.state = .END → cparam.willFlag
  done : own.state.turnsLeft = 0 → own.state = .RECV

section Blocks

variable {effects more : List Effect}

@[simp]
theorem freedParams_nil : freedParams [] = [] :=
  rfl

@[simp]
theorem freedParams_cons (effect : Effect)
    : freedParams (effect :: effects) = effect.freedParam.toList ++ freedParams effects := by
  unfold freedParams
  rw [List.filterMap_cons]
  cases effect.freedParam with
  | none => rfl
  | some _ => rfl

@[simp]
theorem freedParams_append
    : freedParams (effects ++ more) = freedParams effects ++ freedParams more :=
  List.filterMap_append

theorem lastUse_append : lastUse (effects ++ more) = (lastUse more).or (lastUse effects) := by
  unfold lastUse
  rw [List.filter_append, List.getLast?_append]

theorem lastUse_of_append {effect : Effect} (last : lastUse more = some effect)
    : lastUse (effects ++ more) = some effect := by
  rw [lastUse_append, last, Option.some_or]

theorem Deliveries.freedParams {allowed : MsgId → Prop}
    (deliveries : Deliveries allowed effects)
    : freedParams effects = [] :=
  deliveries.filterMap_eq_nil (fun _ => rfl) fun _ _ => rfl

theorem Hooks.freedParams (reports : Hooks effects) : freedParams effects = [] :=
  reports.filterMap_eq_nil rfl fun _ _ => rfl

theorem Forwards.freedParams (bridges : Forwards effects) : freedParams effects = [] :=
  bridges.filterMap_eq_nil (fun _ _ => rfl) rfl

theorem freeHeld_freedParams (held : Option MsgId) : freedParams (freeHeld held) = [] :=
  freeHeld_filterMap_eq_nil (fun _ => rfl) held

theorem Handles.freedParams {id : MsgId} {before after : Topic → Option RetainMsg}
    (handles : Handles id before after effects)
    : freedParams effects = [] := by
  obtain ⟨_, _, _, _, _, viewed⟩ :=
    handles.filterMap_eq Effect.freedParam (fun _ => rfl) (fun _ => rfl)
  exact viewed

theorem Records.freedParams (records : Records effects) : freedParams effects = [] := by
  cases records with
  | nothing => rfl
  | inserted => rfl

theorem Attaches.freedParams (attaches : Attaches effects) : freedParams effects = [] := by
  cases attaches with
  | nothing => rfl
  | will _ _ => rfl

theorem Passes.freedParams {id : MsgId} (passes : Passes id effects)
    : freedParams effects = [] := by
  cases passes with
  | nothing => rfl
  | returned _ => rfl

theorem Arrives.freedParams {world : World} {id : MsgId} (arrives : Arrives world id effects)
    : freedParams effects = [] := by
  cases arrives with
  | received => rfl
  | upstream _ => rfl
  | unpacked => rfl

end Blocks

section Accounts

variable {lib : Library} {env : Env} {work : Work} {world : World} {t : Cb}

theorem Leaves.accounts {state : WorkState} {held : Option MsgId} {packet : Bool}
    {cparam : ConnParam} {calls : List Effect} {total : Nat}
    (leaves : Leaves work t.work state held packet cparam) (count : Nat)
    (freed : freedParams calls = List.replicate count cparam)
    (sum : count + state.owed = total)
    (last : state.owed = 0 → lastUse calls = some (.connParamFree cparam))
    (waiting : state = .WAIT → t.heldType = PUBLISH) (ending : state = .END → cparam.willFlag)
    (done : state.turnsLeft = 0 → state = .RECV)
    : Accounts cparam total t.work t.world calls := by
  obtain ⟨entered, _, _, _, param, _, _⟩ := leaves
  subst entered
  exact { param, freed := ⟨count, freed, sum⟩, last, waiting, ending, done }

/-- The account of a message that has been taken over. -/
theorem TakesOver.accounts {arrived : World} {id : MsgId} {msg : NngMsg}
    {calls : List Effect} {total : Nat} (notifies : lib.NotifiesPublish)
    (kind : msg.cmdType.frees = some total)
    (type : msg.cmdType = .PUBLISH ∨ msg.cmdType = .DISCONNECT_EV → msg.type = PUBLISH)
    (takes : TakesOver lib env work arrived id msg t calls)
    : Accounts msg.connParam total t.work t.world calls := by
  cases takes with
  | refusedSubscribe isKind leaves _ =>
      rw [isKind] at kind
      cases kind
      exact leaves.accounts 1 rfl rfl (fun _ => rfl) nofun nofun nofun
  | subscribed ack isKind deliveries leaves _ =>
      rw [isKind] at kind
      cases kind
      exact leaves.accounts 0 (by simp [deliveries.freedParams, Effect.freedParam]) rfl nofun
        nofun nofun nofun
  | unsubscribed ack isKind leaves _ =>
      rw [isKind] at kind
      cases kind
      exact leaves.accounts 0 rfl rfl nofun nofun nofun nofun
  | @published state handled _ arm isKind goesOn handles resumes leaves heldType _ =>
      have publish : t.heldType = PUBLISH := heldType.trans (type (Or.inl isKind))
      rw [isKind] at kind
      cases kind
      have nothing : freedParams (.cparamRead :: handled ++ [arm]) = [] := by
        cases resumes with
        | finish => simp [handles.freedParams, Effect.freedParam]
        | reply _ => simp [handles.freedParams, Effect.freedParam]
      rcases goesOn with rfl | rfl
      · exact leaves.accounts 0 nothing rfl nofun (fun _ => publish) nofun nofun
      · exact leaves.accounts 0 nothing rfl nofun nofun nofun nofun
  | refusedPublish isKind handles leaves _ =>
      rw [isKind] at kind
      cases kind
      exact leaves.accounts 1 (by simp [handles.freedParams, Effect.freedParam]) rfl
        (fun _ => lastUse_of_append rfl) nofun nofun nofun
  | connected isKind passes reports handles leaves heldType _ =>
      rw [isKind] at kind
      cases kind
      exact leaves.accounts 0
        (by
          simp [passes.freedParams, reports.freedParams, handles.freedParams,
            Effect.freedParam])
        rfl nofun (fun _ => heldType.trans (notifies _ _)) nofun nofun
  | disconnected isKind reports handles leaves heldType _ =>
      have publish : t.heldType = PUBLISH := heldType.trans (type (Or.inr isKind))
      rw [isKind] at kind
      cases kind
      exact leaves.accounts 1
        (by simp [reports.freedParams, handles.freedParams, Effect.freedParam]) rfl nofun
        (fun _ => publish) nofun nofun
  | willLeft isKind hasWill reports handles leaves heldType _ =>
      rw [isKind] at kind
      cases kind
      have flagged : msg.connParam.willFlag := by
        unfold ConnParam.hasWill at hasWill
        simp only [Bool.and_eq_true] at hasWill
        exact hasWill.1.1
      exact leaves.accounts 0
        (by simp [reports.freedParams, handles.freedParams, Effect.freedParam]) rfl nofun nofun
        (fun _ => flagged) nofun
  | ignored notSubscribe notUnsubscribe notPublish notConnack notEvent leaves heldType _ =>
      unfold CmdType.frees at kind
      split at kind
      · exact absurd ‹_› notSubscribe
      · exact absurd ‹_› notUnsubscribe
      · exact absurd ‹_› notPublish
      · exact absurd ‹_› notConnack
      · exact absurd ‹_› notEvent
      · cases kind

/-- One more activation keeps the account and brings the context nearer to RECV. -/
theorem Turn.accounts {cparam : ConnParam} {total : Nat} {calls : List Effect}
    (composes : lib.ComposesPublish) (accounts : Accounts cparam total work world calls)
    (busy : work.state ≠ .RECV) (turn : Turn lib env work world t)
    : Accounts cparam total t.work t.world (calls ++ t.trace)
      ∧ t.work.state.turnsLeft < work.state.turnsLeft := by
  obtain ⟨param, ⟨count, freed, sum⟩, last, waiting, ending, done⟩ := accounts
  subst param
  cases turn with
  | idle _ state _ _ _ =>
      rcases state with init | ⟨receiving, _⟩
      · exact absurd (done (by rw [init]; rfl)) busy
      · exact absurd receiving busy
  | dropped _ state _ _ _ _ => exact absurd state busy
  | rejected _ _ state _ _ _ _ _ _ _ => exact absurd state busy
  | takes state _ _ _ _ _ _ _ => exact absurd state busy
  | delivered state held publish deliveries bridges trace leaves _ =>
      rw [state] at sum ⊢
      refine ⟨leaves.accounts count ?_ sum nofun nofun nofun nofun, ?_⟩
      · rw [trace, freedParams_append, freed]
        simp [deliveries.freedParams, bridges.freedParams, Effect.freedParam]
      · rw [leaves.entered]
        decide
  | finished extra state held publish deliveries bridges trace leaves _ =>
      rw [state] at sum ⊢
      refine ⟨leaves.accounts (count + 1) ?_ sum ?_ nofun nofun (fun _ => rfl), ?_⟩
      · rw [trace, freedParams_append, freed]
        simp [deliveries.freedParams, bridges.freedParams, Effect.freedParam,
          List.replicate_succ']
      · intro _
        rw [trace]
        exact lastUse_of_append (lastUse_of_append rfl)
      · rw [leaves.entered]
        decide
  | nothingToDo state other trace leaves _ => exact absurd (waiting state) other
  | sent extra state records reports trace leaves _ =>
      rw [state] at sum ⊢
      refine ⟨leaves.accounts (count + 1) ?_ sum ?_ nofun nofun (fun _ => rfl), ?_⟩
      · rw [trace, freedParams_append, freed]
        split
        · simp [records.freedParams, reports.freedParams, freeHeld_freedParams,
            Effect.freedParam, List.replicate_succ']
        · simp [records.freedParams, reports.freedParams, freeHeld_freedParams,
            Effect.freedParam, List.replicate_succ']
      · intro _
        rw [trace]
        exact lastUse_of_append (lastUse_of_append rfl)
      · rw [leaves.entered]
        decide
  | willPublished state held deliveries reports flagged handles attaches trace leaves composed
      type _ =>
      obtain ⟨retain, qos, payload, topic, protover, clock, rfl⟩ := composed
      rw [state] at sum ⊢
      refine ⟨leaves.accounts (count + 1) ?_ ?_ nofun ?_ nofun nofun, ?_⟩
      · rw [trace, freedParams_append, freed]
        simp [deliveries.freedParams, reports.freedParams, handles.freedParams,
          attaches.freedParams, Effect.freedParam, List.replicate_succ']
      · exact (Nat.add_assoc count 1 1).trans sum
      · exact fun _ => type.trans (composes.wills _ _ _ _ _ _)
      · rw [leaves.entered]
        decide
  | ended extra state held deliveries reports unflagged trace leaves _ =>
      exact absurd (ending state) (Bool.eq_false_iff.mp unflagged)
  | closed disconnect state trace leaves cleared _ =>
      rw [state] at sum last ⊢
      refine ⟨leaves.accounts count ?_ sum ?_ nofun nofun (fun _ => rfl), ?_⟩
      · rw [trace, freedParams_append, freed]
        simp [freeHeld_freedParams, Effect.freedParam]
      · intro _
        have unused : lastUse t.trace = none := by
          rw [trace]
          cases work.msg with
          | none => rfl
          | some id => rfl
        rw [lastUse_append, unused]
        exact last rfl
      · rw [leaves.entered]
        decide

theorem Accounts.arrived {cparam : ConnParam} {total : Nat} {id : MsgId}
    {arrival calls : List Effect} {before : World}
    (accounts : Accounts cparam total work world calls) (arrives : Arrives before id arrival)
    : Accounts cparam total work world (arrival ++ calls) := by
  obtain ⟨count, freed, sum⟩ := accounts.freed
  refine { accounts with freed := ⟨count, ?_, sum⟩, last := ?_ }
  · rw [freedParams_append, arrives.freedParams, freed, List.nil_append]
  · exact fun nothing => lastUse_of_append (accounts.last nothing)

theorem Turn.opens {msg : NngMsg} {total : Nat} (notifies : lib.NotifiesPublish)
    (receiving : work.state = .RECV) (taken : takenOver lib env work = some msg)
    (kind : msg.cmdType.frees = some total)
    (type : msg.cmdType = .PUBLISH ∨ msg.cmdType = .DISCONNECT_EV → msg.type = PUBLISH)
    (turn : Turn lib env work world t)
    : Accounts msg.connParam total t.work t.world t.trace := by
  obtain ⟨_, _, _, _, arrives, _, takes, trace⟩ := turn.of_taken receiving taken
  rw [trace]
  exact (takes.accounts notifies kind type).arrived arrives

end Accounts

-- From one message to the next

/-- The activations while a context handles a message: its own until it receives again, and
any of the others.
-/
structure Handling {Index : Type} (lib : Library) (index acting : Index) (env : Env)
    (work : Work) (world : World)
    : Prop where
  permitted : Permitted lib env work world
  busy : acting = index → work.state ≠ .RECV

/-- A disconnect event that is taken over has the header of a PUBLISH, and so has a PUBLISH
that does not come from a client.
-/
theorem takenOver_type {lib : Library} {env : Env} {work : Work} {msg : NngMsg}
    (delivers : env.Delivers) (taken : takenOver lib env work = some msg)
    (publish : work.proto = .MQTT_BROKER → msg.cmdType = .PUBLISH → msg.type = PUBLISH)
    : msg.cmdType = .PUBLISH ∨ msg.cmdType = .DISCONNECT_EV → msg.type = PUBLISH := by
  rcases takenOver_cases taken with
    ⟨broker, _, brings⟩ | ⟨_, ⟨connack, _⟩ | ⟨_, type⟩⟩
  · rintro (isPublish | event)
    · exact publish broker isPublish
    · exact delivers msg brings event
  · rintro (isPublish | event)
    · cases connack.symm.trans isPublish
    · cases connack.symm.trans event
  · exact fun _ => type

theorem WorkState.turnsLeft_le (state : WorkState) : state.turnsLeft ≤ 3 := by
  cases state <;> decide

/-- For one received message the connection parameters are freed once, for a disconnect event
twice, and the last call frees them after everything that looks at them. The message takes at
most three more activations of its context, however the contexts are interleaved, whatever
can be decoded, in every role and configuration. A PUBLISH of a client has the header of one.
Witness: the account of the message along the activations of its context.
-/
theorem conn_params_freed {Index : Type} [DecidableEq Index] {lib : Library}
    {first system : System Index Work World} {history : List Effect} {index : Index}
    {env : Env} {msg : NngMsg} {total : Nat} (starts : Starts first)
    (fresh : ∀ index, (first.locals index).Fresh) (composes : lib.ComposesPublish)
    (reached : Reach (activate lib) (fun _ => Permitted lib) first system history)
    (receiving : (system.locals index).state = .RECV)
    (permitted : Permitted lib env (system.locals index) system.shared)
    (taken : takenOver lib env (system.locals index) = some msg)
    (kind : msg.cmdType.frees = some total)
    (publish
      : (system.locals index).proto = .MQTT_BROKER
        → msg.cmdType = .PUBLISH
        → msg.type = PUBLISH)
    : ∀ after turns,
        Follows (activate lib) (Handling lib index) index
          (system.step (activate lib) index env) after turns
        → let calls :=
            (activate lib env (system.locals index) system.shared).events ++ turns.flatten
          turns.length ≤ 3
          ∧ (turns.length = 3 → (after.locals index).state = .RECV)
          ∧ ((after.locals index).state = .RECV
            → freedParams calls = List.replicate total msg.connParam
              ∧ lastUse calls = some (.connParamFree msg.connParam)) := by
  intro after turns followed calls
  have invariant := starts.reachable_ready fresh composes.notifies reached
  have opened := invariant.step Apart.symm index env
    ((invariant.own index).preserved composes.notifies permitted trivial)
  have tracked := followed.track
    (fun own shared turns =>
      Accounts msg.connParam total own shared
        ((activate lib env (system.locals index) system.shared).events ++ turns.flatten)
      ∧ turns.length + own.state.turnsLeft ≤ 3)
    Apart.symm
    (fun _ _ _ _ _ handling _ ready =>
      ready.preserved composes.notifies handling.permitted trivial)
    opened ?_ ?_ ?_
  · obtain ⟨accounts, bounded⟩ := tracked
    refine ⟨by omega, fun used => accounts.done (by omega), fun receivingAgain => ?_⟩
    obtain ⟨count, freed, sum⟩ := accounts.freed
    have nothingOwed : (after.locals index).state.owed = 0 := by
      rw [receivingAgain]
      rfl
    rw [nothingOwed] at sum
    exact ⟨freed.trans (congrArg (List.replicate · msg.connParam) sum),
      accounts.last nothingOwed⟩
  · intro input own shared turns handling ready tracked
    obtain ⟨accounts, bounded⟩ := tracked
    obtain ⟨kept, nearer⟩ := (ready.turn handling.permitted).accounts composes accounts
      (handling.busy rfl)
    refine ⟨?_, ?_⟩
    · rw [List.flatten_append, List.flatten_singleton, ← List.append_assoc]
      exact kept
    · rw [List.length_append, List.length_singleton]
      change turns.length + 1
        + (serverCb lib input own shared).work.state.turnsLeft ≤ 3
      omega
  · intro other input acting own shared turns handling different actingReady ready apart tracked
    obtain ⟨accounts, bounded⟩ := tracked
    have sameType := actingReady.holds.other_heldType handling.permitted ready.holds apart
    refine ⟨{ accounts with waiting := fun waiting => ?_ }, bounded⟩
    exact sameType.trans (accounts.waiting waiting)
  · have type := takenOver_type permitted.delivers taken publish
    have first := ((invariant.own index).turn permitted).opens composes.notifies receiving taken
      kind type
    change Accounts _ _ (Function.update system.locals index _ index) _ _ ∧ _
    rw [Function.update_self, List.flatten_nil, List.append_nil]
    exact ⟨first, (Nat.zero_add _).trans_le (WorkState.turnsLeft_le _)⟩

/-- The parameters of a connection with a will: publish `b` to topic `w`. -/
def willParam : ConnParam :=
  { ConnParam.plain 4 with willFlag := true, willTopic := some [119], willMsg := some [98] }

/-- The event that a client with a will has gone. -/
def disconnectEvent : NngMsg :=
  {
    composePublish false 0 [100] [1] MQTT_PROTOCOL_VERSION_v311 with
    cmdType := .DISCONNECT_EV
    connParam := willParam
  }

/-- The event is delivered, then the will, and the parameters are freed twice. -/
theorem disconnectEvent_freed
    : let lib := referenceLibrary fun _ => none
      let receiving := oneContext.run (activate lib) (completions [none])
      let event := activate lib (.brings (some disconnectEvent)) (receiving.locals ())
        receiving.shared
      let handling := receiving.step (activate lib) () (.brings (some disconnectEvent))
      let schedule := completions [none, none]
      let calls := event.events ++ (handling.turns (activate lib) () schedule).flatten
      freedParams calls = [willParam, willParam]
      ∧ lastUse calls = some (.connParamFree willParam) := by
  have permits
      : oneContext.Permits (activate (referenceLibrary fun _ => none))
          (fun _ => Permitted (referenceLibrary fun _ => none)) (completions [none]) := by
    decide
  let receiving :=
    oneContext.run (activate (referenceLibrary fun _ => none)) (completions [none])
  let handling := receiving.step (activate (referenceLibrary fun _ => none)) ()
    (.brings (some disconnectEvent))
  have handles
      : handling.Permits (activate (referenceLibrary fun _ => none))
          (Handling (referenceLibrary fun _ => none) ()) (completions [none, none]) :=
    ⟨{ permitted := by decide, busy := by decide },
      { permitted := by decide, busy := by decide }, trivial⟩
  have freed := conn_params_freed oneContext_starts
    (fun _ => { packet := rfl, recipients := rfl, code := rfl })
    (referenceLibrary_composes fun _ => none) (.run _ .start (completions [none]) permits)
    (by decide) (by decide) rfl rfl (by decide) _ _
    (.run _ .start (completions [none, none]) handles)
  exact freed.2.2 (by decide)

end NanoMQ
