import NanoMQ.Broker.ConnParams

/-! What the web hook and the rule engine are told.
Both are called from several states of `server_cb`, and a flag in the context decides what
they hear. From the activation that takes over a message to the one after which the context
receives again, the reports are those of the kind of message, once each and in one order.
-/

namespace NanoMQ

open Contexts Bytes Reading

/-- A call that tells the web hook of an event, or the rule engine of a publication. -/
inductive Report where
  | hook (flag : CmdType) (reason : UInt8)
  | rules
  deriving DecidableEq, Repr

/-- A flag that is not that of an event. -/
def CmdType.Plain (flag : CmdType) : Prop :=
  flag ≠ .CONNACK ∧ flag ≠ .DISCONNECT_EV

def Effect.report : Effect → Option Report
  | .webhook flag reason => some (.hook flag reason)
  | .ruleEngineInsertSql => some .rules
  | _ => none

def reports (calls : List Effect) : List Report :=
  calls.filterMap Effect.report

/-- The receiver of a report is switched on. -/
def Conf.hears (config : Conf) : Report → Bool
  | .hook _ _ => config.webHook
  | .rules => config.ruleEngine

/-- The reports of one publication. -/
def publicationReports : List Report :=
  [.rules, .hook .PUBLISH 0]

/-- The reports that a message gives rise to. The notification of a connect or disconnect
event is itself a publication; before a will it is kept from the rule engine.
-/
def NngMsg.reportsDue (msg : NngMsg) (reason : UInt8) : List Report :=
  match msg.cmdType with
  | .PUBLISH => publicationReports
  | .CONNACK => .hook .CONNACK reason :: publicationReports
  | .DISCONNECT_EV =>
      if msg.connParam.hasWill then
        .hook .DISCONNECT_EV 0 :: .hook .PUBLISH 0 :: publicationReports
      else .hook .DISCONNECT_EV 0 :: publicationReports
  | _ => []

/-- The reports that a context in this state has yet to make for a publication. -/
def WorkState.untold : WorkState → List Report
  | .WAIT | .SEND => publicationReports
  | .END => .hook .PUBLISH 0 :: publicationReports
  | .INIT | .RECV | .HOOK | .CLOSE => []

/-- The reports that a context has yet to make, as far as someone hears them. -/
def Work.untold (work : Work) : List Report :=
  (if work.flag = .PUBLISH then work.state.untold else []).filter work.config.hears

/-- The reason code that a CONNACK is reported with: the second byte of its body. -/
def NngMsg.connackReason (msg : NngMsg) (stray : Nat → UInt8) : UInt8 :=
  { bytes := msg.body, stray : Buffer }.byteAt 1

theorem filter_reportsDue_eq_nil {msg : NngMsg} {reason : UInt8} (publish : msg.cmdType ≠ .PUBLISH)
    (plain : msg.cmdType.Plain) (closed : Prop) [Decidable closed] (config : Conf)
    : (if closed then [] else msg.reportsDue reason).filter config.hears = [] := by
  have nothing : msg.reportsDue reason = [] := by
    unfold NngMsg.reportsDue
    split
    · exact absurd ‹_› publish
    · exact absurd ‹_› plain.1
    · exact absurd ‹_› plain.2
    · rfl
  rw [nothing, ite_self]
  rfl

-- Blocks that tell nothing

section Lists

variable {effects more : List Effect}

@[simp]
theorem reports_append : reports (effects ++ more) = reports effects ++ reports more :=
  List.filterMap_append

theorem Deliveries.reports {allowed : MsgId → Prop} (deliveries : Deliveries allowed effects)
    : reports effects = [] :=
  deliveries.filterMap_eq_nil (fun _ => rfl) fun _ _ => rfl

theorem Forwards.reports (bridges : Forwards effects) : reports effects = [] :=
  bridges.filterMap_eq_nil (fun _ _ => rfl) rfl

theorem freeHeld_reports (held : Option MsgId) : reports (freeHeld held) = [] :=
  freeHeld_filterMap_eq_nil (fun _ => rfl) held

theorem Handles.reports {id : MsgId} {before after : Topic → Option RetainMsg}
    (handles : Handles id before after effects)
    : reports effects = [] := by
  obtain ⟨_, _, _, _, _, viewed⟩ :=
    handles.filterMap_eq Effect.report (fun _ => rfl) (fun _ => rfl)
  exact viewed

theorem Passes.reports {id : MsgId} (passes : Passes id effects) : reports effects = [] := by
  cases passes with
  | nothing => rfl
  | returned _ => rfl

theorem Arrives.reports {world : World} {id : MsgId} (arrives : Arrives world id effects)
    : reports effects = [] := by
  cases arrives with
  | received => rfl
  | upstream _ => rfl
  | unpacked => rfl

theorem Attaches.reports (attaches : Attaches effects) : reports effects = [] := by
  cases attaches with
  | nothing => rfl
  | will _ _ => rfl

end Lists

/-- From `s` to `t` nothing was reported, and the context goes on with the same flag. -/
structure Quiet (s t : Cb) : Prop where
  reported : reports t.trace = reports s.trace
  same
    : (t.work.flag, t.work.config, t.work.cparam) = (s.work.flag, s.work.config, s.work.cparam)

section Quiet

variable {s t u : Cb} {effect : Effect} {work : Work} {world : World} {state : WorkState}
  {id : MsgId} {change : NngMsg → NngMsg} {extra : Bool}

theorem Quiet.flag (quiet : Quiet s t) : t.work.flag = s.work.flag :=
  congrArg (·.1) quiet.same

theorem Quiet.config (quiet : Quiet s t) : t.work.config = s.work.config :=
  congrArg (·.2.1) quiet.same

theorem Quiet.param (quiet : Quiet s t) : t.work.cparam = s.work.cparam :=
  congrArg (·.2.2) quiet.same

theorem Quiet.refl (s : Cb) : Quiet s s :=
  { reported := rfl, same := rfl }

theorem Quiet.trans (first : Quiet s t) (second : Quiet t u) : Quiet s u :=
  {
    reported := second.reported.trans first.reported
    same := second.same.trans first.same
  }

theorem Quiet.emit (quiet : Quiet s t) (silent : effect.report = none)
    : Quiet s (t.emit effect) := by
  refine { quiet with reported := ?_ }
  have nothing : reports [effect] = [] := List.filterMap_cons_none silent
  rw [Cb.emit_trace, reports_append, nothing, List.append_nil, quiet.reported]

theorem Quiet.setWork (quiet : Quiet s t)
    (same
      : (work.flag, work.config, work.cparam) = (t.work.flag, t.work.config, t.work.cparam))
    : Quiet s (t.setWork work) :=
  { reported := quiet.reported, same := same.trans quiet.same }

theorem Quiet.setWorld (quiet : Quiet s t) : Quiet s (t.setWorld world) :=
  { reported := quiet.reported, same := quiet.same }

theorem Quiet.setMsg (quiet : Quiet s t) : Quiet s (t.setMsg id change) :=
  { reported := quiet.reported, same := quiet.same }

theorem Quiet.read {accesses : List Step} (quiet : Quiet s t) : Quiet s (t.read accesses) :=
  { reported := quiet.reported, same := quiet.same }

theorem Quiet.setState (quiet : Quiet s t) : Quiet s (t.setState state) :=
  quiet.setWork rfl

theorem Quiet.ctxSend (quiet : Quiet s t) : Quiet s (t.ctxSend extra id) :=
  quiet.emit rfl

theorem Quiet.of_calls {calls : List Effect} (silent : reports calls = [])
    (trace : t.trace = s.trace ++ calls)
    (same
      : (t.work.flag, t.work.config, t.work.cparam)
        = (s.work.flag, s.work.config, s.work.cparam))
    : Quiet s t :=
  { reported := by rw [trace, reports_append, silent, List.append_nil], same }

end Quiet

section Blocks

variable (lib : Library) (env : Env) (s : Cb)

theorem handlePub_quiet (proto : Nat) (id : MsgId)
    : Quiet s (handlePub lib env proto id s).2 := by
  obtain ⟨handled, msgInfos, packet, handles, trace, work, _, _⟩ :=
    handlePub_calls lib env proto id s
  exact .of_calls handles.reports trace (by rw [work])

/-- Sending to each recipient, by induction on the recipients. -/
theorem sendToEach_quiet (id : MsgId) (pipes : List Pid) : Quiet s (sendToEach id pipes s) := by
  induction pipes generalizing s with
  | nil => exact .refl s
  | cons pipe rest ih =>
      refine Quiet.trans ?_ (ih _)
      exact Quiet.ctxSend (Quiet.setMsg (Quiet.setWork (Quiet.emit (.refl s) rfl) rfl))

theorem fanOut_quiet (parser : MqttParser) : Quiet s (fanOut parser s) := by
  unfold fanOut
  split
  · exact .refl s
  · unfold encodeAndSend
    split
    · exact (Quiet.refl s).read
    · dsimp only
      split
      · refine Quiet.trans ?_ (sendToEach_quiet _ _ _)
        exact Quiet.setWork (Quiet.refl s).read.setMsg rfl
      · exact Quiet.setWork (Quiet.refl s).read.setMsg rfl

theorem forwardToBridges_quiet : Quiet s (forwardToBridges lib env s) := by
  obtain ⟨forwards, state, bridges, trace, work, _⟩ := forwardToBridges_forwarded lib env s
  exact .of_calls bridges.reports trace (by rw [work])

theorem Cb.dropMsg_quiet : Quiet s s.dropMsg :=
  .of_calls (freeHeld_reports s.work.msg) s.dropMsg_trace (by rw [Cb.dropMsg_work])

theorem finishPublication_quiet : Quiet s (finishPublication s) :=
  Quiet.emit
    (Quiet.setState (Quiet.setWork (Quiet.emit (Quiet.emit s.dropMsg_quiet rfl) rfl) rfl)) rfl

theorem passConnack_quiet (id : MsgId) : Quiet s (passConnack id s) := by
  obtain ⟨passed, passes, trace, work, _⟩ := passConnack_passes id s
  exact .of_calls passes.reports trace (by rw [work])

theorem sendRetained_quiet (clock : Nat) (pid : Pid) (msgRet : List MsgId)
    : Quiet s (sendRetained clock pid msgRet s) := by
  obtain ⟨sends, deliveries, trace, work, _⟩ := sendRetained_deliveries_of clock pid msgRet s
  exact .of_calls deliveries.reports trace (by rw [work])

theorem refuseSubscribe_quiet : Quiet s (refuseSubscribe s) :=
  Quiet.emit (Quiet.setState (Quiet.emit (.refl s) rfl)) rfl

theorem acknowledgeSubscribe_quiet (id : MsgId) (packet : TopicPacket) (msgRet : List MsgId)
    : Quiet s (acknowledgeSubscribe lib env id packet msgRet s) := by
  unfold acknowledgeSubscribe
  dsimp only
  refine Quiet.emit (Quiet.ctxSend (Quiet.setWork (Quiet.setMsg ?_) rfl)) rfl
  exact Quiet.trans (Quiet.refl s).read.setMsg (sendRetained_quiet _ _ _ _)

theorem recvSubscribe_quiet (id : MsgId) : Quiet s (recvSubscribe lib env id s) := by
  unfold recvSubscribe
  dsimp only
  generalize subCtxHandle _ _ _ _ _ = handled
  split
  · refine Quiet.trans ?_ (refuseSubscribe_quiet _)
    exact (Quiet.refl s).read.setWork rfl
  · split
    · split
      · refine Quiet.trans ?_ (refuseSubscribe_quiet _)
        exact (Quiet.refl s).read.setWorld.setWork rfl
      · refine Quiet.trans ?_ (acknowledgeSubscribe_quiet _ _ _ _ _ _)
        exact (Quiet.refl s).read.setWorld.setWork rfl
    · split
      · exact Quiet.trans (Quiet.refl s).read.setWorld (refuseSubscribe_quiet _)
      · exact Quiet.trans (Quiet.refl s).read.setWorld (acknowledgeSubscribe_quiet _ _ _ _ _ _)

theorem recvUnsubscribe_quiet (id : MsgId) : Quiet s (recvUnsubscribe lib env id s) := by
  unfold recvUnsubscribe
  dsimp only
  refine Quiet.emit (Quiet.ctxSend (Quiet.setWork (Quiet.setMsg ?_) rfl)) rfl
  exact Quiet.setWorld (Quiet.emit (.refl s) rfl).read

theorem settleDisconnect_quiet : Quiet s (settleDisconnect s) := by
  unfold settleDisconnect
  dsimp only
  split
  · exact Quiet.emit (Quiet.setState (Quiet.emit (Quiet.refl s).read.setWorld rfl)) rfl
  · refine Quiet.emit (Quiet.setState (Quiet.emit (Quiet.emit ?_ rfl) rfl)) rfl
    exact (Quiet.refl s).read.setWorld

theorem settlePublish_quiet (code : ReasonCode) : Quiet s (settlePublish lib code s) := by
  have coded : Quiet s ((s.read [.fields]).setWork { s.work with code }) :=
    (Quiet.refl s).read.setWork rfl
  unfold settlePublish
  dsimp only
  split
  · exact Quiet.ctxSend (Quiet.setState coded.setWorld)
  · exact Quiet.ctxSend (Quiet.setState coded.setWorld)
  · split
    · exact Quiet.emit coded.setState rfl
    · exact Quiet.emit coded.setState rfl
  · split
    · exact Quiet.emit coded.setState rfl
    · refine Quiet.emit (Quiet.emit (Quiet.setWork ?_ rfl) rfl) rfl
      exact Quiet.emit coded.setState rfl

end Blocks

-- The web hook

/-- The event that a flag stands for. -/
def hookOf (flag : CmdType) (reason : UInt8) : List Report :=
  match flag with
  | .CONNACK | .PUBLISH | .DISCONNECT_EV => [.hook flag reason]
  | _ => []

theorem hookOf_of_plain {flag : CmdType} (reason : UInt8)
    (plain : flag.Plain)
    : hookOf flag reason = if flag = .PUBLISH then [.hook .PUBLISH reason] else [] := by
  obtain ⟨connack, disconnect⟩ := plain
  unfold hookOf
  split
  · exact absurd rfl connack
  · rfl
  · exact absurd rfl disconnect
  · rename_i publish _
    rw [if_neg publish]

/-- The web hook is told what the flag stands for, if it is switched on. -/
theorem webhookEntry_reports (reason : UInt8) (s : Cb)
    : reports (webhookEntry reason s).trace
      = reports s.trace ++ (hookOf s.work.flag reason).filter s.work.config.hears := by
  have sameWork : (s.emit .cparamRead).work = s.work := rfl
  unfold webhookEntry
  dsimp only
  rw [sameWork]
  cases enabled : s.work.config.webHook with
  | false =>
      rw [if_neg nofun]
      cases s.work.flag <;> simp [hookOf, Conf.hears, enabled, reports, Effect.report]
  | true =>
      rw [if_pos rfl, Cb.setWork_trace]
      cases s.work.flag <;>
        simp [hookOf, Conf.hears, enabled, reports, Effect.report, List.filterMap_cons]

theorem webhookEntry_config (reason : UInt8) (s : Cb)
    : (webhookEntry reason s).work.config = s.work.config := by
  obtain ⟨_, work⟩ := webhookEntry_work reason s
  rw [work]

theorem webhookEntry_param (reason : UInt8) (s : Cb)
    : (webhookEntry reason s).work.cparam = s.work.cparam := by
  obtain ⟨_, work⟩ := webhookEntry_work reason s
  rw [work]

-- Accounts

/-- An activation from `work` to `t` for which these reports were due: what it has not made
it leaves to the next ones. The flag of an event does not outlive the activation that
reports it.
-/
structure Accounted (work : Work) (t : Cb) (due : List Report) : Prop where
  sum : reports t.trace ++ t.work.untold = due
  config : t.work.config = work.config
  plain : t.work.flag.Plain
  ending : t.work.state = .END → t.work.flag = .PUBLISH

section Untold

variable {work : Work}

theorem Work.untold_of_publish (flag : work.flag = .PUBLISH)
    : work.untold = work.state.untold.filter work.config.hears := by
  unfold Work.untold
  rw [if_pos flag]

theorem Work.untold_of_other (flag : work.flag ≠ .PUBLISH) : work.untold = [] := by
  unfold Work.untold
  rw [if_neg flag]
  rfl

theorem Work.untold_of_done (done : work.state.untold = []) : work.untold = [] := by
  unfold Work.untold
  rw [done, ite_self]
  rfl

theorem Accounted.of_other {t : Cb} (nothing : reports t.trace = [])
    (config : t.work.config = work.config) (publish : t.work.flag ≠ .PUBLISH)
    (plain : t.work.flag.Plain)
    (going : t.work.state ≠ .END)
    : Accounted work t [] :=
  {
    sum := by rw [nothing, Work.untold_of_other publish, List.nil_append]
    config
    plain
    ending := fun ending => absurd ending going
  }

theorem Accounted.of_publication {t : Cb} (told : List Report)
    (reported : reports t.trace = told.filter work.config.hears)
    (config : t.work.config = work.config) (publish : t.work.flag = .PUBLISH)
    : Accounted work t ((told ++ t.work.state.untold).filter work.config.hears) :=
  {
    sum := by
      rw [reported, Work.untold_of_publish publish, config, List.filter_append]
    config
    plain := by
      rw [publish]
      exact ⟨nofun, nofun⟩
    ending := fun _ => publish
  }

end Untold

section Recv

variable (lib : Library) (env : Env) {s : Cb} {id : MsgId} {msg : NngMsg}

theorem settlePublish_state (code : ReasonCode)
    : (settlePublish lib code s).work.state = .WAIT
      ∨ (settlePublish lib code s).work.state = .SEND
      ∨ (settlePublish lib code s).work.state = .CLOSE := by
  unfold settlePublish
  dsimp only
  have extra : ∀ t : Cb, (replyExtra lib t).work.state = .WAIT
      ∨ (replyExtra lib t).work.state = .SEND := by
    intro t
    change (if t.work.code = SUCCESS then WorkState.WAIT else .SEND) = _
      ∨ (if t.work.code = SUCCESS then WorkState.WAIT else .SEND) = _
    split
    · exact Or.inl rfl
    · exact Or.inr rfl
  split
  · exact (extra _).imp_right Or.inl
  · exact (extra _).imp_right Or.inl
  · split
    · exact Or.inl rfl
    · exact Or.inr (Or.inl rfl)
  · split
    · exact Or.inl rfl
    · exact Or.inr (Or.inr rfl)

theorem settleDisconnect_state (s : Cb)
    : (settleDisconnect s).work.state
      = if s.work.cparam.hasWill then WorkState.END else WorkState.WAIT := by
  unfold settleDisconnect
  dsimp only
  change (if s.work.cparam.hasWill then _ else _ : Cb).work.state = _
  split
  · rfl
  · rfl

theorem Cb.adopt_quiet (id : MsgId) (silent : reports s.trace = [])
    : reports (s.adopt id).trace = []
      ∧ (s.adopt id).work.config = s.work.config
      ∧ (s.adopt id).work.flag = (s.world.msgs id).cmdType := by
  refine ⟨?_, rfl, rfl⟩
  rw [Cb.adopt_trace, reports_append, silent]
  rfl

theorem Accounted.of_unreported {t : Cb} {reason : UInt8} (silent : reports s.trace = [])
    (quiet : Quiet (s.adopt id) t) (going : t.work.state ≠ .END)
    (publish : (s.world.msgs id).cmdType ≠ .PUBLISH)
    (plain : (s.world.msgs id).cmdType.Plain)
    : Accounted s.work t
        ((if t.work.state = .CLOSE then [] else (s.world.msgs id).reportsDue reason).filter
          s.work.config.hears) := by
  obtain ⟨nothing, config, flag⟩ := Cb.adopt_quiet id silent
  have sameFlag := quiet.flag.trans flag
  rw [filter_reportsDue_eq_nil publish plain]
  refine .of_other (quiet.reported.trans nothing) (quiet.config.trans config) ?_ ?_ going
  · rw [sameFlag]
    exact publish
  · rw [sameFlag]
    exact plain

/-- A PUBLISH is reported unless the connection is closed. -/
theorem recvPublish_accounted (silent : reports s.trace = [])
    (kind : (s.world.msgs id).cmdType = .PUBLISH)
    : let t := recvPublish lib env id (s.adopt id)
      Accounted s.work t
        ((if t.work.state = .CLOSE then [] else publicationReports).filter
          s.work.config.hears) := by
  intro t
  obtain ⟨nothing, config, flag⟩ := Cb.adopt_quiet id silent
  have quiet : Quiet (s.adopt id) t :=
    Quiet.trans ((Quiet.refl _).read.setMsg.trans (handlePub_quiet lib env _ _ _))
      (settlePublish_quiet lib _ _)
  have accounted := Accounted.of_publication [] (quiet.reported.trans nothing)
    (quiet.config.trans config)
    (quiet.flag.trans (flag.trans kind))
  have states : t.work.state.untold = if t.work.state = .CLOSE then [] else publicationReports := by
    have settled : t.work.state = .WAIT ∨ t.work.state = .SEND ∨ t.work.state = .CLOSE :=
      settlePublish_state lib _
    rcases settled with state | state | state
    · rw [state]
      rfl
    · rw [state]
      rfl
    · rw [state]
      rfl
  rw [List.nil_append, states] at accounted
  exact accounted

/-- A CONNACK is reported at once, and the notification of it is left to be reported. -/
theorem recvConnack_accounted (silent : reports s.trace = [])
    (kind : (s.world.msgs id).cmdType = .CONNACK)
    : Accounted s.work (recvConnack lib env id (s.adopt id))
        ((.hook .CONNACK ((s.world.msgs id).connackReason env.stray) :: publicationReports).filter
          s.work.config.hears) := by
  obtain ⟨nothing, config, flag⟩ := Cb.adopt_quiet id silent
  let reason := (s.world.msgs id).connackReason env.stray
  let passed := (passConnack id ((s.adopt id).read [.contents id])).emit .cparamRead
  have before : Quiet (s.adopt id) passed :=
    ((Quiet.refl (s.adopt id)).read.trans (passConnack_quiet _ id)).emit rfl
  let announced :=
    passed.alloc ((lib.msgNotifyConnect passed.work.cparam reason).setCmdType .PUBLISH)
  have hooked : reports (webhookEntry reason announced).trace
      = [Report.hook .CONNACK reason].filter s.work.config.hears := by
    have isFlag : announced.work.flag = .CONNACK := before.flag.trans (flag.trans kind)
    have sameConfig : announced.work.config = s.work.config := before.config.trans config
    have silentBefore : reports announced.trace = [] := before.reported.trans nothing
    rw [webhookEntry_reports, isFlag, sameConfig, silentBefore]
    rfl
  let told := ((webhookEntry reason announced).emit (.msgFree id)).setWork
    { (webhookEntry reason announced).work with
      flag := .PUBLISH, msg := some passed.world.nextMsg }
  have handled : Quiet told (recvConnack lib env id (s.adopt id)) :=
    Quiet.emit (Quiet.setState (handlePub_quiet lib env told MQTT_PROTOCOL_VERSION_v311
      passed.world.nextMsg)) rfl
  refine Accounted.of_publication [.hook .CONNACK reason] ?_ ?_ handled.flag
  · have freed : reports told.trace = reports (webhookEntry reason announced).trace :=
      (Quiet.emit (.refl _) rfl).reported
    rw [handled.reported, freed, hooked]
  · rw [handled.config]
    exact (webhookEntry_config reason announced).trans (before.config.trans config)

/-- A disconnect event is reported at once, and the notification of it, and a will, are left
to be reported.
-/
theorem recvDisconnect_accounted (silent : reports s.trace = [])
    (kind : (s.world.msgs id).cmdType = .DISCONNECT_EV)
    : Accounted s.work (recvDisconnect lib env id (s.adopt id))
        ((if (s.world.msgs id).connParam.hasWill then
            .hook .DISCONNECT_EV 0 :: .hook .PUBLISH 0 :: publicationReports
          else .hook .DISCONNECT_EV 0 :: publicationReports).filter s.work.config.hears) := by
  obtain ⟨nothing, config, flag⟩ := Cb.adopt_quiet id silent
  let hooked := webhookEntry 0 (s.adopt id)
  have reported : reports hooked.trace
      = [Report.hook .DISCONNECT_EV 0].filter s.work.config.hears := by
    rw [webhookEntry_reports, flag, kind, nothing]
    rfl
  let told := (hooked.setMsg id (·.setCmdType .PUBLISH)).setWork
    { hooked.work with flag := .PUBLISH }
  let handled := (handlePub lib env MQTT_PROTOCOL_VERSION_v311 id told).2
  have quiet : Quiet told handled := handlePub_quiet lib env told _ id
  have settled : Quiet told (recvDisconnect lib env id (s.adopt id)) :=
    quiet.trans (settleDisconnect_quiet handled)
  have param : handled.work.cparam = (s.world.msgs id).connParam :=
    quiet.param.trans (webhookEntry_param 0 (s.adopt id))
  have state : (recvDisconnect lib env id (s.adopt id)).work.state
      = if (s.world.msgs id).connParam.hasWill then .END else .WAIT := by
    rw [← param]
    exact settleDisconnect_state handled
  have accounted := Accounted.of_publication [.hook .DISCONNECT_EV 0]
    (settled.reported.trans reported)
    (settled.config.trans (webhookEntry_config 0 (s.adopt id))) settled.flag
  rw [state] at accounted
  split
  · rename_i hasWill
    rw [if_pos hasWill] at accounted
    exact accounted
  · rename_i noWill
    rw [if_neg noWill] at accounted
    exact accounted

/-- Taking over a message makes the reports that are due at once and leaves the others. -/
theorem recvMsg_accounted (contents : s.world.msgs id = msg) (silent : reports s.trace = [])
    : let t := recvMsg lib env id s
      Accounted s.work t
        ((if t.work.state = .CLOSE then [] else msg.reportsDue (msg.connackReason env.stray)).filter
          s.work.config.hears) := by
  subst contents
  unfold recvMsg
  split
  · rename_i kind
    exact .of_unreported silent (recvSubscribe_quiet lib env _ id) recvSubscribe_notEnd
      (kind ▸ nofun) (kind ▸ ⟨nofun, nofun⟩)
  · rename_i kind
    exact .of_unreported silent (recvUnsubscribe_quiet lib env _ id) nofun (kind ▸ nofun)
      (kind ▸ ⟨nofun, nofun⟩)
  · rename_i kind
    have accounted := recvPublish_accounted lib env silent kind
    unfold NngMsg.reportsDue
    rw [kind]
    exact accounted
  · rename_i kind
    have accounted := recvConnack_accounted lib env silent kind
    unfold NngMsg.reportsDue
    rw [kind]
    exact accounted
  · rename_i kind
    have accounted := recvDisconnect_accounted lib env silent kind
    have goesOn : (recvDisconnect lib env id (s.adopt id)).work.state ≠ .CLOSE := by
      unfold recvDisconnect
      rw [settleDisconnect_state]
      split <;> exact nofun
    unfold NngMsg.reportsDue
    dsimp only
    rw [kind, if_neg goesOn]
    exact accounted
  · rename_i subscribe unsubscribe publish connack disconnect
    exact .of_unreported silent (Quiet.emit (Quiet.setState (.refl _)) rfl) nofun publish
      ⟨connack, disconnect⟩

end Recv

-- The other states

section OtherStates

variable {lib : Library} {env : Env} {work : Work} {world : World}

theorem waitState_accounted (waiting : work.state = .WAIT)
    (plain : work.flag.Plain)
    (publish : work.untold ≠ [] → Cb.heldType { work, world, trace := [] } = PUBLISH)
    (alive : .fatal ∉ (waitState lib env { work, world, trace := [] }).trace)
    : Accounted work (waitState lib env { work, world, trace := [] }) work.untold := by
  let start : Cb := { work, world, trace := [] }
  revert alive
  unfold waitState
  split
  · split
    · exact fun alive => absurd (List.mem_append_right _ List.mem_cons_self) alive
    · intro _
      have delivered : Quiet start (forwardToBridges lib env (fanOut lib.parser start.look)) :=
        ((Quiet.refl start).read.trans (fanOut_quiet _ lib.parser)).trans
          (forwardToBridges_quiet lib env _)
      dsimp only
      change Quiet _ (forwardToBridges lib env
        (fanOut lib.parser (Cb.look { work, world, trace := [] }))) at delivered
      generalize forwardToBridges lib env
        (fanOut lib.parser (Cb.look { work, world, trace := [] })) = t at delivered ⊢
      have sameConfig : t.work.config = work.config := delivered.config
      have sameFlag : t.work.flag = work.flag := delivered.flag
      rw [sameConfig]
      split
      · have sent : Quiet start ((t.setState .SEND).emit .aioFinish) :=
          Quiet.emit delivered.setState rfl
        refine { sum := ?_, config := sent.config, plain := ?_, ending := nofun }
        · rw [sent.reported]
          unfold Work.untold
          rw [sent.flag, sent.config, waiting]
          rfl
        · rw [sent.flag]
          exact plain
      · rename_i deaf
        have finished : Quiet start (finishPublication t) :=
          delivered.trans (finishPublication_quiet t)
        have state : (finishPublication t).work.state = .RECV := by
          rw [finishPublication_work]
        have unheard : ∀ report, work.config.hears report = false := by
          obtain ⟨noHook, noRules⟩ := Bool.or_eq_false_iff.mp (Bool.not_eq_true _ ▸ deaf)
          intro report
          cases report with
          | hook _ _ => exact noHook
          | rules => exact noRules
        refine { sum := ?_, config := finished.config, plain := ?_, ending := ?_ }
        · rw [finished.reported, Work.untold_of_done (by rw [state]; rfl)]
          unfold Work.untold
          rw [List.filter_eq_nil_iff.mpr fun report _ => Bool.eq_false_iff.mp (unheard report)]
          rfl
        · rw [finished.flag]
          exact plain
        · rw [state]
          exact nofun
  · rename_i other
    intro _
    have dropped : Quiet start ((start.look.dropMsg.setState .RECV).emit (.ctxRecv false)) :=
      ((Quiet.refl start).read.trans (Cb.dropMsg_quiet start.look)).setState.emit rfl
    have nothingLeft : work.untold = [] := by_contra fun left => other (publish left)
    refine { sum := ?_, config := dropped.config, plain := ?_, ending := nofun }
    · rw [dropped.reported, nothingLeft, Work.untold_of_done rfl]
      rfl
    · rw [dropped.flag]
      exact plain

/-- SEND makes the reports of the publication. -/
theorem sendState_accounted (sending : work.state = .SEND)
    (plain : work.flag.Plain)
    (alive : .fatal ∉ (sendState env { work, world, trace := [] }).trace)
    : Accounted work (sendState env { work, world, trace := [] }) work.untold := by
  obtain ⟨told, isTold, toldReports, toldWork⟩
      : ∃ told,
          (if work.flag = .PUBLISH ∧ work.config.ruleEngine then
              (Cb.read { work, world, trace := [] } [.fields]).emit .ruleEngineInsertSql
            else Cb.read { work, world, trace := [] } [.fields])
            = told
          ∧ reports told.trace
            = (if work.flag = .PUBLISH then [Report.rules] else []).filter work.config.hears
          ∧ told.work = work := by
    refine ⟨_, rfl, ?_, ?_⟩
    · by_cases flag : work.flag = .PUBLISH
      · rw [if_pos flag]
        cases enabled : work.config.ruleEngine with
        | true => simp [flag, reports, Effect.report, Conf.hears, enabled, Cb.read]
        | false => simp [flag, reports, Conf.hears, enabled, Cb.read]
      · simp [flag, reports, Cb.read]
    · split
      · rfl
      · rfl
  have hooked : reports (webhookEntry 0 told).trace = work.untold := by
    rw [webhookEntry_reports, toldReports, toldWork, hookOf_of_plain 0 plain,
      ← List.filter_append]
    unfold Work.untold
    rw [sending]
    split
    · rfl
    · rfl
  have sameConfig : (webhookEntry 0 told).work.config = work.config := by
    rw [webhookEntry_config, toldWork]
  revert alive
  unfold sendState
  dsimp only
  rw [isTold]
  have dropped := Cb.dropMsg_quiet (webhookEntry 0 told)
  generalize (webhookEntry 0 told).dropMsg = t at dropped ⊢
  split
  · exact fun alive => absurd (List.mem_append_right _ List.mem_cons_self) alive
  · intro _
    have cleared
        : Quiet (webhookEntry 0 told)
            (if t.work.pubPacket.isSome = true then t.clearPublication else t) := by
      split
      · exact Quiet.setWork (Quiet.emit dropped rfl) rfl
      · exact dropped
    have freed := Quiet.emit cleared
      (show Effect.report (.connParamFree
        (if t.work.pubPacket.isSome = true then t.clearPublication else t).work.cparam) = none
        from rfl)
    refine { sum := ?_, config := ?_, plain := ⟨nofun, nofun⟩, ending := nofun }
    · rw [Work.untold_of_done rfl, List.append_nil, ← hooked, ← freed.reported]
      exact (Quiet.emit (.refl _) rfl).reported
    · exact freed.config.trans sameConfig

theorem publishWill_reports (lib : Library) (env : Env) (s : Cb)
    : reports (publishWill lib env s).trace = reports s.trace
      ∧ (publishWill lib env s).work.flag = .PUBLISH
      ∧ (publishWill lib env s).work.config = s.work.config
      ∧ (publishWill lib env s).work.state = .WAIT := by
  obtain ⟨handled, attached, msgInfos, packet, will, handles, attaches, trace, work, _⟩ :=
    publishWill_calls lib env s
  have read : reports [Effect.cparamRead] = [] := rfl
  have finish : reports [Effect.aioFinish] = [] := rfl
  refine ⟨?_, ?_, ?_, ?_⟩
  · rw [trace, ← List.singleton_append]
    simp only [reports_append, handles.reports, attaches.reports, read, finish, List.append_nil]
  · rw [work]
  · rw [work]
  · rw [work]

/-- END reports the notification and leaves the will to be reported. -/
theorem endState_accounted (ending : work.state = .END) (publishing : work.flag = .PUBLISH)
    (publish : Cb.heldType { work, world, trace := [] } = PUBLISH) (flagged : work.cparam.willFlag)
    (alive : .fatal ∉ (endState lib env { work, world, trace := [] }).trace)
    : Accounted work (endState lib env { work, world, trace := [] }) work.untold := by
  let start : Cb := { work, world, trace := [] }
  let delivered := fanOut lib.parser start.look
  have quiet : Quiet start delivered :=
    (Quiet.refl start).read.trans (fanOut_quiet _ lib.parser)
  have hooked : reports (webhookEntry 0 delivered).trace
      = [Report.hook .PUBLISH 0].filter work.config.hears := by
    have isFlag : delivered.work.flag = .PUBLISH := quiet.flag.trans publishing
    have sameConfig : delivered.work.config = work.config := quiet.config
    have silent : reports delivered.trace = [] := quiet.reported
    rw [webhookEntry_reports, isFlag, sameConfig, silent]
    rfl
  let cleared := (webhookEntry 0 delivered).dropMsg.clearPublication.emit .cparamRead
  have forgotten : Quiet (webhookEntry 0 delivered) cleared :=
    Quiet.emit (Quiet.setWork (Quiet.emit (Cb.dropMsg_quiet _) rfl) rfl) rfl
  have param : cleared.work.cparam = work.cparam :=
    forgotten.param.trans ((webhookEntry_param 0 delivered).trans quiet.param)
  have sameConfig : cleared.work.config = work.config :=
    forgotten.config.trans ((webhookEntry_config 0 delivered).trans quiet.config)
  revert alive
  unfold endState
  rw [if_pos publish]
  split
  · exact fun alive => absurd (List.mem_append_right _ List.mem_cons_self) alive
  · intro _
    dsimp only
    have hasWill : cleared.work.cparam.willFlag = true := param ▸ flagged
    rw [if_pos hasWill]
    obtain ⟨reported, flag, config, state⟩ := publishWill_reports lib env cleared
    have freed : Quiet (publishWill lib env cleared) ((publishWill lib env cleared).emit
        (.connParamFree (publishWill lib env cleared).work.cparam)) :=
      Quiet.emit (.refl _) rfl
    have accounted := Accounted.of_publication [.hook .PUBLISH 0]
      (freed.reported.trans (reported.trans (forgotten.reported.trans hooked)))
      (freed.config.trans (config.trans sameConfig)) (freed.flag.trans flag)
    have stateAfter : ((publishWill lib env cleared).emit
        (.connParamFree (publishWill lib env cleared).work.cparam)).work.state = .WAIT := state
    rw [stateAfter] at accounted
    rw [Work.untold_of_publish publishing, ending]
    exact accounted

theorem closeState_accounted (closing : work.state = .CLOSE)
    (plain : work.flag.Plain)
    : Accounted work (closeState lib { work, world, trace := [] }) work.untold := by
  let start : Cb := { work, world, trace := [] }
  have quiet : Quiet start (closeState lib start) := by
    unfold closeState
    dsimp only
    refine Quiet.emit (Quiet.setWork (Quiet.ctxSend (Quiet.read (Quiet.setWork ?_ rfl))) rfl) rfl
    exact Quiet.trans (Quiet.refl start).read.setWorld (Cb.dropMsg_quiet _)
  refine { sum := ?_, config := quiet.config, plain := ?_, ending := nofun }
  · rw [quiet.reported, Work.untold_of_done rfl, Work.untold_of_done (by rw [closing]; rfl)]
    rfl
  · rw [quiet.flag]
    exact plain

/-- A context that handles a message, with the flag and the messages that go with its state. -/
structure Reporting (work : Work) (world : World) : Prop where
  begun : work.state ≠ .INIT
  plain : work.flag.Plain
  waiting
    : work.state = .WAIT
      → work.untold ≠ []
      → Cb.heldType { work, world, trace := [] } = PUBLISH
  ending : work.state = .END → work.flag = .PUBLISH ∧ work.cparam.willFlag

/-- One more activation makes some of the reports and leaves the others. Witness: one case for
each state.
-/
theorem Reporting.accounted (reporting : Reporting work world) (ready : Ready work world)
    (permitted : Permitted lib env work world) (busy : work.state ≠ .RECV)
    : Accounted work (serverCb lib env work world) work.untold := by
  have alive := permitted.alive
  revert alive
  unfold serverCb
  dsimp only
  cases state : work.state with
  | INIT => exact absurd state reporting.begun
  | RECV => exact absurd state busy
  | WAIT => exact waitState_accounted state reporting.plain (reporting.waiting state)
  | SEND => exact sendState_accounted state reporting.plain
  | HOOK => exact fun alive => absurd List.mem_cons_self alive
  | END =>
      obtain ⟨publishing, flagged⟩ := reporting.ending state
      exact endState_accounted state publishing (ready.holds.fits.ending state).2 flagged
  | CLOSE => exact fun _ => closeState_accounted state reporting.plain

theorem Reporting.of_state {t : Cb} (plain : t.work.flag.Plain)
    (state : t.work.state = .RECV ∨ t.work.state = .SEND ∨ t.work.state = .CLOSE)
    : Reporting t.work t.world := by
  rcases state with state | state | state
  all_goals exact {
    begun := fun init => nomatch state.symm.trans init
    plain
    waiting := fun waiting => nomatch state.symm.trans waiting
    ending := fun ending => nomatch state.symm.trans ending
  }

theorem Reporting.of_waiting {t : Cb}
    (plain : t.work.flag.Plain)
    (state : t.work.state = .WAIT) (publish : t.work.untold ≠ [] → t.heldType = PUBLISH)
    : Reporting t.work t.world :=
  {
    begun := fun init => nomatch state.symm.trans init
    plain
    waiting := fun _ => publish
    ending := fun ending => nomatch state.symm.trans ending
  }

theorem Turn.reporting {t : Cb} {due : List Report} (composes : lib.ComposesPublish)
    (reporting : Reporting work world) (busy : work.state ≠ .RECV)
    (accounted : Accounted work t due) (turn : Turn lib env work world t)
    : Reporting t.work t.world := by
  have plain := accounted.plain
  cases turn with
  | idle _ state _ _ _ =>
      rcases state with init | ⟨receiving, _⟩
      · exact absurd init reporting.begun
      · exact absurd receiving busy
  | dropped _ state _ _ _ _ => exact absurd state busy
  | rejected _ _ state _ _ _ _ _ _ _ => exact absurd state busy
  | takes state _ _ _ _ _ _ _ => exact absurd state busy
  | delivered _ _ _ _ _ _ leaves _ => exact .of_state plain (Or.inr (Or.inl leaves.entered))
  | finished _ _ _ _ _ _ _ leaves _ => exact .of_state plain (Or.inl leaves.entered)
  | nothingToDo _ _ _ leaves _ => exact .of_state plain (Or.inl leaves.entered)
  | sent _ _ _ _ _ leaves _ => exact .of_state plain (Or.inl leaves.entered)
  | willPublished _ _ _ _ _ _ _ _ leaves composed type _ =>
      obtain ⟨retain, qos, payload, topic, protover, clock, rfl⟩ := composed
      exact .of_waiting plain leaves.entered fun _ => type.trans (composes.wills _ _ _ _ _ _)
  | ended _ _ _ _ _ _ _ leaves _ => exact .of_state plain (Or.inl leaves.entered)
  | closed _ _ _ leaves _ _ => exact .of_state plain (Or.inl leaves.entered)

theorem TakesOver.reporting {t : Cb} {arrived : World} {id : MsgId} {msg : NngMsg}
    {calls : List Effect} {due : List Report} (notifies : lib.NotifiesPublish)
    (type : msg.cmdType = .PUBLISH ∨ msg.cmdType = .DISCONNECT_EV → msg.type = PUBLISH)
    (accounted : Accounted work t due)
    (unreported : msg.cmdType ≠ .PUBLISH → msg.cmdType.Plain → due = [])
    (takes : TakesOver lib env work arrived id msg t calls)
    : Reporting t.work t.world := by
  have plain := accounted.plain
  cases takes with
  | refusedSubscribe _ leaves _ => exact .of_state plain (Or.inr (Or.inr leaves.entered))
  | subscribed _ _ _ leaves _ => exact .of_state plain (Or.inr (Or.inl leaves.entered))
  | unsubscribed _ _ leaves _ => exact .of_state plain (Or.inr (Or.inl leaves.entered))
  | published kind goesOn _ _ leaves heldType _ =>
      rcases goesOn with rfl | rfl
      · exact .of_waiting plain leaves.entered fun _ => heldType.trans (type (Or.inl kind))
      · exact .of_state plain (Or.inr (Or.inl leaves.entered))
  | refusedPublish _ _ leaves _ => exact .of_state plain (Or.inr (Or.inr leaves.entered))
  | connected _ _ _ _ leaves heldType _ =>
      exact .of_waiting plain leaves.entered fun _ => heldType.trans (notifies _ _)
  | disconnected kind _ _ leaves heldType _ =>
      exact .of_waiting plain leaves.entered fun _ => heldType.trans (type (Or.inr kind))
  | willLeft _ hasWill _ _ leaves _ _ =>
      have state : t.work.state = .END := leaves.entered
      unfold ConnParam.hasWill at hasWill
      simp only [Bool.and_eq_true] at hasWill
      exact {
        begun := fun init => nomatch state.symm.trans init
        plain
        waiting := fun waiting => nomatch state.symm.trans waiting
        ending := fun _ => ⟨accounted.ending state, leaves.param ▸ hasWill.1.1⟩
      }
  | ignored _ _ notPublish notConnack notEvent leaves _ _ =>
      refine .of_waiting plain leaves.entered fun left => absurd ?_ left
      have nothing := accounted.sum.trans (unreported notPublish ⟨notConnack, notEvent⟩)
      exact (List.append_eq_nil_iff.mp nothing).2

end OtherStates

-- From one message to the next

section Opening

variable {lib : Library} {env : Env} {work : Work} {world : World} {msg : NngMsg}

/-- The reports of a message in this context: none when the connection is closed in answer. -/
def reportsOf (lib : Library) (env : Env) (work : Work) (world : World) (msg : NngMsg)
    : List Report :=
  (if (serverCb lib env work world).work.state = .CLOSE then []
    else msg.reportsDue (msg.connackReason env.stray)).filter work.config.hears

theorem takenOver_accounted (world : World) (receiving : work.state = .RECV)
    (taken : takenOver lib env work = some msg)
    : Accounted work (serverCb lib env work world) (reportsOf lib env work world msg) := by
  obtain ⟨id, s, obtained, isRecv⟩ :=
    (recvState_receives lib env work world).of_taken lib env taken
  have accounted := recvMsg_accounted lib env obtained.contents obtained.arrives.reports
  unfold reportsOf
  rw [serverCb_of_recv receiving, isRecv]
  rw [obtained.same] at accounted
  exact accounted

theorem Turn.opensReporting {t : Cb} (notifies : lib.NotifiesPublish)
    (receiving : work.state = .RECV) (taken : takenOver lib env work = some msg)
    (type : msg.cmdType = .PUBLISH ∨ msg.cmdType = .DISCONNECT_EV → msg.type = PUBLISH)
    (accounted : Accounted work t (reportsOf lib env work world msg))
    (turn : Turn lib env work world t)
    : Reporting t.work t.world := by
  obtain ⟨_, _, _, _, _, _, takes, _⟩ := turn.of_taken receiving taken
  exact takes.reporting notifies type accounted fun publish plain =>
    filter_reportsDue_eq_nil publish plain _ _

end Opening

/-- For one received message the web hook and the rule engine are told what its kind gives
rise to, once each and in this order, as far as they are switched on: however the contexts
are interleaved, in every role and whatever can be decoded. A message that closes its
connection is not reported at all. Witness: the account of the message along the activations
of its context.
-/
theorem received_message_reported {Index : Type} [DecidableEq Index] {lib : Library}
    {first system : System Index Work World} {history : List Effect} {index : Index}
    {env : Env} {msg : NngMsg} (starts : Starts first)
    (fresh : ∀ index, (first.locals index).Fresh) (composes : lib.ComposesPublish)
    (reached : Reach (activate lib) (fun _ => Permitted lib) first system history)
    (receiving : (system.locals index).state = .RECV)
    (permitted : Permitted lib env (system.locals index) system.shared)
    (taken : takenOver lib env (system.locals index) = some msg)
    (publish
      : (system.locals index).proto = .MQTT_BROKER
        → msg.cmdType = .PUBLISH
        → msg.type = PUBLISH)
    : ∀ after turns,
        Follows (activate lib) (Handling lib index) index
          (system.step (activate lib) index env) after turns
        → (after.locals index).state = .RECV
        → reports
              ((activate lib env (system.locals index) system.shared).events ++ turns.flatten)
          = reportsOf lib env (system.locals index) system.shared msg := by
  intro after turns followed receivingAgain
  have invariant := starts.reachable_ready fresh composes.notifies reached
  have opened := invariant.step Apart.symm index env
    ((invariant.own index).preserved composes.notifies permitted trivial)
  have tracked := followed.track
    (fun own shared turns =>
      Reporting own shared
      ∧ reports
            ((activate lib env (system.locals index) system.shared).events ++ turns.flatten)
          ++ own.untold
        = reportsOf lib env (system.locals index) system.shared msg)
    Apart.symm
    (fun _ _ _ _ _ handling _ ready =>
      ready.preserved composes.notifies handling.permitted trivial)
    opened ?_ ?_ ?_
  · obtain ⟨_, sum⟩ := tracked
    rw [Work.untold_of_done (by rw [receivingAgain]; rfl), List.append_nil] at sum
    exact sum
  · intro input own shared turns handling ready tracked
    obtain ⟨reporting, sum⟩ := tracked
    have accounted := reporting.accounted ready handling.permitted (handling.busy rfl)
    refine ⟨?_, ?_⟩
    · exact (ready.turn handling.permitted).reporting composes reporting (handling.busy rfl)
        accounted
    · rw [List.flatten_append, List.flatten_singleton, ← List.append_assoc, reports_append,
        List.append_assoc]
      exact (congrArg _ accounted.sum).trans sum
  · intro other input acting own shared turns handling different actingReady ready apart tracked
    obtain ⟨reporting, sum⟩ := tracked
    have sameType := actingReady.holds.other_heldType handling.permitted ready.holds apart
    refine ⟨{ reporting with waiting := fun waiting left => ?_ }, sum⟩
    exact sameType.trans (reporting.waiting waiting left)
  · have type := takenOver_type permitted.delivers taken publish
    have accounted := takenOver_accounted system.shared receiving taken
    have reporting := ((invariant.own index).turn permitted).opensReporting composes.notifies
      receiving taken type accounted
    change Reporting (Function.update system.locals index _ index) _ ∧ _
    rw [Function.update_self, List.flatten_nil, List.append_nil]
    refine ⟨reporting, ?_⟩
    change _ ++ (Function.update system.locals index _ index).untold = _
    rw [Function.update_self]
    exact accounted.sum

/-- A broker with one context, with web hook and rule engine. -/
def reportingContext : System Unit Work World :=
  {
    locals := fun _ =>
      {
        Work.idle .MQTT_BROKER with
        config := { (Work.idle .MQTT_BROKER).config with webHook := true, ruleEngine := true }
      }
    shared := .empty
  }

/-- The web hook is told of the event, of its notification and of the will, the rule engine of
the will.
-/
theorem disconnectEvent_reported
    : let lib := referenceLibrary fun _ => none
      let receiving := reportingContext.run (activate lib) (completions [none])
      let event := activate lib (.brings (some disconnectEvent)) (receiving.locals ())
        receiving.shared
      let handling := receiving.step (activate lib) () (.brings (some disconnectEvent))
      let schedule := completions [none, none, none]
      reports (event.events ++ (handling.turns (activate lib) () schedule).flatten)
      = [.hook .DISCONNECT_EV 0, .hook .PUBLISH 0, .rules, .hook .PUBLISH 0] := by
  have starts : Starts reportingContext :=
    {
      init := fun _ => rfl
      idle := fun _ => rfl
      aliases := fun _ _ => rfl
      retained := fun _ => rfl
    }
  have permits
      : reportingContext.Permits (activate (referenceLibrary fun _ => none))
          (fun _ => Permitted (referenceLibrary fun _ => none)) (completions [none]) := by
    decide
  let receiving :=
    reportingContext.run (activate (referenceLibrary fun _ => none)) (completions [none])
  let handling := receiving.step (activate (referenceLibrary fun _ => none)) ()
    (.brings (some disconnectEvent))
  have handles
      : handling.Permits (activate (referenceLibrary fun _ => none))
          (Handling (referenceLibrary fun _ => none) ()) (completions [none, none, none]) :=
    ⟨{ permitted := by decide, busy := by decide },
      { permitted := by decide, busy := by decide },
      { permitted := by decide, busy := by decide }, trivial⟩
  have reported := received_message_reported starts
    (fun _ => { packet := rfl, recipients := rfl, code := rfl })
    (referenceLibrary_composes fun _ => none) (.run _ .start (completions [none]) permits)
    (by decide) (by decide) rfl (by decide) _ _
    (.run _ .start (completions [none, none, none]) handles) (by decide)
  exact reported.trans (by decide)

end NanoMQ
