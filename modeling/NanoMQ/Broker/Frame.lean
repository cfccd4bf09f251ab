import NanoMQ.Library.Contexts
import NanoMQ.Broker.ServerCb

/-! What the blocks of `server_cb` leave alone, and which calls they make. -/

namespace NanoMQ

open Contexts

/-- The calls by what they mean for the context: `arm` arranges the next completion of
`work->aio`, `delivery` sends on the broker's own context. The kind `storing` has no call;
it stands for a change of the subscription stores.
-/
inductive EffectKind where
  | arm
  | fatal
  | delivery
  | handling
  | other
  | storing
  deriving DecidableEq, Repr

def Effect.kind : Effect → EffectKind
  | .ctxRecv _ | .aioFinish | .ctxSend true _ _ => .arm
  | .fatal => .fatal
  | .ctxSend false _ _ => .delivery
  | .handlePub _ _ _ _ _ | .willProperties _ _ => .handling
  | _ => .other

/-- From one point of an activation to a later one: the role stays, the context holds the
message it held before or one in `mine`, other messages change at most their pipe, and only
calls of these kinds are made. Without `handling` the aliases and the retained messages
stay, without `storing` the subscriptions.
-/
structure Frame (mine : MsgId → Prop) (kinds : List EffectKind) (s t : Cb) : Prop where
  proto : t.work.proto = s.work.proto
  held
    : ∀ id,
        t.work.msg = some id
        → s.work.msg = some id ∨ (mine id ∧ id < t.world.nextMsg)
  next : s.world.nextMsg ≤ t.world.nextMsg
  msgs : ∀ id, ¬mine id → ∃ pipe, t.world.msgs id = (s.world.msgs id).setPipe pipe
  databases
    : .handling ∉ kinds
      → t.world.aliases = s.world.aliases ∧ t.world.retained = s.world.retained
  stores : .storing ∉ kinds → t.world.stores = s.world.stores
  trace : Grows (fun effect => effect.kind ∈ kinds) s.trace t.trace

section Compose

variable {mine : MsgId → Prop} {kinds : List EffectKind} {s t u : Cb}

theorem Frame.refl (s : Cb) : Frame mine kinds s s :=
  {
    proto := rfl
    held := fun _ => Or.inl
    next := Nat.le_refl _
    msgs := fun id _ => ⟨(s.world.msgs id).pipe, rfl⟩
    databases := fun _ => ⟨rfl, rfl⟩
    stores := fun _ => rfl
    trace := .refl _
  }

theorem Frame.trans (first : Frame mine kinds s t) (second : Frame mine kinds t u)
    : Frame mine kinds s u := by
  refine {
      proto := second.proto.trans first.proto
      held := ?_
      next := Nat.le_trans first.next second.next
      msgs := ?_
      databases := ?_
      stores := fun quiet => (second.stores quiet).trans (first.stores quiet)
      trace := first.trace.trans second.trace
    }
  · intro id heldLast
    rcases second.held id heldLast with heldMiddle | taken
    · rcases first.held id heldMiddle with heldFirst | ⟨isMine, known⟩
      · exact Or.inl heldFirst
      · exact Or.inr ⟨isMine, Nat.lt_of_lt_of_le known second.next⟩
    · exact Or.inr taken
  · intro id notMine
    obtain ⟨_, kept⟩ := first.msgs id notMine
    obtain ⟨pipe, keptAgain⟩ := second.msgs id notMine
    exact ⟨pipe, by rw [keptAgain, kept]; rfl⟩
  · intro quiet
    obtain ⟨aliases, retained⟩ := first.databases quiet
    obtain ⟨aliasesAgain, retainedAgain⟩ := second.databases quiet
    exact ⟨aliasesAgain.trans aliases, retainedAgain.trans retained⟩

theorem Frame.widen {wider : MsgId → Prop} {more : List EffectKind}
    (frame : Frame mine kinds s t) (owned : ∀ id, mine id → wider id)
    (subset : kinds ⊆ more)
    : Frame wider more s t :=
  {
    proto := frame.proto
    held := fun id isHeld =>
      (frame.held id isHeld).imp_right fun taken => ⟨owned id taken.1, taken.2⟩
    next := frame.next
    msgs := fun id notMine => frame.msgs id fun isMine => notMine (owned id isMine)
    databases := fun quiet => frame.databases fun handling => quiet (subset handling)
    stores := fun quiet => frame.stores fun storing => quiet (subset storing)
    trace := frame.trace.mono fun _ member => subset member
  }

theorem Frame.also {more : List EffectKind} (frame : Frame mine kinds s t)
    (subset : kinds ⊆ more)
    : Frame mine more s t :=
  frame.widen (fun _ => id) subset

theorem Frame.emit (frame : Frame mine kinds s t) (effect : Effect)
    (permitted : effect.kind ∈ kinds)
    : Frame mine kinds s (t.emit effect) :=
  { frame with trace := frame.trace.snoc permitted }

theorem Frame.read (frame : Frame mine kinds s t) (accesses : List Step)
    : Frame mine kinds s (t.read accesses) :=
  { frame with }

theorem Frame.setWork (frame : Frame mine kinds s t) {work : Work}
    (sameProto : work.proto = t.work.proto) (sameMsg : work.msg = t.work.msg)
    : Frame mine kinds s (t.setWork work) :=
  {
    frame with
    proto := sameProto.trans frame.proto
    held := fun id isHeld => frame.held id (sameMsg.symm.trans isHeld)
  }

theorem Frame.forget (frame : Frame mine kinds s t) {work : Work}
    (sameProto : work.proto = t.work.proto) (noMsg : work.msg = none)
    : Frame mine kinds s (t.setWork work) :=
  {
    frame with
    proto := sameProto.trans frame.proto
    held := fun _ isHeld => nomatch noMsg.symm.trans isHeld
  }

theorem Frame.take (frame : Frame mine kinds s t) {work : Work} {id : MsgId}
    (isMine : mine id) (known : id < t.world.nextMsg)
    (sameProto : work.proto = t.work.proto) (msg : work.msg = some id)
    : Frame mine kinds s (t.setWork work) := by
  refine { frame with proto := sameProto.trans frame.proto, held := ?_ }
  intro other isHeld
  obtain rfl : id = other := Option.some.inj (msg.symm.trans isHeld)
  exact Or.inr ⟨isMine, known⟩

theorem Frame.setState (frame : Frame mine kinds s t) (state : WorkState)
    : Frame mine kinds s (t.setState state) :=
  frame.setWork rfl rfl

theorem Frame.setStores (frame : Frame mine kinds s t) (storing : .storing ∈ kinds)
    (stores : Stores)
    : Frame mine kinds s (t.setWorld { t.world with stores }) :=
  { frame with stores := fun quiet => absurd storing quiet }

theorem Frame.setDatabases (frame : Frame mine kinds s t) {world : World}
    (handling : .handling ∈ kinds) (next : world.nextMsg = t.world.nextMsg)
    (msgs : world.msgs = t.world.msgs) (stores : world.stores = t.world.stores)
    : Frame mine kinds s (t.setWorld world) :=
  {
    frame with
    held := fun id isHeld =>
      (frame.held id isHeld).imp_right fun taken => ⟨taken.1, taken.2.trans_eq next.symm⟩
    next := frame.next.trans_eq next.symm
    msgs := fun id notMine => by
      obtain ⟨pipe, kept⟩ := frame.msgs id notMine
      exact ⟨pipe, (congrFun msgs id).trans kept⟩
    databases := fun quiet => absurd handling quiet
    stores := fun quiet => stores.trans (frame.stores quiet)
  }

theorem World.setMsg_of_ne (world : World) {id other : MsgId} (change : NngMsg → NngMsg)
    (different : other ≠ id)
    : (world.setMsg id change).msgs other = world.msgs other :=
  Function.update_of_ne different _ _

@[simp]
theorem Cb.setMsg_self (s : Cb) (id : MsgId) (change : NngMsg → NngMsg)
    : (s.setMsg id change).world.msgs id = change (s.world.msgs id) :=
  Function.update_self _ _ _

@[simp]
theorem Cb.alloc_self (s : Cb) (msg : NngMsg)
    : (s.alloc msg).world.msgs s.world.nextMsg = msg :=
  Function.update_self _ _ _

@[simp]
theorem Cb.received_self (work : Work) (world : World) (msg : NngMsg)
    : (Cb.received work world msg).world.msgs world.nextMsg = msg :=
  Function.update_self _ _ _

theorem Frame.setMsg (frame : Frame mine kinds s t) {id : MsgId}
    (change : NngMsg → NngMsg) (isMine : mine id)
    : Frame mine kinds s (t.setMsg id change) := by
  refine { frame with msgs := ?_ }
  intro other notMine
  have different : other ≠ id := by
    rintro rfl
    exact notMine isMine
  obtain ⟨pipe, kept⟩ := frame.msgs other notMine
  exact ⟨pipe, (World.setMsg_of_ne _ _ different).trans kept⟩

theorem Frame.setPipe (frame : Frame mine kinds s t) (id : MsgId) (pipe : Pid)
    : Frame mine kinds s (t.setMsg id (·.setPipe pipe)) := by
  refine { frame with msgs := ?_ }
  intro other notMine
  obtain ⟨old, kept⟩ := frame.msgs other notMine
  rcases eq_or_ne other id with rfl | different
  · refine ⟨pipe, ?_⟩
    rw [Cb.setMsg_self, kept]
    rfl
  · refine ⟨old, ?_⟩
    change (t.world.setMsg id (·.setPipe pipe)).msgs other = _
    rw [World.setMsg_of_ne _ _ different, kept]

theorem Frame.alloc (frame : Frame mine kinds s t) (msg : NngMsg)
    (fresh : ∀ id, s.world.nextMsg ≤ id → mine id)
    : Frame mine kinds s (t.alloc msg) := by
  refine {
      frame with
      held := fun id isHeld =>
        (frame.held id isHeld).imp_right fun taken => ⟨taken.1, Nat.lt_succ_of_lt taken.2⟩
      next := Nat.le_succ_of_le frame.next
      msgs := ?_
    }
  intro other notMine
  have different : other ≠ t.world.nextMsg := by
    rintro rfl
    exact notMine (fresh _ frame.next)
  obtain ⟨pipe, kept⟩ := frame.msgs other notMine
  exact ⟨pipe, (Function.update_of_ne different _ _).trans kept⟩

end Compose

-- Blocks

section Blocks

variable {mine : MsgId → Prop} {kinds : List EffectKind} {s t : Cb}

theorem Frame.dropMsg (frame : Frame mine kinds s t) (other : .other ∈ kinds)
    : Frame mine kinds s t.dropMsg := by
  unfold Cb.dropMsg
  split
  · exact frame
  · exact (frame.emit (.msgFree _) other).forget (by rfl) (by rfl)

@[simp]
theorem Cb.dropMsg_world (s : Cb) : s.dropMsg.world = s.world := by
  unfold Cb.dropMsg
  split <;> rfl

theorem Cb.dropMsg_msg (s : Cb) : s.dropMsg.work.msg = none := by
  unfold Cb.dropMsg
  split
  · assumption
  · rfl

theorem Frame.clearPublication (frame : Frame mine kinds s t) (other : .other ∈ kinds)
    : Frame mine kinds s t.clearPublication :=
  (frame.emit .freePubPacket other).setWork (by rfl) (by rfl)

theorem Frame.webhookEntry (frame : Frame mine kinds s t) (reason : UInt8)
    (other : .other ∈ kinds)
    : Frame mine kinds s (webhookEntry reason t) := by
  have read := frame.emit .cparamRead other
  unfold NanoMQ.webhookEntry
  dsimp only
  split
  · split
    · exact (read.emit (.webhook _ _) other).setWork (by rfl) (by rfl)
    · exact (read.emit (.webhook _ _) other).setWork (by rfl) (by rfl)
    · exact (read.emit (.webhook _ _) other).setWork (by rfl) (by rfl)
    · exact read.setWork (by rfl) (by rfl)
  · exact read

@[simp]
theorem webhookEntry_world (reason : UInt8) (s : Cb)
    : (webhookEntry reason s).world = s.world := by
  unfold webhookEntry
  dsimp only
  split
  · split <;> rfl
  · rfl

theorem webhookEntry_work (reason : UInt8) (s : Cb)
    : ∃ flag, (webhookEntry reason s).work = { s.work with flag } := by
  unfold webhookEntry
  dsimp only
  split
  · split <;> exact ⟨_, rfl⟩
  · exact ⟨s.work.flag, rfl⟩

/-- Sending to each recipient only sets the pipe, by induction on the recipients. -/
theorem Frame.sendToEach (frame : Frame mine kinds s t) {id : MsgId} (recipients : List Pid)
    (held : t.work.msg = some id) (other : .other ∈ kinds) (delivery : .delivery ∈ kinds)
    : Frame mine kinds s (sendToEach id recipients t) := by
  induction recipients generalizing t with
  | nil => exact frame
  | cons pipe rest ih =>
      have cloned := frame.emit (.msgClone id) other
      exact ih (((cloned.setWork (by rfl) (by exact held.symm)).setPipe id pipe).emit
        (.ctxSend false _ _) delivery) rfl

theorem Frame.encodeAndSend (frame : Frame mine kinds s t) (parser : MqttParser)
    {id : MsgId} (held : t.work.msg = some id) (isMine : mine id) (other : .other ∈ kinds)
    (delivery : .delivery ∈ kinds)
    : Frame mine kinds s (encodeAndSend parser id t) := by
  unfold NanoMQ.encodeAndSend
  split
  · exact frame.read _
  · have encoded := ((frame.read [.fields, .contents id]).setMsg
        (fun _ => (encodePubMessage parser (t.world.msgs id)
          (t.work.pubPacket.getD .zeroed) PUBLISH).msg) isMine)
    dsimp only
    split
    · exact Frame.sendToEach (encoded.setWork (by rfl) (by rfl)) _ held other delivery
    · exact encoded.setWork (by rfl) (by rfl)

theorem Frame.fanOut (frame : Frame mine kinds s t) (parser : MqttParser)
    (isMine : ∀ id, t.work.msg = some id → mine id) (other : .other ∈ kinds)
    (delivery : .delivery ∈ kinds)
    : Frame mine kinds s (fanOut parser t) := by
  unfold NanoMQ.fanOut
  split
  · exact frame
  · rename_i id held
    exact frame.encodeAndSend parser held (isMine id held) other delivery

theorem Frame.bridgeForwards (frame : Frame mine kinds s t) (lib : Library) (env : Env)
    (msg : BridgeMsg) (node : Nat) (filters : List Topic) (asked : Nat)
    (other : .other ∈ kinds)
    : Frame mine kinds s (bridgeForwards lib env msg node filters asked t).2 := by
  induction filters generalizing t asked with
  | nil => exact frame
  | cons filter rest ih =>
      unfold NanoMQ.bridgeForwards
      split
      · dsimp only
        split
        · exact ih (frame.setState .SEND) _
        · exact ih ((frame.setState .SEND).emit (.bridgeSend _ _) other) _
      · exact ih frame _

theorem Frame.bridgeNodes (frame : Frame mine kinds s t) (lib : Library) (env : Env)
    (msg : BridgeMsg) (nodes : List BridgeNode) (index asked : Nat)
    (other : .other ∈ kinds)
    : Frame mine kinds s (bridgeNodes lib env msg nodes index asked t) := by
  induction nodes generalizing t index asked with
  | nil => exact frame
  | cons node rest ih =>
      unfold NanoMQ.bridgeNodes
      split
      · exact ih (frame.bridgeForwards lib env msg index node.forwards asked other) _ _
      · exact ih frame _ _

theorem Frame.forwardToBridges (frame : Frame mine kinds s t) (lib : Library) (env : Env)
    (other : .other ∈ kinds)
    : Frame mine kinds s (forwardToBridges lib env t) := by
  unfold NanoMQ.forwardToBridges
  split
  · have forwarded := (frame.read [.fields]).bridgeNodes lib env (bridgeMsg t.work)
      t.work.config.bridgeNodes 0 0 other
    dsimp only
    split
    · exact forwarded.emit .awsBridgeForward other
    · exact forwarded
  · exact frame.read _

/-- Delivering retained messages only sets their pipes, by induction on the list. -/
theorem Frame.sendRetained (frame : Frame mine kinds s t) (clock : Nat) (pid : Pid)
    (messages : List MsgId) (other : .other ∈ kinds) (delivery : .delivery ∈ kinds)
    : Frame mine kinds s (sendRetained clock pid messages t) := by
  induction messages generalizing t with
  | nil => exact frame
  | cons id rest ih =>
      unfold NanoMQ.sendRetained
      split
      · have cloned := (frame.read [.contents id]).emit (.msgClone id) other
        exact ih ((cloned.setPipe id pid).emit (.ctxSend false _ _) delivery)
      · exact frame.read _

theorem Frame.freeRetained (frame : Frame mine kinds s t) (old : Option RetainMsg)
    (other : .other ∈ kinds)
    : Frame mine kinds s (t.freeRetained old) := by
  unfold Cb.freeRetained
  split
  · exact frame
  · exact frame.emit (.msgFree _) other

-- handle_pub

theorem Frame.handlePubRetain (frame : Frame mine kinds s t) {id : MsgId}
    (packet : PubPacket) (topic : Topic) (isMine : mine id) (other : .other ∈ kinds)
    (handling : .handling ∈ kinds)
    : Frame mine kinds s (handlePubRetain id packet topic t) := by
  unfold NanoMQ.handlePubRetain
  split
  · dsimp only
    split
    · have cloned := (frame.emit (.msgClone id) other).read [.fields]
      split
      · refine Frame.freeRetained ?_ _ other
        exact (cloned.setMsg _ isMine).setDatabases handling (by rfl) (by rfl) (by rfl)
      · exact (cloned.setDatabases handling (by rfl) (by rfl) (by rfl)).freeRetained _ other
    · exact (frame.setDatabases handling (by rfl) (by rfl) (by rfl)).freeRetained _ other
  · exact frame

theorem resolveTopic_world (world : World) (pid : Pid) (proto : Nat) (packet : PubPacket)
    : ∃ aliases, (resolveTopic world pid proto packet).world = { world with aliases } := by
  have resolves := resolveTopic_resolves world pid proto packet
  generalize resolveTopic world pid proto packet = resolved at resolves
  cases resolves with
  | own => exact ⟨_, rfl⟩
  | defines _ _ => exact ⟨_, rfl⟩
  | unknown => exact ⟨_, rfl⟩
  | found _ _ => exact ⟨_, rfl⟩

theorem Frame.routePub (frame : Frame mine kinds s t) (lib : Library) (env : Env)
    {id : MsgId} {resolved : Resolved}
    (sameWorld : ∃ aliases, resolved.world = { t.world with aliases }) (isMine : mine id)
    (other : .other ∈ kinds) (handling : .handling ∈ kinds)
    : Frame mine kinds s (routePub lib env id resolved t) := by
  obtain ⟨aliases, world⟩ := sameWorld
  have looked : Frame mine kinds s (t.setWorld resolved.world) :=
    frame.setDatabases handling (by rw [world]) (by rw [world]) (by rw [world])
  unfold NanoMQ.routePub
  dsimp only
  split
  · exact looked
  · exact (looked.setWork (by rfl) (by rfl)).handlePubRetain _ _ isMine other handling

theorem Frame.handlePub (frame : Frame mine kinds s t) (lib : Library) (env : Env)
    (proto : Nat) {id : MsgId} (isMine : mine id) (other : .other ∈ kinds)
    (handling : .handling ∈ kinds)
    : Frame mine kinds s (handlePub lib env proto id t).2 := by
  unfold NanoMQ.handlePub
  dsimp only
  generalize (decodePubMessage lib.parser env.stray (t.world.msgs id) .zeroed proto).value
    = decoded
  have stored : Frame mine kinds s
      ((t.read [.fields, .contents id]).setWork
        { t.work with msgInfos := [], pubPacket := some decoded.2 }) :=
    (frame.read _).setWork rfl rfl
  split
  · exact stored.emit (.handlePub _ _ _ _ _) handling
  · exact (stored.routePub lib env (resolveTopic_world _ _ _ _) isMine other handling).emit
      (.handlePub _ _ _ _ _) handling

end Blocks

end NanoMQ
