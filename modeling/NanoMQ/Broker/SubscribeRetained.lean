import NanoMQ.Broker.SubscribeRequest

/-! The retained messages of a SUBSCRIBE: which ones `sub_ctx_handle` collects into `msg_ret`,
and which of these `server_cb` sends.
-/

namespace NanoMQ

-- What is collected

section Collect

variable (findRetain : Topic → Option (List (Option MsgId)))

/-- The retain handling of an entry asks for the retained messages of its topic: always, or
for a topic that the client does not hold yet.
-/
def asksRetained (pid : Pid) (stores : Stores) (topic : Topic) (options : TopicOptions)
    : Bool :=
  decide (options.retainHandling = 0)
  || (decide (options.retainHandling = 1) && !dbhashCheckTopic stores pid topic)

/-- The messages that a lookup finds; NULL entries are passed over. -/
def foundRetained (topic : Topic) : List MsgId :=
  ((findRetain topic).getD []).filterMap id

/-- The retained messages that are due for a list of entries, in their order. -/
def dueRetained (pid : Pid) : List TopicNode → Stores → List MsgId
  | [], _ => []
  | node :: rest, stores =>
      match node.topicStr with
      | none => dueRetained pid rest stores
      | some topic =>
          (if asksRetained pid stores topic node.options then foundRetained findRetain topic
          else [])
          ++ dueRetained pid rest (subCtxInsert stores pid topic node.options.qos)

/-- The number of entries that look nothing up while `r` still points at the vector of the
last lookup; the flag says that it does at the start.
-/
def staleReads (pid : Pid) : Bool → List TopicNode → Stores → Nat
  | _, [], _ => 0
  | dangling, node :: rest, stores =>
      match node.topicStr with
      | none => staleReads pid dangling rest stores
      | some topic =>
          let stores' := subCtxInsert stores pid topic node.options.qos
          if asksRetained pid stores topic node.options then
            staleReads pid (findRetain topic).isSome rest stores'
          else
            (if dangling then 1 else 0) + staleReads pid dangling rest stores'

/-- Where `r` is between two iterations. -/
def vectorOf (dangling : Bool) : RetainVec :=
  if dangling then .released else .null

variable {findRetain} {stale : List (Option MsgId)} {pid : Pid}

theorem subCtxNode_unnamed {ctx : SubCtx} {node : TopicNode} (unnamed : node.topicStr = none)
    : subCtxNode findRetain stale pid ctx node = ctx := by
  unfold subCtxNode
  rw [unnamed]

/-- An entry that asks for retained messages gets those of its own topic. -/
theorem subCtxNode_asks {ctx : SubCtx} {node : TopicNode} {topic : Topic}
    (named : node.topicStr = some topic)
    (asks : asksRetained pid ctx.stores topic node.options = true)
    : subCtxNode findRetain stale pid ctx node
      = {
          stores := subCtxInsert ctx.stores pid topic node.options.qos
          msgRet := ctx.msgRet ++ foundRetained findRetain topic
          r := vectorOf (findRetain topic).isSome
        } := by
  have lookup : node.options.retainHandling = 0
      ∨ (node.options.retainHandling = 1 ∧ !dbhashCheckTopic ctx.stores pid topic) := by
    simpa [asksRetained] using asks
  unfold subCtxNode foundRetained
  rw [named]
  dsimp only
  rw [if_pos lookup]
  cases findRetain topic with
  | none => simp [RetainVec.read, vectorOf]
  | some entries => simp [RetainVec.read, vectorOf]

/-- An entry that does not ask gets what `r` still points at. -/
theorem subCtxNode_silent {ctx : SubCtx} {node : TopicNode} {topic : Topic} {dangling : Bool}
    (named : node.topicStr = some topic)
    (silent : asksRetained pid ctx.stores topic node.options = false)
    (vector : ctx.r = vectorOf dangling)
    : subCtxNode findRetain stale pid ctx node
      = {
          stores := subCtxInsert ctx.stores pid topic node.options.qos
          msgRet := ctx.msgRet ++ (if dangling then stale.filterMap id else [])
          r := vectorOf dangling
        } := by
  have noLookup : ¬(node.options.retainHandling = 0
      ∨ (node.options.retainHandling = 1 ∧ !dbhashCheckTopic ctx.stores pid topic)) := by
    intro lookup
    have asks : asksRetained pid ctx.stores topic node.options = true := by
      simpa [asksRetained] using lookup
    exact Bool.false_ne_true (silent.symm.trans asks)
  unfold subCtxNode
  rw [named]
  dsimp only
  rw [if_neg noLookup, vector]
  cases dangling with
  | true => rfl
  | false => simp [vectorOf, RetainVec.read]

/-- Without a stale read the messages that are due are collected. By induction on the list.
-/
theorem foldl_subCtxNode_due {nodes : List TopicNode} {ctx : SubCtx} {dangling : Bool}
    (vector : ctx.r = vectorOf dangling)
    (fresh : staleReads findRetain pid dangling nodes ctx.stores = 0)
    : (nodes.foldl (subCtxNode findRetain stale pid) ctx).msgRet
      = ctx.msgRet ++ dueRetained findRetain pid nodes ctx.stores := by
  induction nodes generalizing ctx dangling with
  | nil => simp [dueRetained]
  | cons node rest ih =>
      rw [List.foldl_cons]
      rw [staleReads] at fresh
      rw [dueRetained]
      cases named : node.topicStr with
      | none =>
          rw [named] at fresh
          rw [subCtxNode_unnamed named]
          exact ih vector fresh
      | some topic =>
          rw [named] at fresh
          dsimp only at fresh ⊢
          cases asks : asksRetained pid ctx.stores topic node.options with
          | true =>
              rw [asks, if_pos rfl] at fresh
              rw [subCtxNode_asks named asks, ih rfl fresh, if_pos rfl, List.append_assoc]
          | false =>
              rw [asks, if_neg Bool.false_ne_true, Nat.add_eq_zero_iff] at fresh
              obtain ⟨notDangling, fresh⟩ := fresh
              have null : dangling = false := by
                cases dangling with
                | true => cases notDangling
                | false => rfl
              subst null
              rw [subCtxNode_silent named asks vector, ih rfl fresh]
              simp

/-- Every stale read collects what is in the released storage by now. By induction on the
list.
-/
theorem length_foldl_subCtxNode {nodes : List TopicNode} {ctx : SubCtx} {dangling : Bool}
    (vector : ctx.r = vectorOf dangling)
    : (nodes.foldl (subCtxNode findRetain stale pid) ctx).msgRet.length
      = ctx.msgRet.length + (dueRetained findRetain pid nodes ctx.stores).length
        + staleReads findRetain pid dangling nodes ctx.stores * (stale.filterMap id).length := by
  induction nodes generalizing ctx dangling with
  | nil => simp [dueRetained, staleReads]
  | cons node rest ih =>
      rw [List.foldl_cons, dueRetained, staleReads]
      cases named : node.topicStr with
      | none =>
          rw [subCtxNode_unnamed named]
          exact ih vector
      | some topic =>
          dsimp only
          cases asks : asksRetained pid ctx.stores topic node.options with
          | true =>
              rw [subCtxNode_asks named asks, ih rfl]
              simp only [if_true, List.length_append]
              omega
          | false =>
              rw [subCtxNode_silent named asks vector, ih rfl]
              cases dangling with
              | true =>
                  simp only [Bool.false_eq_true, if_false, if_true, List.length_append,
                    List.nil_append, Nat.add_mul, Nat.one_mul]
                  omega
              | false => simp

end Collect

/-- Whatever the released storage holds, a SUBSCRIBE collects the retained messages that are
due for each of its filters: exactly if no filter without a lookup of its own comes while `r`
points at a vector.
-/
theorem retained_per_filter_iff (findRetain : Topic → Option (List (Option MsgId)))
    (pid : Pid) (packet : TopicPacket) (stores : Stores) (nonempty : packet.node ≠ [])
    (nonzero : packet.packetId ≠ 0)
    : (∀ stale,
        (subCtxHandle findRetain stale pid packet stores).2.msgRet
        = dueRetained findRetain pid packet.node stores)
      ↔ staleReads findRetain pid false packet.node stores = 0 := by
  have handled (stale : List (Option MsgId))
      : (subCtxHandle findRetain stale pid packet stores).2
        = packet.node.foldl (subCtxNode findRetain stale pid) (.init stores) := by
    unfold subCtxHandle
    rw [if_neg nonempty, if_neg nonzero]
  have null : (SubCtx.init stores).r = vectorOf false := rfl
  constructor
  · intro due
    -- one message in the released storage shows every stale read
    have count := @length_foldl_subCtxNode findRetain [some 0] pid packet.node (.init stores)
      false null
    rw [← handled, due [some 0]] at count
    simp only [SubCtx.init, List.length_nil, Nat.zero_add, List.filterMap_cons, id,
      List.filterMap_nil, List.length_cons, Nat.mul_one] at count
    omega
  · intro fresh stale
    rw [handled, foldl_subCtxNode_due null fresh]
    rfl

/-- An entry for this topic with this retain handling. -/
def retainNode (topic : List UInt8) (retainHandling : Nat) : TopicNode :=
  {
    options := { TopicOptions.zeroed with retainHandling }
    topicBody := some topic
    topicLen := topic.length
    reasonCode := GRANTED_QOS_2
  }

/-- A SUBSCRIBE to `a`, always with retained messages, and to `b` with this retain handling.
-/
def retainPacket (retainHandling : Nat) : TopicPacket :=
  {
    TopicPacket.zeroed with
    packetId := 1
    node := [retainNode [97] 0, retainNode [98] retainHandling]
  }

/-- Only `a` has a retained message. -/
def retainA (topic : Topic) : Option (List (Option MsgId)) :=
  if topic = [97] then some [some 3] else none

/-- Both filters are looked up, and the message of `a` is collected. -/
theorem retainPacket_collected
    : (subCtxHandle retainA [some 9] 1 (retainPacket 0) .empty).2.msgRet = [3] :=
  (retained_per_filter_iff retainA 1 (retainPacket 0) .empty (List.cons_ne_nil _ _)
    (by decide)).mpr (by decide) [some 9]

/-- The filter `b` asks for nothing and gets what is in the released storage by now. -/
theorem retainPacket_stale
    : dueRetained retainA 1 (retainPacket 2).node .empty = [3]
      ∧ (subCtxHandle retainA [some 9] 1 (retainPacket 2) .empty).2.msgRet = [3, 9] := by
  decide

-- What is sent

def Effect.sentTo : Effect → Option (MsgId × Pid)
  | .ctxSend _ id msg => some (id, msg.pipe)
  | _ => none

/-- The messages that a trace sends, each with the pipe it goes to. -/
def sends (trace : List Effect) : List (MsgId × Pid) :=
  trace.filterMap Effect.sentTo

/-- A filter takes what comes before the first failure exactly if nothing passes after a
failure. By induction on the list.
-/
theorem takeWhile_eq_filter_iff {α : Type} (test : α → Bool) (items : List α)
    : items.takeWhile test = items.filter test
      ↔ items.Pairwise (fun earlier later => test later → test earlier) := by
  induction items with
  | nil => simp
  | cons item rest ih =>
      rw [List.pairwise_cons]
      cases passes : test item with
      | true => simp [passes, ih]
      | false =>
          rw [List.takeWhile_cons_of_neg (by simp [passes]),
            List.filter_cons_of_neg (by simp [passes]), eq_comm, List.filter_eq_nil_iff]
          constructor
          · intro none
            refine ⟨fun later member passed => absurd passed (none later member), ?_⟩
            refine List.pairwise_of_forall_mem_list fun _ _ later member passed => ?_
            exact absurd passed (none later member)
          · rintro ⟨all, _⟩ later member passed
            exact Bool.false_ne_true (all later member passed)

theorem sends_ctxSend (s : Cb) (extra : Bool) (id : MsgId)
    : sends (s.ctxSend extra id).trace = sends s.trace ++ [(id, (s.world.msgs id).pipe)] :=
  List.filterMap_append

theorem sends_emit (s : Cb) {effect : Effect} (silent : effect.sentTo = none)
    : sends (s.emit effect).trace = sends s.trace := by
  unfold sends Cb.emit
  rw [List.filterMap_append, List.filterMap_cons_none silent, List.filterMap_nil,
    List.append_nil]

theorem checkMsgExp_setMsg {clock : Nat} (s : Cb) (id : MsgId) (change : NngMsg → NngMsg)
    (unseen : ∀ msg, checkMsgExp clock (change msg) = checkMsgExp clock msg) (other : MsgId)
    : checkMsgExp clock ((s.setMsg id change).world.msgs other)
      = checkMsgExp clock (s.world.msgs other) := by
  by_cases self : other = id
  · rw [self, Cb.setMsg_self, unseen]
  · exact congrArg (checkMsgExp clock) (World.setMsg_of_ne s.world change self)

/-- The messages up to the first that has expired go to the subscriber. By induction on the
list.
-/
theorem sendRetained_sends (clock : Nat) (pid : Pid) (msgRet : List MsgId) (s : Cb)
    : sends (sendRetained clock pid msgRet s).trace
      = sends s.trace
        ++ (msgRet.takeWhile fun id => checkMsgExp clock (s.world.msgs id)).map (·, pid) := by
  induction msgRet generalizing s with
  | nil => simp [sendRetained]
  | cons id rest ih =>
      rw [sendRetained, List.takeWhile_cons]
      split
      · let cloned := (s.read [.contents id]).emit (.msgClone id)
        let delivered := cloned.setMsg id (·.setPipe pid)
        have same (other : MsgId)
            : checkMsgExp clock ((delivered.ctxSend false id).world.msgs other)
              = checkMsgExp clock (s.world.msgs other) :=
          checkMsgExp_setMsg cloned id (·.setPipe pid) (fun _ => rfl) other
        have pipe : (delivered.world.msgs id).pipe = pid :=
          congrArg NngMsg.pipe (Cb.setMsg_self cloned id (·.setPipe pid))
        have sent : sends (delivered.ctxSend false id).trace = sends s.trace ++ [(id, pid)] := by
          rw [sends_ctxSend, pipe]
          exact congrArg (· ++ _) (sends_emit (s.read [.contents id]) rfl)
        refine (ih (delivered.ctxSend false id)).trans ?_
        rw [sent, funext same, List.append_assoc]
        rfl
      · rw [List.map_nil, List.append_nil]
        rfl

/-- The SUBSCRIBE branch sends exactly the retained messages that have not expired, each once
and in their order, and then the SUBACK: exactly if none of them comes after one that has
expired.
-/
theorem retained_sent_iff (lib : Library) (env : Env) (id : MsgId) (packet : TopicPacket)
    (msgRet : List MsgId) (s : Cb)
    : let live := fun id => checkMsgExp env.clock (s.world.msgs id)
      sends (acknowledgeSubscribe lib env id packet msgRet s).trace
          = sends s.trace
            ++ ((msgRet.filter live).map (·, s.work.pid) ++ [(id, s.work.pid)])
        ↔ msgRet.Pairwise (fun earlier later => live later → live earlier) := by
  intro live
  let encoded :=
    (s.read [.fields]).setMsg id fun msg =>
      encodeSubackMsg lib.parser msg packet s.work.protoVer
  have same (other : MsgId) : checkMsgExp env.clock (encoded.world.msgs other) = live other :=
    checkMsgExp_setMsg (s.read [.fields]) id
      (fun msg => encodeSubackMsg lib.parser msg packet s.work.protoVer) (fun _ => rfl) other
  have retained := sendRetained_sends env.clock s.work.pid msgRet encoded
  rw [funext same] at retained
  have sent
      : sends (acknowledgeSubscribe lib env id packet msgRet s).trace
        = sends s.trace
          ++ ((msgRet.takeWhile live).map (·, s.work.pid) ++ [(id, s.work.pid)]) := by
    unfold acknowledgeSubscribe
    rw [sends_emit _ rfl, sends_ctxSend, ← List.append_assoc]
    refine congrArg₂ (· ++ ·) retained (congrArg (fun pipe => [(id, pipe)]) ?_)
    exact congrArg NngMsg.pipe (Cb.setMsg_self _ id fun msg =>
      (msg.setCmdType .SUBACK).setPipe s.work.pid)
  have distinguishes : Function.Injective (fun id : MsgId => (id, s.work.pid)) :=
    fun _ _ same => congrArg Prod.fst same
  rw [sent, List.append_cancel_left_eq, List.append_cancel_right_eq,
    (List.map_injective_iff.mpr distinguishes).eq_iff, takeWhile_eq_filter_iff]

/-- A version 5 message with an expiry interval of this many seconds. -/
def expiringMsg (seconds : Nat) : NngMsg :=
  { NngMsg.received .PUBLISH_V5 [0x31, 0] [] 0 (.plain 5) with
    protoProperty := some [{ id := MESSAGE_EXPIRY_INTERVAL, value := .u32 seconds }] }

/-- Two retained messages, of which the first one expires after a second. -/
def expiringWorld : World :=
  (World.empty.allocMsg (expiringMsg 1)).allocMsg (expiringMsg 60)

/-- After two seconds the first message has expired, and the second one is not sent. -/
theorem expired_hides_live
    : let s : Cb := { work := .receiving .MQTT_BROKER, world := expiringWorld, trace := [] }
      let env := { Env.brings none with clock := 2000 }
      [0, 1].filter (fun id => checkMsgExp env.clock (s.world.msgs id)) = [1]
      ∧ sends (acknowledgeSubscribe (referenceLibrary fun _ => none) env 2 .zeroed [0, 1]
          s).trace
        = [(2, s.work.pid)] := by
  decide

end NanoMQ
