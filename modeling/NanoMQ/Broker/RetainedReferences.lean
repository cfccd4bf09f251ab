import NanoMQ.Broker.Ownership
import NanoMQ.Broker.Retained
import NanoMQ.Broker.SubscribeRetained
import NanoMQ.Library.TaskPool

/-! Reference counts of retained messages while a SUBSCRIBE delivers them.
`sub_ctx_handle` collects messages from `db_ret` without taking a reference, and `server_cb`
clones them only later, one after another. Between two of these calls another context can
replace or delete an entry in `handle_pub_retain` and free its message.
-/

namespace NanoMQ

open TaskPool (Pool)
open References

-- The contexts, one call at a time

/-- What the contexts share: the subscription stores, the retained messages, the reference
count of every message, and the calls that SUBSCRIBE contexts made on messages, each with the
count that it met.
-/
structure RetainShared where
  stores : Stores
  retained : Topic → Option RetainMsg
  counts : MsgId → Nat
  uses : List (Access × Nat)

namespace RetainShared

/-- One call on a message. -/
def perform (shared : RetainShared) (call : Access) : RetainShared :=
  {
    shared with
    counts := Function.update shared.counts call.id (call.after (shared.counts call.id))
  }

/-- One call of a SUBSCRIBE context on a message. -/
def use (shared : RetainShared) (call : Access) : RetainShared :=
  { shared.perform call with uses := shared.uses ++ [(call, shared.counts call.id)] }

/-- Enter a message into `db_ret`, or delete an entry. -/
def setRetained (shared : RetainShared) (topic : Topic) (entry : Option RetainMsg)
    : RetainShared :=
  { shared with retained := Function.update shared.retained topic entry }

end RetainShared

/-- Where a context stands between two calls. Every constructor names the next call: the
lookup of a filter; `check_msg_exp`, `nng_msg_clone` and `nng_ctx_send` for a collected
message; the clone or the deletion and the insertion of `handle_pub_retain`, its
`nng_msg_free` of the old message; and the one of the publisher's own reference.
-/
inductive RetainTask where
  | collect (pid : Pid) (todo : List TopicNode) (msgRet : List MsgId) (r : RetainVec)
  | deliver (todo : List MsgId)
  | clone (id : MsgId) (rest : List MsgId)
  | send (id : MsgId) (rest : List MsgId)
  | publish (id : MsgId) (topic : Topic) (qos : BitVec 2) (payload : Bool)
  | insert (id : MsgId) (topic : Topic) (qos : BitVec 2)
  | freeOld (id : MsgId) (old : Option MsgId)
  | finish (id : MsgId)

namespace RetainTask

/-- The references that a context holds itself. -/
def hand : RetainTask → List MsgId
  | .collect _ _ _ _ | .deliver _ | .clone _ _ => []
  | .send id _ | .publish id _ _ _ | .finish id => [id]
  | .insert id _ _ => [id, id]
  | .freeOld id old => id :: old.toList

/-- The collected messages that a context will use without a reference of its own. -/
def pending : RetainTask → List MsgId
  | .collect _ _ msgRet _ => msgRet
  | .deliver todo => todo
  | .clone id rest => id :: rest
  | .send _ rest => rest
  | .publish _ _ _ _ | .insert _ _ _ | .freeOld _ _ | .finish _ => []

/-- The message that a context is about to enter into `db_ret`. -/
def inserting : RetainTask → Option MsgId
  | .publish id _ _ true | .insert id _ _ => some id
  | _ => none

/-- The topic whose entry the next call replaces or deletes. -/
def replaces : RetainTask → Option Topic
  | .publish _ topic _ false | .insert _ topic _ => some topic
  | _ => none

section Next

variable (lib : Library) (stale : List (Option MsgId)) (live : Nat → MsgId → Bool)

/-- One call of a context: what remains of it, and the shared state. The test for expiry may
answer differently each time it is made. A message that is sent takes the reference of the
clone with it.
-/
def next : RetainTask → RetainShared → Option RetainTask × RetainShared
  | .collect _ [] msgRet _, shared => (some (.deliver msgRet), shared)
  | .collect pid (node :: rest) msgRet r, shared =>
      let ctx :=
        subCtxNode (lib.findRetain shared.retained) stale pid
          { stores := shared.stores, msgRet, r } node
      (some (.collect pid rest ctx.msgRet ctx.r), { shared with stores := ctx.stores })
  | .deliver [], shared => (none, shared)
  | .deliver (id :: rest), shared =>
      (if live shared.uses.length id then some (.clone id rest) else none, shared.use (.inspect id))
  | .clone id rest, shared => (some (.send id rest), shared.use (.clone id))
  | .send id rest, shared => (some (.deliver rest), shared.use (.release id))
  | .publish id topic qos true, shared =>
      (some (.insert id topic qos), shared.perform (.clone id))
  | .publish id topic _ false, shared =>
      (some (.freeOld id (storedMsgs shared.retained topic)), shared.setRetained topic none)
  | .insert id topic qos, shared =>
      (some (.freeOld id (storedMsgs shared.retained topic)),
        shared.setRetained topic (some { qos, message := id }))
  | .freeOld id none, shared => (some (.finish id), shared)
  | .freeOld id (some old), shared => (some (.finish id), shared.perform (.release old))
  | .finish id, shared => (none, shared.perform (.release id))

end Next

end RetainTask

/-- A filter that does not look anything up does not find `r` still set. -/
def RetainTask.ReadsFresh (stores : Stores) : RetainTask → Prop
  | .collect pid (node :: _) _ r =>
      ∀ topic ∈ node.topicStr, asksRetained pid stores topic node.options = true ∨ r = .null
  | _ => True

instance (stores : Stores) : (task : RetainTask) → Decidable (task.ReadsFresh stores)
  | .collect pid (node :: _) _ r =>
      inferInstanceAs (Decidable (∀ topic ∈ node.topicStr,
        asksRetained pid stores topic node.options = true ∨ r = .null))
  | .collect _ [] _ _ | .deliver _ | .clone _ _ | .send _ _ | .publish _ _ _ _
  | .insert _ _ _ | .freeOld _ _ | .finish _ => .isTrue trivial

/-- The next call of a context may be made: it does not read a released vector, and it does
not replace or delete an entry whose message a SUBSCRIBE context has collected and will still
use.
-/
def SparesRetained (pool : Pool RetainShared RetainTask) (task : RetainTask) : Prop :=
  task.ReadsFresh pool.shared.stores
  ∧ ∀ topic ∈ task.replaces, ∀ id ∈ storedMsgs pool.shared.retained topic,
      ∀ other ∈ pool.running, id ∉ other.pending

instance (pool : Pool RetainShared RetainTask) (task : RetainTask)
    : Decidable (SparesRetained pool task) :=
  inferInstanceAs (Decidable (_ ∧ _))

/-- A lookup returns messages of entries. -/
def Library.FindsEntries (lib : Library) : Prop :=
  ∀ retained topic entries,
    lib.findRetain retained topic = some entries
    → ∀ id,
        some id ∈ entries
        → ∃ place entry, retained place = some entry ∧ entry.message = id

-- A context on its own

/-- The messages that SUBSCRIBE contexts have sent. -/
def RetainShared.sent (shared : RetainShared) : List MsgId :=
  shared.uses.filterMap fun use =>
    match use.1 with
    | .release id => some id
    | _ => none

section Alone

variable {lib : Library} {stale : List (Option MsgId)}

/-- Without other contexts the messages up to the first that has expired are sent. By
induction on the list.
-/
theorem deliver_alone (live : MsgId → Bool) (todo : List MsgId) (shared : RetainShared)
    : ∃ result,
        TaskPool.Alone (RetainTask.next lib stale fun _ => live) (.deliver todo) shared result
        ∧ result.sent = shared.sent ++ todo.takeWhile live
        ∧ result.stores = shared.stores := by
  induction todo generalizing shared with
  | nil => exact ⟨shared, .done rfl, by simp, rfl⟩
  | cons id rest ih =>
      rw [List.takeWhile_cons]
      cases passes : live id with
      | true =>
          obtain ⟨result, alone, sent, stores⟩ :=
            ih (((shared.use (.inspect id)).use (.clone id)).use (.release id))
          have inspected
              : RetainTask.next lib stale (fun _ => live) (.deliver (id :: rest)) shared
                = (some (.clone id rest), shared.use (.inspect id)) := by
            rw [RetainTask.next, passes]
            rfl
          refine ⟨result, .more inspected (.more rfl (.more rfl alone)), ?_, stores⟩
          · rw [sent]
            simp [RetainShared.sent, RetainShared.use, RetainShared.perform]
      | false =>
          refine ⟨shared.use (.inspect id), .done ?_, ?_, rfl⟩
          · rw [RetainTask.next, passes]
            rfl
          · simp [RetainShared.sent, RetainShared.use, RetainShared.perform]

/-- Without other contexts the lookups collect what `sub_ctx_handle` does. By induction on the
list of filters.
-/
theorem collect_alone {live : Nat → MsgId → Bool} {pid : Pid} {nodes : List TopicNode}
    {ctx : SubCtx} {shared result : RetainShared}
    (stores : ctx.stores = shared.stores)
    (alone
      : let collected := nodes.foldl (subCtxNode (lib.findRetain shared.retained) stale pid) ctx
        TaskPool.Alone (RetainTask.next lib stale live) (.deliver collected.msgRet)
          { shared with stores := collected.stores } result)
    : TaskPool.Alone (RetainTask.next lib stale live) (.collect pid nodes ctx.msgRet ctx.r) shared
        result := by
  induction nodes generalizing ctx shared with
  | nil =>
      refine .more rfl ?_
      simpa only [List.foldl_nil, stores] using alone
  | cons node rest ih =>
      have same
          : ({ stores := shared.stores, msgRet := ctx.msgRet, r := ctx.r } : SubCtx) = ctx := by
        rw [← stores]
      refine .more rfl (ih rfl ?_)
      simpa only [same, List.foldl_cons] using alone

/-- A SUBSCRIBE context that runs without others stores its subscriptions as `sub_ctx_handle`
does, and sends what the loop of `server_cb` sends of the messages that it collects.
-/
theorem retain_subscribe_alone (clock : Nat) (pid : Pid) (packet : TopicPacket) (s : Cb)
    (shared : RetainShared) (stores : s.world.stores = shared.stores)
    (nonempty : packet.node ≠ []) (nonzero : packet.packetId ≠ 0)
    : let collected :=
        (subCtxHandle (lib.findRetain shared.retained) stale pid packet s.world.stores).2
      ∃ result sent,
        TaskPool.Alone
            (RetainTask.next lib stale fun _ id => checkMsgExp clock (s.world.msgs id))
            (.collect pid packet.node [] .null) shared result
        ∧ result.stores = collected.stores
        ∧ result.sent = shared.sent ++ sent
        ∧ sends (sendRetained clock pid collected.msgRet s).trace
          = sends s.trace ++ sent.map (·, pid) := by
  intro collected
  have handled
      : collected
        = packet.node.foldl (subCtxNode (lib.findRetain shared.retained) stale pid)
            (.init s.world.stores) := by
    unfold collected subCtxHandle
    rw [if_neg nonempty, if_neg nonzero]
  obtain ⟨result, alone, sent, kept⟩ :=
    @deliver_alone lib stale (fun id => checkMsgExp clock (s.world.msgs id)) collected.msgRet
      { shared with stores := collected.stores }
  rw [handled] at alone
  refine ⟨result, _, collect_alone stores alone, kept, sent, ?_⟩
  exact sendRetained_sends clock pid collected.msgRet s

theorem freeOld_alone {live : Nat → MsgId → Bool} (id : MsgId) (old : Option MsgId)
    (shared : RetainShared)
    : ∃ result,
        TaskPool.Alone (RetainTask.next lib stale live) (.freeOld id old) shared result
        ∧ result.retained = shared.retained := by
  cases old with
  | none => exact ⟨_, .more rfl (.done rfl), rfl⟩
  | some key => exact ⟨_, .more rfl (.done rfl), rfl⟩

/-- A PUBLISH context that runs without others leaves the entries that `handle_pub_retain`
does.
-/
theorem retain_publish_alone {live : Nat → MsgId → Bool} (id : MsgId) (packet : PubPacket)
    (topic : Topic) (s : Cb) (shared : RetainShared)
    (retains : packet.fixedHeader.retain = true)
    (retained : s.world.retained = shared.retained)
    : ∃ result,
        TaskPool.Alone (RetainTask.next lib stale live)
            (.publish id topic packet.fixedHeader.qos (decide (0 < packet.payload.len))) shared
            result
        ∧ result.retained = (handlePubRetain id packet topic s).world.retained := by
  rw [handlePubRetain_retained, if_pos retains, retained, RetainMsg.of]
  by_cases payload : 0 < packet.payload.len
  · rw [if_pos payload, decide_eq_true payload]
    obtain ⟨result, alone, kept⟩ :=
      @freeOld_alone lib stale live id (storedMsgs shared.retained topic)
        ((shared.perform (.clone id)).setRetained topic
          (some { qos := packet.fixedHeader.qos, message := id }))
    exact ⟨result, .more rfl (.more rfl alone), kept⟩
  · rw [if_neg payload, decide_eq_false payload]
    obtain ⟨result, alone, kept⟩ :=
      @freeOld_alone lib stale live id (storedMsgs shared.retained topic)
        (shared.setRetained topic none)
    exact ⟨result, .more rfl alone, kept⟩

end Alone

-- Counts that are right

/-- The references that contexts hold and those of the entries. -/
def retainBooks (tasks : List RetainTask) (shared : RetainShared) (limit : MsgId)
    : Books Topic :=
  { hand := tasks.flatMap RetainTask.hand, stored := storedMsgs shared.retained, next := limit }

/-- The counts are those of the references, with `rest` held elsewhere. A message that is
about to be entered is not in `db_ret` yet, and every collected message still is.
-/
structure Balanced (limit : MsgId) (rest : MsgId → Nat) (tasks : List RetainTask)
    (shared : RetainShared)
    : Prop where
  valid : (retainBooks tasks shared limit).Valid
  counts : shared.counts = (retainBooks tasks shared limit).refs rest
  distinct : (tasks.filterMap RetainTask.inserting).Nodup
  unstored
    : ∀ id ∈ tasks.filterMap RetainTask.inserting,
        ¬∃ topic, storedMsgs shared.retained topic = some id
  stays
    : ∀ task ∈ tasks, ∀ id ∈ task.pending, ∃ topic, storedMsgs shared.retained topic = some id
  used : ∀ use ∈ shared.uses, 0 < use.2

section Balanced

variable {limit : MsgId} {rest : MsgId → Nat} {tasks others : List RetainTask}
  {task : RetainTask} {left : Option RetainTask} {shared after : RetainShared}

theorem Balanced.perm (balanced : Balanced limit rest tasks shared) (perm : tasks.Perm others)
    : Balanced limit rest others shared := by
  have hands : (retainBooks tasks shared limit).hand.Perm (others.flatMap RetainTask.hand) :=
    perm.flatMap_right _
  have inserting := perm.filterMap RetainTask.inserting
  exact {
    valid := balanced.valid.perm hands
    counts := balanced.counts.trans (Books.refs_perm hands rest).symm
    distinct := inserting.nodup_iff.mp balanced.distinct
    unstored := fun id member => balanced.unstored id (inserting.mem_iff.mpr member)
    stays := fun task member => balanced.stays task (perm.mem_iff.mpr member)
    used := balanced.used
  }

theorem filterMap_toList (left : Option RetainTask)
    : left.toList.filterMap RetainTask.inserting = (left.bind RetainTask.inserting).toList := by
  cases left with
  | none => rfl
  | some task => cases inserting : task.inserting <;> simp [inserting]

theorem Balanced.moves (balanced : Balanced limit rest (task :: others) shared)
    (kept : after.retained = shared.retained)
    (inserts : (left.bind RetainTask.inserting).toList.Sublist task.inserting.toList)
    (pends
      : ∀ id ∈ left.elim [] RetainTask.pending,
          ∃ topic, storedMsgs shared.retained topic = some id)
    (valid : (retainBooks (left.toList ++ others) after limit).Valid)
    (counts : after.counts = (retainBooks (left.toList ++ others) after limit).refs rest)
    (used : ∀ use ∈ after.uses, 0 < use.2)
    : Balanced limit rest (left.toList ++ others) after := by
  have inserting
      : ((left.toList ++ others).filterMap RetainTask.inserting).Sublist
          ((task :: others).filterMap RetainTask.inserting) := by
    rw [List.filterMap_append, ← List.singleton_append, List.filterMap_append,
      filterMap_toList, ← Option.toList_some, filterMap_toList]
    exact inserts.append_right _
  refine { valid, counts, distinct := ?_, unstored := ?_, stays := ?_, used }
  · exact balanced.distinct.sublist inserting
  · rw [kept]
    exact fun id member => balanced.unstored id (inserting.subset member)
  · intro following member
    rw [kept]
    rcases List.mem_append.mp member with new | old
    · obtain rfl := Option.mem_toList.mp new
      exact pends
    · exact balanced.stays following (List.mem_cons_of_mem _ old)

section Call

variable {call : Access} (balanced : Balanced limit rest (task :: others) shared)
  (unheld : ∀ id, limit ≤ id → rest id = 0)
  (plays
    : (retainBooks (task :: others) shared limit).Plays [call]
        (retainBooks (left.toList ++ others) shared limit))
  (inserts : (left.bind RetainTask.inserting).toList.Sublist task.inserting.toList)
  (pends : left.elim [] RetainTask.pending ⊆ task.pending)

include balanced unheld plays inserts pends

theorem Balanced.performs
    : Balanced limit rest (left.toList ++ others) (shared.perform call)
      ∧ 0 < shared.counts call.id := by
  obtain ⟨referenced, counted⟩ := plays.single unheld
  rw [← balanced.counts] at referenced counted
  refine ⟨?_, referenced⟩
  refine balanced.moves rfl inserts ?_ plays.valid counted balanced.used
  exact fun id pending => balanced.stays task List.mem_cons_self id (pends pending)

theorem Balanced.uses : Balanced limit rest (left.toList ++ others) (shared.use call) := by
  obtain ⟨performed, referenced⟩ := balanced.performs unheld plays inserts pends
  refine { performed with used := ?_ }
  intro use member
  rcases List.mem_append.mp member with old | new
  · exact balanced.used use old
  · rw [List.mem_singleton.mp new]
    exact referenced

end Call

/-- An entry is replaced or deleted, and its message is in the hand of the context. -/
theorem Balanced.replaced {id : MsgId} {topic : Topic} {entry : Option RetainMsg}
    (balanced : Balanced limit rest (task :: others) shared)
    (plays
      : (retainBooks (task :: others) shared limit).Plays []
          (retainBooks (.freeOld id (storedMsgs shared.retained topic) :: others)
            (shared.setRetained topic entry) limit))
    (entered : entry.map RetainMsg.message = task.inserting)
    (unheld : ∀ id, limit ≤ id → rest id = 0)
    (spares
      : ∀ id,
          storedMsgs shared.retained topic = some id
          → ∀ other ∈ others, id ∉ other.pending)
    : Balanced limit rest (.freeOld id (storedMsgs shared.retained topic) :: others)
        (shared.setRetained topic entry) := by
  have stored
      : storedMsgs (shared.setRetained topic entry).retained
        = Function.update (storedMsgs shared.retained) topic task.inserting := by
    rw [← entered]
    exact storedMsgs_update shared.retained topic entry
  have inserting
      : (others.filterMap RetainTask.inserting).Sublist
          ((task :: others).filterMap RetainTask.inserting) :=
    (List.sublist_cons_self task others).filterMap _
  refine {
    valid := plays.valid
    counts := balanced.counts.trans (Option.some.inj (plays.counts rest unheld))
    distinct := balanced.distinct.sublist inserting
    unstored := ?_
    stays := ?_
    used := balanced.used
  }
  · rintro key member ⟨place, kept⟩
    change key ∈ others.filterMap RetainTask.inserting at member
    rw [stored] at kept
    rcases eq_or_ne place topic with rfl | different
    · -- the message just entered is not that of another context
      rw [Function.update_self] at kept
      have distinct := balanced.distinct
      rw [List.filterMap_cons_some kept] at distinct
      exact (List.nodup_cons.mp distinct).1 member
    · rw [Function.update_of_ne different] at kept
      exact balanced.unstored key (inserting.subset member) ⟨place, kept⟩
  · intro other member key pending
    rcases List.mem_cons.mp member with rfl | older
    · cases pending
    · obtain ⟨place, kept⟩ := balanced.stays other (List.mem_cons_of_mem _ older) key pending
      have different : place ≠ topic := by
        rintro rfl
        exact spares key kept other older pending
      refine ⟨place, ?_⟩
      rw [stored, Function.update_of_ne different]
      exact kept

section Step

variable {lib : Library} {stale : List (Option MsgId)} {live : Nat → MsgId → Bool}

/-- A lookup collects messages of entries, and without a lookup nothing is collected. -/
theorem subCtxNode_collects (finds : lib.FindsEntries) {pid : Pid} {node : TopicNode}
    {ctx : SubCtx} {retained : Topic → Option RetainMsg}
    (fresh
      : ∀ topic ∈ node.topicStr,
          asksRetained pid ctx.stores topic node.options = true ∨ ctx.r = .null)
    {id : MsgId} (member : id ∈ (subCtxNode (lib.findRetain retained) stale pid ctx node).msgRet)
    : id ∈ ctx.msgRet ∨ ∃ topic, storedMsgs retained topic = some id := by
  cases named : node.topicStr with
  | none =>
      rw [subCtxNode_unnamed named] at member
      exact Or.inl member
  | some topic =>
      cases asks : asksRetained pid ctx.stores topic node.options with
      | true =>
          rw [subCtxNode_asks named asks] at member
          rcases List.mem_append.mp member with older | found
          · exact Or.inl older
          · obtain ⟨slot, listed, isSome⟩ := List.mem_filterMap.mp found
            obtain rfl : slot = some id := isSome
            cases looked : lib.findRetain retained topic with
            | none =>
                rw [looked] at listed
                cases listed
            | some entries =>
                rw [looked] at listed
                obtain ⟨place, entry, kept, rfl⟩ := finds retained topic entries looked id listed
                exact Or.inr ⟨place, congrArg (Option.map RetainMsg.message) kept⟩
      | false =>
          have null : ctx.r = vectorOf false :=
            (fresh topic named).resolve_left (by rw [asks]; exact Bool.false_ne_true)
          rw [subCtxNode_silent named asks null] at member
          exact Or.inl (by simpa using member)

theorem replaced_hand (id : MsgId) (topic : Topic)
    : ((storedMsgs shared.retained topic).toList ++ id :: others.flatMap RetainTask.hand).Perm
        (id :: ((storedMsgs shared.retained topic).toList ++ others.flatMap RetainTask.hand)) :=
  List.perm_middle

/-- Deleting the entry of a topic moves its reference into the hand of the context. -/
theorem deleted_plays {id : MsgId} {topic : Topic} {qos : BitVec 2}
    (valid : (retainBooks (.publish id topic qos false :: others) shared limit).Valid)
    : (retainBooks (.publish id topic qos false :: others) shared limit).Plays []
        (retainBooks (.freeOld id (storedMsgs shared.retained topic) :: others)
          (shared.setRetained topic none) limit) := by
  have taken := Books.Plays.take valid topic
  have stored := storedMsgs_update shared.retained topic none
  have played := taken.perm (replaced_hand id topic)
  simpa [retainBooks, RetainTask.hand, RetainShared.setRetained, stored] using played

/-- Entering a message moves the reference of the clone into `db_ret`, and that of the entry it
replaces into the hand of the context.
-/
theorem inserted_plays {id : MsgId} {topic : Topic} {qos : BitVec 2}
    (valid : (retainBooks (.insert id topic qos :: others) shared limit).Valid)
    (unstored : ¬∃ place, storedMsgs shared.retained place = some id)
    : (retainBooks (.insert id topic qos :: others) shared limit).Plays []
        (retainBooks (.freeOld id (storedMsgs shared.retained topic) :: others)
          (shared.setRetained topic (some { qos, message := id })) limit) := by
  have replaced := Books.Plays.replace valid topic rfl unstored
  have stored := storedMsgs_update shared.retained topic (some { qos, message := id })
  have played := replaced.perm (replaced_hand id topic)
  simpa [retainBooks, RetainTask.hand, RetainShared.setRetained, stored] using played

theorem erase_second (id key : MsgId) (hand : List MsgId)
    : ((id :: key :: hand).erase key).Perm (id :: hand) := by
  have swapped := (List.Perm.swap key id hand).erase key
  rwa [List.erase_cons_head] at swapped

/-- One call of one context. By cases on the call. -/
theorem Balanced.step (finds : lib.FindsEntries) (unheld : ∀ id, limit ≤ id → rest id = 0)
    (balanced : Balanced limit rest (task :: others) shared)
    (fresh : task.ReadsFresh shared.stores)
    (spares
      : ∀ topic ∈ task.replaces, ∀ id ∈ storedMsgs shared.retained topic,
          ∀ other ∈ others, id ∉ other.pending)
    : Balanced limit rest ((task.next lib stale live shared).1.toList ++ others)
        (task.next lib stale live shared).2 := by
  have valid := balanced.valid
  -- what a SUBSCRIBE context has collected is known, as entries keep it
  have known (id : MsgId) (pending : id ∈ task.pending)
      : (retainBooks (task :: others) shared limit).Known id :=
    Or.inr (balanced.stays task List.mem_cons_self id pending)
  cases task with
  | collect pid todo msgRet r =>
      cases todo with
      | nil =>
          exact balanced.moves rfl (List.Sublist.refl _)
            (balanced.stays _ List.mem_cons_self) valid balanced.counts balanced.used
      | cons node nodes =>
          refine balanced.moves rfl (List.Sublist.refl _) ?_ valid balanced.counts balanced.used
          intro id pending
          let ctx : SubCtx := { stores := shared.stores, msgRet, r }
          have collected := @subCtxNode_collects lib stale finds pid node ctx shared.retained
            fresh id pending
          rcases collected with older | found
          · exact balanced.stays _ List.mem_cons_self id older
          · exact found
  | deliver todo =>
      cases todo with
      | nil =>
          exact balanced.moves rfl (List.Sublist.refl _)
            (fun _ member => absurd member List.not_mem_nil) valid balanced.counts balanced.used
      | cons id ids =>
          have played := Books.Plays.inspect valid (known id List.mem_cons_self)
          rw [RetainTask.next]
          cases live shared.uses.length id with
          | true =>
              exact balanced.uses unheld played (List.Sublist.refl _) (List.Subset.refl _)
          | false => exact balanced.uses unheld played (List.Sublist.refl _) (List.nil_subset _)
  | clone id ids =>
      have played := Books.Plays.clone valid (known id List.mem_cons_self)
      exact balanced.uses unheld played (List.Sublist.refl _) (List.subset_cons_self id ids)
  | send id ids =>
      have played := Books.Plays.release_head valid rfl
      exact balanced.uses unheld played (List.Sublist.refl _) (List.Subset.refl _)
  | publish id topic qos payload =>
      cases payload with
      | true =>
          have played := Books.Plays.clone valid (Or.inl List.mem_cons_self)
          exact (balanced.performs unheld played (List.Sublist.refl _) (List.Subset.refl _)).1
      | false =>
          exact balanced.replaced (deleted_plays valid) rfl unheld (spares topic rfl)
  | insert id topic qos =>
      have unstored := balanced.unstored id List.mem_cons_self
      exact balanced.replaced (inserted_plays valid unstored) rfl unheld (spares topic rfl)
  | freeOld id old =>
      cases old with
      | none =>
          exact balanced.moves rfl (List.Sublist.refl _)
            (fun _ member => absurd member List.not_mem_nil) valid balanced.counts balanced.used
      | some key =>
          have played := Books.Plays.release valid (List.mem_cons_of_mem id List.mem_cons_self)
          have freed := played.perm (erase_second id key _)
          exact (balanced.performs unheld freed (List.Sublist.refl _) (List.Subset.refl _)).1
  | finish id =>
      have played := Books.Plays.release_head valid rfl
      exact (balanced.performs unheld played (List.Sublist.refl _) (List.nil_subset _)).1

end Step

end Balanced

-- Whole interleavings

/-- A SUBSCRIBE that has not looked anything up, or a PUBLISH with its own message. -/
def RetainTask.isStart : RetainTask → Bool
  | .collect _ _ [] .null => true
  | .publish _ _ _ _ => true
  | _ => false

/-- A start: all contexts wait, the counts are those of the entries, of the messages that the
publishers bring and of `rest`, and no two publishers are about to enter one message.
-/
structure RetainArrived (limit : MsgId) (rest : MsgId → Nat)
    (pool : Pool RetainShared RetainTask)
    : Prop where
  running : pool.running = []
  unused : pool.shared.uses = []
  starting : ∀ task ∈ pool.waiting, task.isStart = true
  valid : (retainBooks pool.waiting pool.shared limit).Valid
  counts : pool.shared.counts = (retainBooks pool.waiting pool.shared limit).refs rest
  distinct : (pool.waiting.filterMap RetainTask.inserting).Nodup
  unstored
    : ∀ id ∈ pool.waiting.filterMap RetainTask.inserting,
        ¬∃ topic, storedMsgs pool.shared.retained topic = some id

theorem RetainTask.pending_of_isStart {task : RetainTask} (starts : task.isStart = true)
    : task.pending = [] := by
  cases task with
  | collect pid todo msgRet r =>
      cases msgRet with
      | nil => rfl
      | cons id ids => cases starts
  | publish id topic qos payload => rfl
  | _ => cases starts

/-- Balance of the contexts in progress and of those that still wait. -/
structure RetainSafe (limit : MsgId) (rest : MsgId → Nat) (pool : Pool RetainShared RetainTask)
    : Prop where
  balanced : Balanced limit rest (pool.running ++ pool.waiting) pool.shared
  idle : ∀ task ∈ pool.waiting, task.pending = []

section Runs

variable {limit : MsgId} {rest : MsgId → Nat} {first last : Pool RetainShared RetainTask}

theorem RetainArrived.safe (arrived : RetainArrived limit rest first)
    : RetainSafe limit rest first := by
  have idle (task : RetainTask) (member : task ∈ first.waiting) : task.pending = [] :=
    RetainTask.pending_of_isStart (arrived.starting task member)
  refine { balanced := ?_, idle }
  rw [arrived.running, List.nil_append]
  refine { arrived with stays := ?_, used := ?_ }
  · intro task member id pending
    rw [idle task member] at pending
    cases pending
  · intro use member
    rw [arrived.unused] at member
    cases member

/-- An interleaving whose steps are all undisturbed keeps the balance. -/
theorem RetainSafe.reach {lib : Library} {stale : List (Option MsgId)}
    {live : Nat → MsgId → Bool} (finds : lib.FindsEntries)
    (unheld : ∀ id, limit ≤ id → rest id = 0) (safe : RetainSafe limit rest first)
    (reached : TaskPool.Reach (RetainTask.next lib stale live) SparesRetained first last)
    : RetainSafe limit rest last := by
  refine TaskPool.Reach.invariant _ _ ?_ ?_ safe reached
  · intro pool task waiting safe isFirst
    refine { balanced := ?_, idle := ?_ }
    · rw [List.append_assoc, List.singleton_append, ← isFirst]
      exact safe.balanced
    · intro other member
      apply safe.idle
      rw [isFirst]
      exact List.mem_cons_of_mem task member
  · intro pool before task after safe split undisturbed
    obtain ⟨fresh, spares⟩ := undisturbed
    let others := before ++ after ++ pool.waiting
    have front : (pool.running ++ pool.waiting).Perm (task :: others) := by
      rw [split]
      simp [others]
    have spared
        : ∀ topic ∈ task.replaces, ∀ id ∈ storedMsgs pool.shared.retained topic,
            ∀ other ∈ others, id ∉ other.pending := by
      intro topic replaces id kept other member
      rcases List.mem_append.mp member with runs | waits
      · refine spares topic replaces id kept other ?_
        rw [split]
        exact List.mem_append.mpr
          ((List.mem_append.mp runs).imp_right (List.mem_cons_of_mem task))
      · rw [safe.idle other waits]
        exact List.not_mem_nil
    have stepped
        : Balanced limit rest ((task.next lib stale live pool.shared).1.toList ++ others)
            (task.next lib stale live pool.shared).2 :=
      (safe.balanced.perm front).step finds unheld fresh spared
    refine { balanced := stepped.perm ?_, idle := safe.idle }
    simp only [others, TaskPool.Pool.advance, List.append_assoc]
    exact List.perm_append_comm_assoc _ _ _

/-- In every interleaving whose steps are all undisturbed, each message that a SUBSCRIBE
context inspects, clones or sends is referenced at that step.
-/
theorem retained_referenced (lib : Library) (stale : List (Option MsgId))
    (live : Nat → MsgId → Bool) (finds : lib.FindsEntries)
    (unheld : ∀ id, limit ≤ id → rest id = 0) (arrived : RetainArrived limit rest first)
    (reached : TaskPool.Reach (RetainTask.next lib stale live) SparesRetained first last)
    : ∀ use ∈ last.shared.uses, 0 < use.2 :=
  (arrived.safe.reach finds unheld reached).balanced.used

end Runs

theorem referenceLibrary_finds (clients : Topic → Option (List Pid))
    : (referenceLibrary clients).FindsEntries := by
  intro retained topic entries found id listed
  obtain ⟨entry, kept, rfl⟩ := Option.map_eq_some_iff.mp found
  obtain same : some id = some entry.message := List.mem_singleton.mp listed
  exact ⟨topic, entry, kept, (Option.some.inj same).symm⟩

/-- Message 0 is retained for topic `a`, message 1 is that of a publisher; a SUBSCRIBE to `a`
has arrived before a PUBLISH to this topic.
-/
def retainPool (topic : Topic) (payload : Bool) : Pool RetainShared RetainTask :=
  {
    shared :=
      {
        stores := .empty
        retained := Function.update (fun _ => none) [97] (some { qos := 0, message := 0 })
        counts := fun _ => 1
        uses := []
      }
    waiting := [.collect 1 [retainNode [97] 0] [] .null, .publish 1 topic 0 payload]
    running := []
  }

/-- The calls where no message has expired. -/
def retainNext : RetainTask → RetainShared → Option RetainTask × RetainShared :=
  RetainTask.next (referenceLibrary fun _ => none) [] (fun _ _ => true)

theorem retainPool_stored (topic : Topic) (payload : Bool) (place : Topic)
    : storedMsgs (retainPool topic payload).shared.retained place
      = if place = [97] then some 0 else none := by
  unfold storedMsgs retainPool
  rcases eq_or_ne place [97] with rfl | different
  · simp
  · simp [different]

/-- All counts are one at this start. -/
theorem retainPool_arrived (topic : Topic) (payload : Bool)
    : RetainArrived 2 (fun _ => 0) (retainPool topic payload) := by
  have stored := retainPool_stored topic payload
  have isZero {place : Topic} {id : MsgId}
      (kept : storedMsgs (retainPool topic payload).shared.retained place = some id)
      : place = [97] ∧ id = 0 := by
    rw [stored] at kept
    split at kept
    · rename_i here
      exact ⟨here, (Option.some.inj kept).symm⟩
    · cases kept
  have inserting (id : MsgId)
      (member : id ∈ (retainPool topic payload).waiting.filterMap RetainTask.inserting)
      : id = 1 := by
    cases payload with
    | true => exact List.mem_singleton.mp member
    | false => cases member
  refine {
    running := rfl
    unused := rfl
    starting := ?_
    valid := { hand := ?_, stored := ?_, distinct := ?_ }
    counts := ?_
    distinct := ?_
    unstored := ?_
  }
  · simp [retainPool, RetainTask.isStart]
  · intro id member
    obtain rfl : id = 1 := List.mem_singleton.mp member
    exact Nat.one_lt_two
  · intro place id kept
    rw [(isZero kept).2]
    exact Nat.two_pos
  · intro place other id kept alsoKept
    exact (isZero kept).1.trans (isZero alsoKept).1.symm
  · funext id
    have isRetained : ∃ place, storedMsgs (retainPool topic payload).shared.retained place
        = some 0 := ⟨[97], stored [97]⟩
    have notRetained : ¬∃ place, storedMsgs (retainPool topic payload).shared.retained place
        = some 1 := by
      rintro ⟨place, kept⟩
      exact Nat.one_ne_zero (isZero kept).2
    rcases id with _ | _ | later
    · rw [Books.refs_of_lt Nat.two_pos]
      exact (congrArg (0 + · + 0) (storedRefs_of_stored isRetained)).symm
    · rw [Books.refs_of_lt Nat.one_lt_two]
      exact (congrArg (1 + · + 0) (storedRefs_of_unstored notRetained)).symm
    · exact (Books.refs_of_le (Nat.le_add_left 2 later)).symm
  · cases payload with
    | true => exact List.nodup_singleton 1
    | false => exact List.nodup_nil
  · rintro id member ⟨place, kept⟩
    rw [inserting id member] at kept
    exact Nat.one_ne_zero (isZero kept).2

/-- A PUBLISH to `b` that runs in between does not disturb the SUBSCRIBE. -/
theorem retainPool_referenced
    : let last := (retainPool [98] true).follow retainNext
        [.start, .start, .run 0, .run 1, .run 0, .run 1, .run 0, .run 1, .run 0, .run 0]
      last.shared.uses = [(.inspect 0, 1), (.clone 0, 1), (.release 0, 2)]
      ∧ ∀ use ∈ last.shared.uses, 0 < use.2 := by
  refine ⟨by decide, ?_⟩
  refine retained_referenced (referenceLibrary fun _ => none) [] (fun _ _ => true)
    (referenceLibrary_finds _) (fun _ _ => rfl) (retainPool_arrived [98] true) ?_
  exact TaskPool.reach_follow _ _ _ _ (by decide)

/-- A PUBLISH without payload deletes the entry of `a` after the SUBSCRIBE has collected its
message, and the SUBSCRIBE inspects it when it has no reference any more.
-/
theorem retainPool_unreferenced
    : RetainArrived 2 (fun _ => 0) (retainPool [97] false)
      ∧ ∃ last,
          TaskPool.Reach retainNext (fun _ _ => True) (retainPool [97] false) last
          ∧ (.inspect 0, 0) ∈ last.shared.uses := by
  refine ⟨retainPool_arrived [97] false, ?_⟩
  refine ⟨_, TaskPool.reach_follow _ _ [.start, .start, .run 0, .run 0, .run 1, .run 1, .run 0]
    _ (by decide), ?_⟩
  decide

end NanoMQ
