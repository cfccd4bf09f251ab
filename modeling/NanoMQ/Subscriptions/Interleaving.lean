import NanoMQ.Library.TaskPool
import NanoMQ.Subscriptions.Agreement

/-! Handlers of one pipe that interleave at their store calls.
A SUBSCRIBE checks, inserts into the tree and inserts into the list in three separate
calls, so a disconnect handler can run in between and miss the insertion.
-/

namespace NanoMQ

open TaskPool (Pool)

/-- Where a handler stands between two store calls. Every constructor names the next
call of the handler; the topic lists hold the entries not yet looked at.
-/
inductive Handler where
  | subscribe (pid : Pid) (todo : List TopicNode)
  | insertTree (pid : Pid) (topic : Topic) (qos : Nat) (todo : List TopicNode)
  | insertHash (pid : Pid) (topic : Topic) (qos : Nat) (todo : List TopicNode)
  | unsubscribe (pid : Pid) (todo : List TopicNode)
  | deleteHash (pid : Pid) (topic : Topic) (todo : List TopicNode)
  | disconnect (pid : Pid)
  | destroy (pid : Pid)
  deriving DecidableEq

/-- The pipe a handler works for. -/
def Handler.pid : Handler → Pid
  | .subscribe pid _ | .insertTree pid _ _ _ | .insertHash pid _ _ _ => pid
  | .unsubscribe pid _ | .deleteHash pid _ _ => pid
  | .disconnect pid | .destroy pid => pid

/-- A SUBSCRIBE handler of any pipe, at any of its calls. -/
def Handler.isSubscribe : Handler → Bool
  | .subscribe _ _ | .insertTree _ _ _ _ | .insertHash _ _ _ _ => true
  | .unsubscribe _ _ | .deleteHash _ _ _ | .disconnect _ | .destroy _ => false

/-- An UNSUBSCRIBE handler that still has to take a topic off the pipe's list. -/
def Handler.deletes (pid : Pid) (topic : Topic) : Handler → Bool
  | .deleteHash owner filter _ => decide (owner = pid ∧ filter = topic)
  | _ => false

/-- One store call of a handler: what remains of the handler and the new stores. -/
def Handler.next : Handler → Stores → Option Handler × Stores
  | .subscribe _ [], stores => (none, stores)
  | .subscribe pid (node :: rest), stores =>
      match node.topicStr with
      | none => (some (.subscribe pid rest), stores)
      | some topic =>
          if dbhashCheckTopic stores pid topic then (some (.subscribe pid rest), stores)
          else (some (.insertTree pid topic node.options.qos rest), stores)
  | .insertTree pid topic qos rest, stores =>
      (some (.insertHash pid topic qos rest), dbtreeInsertClient stores topic pid)
  | .insertHash pid topic qos rest, stores =>
      (some (.subscribe pid rest), dbhashInsertTopic stores pid topic qos)
  | .unsubscribe _ [], stores => (none, stores)
  | .unsubscribe pid (node :: rest), stores =>
      if node.topicLen = 0 then (some (.unsubscribe pid rest), stores)
      else
        (some (.deleteHash pid node.strndup rest),
          dbtreeDeleteClient stores node.strndup pid)
  | .deleteHash pid topic rest, stores =>
      (some (.unsubscribe pid rest), dbhashDelTopic stores pid topic)
  | .disconnect pid, stores =>
      if dbhashCheckId stores pid then (some (.destroy pid), stores) else (none, stores)
  | .destroy pid, stores => (none, destroySubClient pid stores)

/-- The handler of a message at its start. -/
def HandlerRun.handler : HandlerRun → Handler
  | .subscribe pid packet =>
      .subscribe pid (if packet.packetId = 0 then [] else packet.node)
  | .unsubscribe pid packet => .unsubscribe pid packet.node
  | .disconnect pid => .disconnect pid

-- Without interference the calls add up to the complete handlers

/-- Undisturbed SUBSCRIBE calls insert their entries one after another, by induction. -/
theorem subscribe_alone (pid : Pid) (nodes : List TopicNode) (stores : Stores)
    : TaskPool.Alone Handler.next (.subscribe pid nodes) stores
        (nodes.foldl (subscribeNode pid) stores) := by
  induction nodes generalizing stores with
  | nil => exact .done rfl
  | cons node rest ih =>
      rw [List.foldl_cons]
      cases found : node.topicStr with
      | none =>
          have same : subscribeNode pid stores node = stores := by
            simp only [subscribeNode, found]
          rw [same]
          exact .more (by simp only [Handler.next, found]) (ih stores)
      | some topic =>
          have entry : subscribeNode pid stores node
              = subCtxInsert stores pid topic node.options.qos := by
            simp only [subscribeNode, found]
          rw [entry]
          by_cases held : dbhashCheckTopic stores pid topic = true
          · rw [subCtxInsert, if_pos held]
            exact .more (by simp only [Handler.next, found, if_pos held]) (ih stores)
          · rw [subCtxInsert, if_neg held]
            have checked : Handler.next (.subscribe pid (node :: rest)) stores
                = (some (.insertTree pid topic node.options.qos rest), stores) := by
              simp only [Handler.next, found, if_neg held]
            exact .more checked (.more rfl (.more rfl (ih _)))

/-- Undisturbed UNSUBSCRIBE calls delete their entries one after another, by induction. -/
theorem unsubscribe_alone (pid : Pid) (nodes : List TopicNode) (stores : Stores)
    : TaskPool.Alone Handler.next (.unsubscribe pid nodes) stores
        (nodes.foldl (unsubscribeNode pid) stores) := by
  induction nodes generalizing stores with
  | nil => exact .done rfl
  | cons node rest ih =>
      rw [List.foldl_cons]
      by_cases empty : node.topicLen = 0
      · rw [unsubscribeNode, if_pos empty]
        exact .more (by simp only [Handler.next, if_pos empty]) (ih stores)
      · rw [unsubscribeNode, if_neg empty]
        have deleted : Handler.next (.unsubscribe pid (node :: rest)) stores
            = (some (.deleteHash pid node.strndup rest),
              dbtreeDeleteClient stores node.strndup pid) := by
          simp only [Handler.next, if_neg empty]
        exact .more deleted (.more rfl (ih _))

/-- A handler that no other handler interrupts has the effect of the complete handler. -/
theorem HandlerRun.handler_alone (findRetain : Topic → Option (List (Option MsgId)))
    (stale : List (Option MsgId)) (run : HandlerRun) (stores : Stores)
    : TaskPool.Alone Handler.next run.handler stores
        (run.apply findRetain stale stores) := by
  cases run with
  | subscribe pid packet =>
      rw [HandlerRun.apply, subCtxHandle_stores, HandlerRun.handler]
      split
      · exact .done rfl
      · exact subscribe_alone pid packet.node stores
  | unsubscribe pid packet =>
      rw [HandlerRun.apply, unsubCtxHandle_stores]
      exact unsubscribe_alone pid packet.node stores
  | disconnect pid =>
      rw [HandlerRun.apply, HandlerRun.handler, disconnectClient]
      by_cases listed : dbhashCheckId stores pid = true
      · rw [if_pos listed]
        have checked : Handler.next (.disconnect pid) stores
            = (some (.destroy pid), stores) := by
          simp only [Handler.next, if_pos listed]
        exact .more checked (.done rfl)
      · rw [if_neg listed]
        exact .done (by simp only [Handler.next, if_neg listed])

-- What one call can change

/-- Everything one call of a handler can do: the handler before it, the stores, what
remains of the handler, and the stores after it.
-/
inductive Handler.Call : Handler → Stores → Option Handler → Stores → Prop
  | subscribed {pid stores} : Call (.subscribe pid []) stores none stores
  | passed {pid node rest stores}
    : Call (.subscribe pid (node :: rest)) stores (some (.subscribe pid rest)) stores
  | missing {pid node rest topic stores} (absent : topic ∉ stores.keys pid)
    : Call (.subscribe pid (node :: rest)) stores
        (some (.insertTree pid topic node.options.qos rest)) stores
  | insertedTree {pid topic qos rest stores}
    : Call (.insertTree pid topic qos rest) stores
        (some (.insertHash pid topic qos rest)) (dbtreeInsertClient stores topic pid)
  | insertedHash {pid topic qos rest stores}
    : Call (.insertHash pid topic qos rest) stores (some (.subscribe pid rest))
        (dbhashInsertTopic stores pid topic qos)
  | unsubscribed {pid stores} : Call (.unsubscribe pid []) stores none stores
  | ignored {pid node rest stores}
    : Call (.unsubscribe pid (node :: rest)) stores (some (.unsubscribe pid rest)) stores
  | deletedTree {pid node rest stores}
    : Call (.unsubscribe pid (node :: rest)) stores
        (some (.deleteHash pid node.strndup rest))
        (dbtreeDeleteClient stores node.strndup pid)
  | deletedHash {pid topic rest stores}
    : Call (.deleteHash pid topic rest) stores (some (.unsubscribe pid rest))
        (dbhashDelTopic stores pid topic)
  | listed {pid stores} : Call (.disconnect pid) stores (some (.destroy pid)) stores
  | unlisted {pid stores} (empty : stores.keys pid = [])
    : Call (.disconnect pid) stores none stores
  | destroyed {pid stores} : Call (.destroy pid) stores none (destroySubClient pid stores)

/-- Every step of a handler is one of the listed calls, by cases on where it stands. -/
theorem Handler.next_call (handler : Handler) (stores : Stores)
    : handler.Call stores (handler.next stores).1 (handler.next stores).2 := by
  cases handler with
  | subscribe pid todo =>
      cases todo with
      | nil => exact .subscribed
      | cons node rest =>
          simp only [Handler.next]
          split
          · exact .passed
          · split
            · exact .passed
            · rename_i absent
              exact .missing (by simpa [dbhashCheckTopic] using absent)
  | insertTree pid topic qos rest => exact .insertedTree
  | insertHash pid topic qos rest => exact .insertedHash
  | unsubscribe pid todo =>
      cases todo with
      | nil => exact .unsubscribed
      | cons node rest =>
          simp only [Handler.next]
          split
          · exact .ignored
          · exact .deletedTree
  | deleteHash pid topic rest => exact .deletedHash
  | disconnect pid =>
      simp only [Handler.next]
      split
      · exact .listed
      · rename_i absent
        refine .unlisted ?_
        simpa [dbhashCheckId, DualIndex.Index.keys] using absent
  | destroy pid => exact .destroyed

theorem Handler.Call.kind {handler following : Handler} {stores result : Stores}
    (call : handler.Call stores (some following) result)
    : following.pid = handler.pid ∧ following.isSubscribe = handler.isSubscribe := by
  cases call <;> exact ⟨rfl, rfl⟩

theorem Handler.Call.deleted {handler : Handler} {stores result : Stores} {pid : Pid}
    {topic : Topic} {todo : List TopicNode}
    (call : handler.Call stores (some (.deleteHash pid topic todo)) result)
    : (topic, pid) ∉ result.pairs := by
  cases call with
  | deletedTree => exact fun present => ((DualIndex.Index.mem_removePair ..).mp present).1 rfl

theorem Handler.Call.pairs_subset {handler : Handler} {stores result : Stores}
    {rest : Option Handler} (call : handler.Call stores rest result) {topic : Topic}
    {pid : Pid} (added : (topic, pid) ∈ result.pairs)
    : (topic, pid) ∈ stores.pairs
      ∨ ∃ qos todo, handler = .insertTree pid topic qos todo := by
  cases call with
  | @insertedTree owner filter qos todo =>
      rcases (DualIndex.Index.mem_addPair ..).mp added with same | old
      · obtain ⟨rfl, rfl⟩ := Prod.mk.inj same
        exact Or.inr ⟨qos, todo, rfl⟩
      · exact Or.inl old
  | deletedTree => exact Or.inl ((DualIndex.Index.mem_removePair ..).mp added).2
  | destroyed => exact Or.inl ((DualIndex.Index.mem_removePairs ..).mp added).1
  | subscribed | passed | missing | insertedHash => exact Or.inl added
  | unsubscribed | ignored | deletedHash | listed | unlisted => exact Or.inl added

/-- A listed topic stays listed unless its own list loses it to a deletion. -/
theorem Handler.Call.keys_subset {handler : Handler} {stores result : Stores}
    {rest : Option Handler} (call : handler.Call stores rest result) {topic : Topic}
    {pid : Pid} (held : topic ∈ stores.keys pid)
    : topic ∈ result.keys pid
      ∨ (∃ todo, handler = .deleteHash pid topic todo)
      ∨ handler = .destroy pid := by
  cases call with
  | insertedHash =>
      refine Or.inl ?_
      rw [dbhashInsertTopic, DualIndex.Index.keys_append]
      split
      · rename_i same
        exact List.mem_append_left _ (same ▸ held)
      · exact held
  | @deletedHash owner filter todo =>
      by_cases same : pid = owner ∧ topic = filter
      · obtain ⟨rfl, rfl⟩ := same
        exact Or.inr (Or.inl ⟨todo, rfl⟩)
      · exact Or.inl
          (DualIndex.Index.mem_keys_deleteFirst held (not_and_or.mp same))
  | @destroyed owner =>
      by_cases same : owner = pid
      · exact Or.inr (Or.inr (by rw [same]))
      · refine Or.inl ?_
        rw [destroySubClient, dbhashDelTopicQueue, DualIndex.Index.keys_dropList,
          if_neg (Ne.symm same)]
        change topic ∈ (stores.removePairs (stores.keys owner) owner).keys pid
        rw [DualIndex.Index.keys_removePairs]
        exact held
  | subscribed | passed | missing | insertedTree => exact Or.inl held
  | unsubscribed | ignored | deletedTree | listed | unlisted => exact Or.inl held

-- The interleavings in which no subscription is left behind

/-- In arrival order the disconnect event is the last message of its pipe. -/
def DisconnectLast (pid : Pid) (arrivals : List Handler) : Prop :=
  ∃ before after,
    arrivals = before ++ Handler.disconnect pid :: after
    ∧ ∀ handler ∈ after, handler.pid ≠ pid

/-- No handler of the pipe is waiting or running any more. -/
def Finished (pid : Pid) (pool : Pool Stores Handler) : Prop :=
  ∀ handler ∈ pool.waiting ++ pool.running, handler.pid ≠ pid

/-- The calls that can leave a subscription of the pipe behind are not taken: its
disconnect handler looks for a topic list only when no SUBSCRIBE handler of the pipe is
in progress, and a SUBSCRIBE handler enters a topic into the tree only when no
UNSUBSCRIBE handler of the pipe is between its two deletions of that topic.
-/
def Undisturbed (pid : Pid) (pool : Pool Stores Handler) : Handler → Prop
  | .disconnect owner =>
      owner = pid
      → ∀ other ∈ pool.running, other.pid = pid → other.isSubscribe = false
  | .insertTree owner topic _ _ =>
      owner = pid → ∀ other ∈ pool.running, other.deletes pid topic = false
  | _ => True

instance (pid : Pid) (pool : Pool Stores Handler) (handler : Handler)
    : Decidable (Undisturbed pid pool handler) := by
  unfold Undisturbed
  split <;> infer_instance

/-- A pair of the pipe is listed or about to be listed, and a topic whose tree deletion
is done is out of the tree until its list deletion.
-/
structure Tracked (pid : Pid) (pool : Pool Stores Handler) : Prop where
  listed
    : ∀ topic,
        (topic, pid) ∈ pool.shared.pairs
        → topic ∈ pool.shared.keys pid
          ∨ ∃ qos todo, Handler.insertHash pid topic qos todo ∈ pool.running
  deleted
    : ∀ topic todo,
        Handler.deleteHash pid topic todo ∈ pool.running
        → (topic, pid) ∉ pool.shared.pairs

/-- How far the last disconnect event of the pipe has come. Once it is past its check,
no SUBSCRIBE handler of the pipe is left, so the tree can only lose its pairs.
-/
def Closing (pid : Pid) (pool : Pool Stores Handler) : Prop :=
  DisconnectLast pid pool.waiting
  ∨ (∀ handler ∈ pool.waiting, handler.pid ≠ pid)
    ∧ (Handler.disconnect pid ∈ pool.running
      ∨ (∀ handler ∈ pool.running, handler.pid = pid → handler.isSubscribe = false)
        ∧ (Handler.destroy pid ∈ pool.running
          ∨ ∀ topic, (topic, pid) ∉ pool.shared.pairs))

theorem mem_advance_of_ne {pool : Pool Stores Handler} {before after : List Handler}
    {handler other : Handler} (split : pool.running = before ++ handler :: after)
    (member : other ∈ pool.running) (differ : other ≠ handler)
    : other ∈ (pool.advance Handler.next before handler after).running := by
  rw [split] at member
  simp only [TaskPool.Pool.advance, List.mem_append, List.mem_cons] at member ⊢
  rcases member with left | same | right
  · exact Or.inl (Or.inl left)
  · exact absurd same differ
  · exact Or.inr right

theorem mem_of_mem_advance {pool : Pool Stores Handler} {before after : List Handler}
    {handler other : Handler} (split : pool.running = before ++ handler :: after)
    (member : other ∈ (pool.advance Handler.next before handler after).running)
    : other ∈ pool.running ∨ (handler.next pool.shared).1 = some other := by
  simp only [TaskPool.Pool.advance, List.mem_append, Option.mem_toList] at member
  rw [split]
  rcases member with (left | continues) | right
  · exact Or.inl (List.mem_append_left _ left)
  · exact Or.inr continues
  · exact Or.inl (List.mem_append_right _ (List.mem_cons_of_mem _ right))

/-- Every allowed call keeps the pipe's pairs tracked.
Witness: a new pair comes with its pending list insertion, and a list deletion only
meets a topic that is out of the tree.
-/
theorem Tracked.step {pid : Pid} {pool : Pool Stores Handler} {before after : List Handler}
    {handler : Handler} (tracked : Tracked pid pool)
    (split : pool.running = before ++ handler :: after)
    (permitted : Undisturbed pid pool handler)
    : Tracked pid (pool.advance Handler.next before handler after) := by
  have call := handler.next_call pool.shared
  have running : handler ∈ pool.running := by simp [split]
  constructor
  · intro topic member
    by_cases pending : ∃ qos todo, handler = .insertTree pid topic qos todo
    · obtain ⟨qos, todo, rfl⟩ := pending
      exact Or.inr ⟨qos, todo, by simp [TaskPool.Pool.advance, Handler.next]⟩
    · have old := (call.pairs_subset member).resolve_right pending
      rcases tracked.listed topic old with held | ⟨qos, todo, inserting⟩
      · rcases call.keys_subset held with kept | ⟨todo, rfl⟩ | rfl
        · exact Or.inl kept
        · exact absurd old (tracked.deleted topic todo running)
        · have gone := ((DualIndex.Index.mem_removePairs ..).mp member).2
          exact absurd ⟨rfl, held⟩ gone
      · by_cases same : Handler.insertHash pid topic qos todo = handler
        · subst handler
          refine Or.inl ?_
          simp [TaskPool.Pool.advance, Handler.next, dbhashInsertTopic,
            DualIndex.Index.keys_append]
        · exact Or.inr ⟨qos, todo, mem_advance_of_ne split inserting same⟩
  · intro topic todo member added
    rcases mem_of_mem_advance split member with old | continues
    · have absent := tracked.deleted topic todo old
      rcases call.pairs_subset added with present | ⟨qos, rest, rfl⟩
      · exact absent present
      · exact absurd (permitted rfl _ old) (by simp [Handler.deletes])
    · rw [continues] at call
      exact call.deleted added

theorem Tracked.start {pid : Pid} {pool : Pool Stores Handler} {handler : Handler}
    {rest : List Handler} (tracked : Tracked pid pool)
    (fresh : ∀ topic todo, handler ≠ .deleteHash pid topic todo)
    : Tracked pid { pool with waiting := rest, running := pool.running ++ [handler] } := by
  constructor
  · intro topic member
    refine (tracked.listed topic member).imp_right ?_
    rintro ⟨qos, todo, inserting⟩
    exact ⟨qos, todo, List.mem_append_left _ inserting⟩
  · intro topic todo member
    rcases List.mem_append.mp member with old | new
    · exact tracked.deleted topic todo old
    · exact absurd (List.mem_singleton.mp new).symm (fresh topic todo)

/-- Starting handlers in arrival order brings the last disconnect event closer.
Witness: either other messages still precede it, or it is the handler that starts.
-/
theorem Closing.start {pid : Pid} {pool : Pool Stores Handler} {handler : Handler}
    {rest : List Handler} (closing : Closing pid pool)
    (first : pool.waiting = handler :: rest)
    : Closing pid { pool with waiting := rest, running := pool.running ++ [handler] } := by
  rcases closing with ⟨before, after, order, later⟩ | ⟨none, phase⟩
  · cases before with
    | nil =>
        obtain ⟨rfl, rfl⟩ := List.cons.inj (first.symm.trans order)
        exact Or.inr ⟨later, Or.inl (by simp)⟩
    | cons head tail =>
        obtain ⟨_, rfl⟩ := List.cons.inj (first.symm.trans order)
        exact Or.inl ⟨tail, after, rfl, later⟩
  · rw [first] at none
    have foreign : handler.pid ≠ pid := none handler (by simp)
    refine Or.inr ⟨fun other member => none other (by simp [member]), ?_⟩
    rcases phase with waiting | ⟨quiet, phase⟩
    · exact Or.inl (List.mem_append_left _ waiting)
    · refine Or.inr ⟨?_, phase.imp_left (List.mem_append_left _)⟩
      intro other member same
      rcases List.mem_append.mp member with old | new
      · exact quiet other old same
      · exact absurd (List.mem_singleton.mp new ▸ same) foreign

/-- Every allowed call keeps the last disconnect event on its way.
Witness: its check finds no list only when no pair is left, and its walk removes the
listed pairs, which are all of them when no SUBSCRIBE handler is in progress.
-/
theorem Closing.step {pid : Pid} {pool : Pool Stores Handler} {before after : List Handler}
    {handler : Handler} (closing : Closing pid pool) (tracked : Tracked pid pool)
    (split : pool.running = before ++ handler :: after)
    (permitted : Undisturbed pid pool handler)
    : Closing pid (pool.advance Handler.next before handler after) := by
  have call := handler.next_call pool.shared
  have running : handler ∈ pool.running := by simp [split]
  -- with no SUBSCRIBE handler in progress every pair of the pipe is listed
  have allListed
      (quiet : ∀ other ∈ pool.running, other.pid = pid → other.isSubscribe = false)
      (topic : Topic) (member : (topic, pid) ∈ pool.shared.pairs)
      : topic ∈ pool.shared.keys pid := by
    rcases tracked.listed topic member with held | ⟨qos, todo, inserting⟩
    · exact held
    · exact absurd (quiet _ inserting rfl) (by simp [Handler.isSubscribe])
  have quietAfter
      (quiet : ∀ other ∈ pool.running, other.pid = pid → other.isSubscribe = false)
      : ∀ other ∈ (pool.advance Handler.next before handler after).running,
          other.pid = pid → other.isSubscribe = false := by
    intro other member same
    rcases mem_of_mem_advance split member with old | continues
    · exact quiet other old same
    · rw [continues] at call
      rw [call.kind.2]
      exact quiet handler running (call.kind.1 ▸ same)
  rcases closing with last | ⟨none, phase⟩
  · exact Or.inl last
  refine Or.inr ⟨none, ?_⟩
  rcases phase with pending | ⟨quiet, phase⟩
  · by_cases same : Handler.disconnect pid = handler
    · subst handler
      have quiet := permitted rfl
      refine Or.inr ⟨quietAfter quiet, ?_⟩
      by_cases listed : dbhashCheckId pool.shared pid = true
      · exact Or.inl (by simp [TaskPool.Pool.advance, Handler.next, listed])
      · refine Or.inr ?_
        intro topic member
        rcases call.pairs_subset member with old | ⟨qos, todo, impossible⟩
        · have held := allListed quiet topic old
          have empty : pool.shared.keys pid = [] := by
            simpa [dbhashCheckId, DualIndex.Index.keys] using listed
          rw [empty] at held
          exact absurd held List.not_mem_nil
        · cases impossible
    · exact Or.inl (mem_advance_of_ne split pending same)
  · refine Or.inr ⟨quietAfter quiet, ?_⟩
    rcases phase with destroying | cleared
    · by_cases same : Handler.destroy pid = handler
      · subst handler
        refine Or.inr ?_
        intro topic member
        obtain ⟨old, spared⟩ := (DualIndex.Index.mem_removePairs ..).mp member
        exact spared ⟨rfl, allListed quiet topic old⟩
      · exact Or.inl (mem_advance_of_ne split destroying same)
    · refine Or.inr ?_
      intro topic member
      rcases call.pairs_subset member with old | ⟨qos, todo, rfl⟩
      · exact cleared topic old
      · exact absurd (quiet _ running rfl) (by simp [Handler.isSubscribe])

/-- A message's handler does not start between the two deletions of a topic. -/
theorem HandlerRun.handler_ne_deleteHash (run : HandlerRun) (pid : Pid) (topic : Topic)
    (todo : List TopicNode)
    : run.handler ≠ .deleteHash pid topic todo := by
  cases run <;> simp [HandlerRun.handler]

/-- The pool in which all messages have arrived and no handler has started. -/
def arrivedPool (stores : Stores) (arrivals : List HandlerRun) : Pool Stores Handler :=
  { shared := stores, waiting := arrivals.map HandlerRun.handler, running := [] }

/-- What every reached pool satisfies for the pipe under an undisturbed schedule. -/
structure Guarded (pid : Pid) (pool : Pool Stores Handler) : Prop where
  messages : ∀ handler ∈ pool.waiting, ∃ run : HandlerRun, handler = run.handler
  tracked : Tracked pid pool
  closing : Closing pid pool

theorem Guarded.arrived {pid : Pid} {stores : Stores} (agrees : stores.Agrees)
    {arrivals : List HandlerRun}
    (last : DisconnectLast pid (arrivals.map HandlerRun.handler))
    : Guarded pid (arrivedPool stores arrivals) := by
  refine ⟨?_, ⟨?_, ?_⟩, Or.inl last⟩
  · intro handler member
    obtain ⟨run, _, rfl⟩ := List.mem_map.mp member
    exact ⟨run, rfl⟩
  · intro topic member
    exact Or.inl ((agrees.mem_iff topic pid).mp member)
  · intro topic todo member
    exact absurd member List.not_mem_nil

/-- Every state of an undisturbed interleaving is guarded, by induction on its steps. -/
theorem Guarded.reach {pid : Pid} {first pool : Pool Stores Handler}
    (guarded : Guarded pid first)
    (reached : TaskPool.Reach Handler.next (Undisturbed pid) first pool)
    : Guarded pid pool := by
  refine TaskPool.Reach.invariant Handler.next (Undisturbed pid) ?_ ?_ guarded reached
  · intro current handler rest now first
    have messages := now.messages
    rw [first] at messages
    obtain ⟨run, rfl⟩ := messages handler (by simp)
    exact {
      messages := fun other member => messages other (by simp [member])
      tracked := now.tracked.start (run.handler_ne_deleteHash pid)
      closing := now.closing.start first
    }
  · intro current before handler after now split permitted
    exact {
      messages := now.messages
      tracked := now.tracked.step split permitted
      closing := now.closing.step now.tracked split permitted
    }

/-- No subscription outlives its connection in an undisturbed interleaving: once the
handlers of a pipe whose disconnect event came last have all finished, the tree holds no
pair of that pipe. Handlers of other pipes interleave freely.
-/
theorem undisturbed_leaves_no_pair (pid : Pid) {stores : Stores} (agrees : stores.Agrees)
    {arrivals : List HandlerRun}
    (last : DisconnectLast pid (arrivals.map HandlerRun.handler))
    {pool : Pool Stores Handler}
    (reached
      : TaskPool.Reach Handler.next (Undisturbed pid) (arrivedPool stores arrivals) pool)
    (finished : Finished pid pool) (topic : Topic)
    : (topic, pid) ∉ pool.shared.pairs := by
  have guarded := (Guarded.arrived agrees last).reach reached
  rcases guarded.closing with ⟨before, after, order, _⟩ | ⟨_, phase⟩
  · exact absurd rfl (finished (.disconnect pid) (by simp [order]))
  rcases phase with pending | ⟨_, destroying | cleared⟩
  · exact absurd rfl (finished (.disconnect pid) (List.mem_append_right _ pending))
  · exact absurd rfl (finished (.destroy pid) (List.mem_append_right _ destroying))
  · exact cleared topic

/-- A SUBSCRIBE to `a` of pipe 1 followed by the pipe's disconnect event. -/
def subscribeThenDisconnect : List HandlerRun :=
  [
    .subscribe 1
      {
        TopicPacket.zeroed with
        packetId := 7
        node := [{ TopicNode.zeroed with topicBody := some [97], topicLen := 1 }]
      },
    .disconnect 1
  ]

/-- The SUBSCRIBE finishes before the disconnect handler starts to look. -/
def serialSchedule : List TaskPool.Choice :=
  [.start, .run 0, .start, .run 0, .run 0, .run 0, .run 0, .run 0]

/-- The disconnect handler runs between the SUBSCRIBE's check and its insertions. -/
def racingSchedule : List TaskPool.Choice :=
  [.start, .run 0, .start, .run 1, .run 0, .run 0, .run 0]

theorem subscribeThenDisconnect_last
    : DisconnectLast 1 (subscribeThenDisconnect.map HandlerRun.handler) :=
  ⟨
    [.subscribe 1 [{ TopicNode.zeroed with topicBody := some [97], topicLen := 1 }]],
    [],
    by decide,
    by simp
  ⟩

/-- The serial interleaving of the two handlers leaves the tree without the pipe. -/
theorem undisturbed_serial_schedule
    : ([97], 1)
      ∉ ((arrivedPool .empty subscribeThenDisconnect).follow Handler.next
          serialSchedule).shared.pairs :=
  undisturbed_leaves_no_pair 1 DualIndex.Index.agrees_empty subscribeThenDisconnect_last
    (TaskPool.reach_follow Handler.next (Undisturbed 1) serialSchedule _ (by decide))
    (by unfold Finished; decide) [97]

/-- Without the restriction a subscription can outlive its connection: the disconnect
handler finds no list while the SUBSCRIBE of the same pipe is about to insert its topic.
-/
theorem racing_subscribe_outlives_connection
    : ¬∀ (pid : Pid) (stores : Stores) (arrivals : List HandlerRun)
          (pool : Pool Stores Handler),
        stores.Agrees
        → DisconnectLast pid (arrivals.map HandlerRun.handler)
        → TaskPool.Reach Handler.next (fun _ _ => True) (arrivedPool stores arrivals) pool
        → Finished pid pool
        → ∀ topic, (topic, pid) ∉ pool.shared.pairs := by
  intro claim
  refine claim 1 .empty subscribeThenDisconnect
    ((arrivedPool .empty subscribeThenDisconnect).follow Handler.next racingSchedule)
    DualIndex.Index.agrees_empty subscribeThenDisconnect_last
    (TaskPool.reach_follow Handler.next _ racingSchedule _ (by decide))
    (by unfold Finished; decide) [97] (by decide)

end NanoMQ
