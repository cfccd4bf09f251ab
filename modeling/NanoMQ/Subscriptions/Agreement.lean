import NanoMQ.Subscriptions.Handlers

/-! The tree and the per-pipe lists agree after every sequence of complete handlers.
Every handler reaches the stores through four operations on both indexes, and each of
them keeps the agreement of the dual index.
-/

namespace NanoMQ

/-- A new topic enters both stores and a held one enters neither.
Witness: the membership test decides between the fresh insertion and no change.
-/
theorem subCtxInsert_agrees {stores : Stores} (agrees : stores.Agrees) (pid : Pid)
    (topic : Topic) (qos : Nat)
    : (subCtxInsert stores pid topic qos).Agrees := by
  unfold subCtxInsert
  split
  · exact agrees
  · rename_i absent
    have fresh : topic ∉ stores.keys pid := by simpa [dbhashCheckTopic] using absent
    exact agrees.insert qos fresh

/-- One SUBSCRIBE entry keeps the agreement, with or without a topic. -/
theorem subscribeNode_agrees {stores : Stores} (agrees : stores.Agrees) (pid : Pid)
    (node : TopicNode)
    : (subscribeNode pid stores node).Agrees := by
  unfold subscribeNode
  cases node.topicStr with
  | none => exact agrees
  | some topic => exact subCtxInsert_agrees agrees pid topic node.options.qos

/-- One UNSUBSCRIBE entry keeps the agreement, also for a topic the client never held. -/
theorem unsubscribeNode_agrees {stores : Stores} (agrees : stores.Agrees) (pid : Pid)
    (node : TopicNode)
    : (unsubscribeNode pid stores node).Agrees := by
  unfold unsubscribeNode
  split
  · exact agrees
  · exact agrees.remove node.strndup pid

/-- A step that keeps the agreement keeps it along a whole topic list, by induction. -/
theorem foldl_agrees {step : Stores → TopicNode → Stores}
    (keeps : ∀ {stores : Stores}, stores.Agrees → ∀ node, (step stores node).Agrees)
    (nodes : List TopicNode) {stores : Stores} (agrees : stores.Agrees)
    : (nodes.foldl step stores).Agrees := by
  induction nodes generalizing stores with
  | nil => exact agrees
  | cons node rest ih => exact ih (keeps agrees node)

/-- A disconnect clears the pipe from both stores, or finds nothing to clear. -/
theorem disconnectClient_agrees {stores : Stores} (agrees : stores.Agrees) (pid : Pid)
    : (disconnectClient pid stores).Agrees := by
  unfold disconnectClient
  split
  · exact agrees.clear pid
  · exact agrees

/-- One complete handler execution on a work context. -/
inductive HandlerRun where
  | subscribe (pid : Pid) (packet : TopicPacket)
  | unsubscribe (pid : Pid) (packet : TopicPacket)
  | disconnect (pid : Pid)

section Runs

variable (findRetain : Topic → Option (List (Option MsgId)))
  (stale : List (Option MsgId))

/-- The stores after one complete handler. -/
def HandlerRun.apply (stores : Stores) : HandlerRun → Stores
  | .subscribe pid packet => (subCtxHandle findRetain stale pid packet stores).2.stores
  | .unsubscribe pid packet => (unsubCtxHandle pid packet.node stores).2
  | .disconnect pid => disconnectClient pid stores

/-- The stores after a sequence of complete handlers. -/
def runHandlers (runs : List HandlerRun) (stores : Stores) : Stores :=
  runs.foldl (HandlerRun.apply findRetain stale) stores

/-- Every complete handler keeps the agreement, by cases on the packet kind. -/
theorem HandlerRun.apply_agrees (run : HandlerRun) {stores : Stores}
    (agrees : stores.Agrees)
    : (run.apply findRetain stale stores).Agrees := by
  cases run with
  | subscribe pid packet =>
      rw [HandlerRun.apply, subCtxHandle_stores]
      split
      · exact agrees
      · exact foldl_agrees (fun h node => subscribeNode_agrees h pid node) _ agrees
  | unsubscribe pid packet =>
      rw [HandlerRun.apply, unsubCtxHandle_stores]
      exact foldl_agrees (fun h node => unsubscribeNode_agrees h pid node) _ agrees
  | disconnect pid => exact disconnectClient_agrees agrees pid

/-- Agreement holds after any sequence of handlers, by induction on the sequence. -/
theorem runHandlers_agrees (runs : List HandlerRun) {stores : Stores}
    (agrees : stores.Agrees)
    : (runHandlers findRetain stale runs stores).Agrees := by
  induction runs generalizing stores with
  | nil => exact agrees
  | cons run rest ih => exact ih (run.apply_agrees findRetain stale agrees)

/-- From empty stores, every sequence of SUBSCRIBE, UNSUBSCRIBE and disconnect handlers
leaves a pair in the tree exactly when the topic is in the pipe's list, and no list
holds a topic twice.
-/
theorem runHandlers_tree_iff_list (runs : List HandlerRun) (topic : Topic) (pid : Pid)
    : ((topic, pid) ∈ (runHandlers findRetain stale runs .empty).pairs
        ↔ topic ∈ (runHandlers findRetain stale runs .empty).keys pid)
      ∧ ((runHandlers findRetain stale runs .empty).keys pid).Nodup := by
  have agrees := runHandlers_agrees findRetain stale runs DualIndex.Index.agrees_empty
  exact ⟨agrees.mem_iff topic pid, agrees.nodup pid⟩

end Runs

end NanoMQ
