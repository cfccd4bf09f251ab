import NanoMQ.Library.DualIndex
import NanoMQ.Nng.Packet

/-! The two subscription stores and the handlers of `sub_handler.c` and `unsub_handler.c`
that update them.
-/

namespace NanoMQ

-- dbtree and dbhash

/-- The subscription tree as a set of topic/pipe pairs, next to the per-pipe topic lists.
A pipe without a list and a pipe with an empty one are the same: neither is visited.
-/
abbrev Stores := DualIndex.Index Topic Pid Nat

def dbtreeInsertClient (stores : Stores) (topic : Topic) (pid : Pid) : Stores :=
  stores.addPair topic pid

def dbtreeDeleteClient (stores : Stores) (topic : Topic) (pid : Pid) : Stores :=
  stores.removePair topic pid

def dbhashInsertTopic (stores : Stores) (pid : Pid) (topic : Topic) (qos : Nat)
    : Stores :=
  stores.append pid topic qos

def dbhashDelTopic (stores : Stores) (pid : Pid) (topic : Topic) : Stores :=
  stores.deleteFirst pid topic

def dbhashCheckTopic (stores : Stores) (pid : Pid) (topic : Topic) : Bool :=
  decide (topic ∈ stores.keys pid)

def dbhashCheckId (stores : Stores) (pid : Pid) : Bool :=
  !(stores.lists pid).isEmpty

/-- Call the callback once per listed topic, then drop the whole list. -/
def dbhashDelTopicQueue (stores : Stores) (pid : Pid) (cb : Stores → Topic → Stores)
    : Stores :=
  DualIndex.Index.dropList ((stores.keys pid).foldl cb stores) pid

-- sub_ctx_handle

/-- The vector pointer `r` of `sub_ctx_handle`. `cvector_free` releases the storage and
leaves the variable as it is, so a later iteration can still follow it.
-/
inductive RetainVec where
  | null
  | live (entries : List (Option MsgId))
  | released
  deriving DecidableEq, Repr

/-- What the loop reads through `r`; released storage holds whatever is there by now. -/
def RetainVec.read (stale : List (Option MsgId)) : RetainVec → Option (List (Option MsgId))
  | .null => none
  | .live entries => some entries
  | .released => some stale

/-- The variables `sub_ctx_handle` carries from one topic to the next. -/
structure SubCtx where
  stores : Stores
  msgRet : List MsgId
  r : RetainVec

/-- The variables before the loop: no retained message yet and `r` is NULL. -/
def SubCtx.init (stores : Stores) : SubCtx :=
  { stores, msgRet := [], r := .null }

/-- Enter a topic the client does not hold yet into both stores. -/
def subCtxInsert (stores : Stores) (pid : Pid) (topic : Topic) (qos : Nat) : Stores :=
  if dbhashCheckTopic stores pid topic then stores
  else dbhashInsertTopic (dbtreeInsertClient stores topic pid) pid topic qos

section SubCtxHandle

variable (findRetain : Topic → Option (List (Option MsgId)))
  (stale : List (Option MsgId))

/-- One iteration of the loop over the topic list. -/
def subCtxNode (pid : Pid) (ctx : SubCtx) (node : TopicNode) : SubCtx :=
  match node.topicStr with
  | none => ctx
  | some topic =>
      let topicExist := dbhashCheckTopic ctx.stores pid topic
      let stores := subCtxInsert ctx.stores pid topic node.options.qos
      let rh := node.options.retainHandling
      let r :=
        if rh = 0 ∨ (rh = 1 ∧ !topicExist) then
          match findRetain topic with
          | none => RetainVec.null
          | some entries => RetainVec.live entries
        else ctx.r
      match r.read stale with
      | none => { ctx with stores, r }
      | some entries =>
          { stores, msgRet := ctx.msgRet ++ entries.filterMap id, r := .released }

/-- Handle a decoded SUBSCRIBE of one pipe. -/
def subCtxHandle (pid : Pid) (packet : TopicPacket) (stores : Stores)
    : ReasonCode × SubCtx :=
  if packet.node = [] then (-1, .init stores)
  else if packet.packetId = 0 then (-2, .init stores)
  else (0, packet.node.foldl (subCtxNode findRetain stale pid) (.init stores))

end SubCtxHandle

-- sub_ctx_del, unsub_ctx_handle and destroy_sub_client

def subCtxDel (stores : Stores) (topic : Topic) (pid : Pid) : ReasonCode × Stores :=
  (0, dbhashDelTopic (dbtreeDeleteClient stores topic pid) pid topic)

/-- The topic string `unsub_ctx_handle` copies out of an entry. -/
def TopicNode.strndup (node : TopicNode) : Topic :=
  Bytes.cstr ((node.topicBody.getD []).take node.topicLen)

/-- One iteration of the UNSUBSCRIBE loop: the stores and the entry with its code. -/
def unsubCtxNode (pid : Pid) (stores : Stores) (node : TopicNode) : TopicNode × Stores :=
  if node.topicLen = 0 then (node, stores)
  else
    let (rv, stores) := subCtxDel stores node.strndup pid
    ({ node with reasonCode := if rv = 0 then 0x00 else 0x11 }, stores)

/-- Handle the topic list of a decoded UNSUBSCRIBE, from the first entry to the last. -/
def unsubCtxHandle (pid : Pid) : List TopicNode → Stores → List TopicNode × Stores
  | [], stores => ([], stores)
  | node :: rest, stores =>
      let (node, stores) := unsubCtxNode pid stores node
      let (rest, stores) := unsubCtxHandle pid rest stores
      (node :: rest, stores)

/-- Remove a pipe from the tree for every topic it has listed, and drop the list. -/
def destroySubClient (pid : Pid) (stores : Stores) : Stores :=
  dbhashDelTopicQueue stores pid (fun current topic => dbtreeDeleteClient current topic pid)

/-- The store effect of a disconnect event: only a pipe with a list is destroyed. -/
def disconnectClient (pid : Pid) (stores : Stores) : Stores :=
  if dbhashCheckId stores pid then destroySubClient pid stores else stores

-- Store effects of whole packets

/-- The stores after one SUBSCRIBE entry: an entry without a topic changes nothing. -/
def subscribeNode (pid : Pid) (stores : Stores) (node : TopicNode) : Stores :=
  match node.topicStr with
  | none => stores
  | some topic => subCtxInsert stores pid topic node.options.qos

/-- Retained messages never influence the stores, whatever `r` points to. -/
theorem subCtxNode_stores (findRetain : Topic → Option (List (Option MsgId)))
    (stale : List (Option MsgId)) (pid : Pid) (ctx : SubCtx) (node : TopicNode)
    : (subCtxNode findRetain stale pid ctx node).stores
      = subscribeNode pid ctx.stores node := by
  unfold subCtxNode subscribeNode
  cases node.topicStr with
  | none => rfl
  | some topic => dsimp only; split <;> rfl

/-- The whole loop has the store effect of its entries, by induction on the list. -/
theorem foldl_subCtxNode_stores (findRetain : Topic → Option (List (Option MsgId)))
    (stale : List (Option MsgId)) (pid : Pid) (nodes : List TopicNode) (ctx : SubCtx)
    : (nodes.foldl (subCtxNode findRetain stale pid) ctx).stores
      = nodes.foldl (subscribeNode pid) ctx.stores := by
  induction nodes generalizing ctx with
  | nil => rfl
  | cons node rest ih =>
      rw [List.foldl_cons, List.foldl_cons, ih, subCtxNode_stores]

/-- A refused packet leaves the stores alone; an accepted one inserts its entries. -/
theorem subCtxHandle_stores (findRetain : Topic → Option (List (Option MsgId)))
    (stale : List (Option MsgId)) (pid : Pid) (packet : TopicPacket) (stores : Stores)
    : (subCtxHandle findRetain stale pid packet stores).2.stores
      = if packet.packetId = 0 then stores
        else packet.node.foldl (subscribeNode pid) stores := by
  unfold subCtxHandle
  split
  · rename_i empty
    simp [empty, SubCtx.init]
  · split
    · rfl
    · exact foldl_subCtxNode_stores findRetain stale pid packet.node (.init stores)

/-- The stores after one UNSUBSCRIBE entry: an empty topic is skipped. -/
def unsubscribeNode (pid : Pid) (stores : Stores) (node : TopicNode) : Stores :=
  if node.topicLen = 0 then stores else (subCtxDel stores node.strndup pid).2

/-- The UNSUBSCRIBE loop has the store effect of its entries, by list induction. -/
theorem unsubCtxHandle_stores (pid : Pid) (nodes : List TopicNode) (stores : Stores)
    : (unsubCtxHandle pid nodes stores).2 = nodes.foldl (unsubscribeNode pid) stores := by
  induction nodes generalizing stores with
  | nil => rfl
  | cons node rest ih =>
      have head : (unsubCtxNode pid stores node).2 = unsubscribeNode pid stores node := by
        unfold unsubCtxNode unsubscribeNode
        split <;> rfl
      rw [List.foldl_cons, ← head]
      exact ih _

end NanoMQ
