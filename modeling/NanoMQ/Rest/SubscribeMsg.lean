import NanoMQ.Hashmap.Refinement
import NanoMQ.Rest.CJson
import NanoMQ.Subscriptions.Agreement

/-! Subscriptions over the REST interface: `handle_subscribe_msg` looks up the client in the
table of client ids and enters the topics of the request into both stores.
-/

namespace NanoMQ.Rest

open Bytes Hashmap

-- handle_subscribe_msg

/-- `nano_strtok(topic, ",", &temp)` until it returns NULL: empty pieces are skipped. -/
def strtokCommas (text : Text) : List Topic :=
  (text.splitOn 44).filter (fun piece => piece != [])

/-- The topics of a request: `topic` as it is, or else `topics` split at commas. -/
def listedTopics (request : CJson) : Option (List Topic) :=
  match request.getStringValue (lit "topic") with
  | some topic => some [topic]
  | none => (request.getStringValue (lit "topics")).map strtokCommas

/-- The statics of `broker.c` that the handler reads. -/
structure Globals where
  cidTable : Option Table
  stores : Stores

/-- `cid_table` starts as NULL, and nothing assigns to it. -/
def Globals.initial : Globals :=
  { cidTable := none, stores := .empty }

section Subscribe

-- The conversion of a `qos` that is not a byte.
variable (wild : Double → Nat)

/-- `qos` and `rv` after the last lookup: the default stays, but `rv` does not. -/
def lookupQos (request : CJson) : Nat × Int :=
  match request.getNumberValue (lit "qos") with
  | some given => (given.toUnsigned wild 8, 0)
  | none => (0, -1)

/-- The loop over the topics of a connected client. -/
def subscribeTopics (pid qos : Nat) (topics : List Topic) (stores : Stores) : Stores :=
  topics.foldl (fun stores topic => subCtxInsert stores pid topic qos) stores

/-- The return value and the stores; none where the lookup follows a NULL table. -/
def handleSubscribeMsg (globals : Globals) (request : CJson) : Option (Nat × Stores) :=
  match listedTopics request, request.getStringValue (lit "clientid") with
  | some topics, some clientid =>
      let (qos, rv) := lookupQos wild request
      match globals.cidTable with
      | none => none
      | some table =>
          let pid := (hashmapGet table clientid).toNat
          let stores :=
            if pid ≠ 0 then subscribeTopics pid qos topics globals.stores else globals.stores
          some ((if rv ≠ 0 then ResultCode.UNKNOWN_MISTAKE else .SUCCEED).value, stores)
  | _, _ => some (ResultCode.REQ_PARAM_ERROR.value, globals.stores)

-- What the result should say

/-- A request without a list of topics or without a client id. -/
def Malformed (request : CJson) : Prop :=
  listedTopics request = none ∨ request.getStringValue (lit "clientid") = none

/-- The client of a request is connected, and both stores have all topics under its pipe. -/
def Subscribed (cidTable : Option Table) (request : CJson) (stores : Stores) : Prop :=
  ∃ topics clientid table,
    listedTopics request = some topics
    ∧ request.getStringValue (lit "clientid") = some clientid
    ∧ cidTable = some table
    ∧ (hashmapGet table clientid).toNat ≠ 0
    ∧ ∀ topic ∈ topics,
        (topic, (hashmapGet table clientid).toNat) ∈ stores.pairs
        ∧ topic ∈ stores.keys (hashmapGet table clientid).toNat

/-- The handler completes, its result tells whether the topics are subscribed, and a failure
leaves the stores as they were.
-/
def ResultMatches (globals : Globals) (request : CJson) : Prop :=
  ∃ code stores,
    handleSubscribeMsg wild globals request = some (code, stores)
    ∧ (code = 0 ↔ Subscribed globals.cidTable request stores)
    ∧ (code ≠ 0 → stores = globals.stores)

-- The two kinds of requests

theorem Malformed.matches {request : CJson} (malformed : Malformed request) (globals : Globals)
    : ResultMatches wild globals request := by
  have refused
      : handleSubscribeMsg wild globals request
        = some (ResultCode.REQ_PARAM_ERROR.value, globals.stores) := by
    unfold handleSubscribeMsg
    rcases malformed with noTopics | noClient
    · rw [noTopics]
    · rw [noClient]
      cases listedTopics request <;> rfl
  refine ⟨_, _, refused, ⟨fun zero => absurd zero (by decide), ?_⟩, fun _ => rfl⟩
  rintro ⟨topics, clientid, _, listed, named, _⟩
  rcases malformed with noTopics | noClient
  · rw [noTopics] at listed
    cases listed
  · rw [noClient] at named
    cases named

theorem wellFormed_of_not {request : CJson} (wellFormed : ¬Malformed request)
    : ∃ topics clientid,
        listedTopics request = some topics
        ∧ request.getStringValue (lit "clientid") = some clientid := by
  obtain ⟨hasTopics, hasClient⟩ := not_or.mp wellFormed
  obtain ⟨topics, listed⟩ := Option.ne_none_iff_exists'.mp hasTopics
  obtain ⟨clientid, named⟩ := Option.ne_none_iff_exists'.mp hasClient
  exact ⟨topics, clientid, listed, named⟩

end Subscribe

-- Reachable states

section Reachable

variable (wild : Double → Nat) (findRetain : Topic → Option (List (Option MsgId)))
  (stale : List (Option MsgId))

/-- A complete handler of the broker or a completed REST request changes the stores. -/
inductive Globals.Step : Globals → Globals → Prop
  | handler {globals} (run : HandlerRun)
    : Step globals { globals with stores := run.apply findRetain stale globals.stores }
  | request {globals request code stores}
    (completed : handleSubscribeMsg wild globals request = some (code, stores))
    : Step globals { globals with stores }

/-- The states that the broker reaches from its start. -/
def Globals.Reachable : Globals → Prop :=
  Relation.ReflTransGen (Globals.Step wild findRetain stale) Globals.initial

/-- No step sets the table. By induction on the steps. -/
theorem Globals.Reachable.no_table {globals : Globals}
    (reachable : globals.Reachable wild findRetain stale)
    : globals.cidTable = none := by
  induction reachable with
  | refl => rfl
  | tail _ step ih => cases step <;> exact ih

/-- In every reachable state the result of a request matches its effect exactly if the request
is malformed: all others follow the missing table.
-/
theorem rest_subscribe_iff {globals : Globals}
    (reachable : globals.Reachable wild findRetain stale) (request : CJson)
    : ResultMatches wild globals request ↔ Malformed request := by
  refine ⟨?_, fun malformed => malformed.matches wild globals⟩
  rintro ⟨code, stores, completed, _⟩
  by_contra wellFormed
  obtain ⟨topics, clientid, listed, named⟩ := wellFormed_of_not wellFormed
  unfold handleSubscribeMsg at completed
  rw [listed, named, reachable.no_table] at completed
  cases completed

end Reachable

/-- A request with nothing but a topic is refused after a subscription of pipe 7 to `b`. -/
theorem rest_subscribe_refused
    : let request : CJson := .object [(lit "topic", .string (lit "a"))]
      let filter : TopicNode := { TopicNode.zeroed with topicBody := some (lit "b"), topicLen := 1 }
      let packet : TopicPacket := { TopicPacket.zeroed with packetId := 1, node := [filter] }
      let globals : Globals :=
        {
          cidTable := none
          stores := HandlerRun.apply (fun _ => none) [] .empty (.subscribe 7 packet)
        }
      (lit "b", 7) ∈ globals.stores.pairs ∧ ResultMatches (fun _ => 0) globals request := by
  intro request filter packet globals
  have reachable : globals.Reachable (fun _ => 0) (fun _ => none) [] :=
    .single (.handler (.subscribe 7 packet))
  refine ⟨by decide +kernel, ?_⟩
  exact (rest_subscribe_iff _ _ _ reachable request).mpr (.inr (by decide +kernel))

/-- A request with a topic, a client id and a `qos` right after the start. -/
theorem rest_subscribe_crashes
    : let request : CJson :=
        .object
          [
            (lit "topic", .string (lit "a")),
            (lit "clientid", .string (lit "c")),
            (lit "qos", .number (.finite (1 : Nat)))
          ]
      (handleSubscribeMsg (fun _ => 0) .initial request).isNone
      ∧ ¬ResultMatches (fun _ => 0) .initial request := by
  intro request
  have crashed : (handleSubscribeMsg (fun _ => 0) .initial request).isNone := by decide +kernel
  refine ⟨crashed, ?_⟩
  rintro ⟨code, stores, completed, _⟩
  rw [completed] at crashed
  cases crashed

end NanoMQ.Rest
