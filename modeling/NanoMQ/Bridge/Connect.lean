import NanoMQ.Nng.Packet

/-! The connect callback of the bridge clients.
All nodes share one flag that says that a session is kept, so whether a node subscribes
depends on the callbacks of the others before it.
-/

namespace NanoMQ

/-- An entry of `sub_list`. -/
structure BridgeSub where
  topic : List UInt8
  qos : BitVec 2
  deriving DecidableEq, Repr

/-- What the callback reads of a node; `subList` has `sub_count` entries. -/
structure BridgeClientConf where
  cleanStart : Bool
  subList : List BridgeSub
  deriving DecidableEq, Repr

/-- A run of the callback: the node it is registered for and the reason of the CONNACK. -/
structure ConnectEvent (Node : Type) where
  node : Node
  reason : Int
  deriving DecidableEq, Repr

/-- The flag, and the calls of `nng_mqtt_subscribe_async` so far: the node whose client is
used and the entries of its array.
-/
structure BridgeSessions (Node : Type) where
  sessionIsKeptTcp : Bool
  subscribed : List (Node × List (List UInt8 × BitVec 2))
  deriving DecidableEq, Repr

section Connect

variable {Node : Type} (config : Node → BridgeClientConf)

/-- The array that `nng_mqtt_topic_qos_array_set` fills. -/
def topicQosArray (subList : List BridgeSub) : List (List UInt8 × BitVec 2) :=
  subList.map fun sub => (sub.topic, sub.qos)

/-- The flag ends the callback before anything else; it is set by every callback of a node
without clean start that gets past it, also when the connection was refused.
-/
def bridgeConnectCb (event : ConnectEvent Node) (sessions : BridgeSessions Node)
    : BridgeSessions Node :=
  if sessions.sessionIsKeptTcp then sessions
  else
    let conf := config event.node
    let subscribed :=
      if event.reason = 0 ∧ 0 < conf.subList.length then
        sessions.subscribed ++ [(event.node, topicQosArray conf.subList)]
      else sessions.subscribed
    { sessionIsKeptTcp := !conf.cleanStart, subscribed }

/-- The broker has just been started. -/
def BridgeSessions.start : BridgeSessions Node :=
  { sessionIsKeptTcp := false, subscribed := [] }

/-- The callbacks run one after another. -/
def connectCallbacks (events : List (ConnectEvent Node)) : BridgeSessions Node :=
  events.foldl (fun sessions event => bridgeConnectCb config event sessions) .start

/-- The node has issued a subscribe. -/
def BridgeSessions.HasSubscribed (sessions : BridgeSessions Node) (node : Node) : Prop :=
  ∃ entries, (node, entries) ∈ sessions.subscribed

/-- Every callback for a node that connects, has subscriptions and has not subscribed yet
issues one subscribe with all of them.
-/
def SubscribesEveryBridge (events : List (ConnectEvent Node)) : Prop :=
  ∀ before event after,
    events = before ++ event :: after
    → event.reason = 0
    → 0 < (config event.node).subList.length
    → ¬(connectCallbacks config before).HasSubscribed event.node
    → (bridgeConnectCb config event (connectCallbacks config before)).subscribed
      = (connectCallbacks config before).subscribed
        ++ [(event.node, topicQosArray (config event.node).subList)]

/-- When a node with subscriptions connects for the first time, only nodes with clean start
have had a callback.
-/
def FirstConnectsClean (events : List (ConnectEvent Node)) : Prop :=
  ∀ before event after,
    events = before ++ event :: after
    → event.reason = 0
    → 0 < (config event.node).subList.length
    → (∀ earlier ∈ before, earlier.node = event.node → earlier.reason ≠ 0)
    → ∀ earlier ∈ before, (config earlier.node).cleanStart = true

variable {config}

theorem connectCallbacks_snoc (before : List (ConnectEvent Node)) (event : ConnectEvent Node)
    : connectCallbacks config (before ++ [event])
      = bridgeConnectCb config event (connectCallbacks config before) := by
  simp [connectCallbacks]

theorem connectCallbacks_kept (events : List (ConnectEvent Node))
    : (connectCallbacks config events).sessionIsKeptTcp = false
      ↔ ∀ event ∈ events, (config event.node).cleanStart = true := by
  induction events using List.reverseRecOn with
  | nil => simp [connectCallbacks, BridgeSessions.start]
  | append_singleton before event ih =>
      rw [connectCallbacks_snoc]
      unfold bridgeConnectCb
      cases kept : (connectCallbacks config before).sessionIsKeptTcp with
      | true =>
          rw [kept] at ih
          have unclean : ¬∀ event ∈ before, (config event.node).cleanStart = true :=
            fun clean => nomatch ih.mpr clean
          simp only [if_true, kept, Bool.true_eq_false, List.forall_mem_append, false_iff]
          exact fun clean => unclean clean.1
      | false =>
          have clean := ih.mp kept
          simp only [Bool.false_eq_true, if_false, Bool.not_eq_eq_eq_not, Bool.not_false,
            List.forall_mem_append, List.forall_mem_singleton]
          exact ⟨fun last => ⟨clean, last⟩, fun all => all.2⟩

theorem connected_of_hasSubscribed {events : List (ConnectEvent Node)} {node : Node}
    (subscribed : (connectCallbacks config events).HasSubscribed node)
    : ∃ event ∈ events, event.node = node ∧ event.reason = 0 := by
  induction events using List.reverseRecOn with
  | nil =>
      obtain ⟨_, none⟩ := subscribed
      cases none
  | append_singleton before event ih =>
      have earlier (old : (connectCallbacks config before).HasSubscribed node)
          : ∃ found ∈ before ++ [event], found.node = node ∧ found.reason = 0 := by
        obtain ⟨found, member, connected⟩ := ih old
        exact ⟨found, List.mem_append_left _ member, connected⟩
      rw [connectCallbacks_snoc] at subscribed
      unfold bridgeConnectCb at subscribed
      split at subscribed
      · exact earlier subscribed
      · obtain ⟨entries, member⟩ := subscribed
        dsimp only at member
        split at member
        · rename_i connects
          rcases List.mem_append.mp member with old | new
          · exact earlier ⟨entries, old⟩
          · obtain ⟨rfl, _⟩ := Prod.mk.inj (List.mem_singleton.mp new)
            exact ⟨event, by simp, rfl, connects.1⟩
        · exact earlier ⟨entries, member⟩

theorem HasSubscribed.mono {before after : List (ConnectEvent Node)} {node : Node}
    (subscribed : (connectCallbacks config before).HasSubscribed node)
    : (connectCallbacks config (before ++ after)).HasSubscribed node := by
  induction after using List.reverseRecOn with
  | nil => simpa using subscribed
  | append_singleton later event ih =>
      rw [← List.append_assoc, connectCallbacks_snoc]
      obtain ⟨entries, member⟩ := ih
      refine ⟨entries, ?_⟩
      unfold bridgeConnectCb
      split
      · exact member
      · dsimp only
        split
        · exact List.mem_append_left _ member
        · exact member

theorem bridgeConnectCb_subscribes {event : ConnectEvent Node}
    {sessions : BridgeSessions Node} (notKept : sessions.sessionIsKeptTcp = false)
    (connected : event.reason = 0) (subs : 0 < (config event.node).subList.length)
    : (bridgeConnectCb config event sessions).subscribed
      = sessions.subscribed ++ [(event.node, topicQosArray (config event.node).subList)] := by
  simp [bridgeConnectCb, notKept, connected, subs]

theorem FirstConnectsClean.of_append {before after : List (ConnectEvent Node)}
    (firstClean : FirstConnectsClean config (before ++ after))
    : FirstConnectsClean config before := by
  intro earlier event later split
  refine firstClean earlier event (later ++ after) ?_
  rw [split, List.append_assoc, List.cons_append]

/-- If every first connect comes in time, a node that has connected has subscribed. Witness:
induction on the callbacks, from the last one.
-/
theorem FirstConnectsClean.hasSubscribed {events : List (ConnectEvent Node)} {node : Node}
    (firstClean : FirstConnectsClean config events)
    (subs : 0 < (config node).subList.length)
    (connected : ∃ event ∈ events, event.node = node ∧ event.reason = 0)
    : (connectCallbacks config events).HasSubscribed node := by
  induction events using List.reverseRecOn with
  | nil =>
      obtain ⟨_, none, _⟩ := connected
      cases none
  | append_singleton before event ih =>
      by_cases earlier : ∃ event ∈ before, event.node = node ∧ event.reason = 0
      · exact HasSubscribed.mono (ih firstClean.of_append earlier)
      · obtain ⟨last, member, rfl, success⟩ := connected
        have isLast : last = event := by
          rcases List.mem_append.mp member with old | new
          · exact absurd ⟨last, old, rfl, success⟩ earlier
          · exact List.mem_singleton.mp new
        subst isLast
        have clean := firstClean before last [] rfl success subs
          fun found inBefore same reason => earlier ⟨found, inBefore, same, reason⟩
        rw [connectCallbacks_snoc]
        refine ⟨topicQosArray (config last.node).subList, ?_⟩
        rw [bridgeConnectCb_subscribes ((connectCallbacks_kept before).mpr clean) success subs]
        exact List.mem_append_right _ List.mem_cons_self

/-- Every bridge gets its subscriptions exactly if, whenever a node with subscriptions
connects for the first time, no node without clean start has had a callback before.
-/
theorem every_bridge_subscribes_iff (events : List (ConnectEvent Node))
    : SubscribesEveryBridge config events ↔ FirstConnectsClean config events := by
  constructor
  · intro subscribes before event after split connected subs first
    have notYet : ¬(connectCallbacks config before).HasSubscribed event.node := by
      intro already
      obtain ⟨earlier, member, same, success⟩ := connected_of_hasSubscribed already
      exact first earlier member same success
    have issued := subscribes before event after split connected subs notYet
    rw [← connectCallbacks_kept]
    cases kept : (connectCallbacks config before).sessionIsKeptTcp with
    | false => rfl
    | true => simp [bridgeConnectCb, kept] at issued
  · intro firstClean before event after split connected subs notYet
    refine bridgeConnectCb_subscribes ?_ connected subs
    rw [connectCallbacks_kept]
    refine firstClean before event after split connected subs ?_
    intro earlier member same success
    have cleanBefore : FirstConnectsClean config before := by
      rw [split] at firstClean
      exact firstClean.of_append
    exact notYet (cleanBefore.hasSubscribed subs ⟨earlier, member, same, success⟩)

end Connect

/-- Two nodes with one subscription each; the first keeps its session. -/
def twoBridges (first : Bool) : BridgeClientConf :=
  { cleanStart := !first, subList := [{ topic := [97], qos := 1 }] }

/-- The second node connects and never subscribes: the callback of the first has set the
flag, even if its connection was refused. A refused first attempt keeps a node from its own
subscriptions, too.
-/
theorem kept_session_silences_others
    : (connectCallbacks twoBridges
        [{ node := true, reason := 0 }, { node := false, reason := 0 }]).subscribed
        = [(true, [([97], 1)])]
      ∧ (connectCallbacks twoBridges
        [{ node := true, reason := 5 }, { node := false, reason := 0 }]).subscribed = []
      ∧ (connectCallbacks twoBridges
        [{ node := true, reason := 5 }, { node := true, reason := 0 }]).subscribed = []
      ∧ ¬SubscribesEveryBridge twoBridges
          [{ node := true, reason := 0 }, { node := false, reason := 0 }] := by
  refine ⟨by decide, by decide, by decide, ?_⟩
  intro subscribes
  have issued := subscribes [{ node := true, reason := 0 }] { node := false, reason := 0 } []
    rfl rfl (by decide) (by
      rintro ⟨entries, member⟩
      simp [connectCallbacks, bridgeConnectCb, BridgeSessions.start, twoBridges] at member)
  exact absurd issued (by decide)

end NanoMQ
