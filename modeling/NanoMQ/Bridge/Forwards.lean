import NanoMQ.Broker.Reference

/-! Which bridges `bridge_handler` hands a publication to, and how often.
Every matching filter of an enabled node asks once whether the one aio for all bridges is
busy, and sends if it is not.
-/

namespace NanoMQ

-- Questions and answers

/-- How many filters of a node match; a node that is not enabled does not look. -/
def BridgeNode.matching (lib : Library) (topic : Option (List UInt8)) (node : BridgeNode)
    : Nat :=
  if node.enable then node.forwards.countP (lib.topicFilter · topic) else 0

/-- How many of the questions from `asked` on find the aio idle. -/
def idleCount (busy : Nat → Bool) (asked count : Nat) : Nat :=
  (List.range' asked count).countP fun question => !busy question

/-- The message that a call hands to the socket of this node. -/
def Effect.bridgeCopy (index : Nat) : Effect → Option BridgeMsg
  | .bridgeSend node msg => if node = index then some msg else none
  | _ => none

/-- The copies of an activation that go to the socket of this node. -/
def bridgeCopies (index : Nat) (trace : List Effect) : List BridgeMsg :=
  trace.filterMap (Effect.bridgeCopy index)

/-- Everything the questions of one node send: a copy for each that finds the aio idle. -/
theorem bridgeForwards_sends (lib : Library) (env : Env) (msg : BridgeMsg) (node : Nat)
    (filters : List Topic) (asked : Nat) (s : Cb)
    : let out := bridgeForwards lib env msg node filters asked s
      let count := filters.countP (lib.topicFilter · msg.topic)
      out.1 = asked + count
      ∧ out.2.trace
        = s.trace
          ++ List.replicate (idleCount env.bridgeBusy asked count) (.bridgeSend node msg) := by
  induction filters generalizing asked s with
  | nil => simp [bridgeForwards, idleCount]
  | cons filter rest ih =>
      dsimp only at ih ⊢
      unfold bridgeForwards
      dsimp only
      rw [List.countP_cons]
      by_cases found : lib.topicFilter filter msg.topic = true
      · simp only [found, if_true]
        cases busy : env.bridgeBusy asked with
        | true =>
            obtain ⟨next, sends⟩ := ih (asked + 1) (s.setState .SEND)
            simp only [if_true]
            refine ⟨by omega, sends.trans ?_⟩
            simp [idleCount, List.range'_succ, busy, Cb.setState, Cb.setWork]
        | false =>
            obtain ⟨next, sends⟩ := ih (asked + 1)
              ((s.setState .SEND).emit (.bridgeSend node msg))
            simp only [Bool.false_eq_true, if_false]
            refine ⟨by omega, sends.trans ?_⟩
            simp [idleCount, List.range'_succ, busy, Cb.setState, Cb.setWork, Cb.emit,
              List.replicate_succ]
      · simp only [found, Bool.false_eq_true, if_false]
        exact ih asked s

/-- The questions that the enabled nodes in front of this one ask. -/
def askedBefore (lib : Library) (topic : Option (List UInt8)) (nodes : List BridgeNode)
    (index : Nat)
    : Nat :=
  ((nodes.take index).map (·.matching lib topic)).sum

/-- What is handed to the node at this place: a copy for each of its questions that finds the
aio idle, and nothing if there is no such node.
-/
def expectedCopies (lib : Library) (env : Env) (msg : BridgeMsg) (nodes : List BridgeNode)
    (index asked : Nat)
    : List BridgeMsg :=
  let count := (nodes[index]?.map (·.matching lib msg.topic)).getD 0
  List.replicate
    (idleCount env.bridgeBusy (asked + askedBefore lib msg.topic nodes index) count) msg

theorem bridgeCopies_sends (index node count : Nat) (msg : BridgeMsg)
    : bridgeCopies index (List.replicate count (.bridgeSend node msg))
      = if node = index then List.replicate count msg else [] := by
  unfold bridgeCopies
  induction count with
  | zero => simp
  | succ count ih =>
      rw [List.replicate_succ, List.filterMap_cons, ih]
      by_cases same : node = index <;> simp [Effect.bridgeCopy, same, List.replicate_succ]

theorem bridgeCopies_append (index : Nat) (earlier later : List Effect)
    : bridgeCopies index (earlier ++ later)
      = bridgeCopies index earlier ++ bridgeCopies index later :=
  List.filterMap_append

section Nodes

variable (lib : Library) (env : Env) (msg : BridgeMsg)

theorem bridgeNodes_cons (node : BridgeNode) (rest : List BridgeNode) (first asked : Nat)
    (s : Cb)
    : ∃ t,
        bridgeNodes lib env msg (node :: rest) first asked s
          = bridgeNodes lib env msg rest (first + 1) (asked + node.matching lib msg.topic) t
        ∧ t.trace
          = s.trace
            ++ List.replicate
                (idleCount env.bridgeBusy asked (node.matching lib msg.topic))
                (.bridgeSend first msg) := by
  unfold BridgeNode.matching
  cases enabled : node.enable with
  | true =>
      obtain ⟨next, sends⟩ :=
        bridgeForwards_sends lib env msg first node.forwards asked s
      refine ⟨(bridgeForwards lib env msg first node.forwards asked s).2, ?_, ?_⟩
      · simp only [bridgeNodes, enabled, if_true, next]
      · simpa using sends
  | false =>
      refine ⟨s, ?_, ?_⟩
      · simp [bridgeNodes, enabled]
      · simp [idleCount]

theorem bridgeNodes_copies_earlier (nodes : List BridgeNode) {first index : Nat}
    (earlier : index < first) (asked : Nat) (s : Cb)
    : bridgeCopies index (bridgeNodes lib env msg nodes first asked s).trace
      = bridgeCopies index s.trace := by
  induction nodes generalizing first asked s with
  | nil => rfl
  | cons node rest ih =>
      obtain ⟨t, unfolded, sends⟩ := bridgeNodes_cons lib env msg node rest first asked s
      rw [unfolded, ih (Nat.lt_succ_of_lt earlier), sends, bridgeCopies_append,
        bridgeCopies_sends, if_neg (Nat.ne_of_gt earlier), List.append_nil]

/-- What the nodes get, by induction on the nodes. -/
theorem bridgeNodes_copies (nodes : List BridgeNode) (first asked index : Nat) (s : Cb)
    : bridgeCopies (first + index) (bridgeNodes lib env msg nodes first asked s).trace
      = bridgeCopies (first + index) s.trace
        ++ expectedCopies lib env msg nodes index asked := by
  induction nodes generalizing first asked index s with
  | nil => simp [bridgeNodes, expectedCopies, idleCount]
  | cons node rest ih =>
      obtain ⟨t, unfolded, sends⟩ := bridgeNodes_cons lib env msg node rest first asked s
      rw [unfolded]
      cases index with
      | zero =>
          rw [Nat.add_zero, bridgeNodes_copies_earlier lib env msg rest (Nat.lt_succ_self first),
            sends, bridgeCopies_append, bridgeCopies_sends, if_pos rfl]
          simp [expectedCopies, askedBefore]
      | succ index =>
          have other : first ≠ first + (index + 1) := by omega
          have shifted := ih (first + 1) (asked + node.matching lib msg.topic) index t
          rw [Nat.add_right_comm, Nat.add_assoc] at shifted
          rw [shifted, sends, bridgeCopies_append, bridgeCopies_sends, if_neg other,
            List.append_nil]
          simp [expectedCopies, askedBefore, Nat.add_assoc]

end Nodes

-- Exactly once

/-- The node at this place is enabled and has a filter that matches the topic. -/
def Wants (lib : Library) (topic : Option (List UInt8)) (nodes : List BridgeNode)
    (index : Nat)
    : Prop :=
  ∃ node,
    nodes[index]? = some node
    ∧ node.enable = true
    ∧ ∃ filter ∈ node.forwards, lib.topicFilter filter topic = true

/-- `bridge_handler` hands one copy of the publication to each node that wants it, and none
to any other.
-/
def ForwardsOnce (lib : Library) (env : Env) (work : Work) (world : World) : Prop :=
  let trace := (bridgeHandler lib env { work, world, trace := [] }).trace
  ∀ index,
    (Wants lib (bridgeMsg work).topic work.config.bridgeNodes index
        → bridgeCopies index trace = [bridgeMsg work])
      ∧ (¬Wants lib (bridgeMsg work).topic work.config.bridgeNodes index
        → bridgeCopies index trace = [])

/-- Of the matching filters of every node that wants the publication, exactly one finds the
aio idle.
-/
def OneFilterIdle (lib : Library) (env : Env) (topic : Option (List UInt8))
    (nodes : List BridgeNode)
    : Prop :=
  ∀ index node,
    nodes[index]? = some node
    → 0 < node.matching lib topic
    → idleCount env.bridgeBusy (askedBefore lib topic nodes index) (node.matching lib topic)
      = 1

theorem wants_iff {lib : Library} {topic : Option (List UInt8)} {nodes : List BridgeNode}
    {index : Nat}
    : Wants lib topic nodes index
      ↔ ∃ node, nodes[index]? = some node ∧ 0 < node.matching lib topic := by
  unfold Wants BridgeNode.matching
  constructor
  · rintro ⟨node, found, enabled, filter, member, matched⟩
    refine ⟨node, found, ?_⟩
    rw [if_pos enabled, List.countP_pos_iff]
    exact ⟨filter, member, matched⟩
  · rintro ⟨node, found, positive⟩
    split at positive
    · rename_i enabled
      obtain ⟨filter, member, matched⟩ := List.countP_pos_iff.mp positive
      exact ⟨node, found, enabled, filter, member, matched⟩
    · cases positive

theorem bridgeHandler_copies (lib : Library) (env : Env) (work : Work) (world : World)
    (index : Nat)
    : bridgeCopies index (bridgeHandler lib env { work, world, trace := [] }).trace
      = expectedCopies lib env (bridgeMsg work) work.config.bridgeNodes index 0 := by
  have copies := bridgeNodes_copies lib env (bridgeMsg work) work.config.bridgeNodes 0 0 index
    (Cb.read { work, world, trace := [] } [.fields])
  rw [Nat.zero_add] at copies
  exact copies

/-- The publication is forwarded exactly once to each bridge that wants it if and only if,
for each of these, exactly one matching filter finds the aio idle.
-/
theorem bridge_forwards_once_iff (lib : Library) (env : Env) (work : Work) (world : World)
    : ForwardsOnce lib env work world
      ↔ OneFilterIdle lib env (bridgeMsg work).topic work.config.bridgeNodes := by
  unfold ForwardsOnce
  dsimp only
  simp only [bridgeHandler_copies, expectedCopies, Nat.zero_add]
  constructor
  · intro once index node found positive
    have copies := (once index).1 (wants_iff.mpr ⟨node, found, positive⟩)
    rw [found] at copies
    simpa using congrArg List.length copies
  · intro idle index
    refine ⟨?_, ?_⟩
    · intro wants
      obtain ⟨node, found, positive⟩ := wants_iff.mp wants
      rw [found, Option.map_some, Option.getD_some, idle index node found positive]
      rfl
    · intro unwanted
      have nothing
          : (work.config.bridgeNodes[index]?.map
              (·.matching lib (bridgeMsg work).topic)).getD 0
            = 0 := by
        by_contra positive
        cases found : work.config.bridgeNodes[index]? with
        | none => simp [found] at positive
        | some node =>
            rw [found, Option.map_some, Option.getD_some] at positive
            exact unwanted (wants_iff.mpr ⟨node, found, Nat.pos_of_ne_zero positive⟩)
      rw [nothing]
      rfl

/-- A broker context with these bridges that holds a packet for topic `a`. -/
def Work.bridging (nodes : List BridgeNode) : Work :=
  {
    Work.receiving .MQTT_BROKER with
    state := .WAIT
    pubPacket := some (PubPacket.zeroed.setTopicName { body := some [97], len := 1 })
    config := { (Work.idle .MQTT_BROKER).config with bridgeMode := true, bridgeNodes := nodes }
  }

/-- A filter given twice sends two copies while the aio is idle, and of two bridges the second
gets none while the send to the first keeps the aio busy.
-/
theorem overlapping_and_busy_forwards
    : let lib := referenceLibrary fun _ => none
      let overlapping := Work.bridging [{ enable := true, forwards := [[97], [97]] }]
      let two :=
        Work.bridging
          [{ enable := true, forwards := [[97]] }, { enable := true, forwards := [[97]] }]
      let busyAfterSend := { Env.brings none with bridgeBusy := fun question => 0 < question }
      let copies := fun env work index =>
        bridgeCopies index (bridgeHandler lib env { work, world := .empty, trace := [] }).trace
      copies (.brings none) overlapping 0 = [bridgeMsg overlapping, bridgeMsg overlapping]
      ∧ copies busyAfterSend two 0 = [bridgeMsg two]
      ∧ copies busyAfterSend two 1 = []
      ∧ ¬ForwardsOnce lib (.brings none) overlapping .empty
      ∧ ¬ForwardsOnce lib busyAfterSend two .empty := by
  refine ⟨by decide, by decide, by decide, ?_, ?_⟩
  · intro once
    have one := (once 0).1 ⟨_, rfl, rfl, [97], by decide, by decide⟩
    exact absurd one (by decide)
  · intro once
    have one := (once 1).1 ⟨_, rfl, rfl, [97], by decide, by decide⟩
    exact absurd one (by decide)

end NanoMQ
