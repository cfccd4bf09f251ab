import NanoMQ.Broker.Work
import NanoMQ.Library.Segments

/-! The work contexts that `broker` creates: the size of their array is summed up in one place,
and three loops fill it in another.
-/

namespace NanoMQ

open Segments

/-- The fields of a bridge node that decide on its contexts. -/
structure NodeContexts where
  enable : Bool
  parallel : UInt64

/-- The configuration that decides on the contexts. -/
structure ContextConf where
  parallel : UInt64
  bridgeMode : Bool
  nodes : List NodeContexts
  httpEnable : Bool

/-- `OPT_PARALLEL` of `broker_parse_opts`: the result of `atoi` is stored in 64 bits. -/
def optParallel (atoi : Int) : UInt64 :=
  .ofInt atoi

def HTTP_CTX_NUM : UInt64 := 4

/-- What `proto_work_init` is asked for: the role, and the bridge node whose socket it gets; the
others get the socket of the broker.
-/
structure NewWork where
  proto : WorkProto
  bridgeSock : Option Nat
  deriving DecidableEq

-- broker

def addParallel (numCtx : UInt64) (node : NodeContexts) : UInt64 :=
  if node.enable then numCtx + node.parallel else numCtx

/-- The number of contexts, in 64 bits. -/
def numCtx (conf : ContextConf) : UInt64 :=
  let numCtx := conf.parallel
  let numCtx := if conf.httpEnable then numCtx + HTTP_CTX_NUM else numCtx
  if conf.bridgeMode then conf.nodes.foldl addParallel numCtx else numCtx

/-- The loops over the bridge nodes, with the index behind the last context. -/
def createBridges
    : List NodeContexts → (t : Nat) → (tmp : UInt64) → Option (List (Int × NewWork) × UInt64)
  | [], _, tmp => some ([], tmp)
  | node :: rest, t, tmp =>
      if node.enable then
        let stop := tmp + node.parallel
        (fillLoop { proto := .MQTT_BRIDGE, bridgeSock := some t } stop.toNat
          (toInt tmp.toNat)).bind fun first =>
          (createBridges rest (t + 1) stop).map fun (more, tmp) => (first ++ more, tmp)
      else createBridges rest (t + 1) tmp

/-- The writes to `works`: the contexts of the broker, of the bridges and of the HTTP server. -/
def createWorks (conf : ContextConf) : Option (List (Int × NewWork)) :=
  (fillLoop { proto := .MQTT_BROKER, bridgeSock := none } conf.parallel.toNat 0).bind
    fun brokers =>
      (if conf.bridgeMode then createBridges conf.nodes 0 conf.parallel
        else some ([], conf.parallel)).bind fun (bridges, tmp) =>
          (if conf.httpEnable then
              fillLoop { proto := .HTTP_SERVER, bridgeSock := none } (tmp + HTTP_CTX_NUM).toNat
                (toInt tmp.toNat)
            else some []).map fun servers => brokers ++ (bridges ++ servers)

-- The segments

/-- The segment of so many contexts. -/
def contexts (parallel : UInt64) (proto : WorkProto) (bridgeSock : Option Nat)
    : Segment NewWork :=
  { count := parallel.toNat, slot := { proto, bridgeSock }, fits := parallel.toNat_lt }

/-- The segments of the enabled nodes. -/
def bridgeSegments : List NodeContexts → Nat → List (Segment NewWork)
  | [], _ => []
  | node :: rest, t =>
      if node.enable then
        contexts node.parallel .MQTT_BRIDGE (some t) :: bridgeSegments rest (t + 1)
      else bridgeSegments rest (t + 1)

/-- The segments behind those of the broker, in bridge mode. -/
def allBridges (conf : ContextConf) : List (Segment NewWork) :=
  if conf.bridgeMode then bridgeSegments conf.nodes 0 else []

def httpServers (conf : ContextConf) : List (Segment NewWork) :=
  if conf.httpEnable then [contexts HTTP_CTX_NUM .HTTP_SERVER none] else []

/-- The contexts that a configuration asks for, segment by segment. -/
def workSegments (conf : ContextConf) : List (Segment NewWork) :=
  contexts conf.parallel .MQTT_BROKER none :: (allBridges conf ++ httpServers conf)

/-- The loops over the nodes fill their segments. By induction on the nodes. -/
theorem createBridges_eq (nodes : List NodeContexts) (t : Nat) (tmp : UInt64)
    : createBridges nodes t tmp
      = (fillSegments (bridgeSegments nodes t) tmp.toNat).map
          (·, nodes.foldl addParallel tmp) := by
  induction nodes generalizing t tmp with
  | nil => rfl
  | cons node rest ih =>
      rw [createBridges, bridgeSegments, List.foldl_cons, addParallel]
      split
      · simp only [fillSegments, ih, contexts, UInt64.toNat_add]
        cases fillLoop _ _ _ with
        | none => rfl
        | some first => simp [Function.comp_def]
      · exact ih (t + 1) tmp

/-- The sum over the nodes, in 64 bits. By induction on the nodes. -/
theorem toNat_foldl_addParallel (nodes : List NodeContexts) (t : Nat) (tmp : UInt64)
    : (nodes.foldl addParallel tmp).toNat
      = (tmp.toNat + total (bridgeSegments nodes t)) % 2 ^ 64 := by
  induction nodes generalizing t tmp with
  | nil => exact (Nat.mod_eq_of_lt tmp.toNat_lt).symm
  | cons node rest ih =>
      rw [List.foldl_cons, addParallel, bridgeSegments]
      split
      · rw [ih (t + 1), UInt64.toNat_add, Nat.mod_add_mod, total_cons, Nat.add_assoc]
        rfl
      · exact ih (t + 1) tmp

/-- The index behind the contexts of the bridges. -/
def bridgesEnd (conf : ContextConf) (start : UInt64) : UInt64 :=
  if conf.bridgeMode then conf.nodes.foldl addParallel start else start

theorem toNat_bridgesEnd (conf : ContextConf) (start : UInt64)
    : (bridgesEnd conf start).toNat = (start.toNat + total (allBridges conf)) % 2 ^ 64 := by
  unfold bridgesEnd allBridges
  split
  · exact toNat_foldl_addParallel conf.nodes 0 start
  · exact (Nat.mod_eq_of_lt start.toNat_lt).symm

theorem toNat_numCtx (conf : ContextConf)
    : (numCtx conf).toNat = total (workSegments conf) % 2 ^ 64 := by
  have size : numCtx conf
      = bridgesEnd conf
          (if conf.httpEnable then conf.parallel + HTTP_CTX_NUM else conf.parallel) :=
    rfl
  rw [size, toNat_bridgesEnd, workSegments, total_cons, total_append, httpServers]
  split
  · rw [UInt64.toNat_add, Nat.mod_add_mod, Nat.add_right_comm, Nat.add_assoc]
    rfl
  · rfl

/-- The three loops fill the segments one after the other. -/
theorem createWorks_eq (conf : ContextConf)
    : createWorks conf = fillSegments (workSegments conf) 0 := by
  have bridges
      : (if conf.bridgeMode then createBridges conf.nodes 0 conf.parallel
          else some ([], conf.parallel))
        = (fillSegments (allBridges conf) conf.parallel.toNat).map
            (·, bridgesEnd conf conf.parallel) := by
    unfold allBridges bridgesEnd
    split
    · exact createBridges_eq conf.nodes 0 conf.parallel
    · rfl
  have servers (tmp : UInt64)
      : (if conf.httpEnable then
            fillLoop { proto := .HTTP_SERVER, bridgeSock := none } (tmp + HTTP_CTX_NUM).toNat
              (toInt tmp.toNat)
          else some [])
        = fillSegments (httpServers conf) tmp.toNat := by
    unfold httpServers
    split
    · simp [fillSegments, contexts, UInt64.toNat_add]
    · rfl
  have brokersEnd : (0 + conf.parallel.toNat) % 2 ^ 64 = conf.parallel.toNat := by
    rw [Nat.zero_add]
    exact Nat.mod_eq_of_lt conf.parallel.toNat_lt
  have start : toInt 0 = 0 := by decide
  unfold createWorks workSegments
  rw [fillSegments, contexts, brokersEnd, start,
    fillSegments_append _ _ _ conf.parallel.toNat_lt, ← toNat_bridgesEnd, bridges]
  simp only [servers]
  cases fillSegments (allBridges conf) conf.parallel.toNat with
  | none => rfl
  | some bridges => simp only [Option.map_some, Option.bind_some, Option.map_map, Function.comp_def]

-- The array is filled

/-- The number of contexts that a configuration asks for. -/
def contextCount (conf : ContextConf) : Nat :=
  conf.parallel.toNat
  + ((if conf.bridgeMode then
        ((conf.nodes.filter NodeContexts.enable).map fun node => node.parallel.toNat).sum
      else 0)
    + if conf.httpEnable then 4 else 0)

/-- By induction on the nodes. -/
theorem total_bridgeSegments (nodes : List NodeContexts) (t : Nat)
    : total (bridgeSegments nodes t)
      = ((nodes.filter NodeContexts.enable).map fun node => node.parallel.toNat).sum := by
  induction nodes generalizing t with
  | nil => rfl
  | cons node rest ih =>
      rw [bridgeSegments, List.filter_cons]
      split
      · rw [total_cons, ih, List.map_cons, List.sum_cons]
        rfl
      · exact ih (t + 1)

theorem total_workSegments (conf : ContextConf)
    : total (workSegments conf) = contextCount conf := by
  unfold workSegments allBridges httpServers contextCount
  rw [total_cons, total_append]
  cases conf.bridgeMode <;> cases conf.httpEnable <;>
    simp [total_bridgeSegments, contexts, HTTP_CTX_NUM]

/-- The loops write each index of the array once, with the role of its segment, and no other
index, and the size of the allocation does not wrap.
-/
structure WorksFilled (conf : ContextConf) (writes : List (Int × NewWork)) : Prop where
  fills : Fills (workSegments conf) (numCtx conf).toNat writes
  allocation : (numCtx conf).toNat * 8 < 2 ^ 64

/-- The array of contexts is filled exactly if the number of contexts is an `int`. -/
theorem works_filled_iff (conf : ContextConf)
    : (∃ writes, createWorks conf = some writes ∧ WorksFilled conf writes)
      ↔ contextCount conf ≤ 2147483647 := by
  have filled := fillSegments_fills_iff (workSegments conf)
  rw [total_workSegments] at filled
  constructor
  · rintro ⟨writes, created, ⟨fills, _⟩⟩
    rw [createWorks_eq] at created
    rw [toNat_numCtx, total_workSegments] at fills
    exact filled.mp ⟨writes, created, fills⟩
  · intro small
    obtain ⟨writes, created, fills⟩ := filled.mpr small
    have size : (numCtx conf).toNat = contextCount conf % 2 ^ 64 := by
      rw [toNat_numCtx, total_workSegments]
    refine ⟨writes, createWorks_eq conf ▸ created, { fills := size ▸ fills, allocation := ?_ }⟩
    rw [size]
    omega

/-- The command line `--parallel -1` asks for 2^64 - 1 contexts: the allocation is too small for
them, and the counter of the loop runs out of its range.
-/
theorem negative_parallel_overflows
    : let conf : ContextConf :=
        { parallel := optParallel (-1), bridgeMode := false, nodes := [], httpEnable := false }
      createWorks conf = none ∧ ¬(numCtx conf).toNat * 8 < 2 ^ 64 := by
  intro conf
  let brokerWork : NewWork := { proto := .MQTT_BROKER, bridgeSock := none }
  have overflows : fillLoop brokerWork conf.parallel.toNat (0 : Nat) = none :=
    fillLoop_overflows brokerWork (by decide) INT_MAX (by decide)
  refine ⟨?_, by decide⟩
  unfold createWorks
  rw [Nat.cast_zero] at overflows
  rw [overflows]
  rfl

end NanoMQ
