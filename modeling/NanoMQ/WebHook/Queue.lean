import NanoMQ.Library.BoundedQueue

/-! The queue between `webhook_cb`, which enqueues the messages of the inproc socket, and
`thread_cb`, which sends them. Both run at the same time; locking, unlocking and each call on
the queue are atomic.
-/

namespace NanoMQ.WebHook

open BoundedQueue

variable {Msg : Type}

def NANO_LMQ_INIT_CAP : Nat := 16

/-- How a receive ends. After a failure the aio still has NULL or a message from before. -/
inductive Completion (Msg : Type) where
  | received (msg : Msg)
  | failed (rv : Nat) (leftover : Option Msg)
  deriving DecidableEq, Repr

/-- `nng_aio_get_msg` -/
def Completion.getMsg : Completion Msg → Option Msg
  | .received msg => some msg
  | .failed _ leftover => leftover

/-- The message of a successful receive. -/
def Completion.success : Completion Msg → Option Msg
  | .received msg => some msg
  | .failed _ _ => none

-- The two threads

/-- Where `webhook_cb` stands. -/
inductive Producer (Msg : Type) where
  | waiting
  | arrived (completion : Completion Msg)
  | locked (completion : Completion Msg)
  | resizing (completion : Completion Msg)
  | putting (completion : Completion Msg)
  | unlocking
  deriving DecidableEq, Repr

/-- Where `thread_cb` stands, with the entry it has taken and the lengths it has read. -/
inductive Consumer (Msg : Type) where
  | testing
  | lockingGet
  | getting
  | unlockingGet (taken : Option (Option Msg))
  | sending (entry : Option Msg)
  | freeing (entry : Option Msg)
  | readingLen
  | readingCap (lmqLen : Nat)
  | lockingShrink (lmqCap : Nat)
  | shrinking (lmqCap : Nat)
  | unlockingShrink
  | sleeping
  deriving DecidableEq, Repr

/-- A `hook_work` with the completions that are still to come, and what has happened so far:
the messages received, the completions that were enqueued, and the entries sent and freed.
-/
structure HookWork (Msg : Type) where
  pending : List (Completion Msg)
  producer : Producer Msg
  consumer : Consumer Msg
  mtx : Bool
  lmq : Queue (Option Msg)
  received : List Msg
  enqueued : List (Completion Msg)
  sent : List (Option Msg)
  freed : List (Option Msg)

def HookWork.start (completions : List (Completion Msg)) : HookWork Msg :=
  {
    pending := completions
    producer := .waiting
    consumer := .testing
    mtx := false
    lmq := .new NANO_LMQ_INIT_CAP
    received := []
    enqueued := []
    sent := []
    freed := []
  }

section Steps

variable (settle : Resize)

/-- The next step of `webhook_cb`; none where it waits. A failed receive is only reported. -/
def HookWork.produce (work : HookWork Msg) : Option (HookWork Msg) :=
  match work.producer with
  | .waiting =>
      match work.pending with
      | [] => none
      | completion :: pending =>
          some
            {
              work with
              pending
              producer := .arrived completion
              received := work.received ++ completion.success.toList
            }
  | .arrived completion =>
      if work.mtx then none else some { work with mtx := true, producer := .locked completion }
  | .locked completion =>
      some
        {
          work with
          producer := if work.lmq.full then .resizing completion else .putting completion
        }
  | .resizing completion =>
      some
        {
          work with
          lmq := work.lmq.resize settle (work.lmq.cap + work.lmq.cap / 2)
          producer := .putting completion
        }
  | .putting completion =>
      match work.lmq.put completion.getMsg with
      | none => some { work with producer := .unlocking }
      | some lmq =>
          some
            {
              work with
              lmq
              enqueued := work.enqueued ++ [completion]
              producer := .unlocking
            }
  | .unlocking => some { work with mtx := false, producer := .waiting }

/-- The next step of `thread_cb`; none where it waits for the lock. -/
def HookWork.consume (work : HookWork Msg) : Option (HookWork Msg) :=
  match work.consumer with
  | .testing =>
      some { work with consumer := if work.lmq.empty then .readingLen else .lockingGet }
  | .lockingGet => if work.mtx then none else some { work with mtx := true, consumer := .getting }
  | .getting =>
      match work.lmq.get with
      | none => some { work with consumer := .unlockingGet none }
      | some (entry, lmq) => some { work with lmq, consumer := .unlockingGet (some entry) }
  | .unlockingGet taken =>
      some { work with mtx := false, consumer := taken.elim .testing .sending }
  | .sending entry => some { work with sent := work.sent ++ [entry], consumer := .freeing entry }
  | .freeing entry => some { work with freed := work.freed ++ [entry], consumer := .testing }
  | .readingLen =>
      let lmqLen := work.lmq.items.length
      some
        {
          work with
          consumer := if lmqLen > NANO_LMQ_INIT_CAP * 2 then .readingCap lmqLen else .sleeping
        }
  | .readingCap lmqLen =>
      some
        {
          work with
          consumer := if work.lmq.cap > lmqLen * 2 then .lockingShrink work.lmq.cap else .sleeping
        }
  | .lockingShrink lmqCap =>
      if work.mtx then none else some { work with mtx := true, consumer := .shrinking lmqCap }
  | .shrinking lmqCap =>
      some
        { work with lmq := work.lmq.resize settle (lmqCap / 2), consumer := .unlockingShrink }
  | .unlockingShrink => some { work with mtx := false, consumer := .sleeping }
  | .sleeping => some { work with consumer := .testing }

/-- One of the two threads takes its next step. -/
inductive HookWork.Step : HookWork Msg → HookWork Msg → Prop
  | produced {work after} (step : work.produce settle = some after) : Step work after
  | consumed {work after} (step : work.consume settle = some after) : Step work after

/-- All states of all interleavings. -/
abbrev HookWork.Reach : HookWork Msg → HookWork Msg → Prop :=
  Relation.ReflTransGen (HookWork.Step settle)

inductive Thread where
  | webhookCb
  | threadCb

/-- Let the threads step in the given order; one that has to wait takes no step. -/
def HookWork.follow (work : HookWork Msg) : List Thread → HookWork Msg
  | [] => work
  | .webhookCb :: rest => ((work.produce settle).getD work).follow rest
  | .threadCb :: rest => ((work.consume settle).getD work).follow rest

/-- Only successful receives are enqueued, what is sent and freed so far are the received
messages in order, and the rest can still be sent and freed.
-/
structure HookWork.Faithful (completions : List (Completion Msg)) (work : HookWork Msg)
    : Prop where
  enqueued : ∀ completion ∈ work.enqueued, completion.success.isSome
  sent : work.sent <+: (completions.filterMap Completion.success).map some
  freed : work.freed <+: work.sent
  completes
    : ∃ last,
        work.Reach settle last
        ∧ last.sent = (completions.filterMap Completion.success).map some
        ∧ last.freed = last.sent

end Steps

/-- Every order of steps is an interleaving. By induction on the order. -/
theorem HookWork.reach_follow (settle : Resize) (order : List Thread) (work : HookWork Msg)
    : work.Reach settle (work.follow settle order) := by
  induction order generalizing work with
  | nil => exact .refl
  | cons thread rest ih =>
      cases thread with
      | webhookCb =>
          refine .trans ?_ (ih _)
          cases step : work.produce settle with
          | none => exact .refl
          | some after => exact .single (.produced step)
      | threadCb =>
          refine .trans ?_ (ih _)
          cases step : work.consume settle with
          | none => exact .refl
          | some after => exact .single (.consumed step)

-- What each thread holds

/-- The completion that is not yet enqueued. -/
def Producer.carries : Producer Msg → Option (Completion Msg)
  | .arrived completion | .locked completion | .resizing completion | .putting completion =>
      some completion
  | .waiting | .unlocking => none

def Producer.holdsLock : Producer Msg → Bool
  | .locked _ | .resizing _ | .putting _ | .unlocking => true
  | .waiting | .arrived _ => false

def Consumer.holdsLock : Consumer Msg → Bool
  | .getting | .unlockingGet _ | .shrinking _ | .unlockingShrink => true
  | _ => false

/-- The entry that was taken and is not yet freed. -/
def Consumer.hand : Consumer Msg → Option (Option Msg)
  | .unlockingGet taken => taken
  | .sending entry | .freeing entry => some entry
  | _ => none

/-- The entry that was sent and is not yet freed. -/
def Consumer.sentHand : Consumer Msg → Option (Option Msg)
  | .freeing entry => some entry
  | _ => none

/-- The consumer has seen an entry and not taken it yet. -/
def Consumer.expects : Consumer Msg → Bool
  | .lockingGet | .getting => true
  | _ => false

/-- The length or the capacity that the consumer has read on its way to a shrink. -/
def Consumer.measured : Consumer Msg → Option Nat
  | .readingCap size | .lockingShrink size | .shrinking size => some size
  | _ => none

/-- What holds throughout as long as every receive succeeds. -/
structure HookWork.Orderly (completions : List (Completion Msg)) (work : HookWork Msg)
    : Prop where
  pending : ∀ completion ∈ work.pending, completion.success.isSome
  carried : ∀ completion ∈ work.producer.carries, completion.success.isSome
  enqueued : ∀ completion ∈ work.enqueued, completion.success.isSome
  locked : work.mtx = (work.producer.holdsLock || work.consumer.holdsLock)
  exclusive : work.producer.holdsLock = true → work.consumer.holdsLock = false
  capacity : NANO_LMQ_INIT_CAP ≤ work.lmq.cap
  room : ∀ completion, work.producer = .putting completion → work.lmq.items.length < work.lmq.cap
  filled : work.consumer.expects = true → work.lmq.items ≠ []
  measured : ∀ size ∈ work.consumer.measured, NANO_LMQ_INIT_CAP * 2 ≤ size
  arrived
    : completions.filterMap Completion.success
      = work.received ++ work.pending.filterMap Completion.success
  conserved
    : work.received.map some
      = work.freed ++ work.consumer.hand.toList ++ work.lmq.items
        ++ (work.producer.carries.map Completion.getMsg).toList
  sent : work.sent = work.freed ++ work.consumer.sentHand.toList

theorem Completion.getMsg_of_success {completion : Completion Msg}
    (succeeds : completion.success.isSome)
    : completion.getMsg = completion.success := by
  cases completion with
  | received msg => rfl
  | failed rv leftover => cases succeeds

theorem HookWork.Orderly.start {completions : List (Completion Msg)}
    (succeed : ∀ completion ∈ completions, completion.success.isSome)
    : (HookWork.start completions).Orderly completions where
  pending := succeed
  carried := by simp [HookWork.start, Producer.carries]
  enqueued := by simp [HookWork.start]
  locked := rfl
  exclusive := by simp [HookWork.start, Producer.holdsLock]
  capacity := Nat.le_refl _
  room := by simp [HookWork.start]
  filled := by simp [HookWork.start, Consumer.expects]
  measured := by simp [HookWork.start, Consumer.measured]
  arrived := rfl
  conserved := rfl
  sent := rfl

section Orderly

variable {settle : Resize} {completions : List (Completion Msg)} {work after : HookWork Msg}

/-- A step of `webhook_cb` keeps the order. By cases on where it stands. -/
theorem HookWork.Orderly.produced (orderly : work.Orderly completions)
    (step : work.produce settle = some after)
    : after.Orderly completions := by
  obtain ⟨pending, producer, consumer, mtx, lmq, received, enqueued, sent, freed⟩ := work
  have locked := orderly.locked
  have exclusive := orderly.exclusive
  have conserved := orderly.conserved
  cases producer with
  | waiting =>
      cases pending with
      | nil => cases step
      | cons completion pending =>
          obtain rfl := Option.some.inj step
          obtain ⟨succeeds, others⟩ := List.forall_mem_cons.mp orderly.pending
          obtain ⟨msg, isMsg⟩ := Option.isSome_iff_exists.mp succeeds
          have getsMsg := Completion.getMsg_of_success succeeds
          have held : received.map some = freed ++ consumer.hand.toList ++ lmq.items := by
            simpa [Producer.carries] using conserved
          exact {
            orderly with
            pending := others
            carried := by simpa [Producer.carries] using succeeds
            room := by simp
            arrived := by simpa [isMsg] using orderly.arrived
            conserved := by simp [Producer.carries, getsMsg, isMsg, held]
          }
  | arrived completion =>
      cases mtx with
      | true => cases step
      | false =>
          obtain rfl := Option.some.inj step
          exact {
            orderly with
            locked := rfl
            exclusive := by simpa [Producer.holdsLock] using locked
            room := by simp
          }
  | locked completion =>
      obtain rfl := Option.some.inj step
      cases full : lmq.full with
      | true => exact { orderly with room := by simp }
      | false =>
          have room : lmq.items.length < lmq.cap := by simpa [Queue.full] using full
          exact { orderly with room := fun _ _ => room }
  | resizing completion =>
      obtain rfl := Option.some.inj step
      have capacity : NANO_LMQ_INIT_CAP ≤ lmq.cap := orderly.capacity
      have grown := Queue.le_cap_resize settle lmq (lmq.cap + lmq.cap / 2)
      exact {
        orderly with
        capacity := by dsimp only; omega
        room := fun _ _ => Queue.room_of_grown settle (le_trans (by decide) capacity)
      }
  | putting completion =>
      have put := Queue.put_of_room completion.getMsg (orderly.room completion rfl)
      simp only [HookWork.produce, put] at step
      obtain rfl := Option.some.inj step
      have succeeds : completion.success.isSome := orderly.carried completion rfl
      exact {
        orderly with
        carried := by simp [Producer.carries]
        enqueued := List.forall_mem_append.mpr ⟨orderly.enqueued, by simpa using succeeds⟩
        room := by simp
        filled := by simp
        conserved := by simpa [Producer.carries] using conserved
      }
  | unlocking =>
      obtain rfl := Option.some.inj step
      exact {
        orderly with
        locked := by simpa [Producer.holdsLock] using exclusive
        exclusive := by simp [Producer.holdsLock]
        room := by simp
      }

theorem HookWork.Orderly.not_putting (orderly : work.Orderly completions)
    (holds : work.consumer.holdsLock = true) (completion : Completion Msg)
    : work.producer ≠ .putting completion := by
  intro putting
  have idle := orderly.exclusive (by rw [putting, Producer.holdsLock])
  exact Bool.false_ne_true (idle.symm.trans holds)

/-- A step of `thread_cb` keeps the order. By cases on where it stands. -/
theorem HookWork.Orderly.consumed (orderly : work.Orderly completions)
    (step : work.consume settle = some after)
    : after.Orderly completions := by
  have notPutting := orderly.not_putting
  obtain ⟨pending, producer, consumer, mtx, lmq, received, enqueued, sent, freed⟩ := work
  have locked := orderly.locked
  have exclusive := orderly.exclusive
  have conserved := orderly.conserved
  have filled := orderly.filled
  have measured := orderly.measured
  have isSent := orderly.sent
  cases consumer with
  | testing =>
      obtain rfl := Option.some.inj step
      cases empty : lmq.empty with
      | true => exact { orderly with }
      | false =>
          have nonempty : lmq.items ≠ [] := by simpa [Queue.empty] using empty
          exact { orderly with filled := fun _ => nonempty }
  | lockingGet =>
      cases mtx with
      | true => cases step
      | false =>
          obtain rfl := Option.some.inj step
          have idle : producer.holdsLock = false := by simpa [Consumer.holdsLock] using locked
          exact {
            orderly with
            locked := by simp [Consumer.holdsLock]
            exclusive := by simp [idle]
          }
  | getting =>
      have nonempty : lmq.items ≠ [] := filled rfl
      obtain ⟨first, rest, shape, taken⟩ := Queue.get_of_ne_nil nonempty
      simp only [HookWork.consume, taken] at step
      obtain rfl := Option.some.inj step
      exact {
        orderly with
        room := fun completion putting => absurd putting (notPutting rfl completion)
        filled := by simp [Consumer.expects]
        measured := by simp [Consumer.measured]
        conserved := by simpa [Consumer.hand, Queue.dropFirst, shape] using conserved
      }
  | unlockingGet taken =>
      obtain rfl := Option.some.inj step
      have idle : producer.holdsLock = false := by simpa [Consumer.holdsLock] using exclusive
      have freedLock : false = (producer.holdsLock || false) := by simp [idle]
      cases taken with
      | none => exact { orderly with locked := freedLock, exclusive := fun _ => rfl }
      | some entry => exact { orderly with locked := freedLock, exclusive := fun _ => rfl }
  | sending entry =>
      obtain rfl := Option.some.inj step
      exact { orderly with sent := by simpa [Consumer.sentHand] using isSent }
  | freeing entry =>
      obtain rfl := Option.some.inj step
      exact {
        orderly with
        conserved := by simpa [Consumer.hand] using conserved
        sent := by simpa [Consumer.sentHand] using isSent
      }
  | readingLen =>
      obtain rfl := Option.some.inj step
      dsimp only
      split
      case isTrue long =>
        exact { orderly with measured := by simpa [Consumer.measured] using long.le }
      case isFalse => exact { orderly with }
  | readingCap lmqLen =>
      obtain rfl := Option.some.inj step
      have long : NANO_LMQ_INIT_CAP * 2 ≤ lmqLen := measured lmqLen rfl
      dsimp only
      split
      case isTrue wide =>
        exact { orderly with measured := by simp [Consumer.measured]; omega }
      case isFalse => exact { orderly with measured := by simp [Consumer.measured] }
  | lockingShrink lmqCap =>
      cases mtx with
      | true => cases step
      | false =>
          obtain rfl := Option.some.inj step
          have idle : producer.holdsLock = false := by simpa [Consumer.holdsLock] using locked
          exact {
            orderly with
            locked := by simp [Consumer.holdsLock]
            exclusive := by simp [idle]
          }
  | shrinking lmqCap =>
      obtain rfl := Option.some.inj step
      have wide : NANO_LMQ_INIT_CAP * 2 ≤ lmqCap := measured lmqCap rfl
      have shrunk := Queue.le_cap_resize settle lmq (lmqCap / 2)
      exact {
        orderly with
        capacity := by dsimp only; omega
        room := fun completion putting => absurd putting (notPutting rfl completion)
        measured := by simp [Consumer.measured]
      }
  | unlockingShrink =>
      obtain rfl := Option.some.inj step
      have idle : producer.holdsLock = false := by simpa [Consumer.holdsLock] using exclusive
      exact {
        orderly with
        locked := by simp [idle, Consumer.holdsLock]
        exclusive := fun _ => rfl
      }
  | sleeping =>
      obtain rfl := Option.some.inj step
      exact { orderly with }

theorem HookWork.Orderly.reached (orderly : work.Orderly completions)
    (run : work.Reach settle after)
    : after.Orderly completions := by
  induction run with
  | refl => exact orderly
  | tail _ step ih =>
      cases step with
      | produced step => exact ih.produced step
      | consumed step => exact ih.consumed step

theorem HookWork.Orderly.sent_isInitial (orderly : work.Orderly completions)
    : work.sent <+: (completions.filterMap Completion.success).map some := by
  have handed : work.consumer.sentHand.toList <+: work.consumer.hand.toList := by
    cases work.consumer with
    | freeing entry => exact List.prefix_refl _
    | _ => exact List.nil_prefix
  rw [orderly.sent, orderly.arrived, List.map_append, orderly.conserved]
  simp only [List.append_assoc]
  refine (List.prefix_append_right_inj _).mpr (handed.trans ?_)
  exact List.prefix_append _ _

end Orderly

-- Every interleaving can be completed

/-- The steps until the producer waits again. -/
def Producer.rank : Producer Msg → Nat
  | .waiting => 0
  | .unlocking => 1
  | .putting _ => 2
  | .resizing _ => 3
  | .locked _ => 4
  | .arrived _ => 5

/-- Falls with every step of the consumer but the one that finds the queue empty. -/
def Consumer.rank : Consumer Msg → Nat
  | .getting => 3
  | .lockingGet => 4
  | .testing => 5
  | .sleeping => 6
  | .unlockingShrink => 7
  | .freeing _ => 7
  | .shrinking _ => 8
  | .sending _ => 8
  | .lockingShrink _ => 9
  | .unlockingGet _ => 9
  | .readingCap _ => 10
  | .readingLen => 11

/-- The work that is left. A step of the producer outweighs the entry that it may add. -/
def HookWork.left (work : HookWork Msg) : Nat :=
  (work.pending.length * 6 + work.producer.rank) * 13
  + (work.lmq.items.length * 12 + work.consumer.rank)

/-- Nothing is left to receive, to enqueue or to send. -/
structure HookWork.Drained (work : HookWork Msg) : Prop where
  pending : work.pending = []
  producer : work.producer = .waiting
  items : work.lmq.items = []
  consumer : work.consumer = .testing

section Progress

variable {settle : Resize} {completions : List (Completion Msg)} {work after : HookWork Msg}

theorem HookWork.left_of_produce (step : work.produce settle = some after)
    : after.left < work.left := by
  obtain ⟨pending, producer, consumer, mtx, lmq, received, enqueued, sent, freed⟩ := work
  cases producer with
  | waiting =>
      cases pending with
      | nil => cases step
      | cons completion pending =>
          obtain rfl := Option.some.inj step
          simp only [HookWork.left, Producer.rank, List.length_cons]
          omega
  | arrived completion =>
      cases mtx with
      | true => cases step
      | false =>
          obtain rfl := Option.some.inj step
          simp only [HookWork.left, Producer.rank]
          omega
  | locked completion =>
      obtain rfl := Option.some.inj step
      simp only [HookWork.left]
      split <;> simp only [Producer.rank] <;> omega
  | resizing completion =>
      obtain rfl := Option.some.inj step
      simp only [HookWork.left, Producer.rank, Queue.items_resize]
      omega
  | putting completion =>
      rw [HookWork.produce] at step
      cases added : lmq.put completion.getMsg with
      | none =>
          simp only [added] at step
          obtain rfl := Option.some.inj step
          simp only [HookWork.left, Producer.rank]
          omega
      | some longer =>
          simp only [added] at step
          obtain rfl := Option.some.inj step
          simp only [HookWork.left, Producer.rank, Queue.items_of_put added,
            List.length_append, List.length_singleton]
          omega
  | unlocking =>
      obtain rfl := Option.some.inj step
      simp only [HookWork.left, Producer.rank]
      omega

/-- A consumer that is in the middle of its work, or finds an entry, gets nearer to the end. -/
theorem HookWork.Orderly.left_of_consume (orderly : work.Orderly completions)
    (busy : work.consumer ≠ .testing ∨ work.lmq.items ≠ [])
    (step : work.consume settle = some after)
    : after.left < work.left := by
  have filled := orderly.filled
  obtain ⟨pending, producer, consumer, mtx, lmq, received, enqueued, sent, freed⟩ := work
  cases consumer with
  | testing =>
      obtain rfl := Option.some.inj step
      have nonempty : lmq.empty = false := by simpa [Queue.empty] using busy
      simp [HookWork.left, nonempty, Consumer.rank]
  | lockingGet | lockingShrink lmqCap =>
      cases mtx with
      | true => cases step
      | false =>
          obtain rfl := Option.some.inj step
          simp only [HookWork.left, Consumer.rank]
          omega
  | getting =>
      have nonempty : lmq.items ≠ [] := filled rfl
      obtain ⟨first, rest, shape, taken⟩ := Queue.get_of_ne_nil nonempty
      simp only [HookWork.consume, taken] at step
      obtain rfl := Option.some.inj step
      simp only [HookWork.left, Consumer.rank, Queue.dropFirst, shape, List.tail_cons,
        List.length_cons]
      omega
  | unlockingGet taken =>
      obtain rfl := Option.some.inj step
      cases taken <;> simp [HookWork.left, Consumer.rank]
  | readingLen | readingCap lmqLen =>
      obtain rfl := Option.some.inj step
      simp only [HookWork.left]
      split <;> simp [Consumer.rank]
  | shrinking lmqCap =>
      obtain rfl := Option.some.inj step
      simp [HookWork.left, Consumer.rank]
  | _ =>
      obtain rfl := Option.some.inj step
      simp [HookWork.left, Consumer.rank]

/-- The producer only waits for the lock, or for a completion when none is left. -/
theorem HookWork.exists_produce (free : work.producer.holdsLock = false → work.mtx = false)
    (busy : work.producer ≠ .waiting ∨ work.pending ≠ [])
    : ∃ after, work.produce settle = some after := by
  obtain ⟨pending, producer, consumer, mtx, lmq, received, enqueued, sent, freed⟩ := work
  cases producer with
  | waiting =>
      obtain ⟨completion, rest, rfl⟩ := List.exists_cons_of_ne_nil (busy.resolve_left (· rfl))
      exact ⟨_, rfl⟩
  | arrived completion =>
      obtain rfl : mtx = false := free rfl
      exact ⟨_, rfl⟩
  | putting completion =>
      simp only [HookWork.produce]
      cases lmq.put completion.getMsg with
      | none => exact ⟨_, rfl⟩
      | some longer => exact ⟨_, rfl⟩
  | _ => exact ⟨_, rfl⟩

/-- The consumer only waits for the lock. -/
theorem HookWork.exists_consume (free : work.consumer.holdsLock = false → work.mtx = false)
    : ∃ after, work.consume settle = some after := by
  obtain ⟨pending, producer, consumer, mtx, lmq, received, enqueued, sent, freed⟩ := work
  cases consumer with
  | lockingGet | lockingShrink lmqCap =>
      obtain rfl : mtx = false := free rfl
      exact ⟨_, rfl⟩
  | getting =>
      simp only [HookWork.consume]
      cases lmq.get with
      | none => exact ⟨_, rfl⟩
      | some found => exact ⟨_, rfl⟩
  | _ => exact ⟨_, rfl⟩

/-- As long as something is left, one of the threads can take a step towards the end: the
consumer when it holds the lock, else the producer, and the consumer once that is done.
-/
theorem HookWork.Orderly.advances (settle : Resize) (orderly : work.Orderly completions)
    (unfinished : ¬work.Drained)
    : ∃ after, work.Step settle after ∧ after.left < work.left := by
  have locked := orderly.locked
  by_cases holds : work.consumer.holdsLock = true
  · obtain ⟨after, step⟩ : ∃ after, work.consume settle = some after :=
      HookWork.exists_consume (by simp [holds])
    have busy : work.consumer ≠ .testing := by
      intro testing
      simp [testing, Consumer.holdsLock] at holds
    exact ⟨after, .consumed step, orderly.left_of_consume (.inl busy) step⟩
  · have free : work.mtx = work.producer.holdsLock := by simpa [holds] using locked
    by_cases busy : work.producer ≠ .waiting ∨ work.pending ≠ []
    · obtain ⟨after, step⟩ : ∃ after, work.produce settle = some after :=
        HookWork.exists_produce free.trans busy
      exact ⟨after, .produced step, HookWork.left_of_produce step⟩
    · obtain ⟨waiting, received⟩ : work.producer = .waiting ∧ work.pending = [] := by
        simpa using busy
      obtain ⟨after, step⟩ : ∃ after, work.consume settle = some after :=
        HookWork.exists_consume (fun _ => by rw [free, waiting, Producer.holdsLock])
      have busy : work.consumer ≠ .testing ∨ work.lmq.items ≠ [] := by
        by_contra idle
        obtain ⟨testing, empty⟩ : work.consumer = .testing ∧ work.lmq.items = [] := by
          simpa using idle
        exact unfinished ⟨received, waiting, empty, testing⟩
      exact ⟨after, .consumed step, orderly.left_of_consume busy step⟩

/-- Everything that is left can be received, enqueued, sent and freed. By induction on the
work that is left.
-/
theorem HookWork.Orderly.drains (settle : Resize) (orderly : work.Orderly completions)
    : ∃ last, work.Reach settle last ∧ last.Drained := by
  induction size : work.left using Nat.strong_induction_on generalizing work with
  | _ size ih =>
      subst size
      by_cases drained : work.Drained
      · exact ⟨work, .refl, drained⟩
      · obtain ⟨after, step, less⟩ := orderly.advances settle drained
        obtain ⟨last, run, drained⟩ := ih after.left less (orderly.reached (.single step)) rfl
        exact ⟨last, .head step run, drained⟩

theorem HookWork.Drained.sent (drained : work.Drained) (orderly : work.Orderly completions)
    : work.sent = (completions.filterMap Completion.success).map some
      ∧ work.freed = work.sent := by
  have sent : work.sent = work.freed := by
    simpa [drained.consumer, Consumer.sentHand] using orderly.sent
  refine ⟨?_, sent.symm⟩
  rw [orderly.arrived, drained.pending, List.filterMap_nil, List.append_nil, orderly.conserved,
    sent]
  simp [drained.consumer, drained.items, drained.producer, Consumer.hand, Producer.carries]

theorem HookWork.Orderly.faithful (orderly : work.Orderly completions)
    : work.Faithful settle completions where
  enqueued := orderly.enqueued
  sent := orderly.sent_isInitial
  freed := by
    rw [orderly.sent]
    exact List.prefix_append _ _
  completes := by
    obtain ⟨last, run, drained⟩ := orderly.drains settle
    exact ⟨last, run, drained.sent (orderly.reached run)⟩

end Progress

-- Failed receives

section Failures

variable {settle : Resize} {work : HookWork Msg}

/-- The producer waits for the next receive, with the lock free and room to grow. -/
structure HookWork.Ready (pending enqueued : List (Completion Msg)) (work : HookWork Msg)
    : Prop where
  pending : work.pending = pending
  enqueued : work.enqueued = enqueued
  producer : work.producer = .waiting
  free : work.mtx = false
  least : 2 ≤ work.lmq.cap

/-- Where there is room, the completion is enqueued and the lock released. -/
theorem HookWork.ready_of_putting {completion : Completion Msg}
    (putting : work.producer = .putting completion) (least : 2 ≤ work.lmq.cap)
    (room : work.lmq.items.length < work.lmq.cap)
    : ∃ after,
        work.Reach settle after ∧ after.Ready work.pending (work.enqueued ++ [completion]) := by
  obtain ⟨longer, added, kept⟩ : ∃ longer,
      work.lmq.put completion.getMsg = some longer ∧ longer.cap = work.lmq.cap :=
    ⟨_, Queue.put_of_room completion.getMsg room, rfl⟩
  have puts : work.Step settle
      {
        work with
        lmq := longer
        enqueued := work.enqueued ++ [completion]
        producer := .unlocking
      } :=
    .produced (by simp only [HookWork.produce, putting, added])
  refine ⟨_, .head puts (.single (.produced rfl)), ?_⟩
  exact ⟨rfl, rfl, rfl, rfl, least.trans kept.ge⟩

/-- Under the lock, a full queue grows first. -/
theorem HookWork.ready_of_locked {completion : Completion Msg}
    (locked : work.producer = .locked completion) (least : 2 ≤ work.lmq.cap)
    : ∃ after,
        work.Reach settle after ∧ after.Ready work.pending (work.enqueued ++ [completion]) := by
  cases full : work.lmq.full with
  | true =>
      have tests : work.Step settle { work with producer := .resizing completion } :=
        .produced (by simp only [HookWork.produce, locked, full, if_true])
      have larger := Queue.le_cap_resize settle work.lmq (work.lmq.cap + work.lmq.cap / 2)
      have grown : 2 ≤ (work.lmq.resize settle (work.lmq.cap + work.lmq.cap / 2)).cap := by omega
      obtain ⟨after, run, ready⟩ :=
        @HookWork.ready_of_putting Msg settle
          {
            work with
            lmq := work.lmq.resize settle (work.lmq.cap + work.lmq.cap / 2)
            producer := .putting completion
          }
          completion rfl grown (Queue.room_of_grown settle least)
      exact ⟨after, .head tests (.head (.produced rfl) run), ready⟩
  | false =>
      have tests : work.Step settle { work with producer := .putting completion } :=
        .produced (by simp [HookWork.produce, locked, full])
      have room : work.lmq.items.length < work.lmq.cap := by simpa [Queue.full] using full
      obtain ⟨after, run, ready⟩ :=
        @HookWork.ready_of_putting Msg settle { work with producer := .putting completion }
          completion rfl least room
      exact ⟨after, .head tests run, ready⟩

/-- One run of `webhook_cb` with no step of the consumer in between. -/
theorem HookWork.Ready.next {completion : Completion Msg}
    {rest enqueued : List (Completion Msg)} (ready : work.Ready (completion :: rest) enqueued)
    : ∃ after, work.Reach settle after ∧ after.Ready rest (enqueued ++ [completion]) := by
  have receives : work.Step settle
      {
        work with
        pending := rest
        producer := .arrived completion
        received := work.received ++ completion.success.toList
      } :=
    .produced (by simp only [HookWork.produce, ready.producer, ready.pending])
  have locks : HookWork.Step settle
      {
        work with
        pending := rest
        producer := .arrived completion
        received := work.received ++ completion.success.toList
      }
      {
        work with
        pending := rest
        mtx := true
        producer := .locked completion
        received := work.received ++ completion.success.toList
      } :=
    .produced (by simp [HookWork.produce, ready.free])
  obtain ⟨after, run, next⟩ :=
    @HookWork.ready_of_locked Msg settle
      {
        work with
        pending := rest
        mtx := true
        producer := .locked completion
        received := work.received ++ completion.success.toList
      }
      completion rfl ready.least
  rw [ready.enqueued] at next
  exact ⟨after, .head receives (.head locks run), next⟩

/-- The producer alone enqueues every completion, by induction on those to come. -/
theorem HookWork.Ready.all {pending enqueued : List (Completion Msg)}
    (ready : work.Ready pending enqueued)
    : ∃ after, work.Reach settle after ∧ after.Ready [] (enqueued ++ pending) := by
  induction pending generalizing work enqueued with
  | nil => exact ⟨work, .refl, by simpa using ready⟩
  | cons completion rest ih =>
      obtain ⟨middle, first, ready⟩ := ready.next
      obtain ⟨after, others, ready⟩ := ih ready
      exact ⟨after, first.trans others, by simpa using ready⟩

end Failures

/-- Every interleaving sends and frees exactly the received messages, in order and once, and
enqueues nothing else, if and only if no receive fails.
-/
theorem webhook_lossless_iff (settle : Resize) (completions : List (Completion Msg))
    : (∀ work,
        (HookWork.start completions).Reach settle work → work.Faithful settle completions)
      ↔ ∀ completion ∈ completions, completion.success.isSome := by
  constructor
  · intro faithful
    have ready : (HookWork.start completions).Ready completions [] :=
      ⟨rfl, rfl, rfl, rfl, by simp [HookWork.start, Queue.new, NANO_LMQ_INIT_CAP]⟩
    obtain ⟨work, run, ready⟩ := ready.all
    intro completion member
    refine (faithful work run).enqueued completion ?_
    rw [ready.enqueued]
    exact member
  · intro succeed work run
    exact ((HookWork.Orderly.start succeed).reached run).faithful

/-- A receive that fails leaves no message, and the NULL is enqueued, sent and freed. -/
theorem webhook_sends_failed_receive
    : ∃ work : HookWork Nat,
        (HookWork.start [.failed 7 none]).Reach .least work
        ∧ work.enqueued = [.failed 7 none]
        ∧ work.sent = [none]
        ∧ work.freed = [none]
        ∧ ¬work.Faithful .least [.failed 7 none] := by
  refine ⟨_, HookWork.reach_follow .least
    (List.replicate 5 .webhookCb ++ List.replicate 6 .threadCb) _, rfl, rfl, rfl, ?_⟩
  intro faithful
  exact Bool.false_ne_true (faithful.enqueued (.failed 7 none) List.mem_cons_self)

end NanoMQ.WebHook
