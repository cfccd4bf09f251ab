import NanoMQ.Library.TaskPool
import NanoMQ.Library.Sessions

/-! The REST jobs of the web server. Each request is a task that runs `rest_handle` and then
`rest_job_cb` once for the send and once for the receive; the tasks of different requests
interleave between any two calls.
-/

namespace NanoMQ.WebServer

open TaskPool (Pool Choice)
open Sessions (Event)

def NNG_ENOMEM : Nat := 2

inductive JobState where
  | SEND_REQ
  | RECV_REP
  deriving DecidableEq, Repr

/-- A `rest_job`. The pointers to the response and to the message only count as NULL or not, and
a context is its id, 0 for none.
-/
structure RestJob where
  httpAio : Option Nat
  httpRes : Bool
  state : JobState
  msg : Bool
  ctx : Nat
  deriving DecidableEq, Repr

/-- What `calloc` returns. -/
def RestJob.zeroed : RestJob :=
  { httpAio := none, httpRes := false, state := .SEND_REQ, msg := false, ctx := 0 }

/-- What the calls made for one request return, 0 for success. -/
structure Outcomes where
  calloc : Bool
  aioAlloc : Nat
  httpResAlloc : Nat
  ctxOpen : Nat
  msgAlloc : Nat
  ctxSend : Nat
  ctxRecv : Nat
  copyData : Nat
  deriving DecidableEq, Repr

/-- The call that comes next. While a job is recycled, `reply` is the error that `rest_handle`
still has to report, and none when the aio was finished before.
-/
inductive Point where
  | getJob
  | callocJob
  | httpResAlloc (job : Nat)
  | ctxOpen (job : Nat)
  | msgAlloc (job : Nat)
  | sending (job : Nat)
  | receiving (job : Nat)
  | releasing (job : Nat) (reply : Option Nat)
  | pushing (job : Nat) (reply : Option Nat)
  | finishing (rv : Nat)
  deriving DecidableEq, Repr

structure Request where
  aio : Nat
  outcomes : Outcomes
  point : Point
  deriving DecidableEq, Repr

def Request.goto (request : Request) (point : Point) : Option Request :=
  some { request with point }

/-- The ids that nng gives to contexts: never 0, never the one of an open context, but possibly
one that was closed before. `calls` counts the calls so far.
-/
structure CtxIds where
  grant : (calls : Nat) → (openIds : List Nat) → Nat
  positive : ∀ calls openIds, grant calls openIds ≠ 0
  fresh : ∀ calls openIds, grant calls openIds ∉ openIds

theorem succ_sum_not_mem (openIds : List Nat) : openIds.sum + 1 ∉ openIds := by
  intro member
  exact Nat.not_succ_le_self _ (List.le_sum_of_mem member)

/-- Ids above those of all open contexts. -/
def CtxIds.above : CtxIds where
  grant := fun _ openIds => openIds.sum + 1
  positive := fun _ _ => Nat.succ_ne_zero _
  fresh := fun _ openIds => succ_sum_not_mem openIds

/-- The state shared by all requests, with what has happened so far: the aios finished, the
contexts that each job opened and closed, and the context that a job had when `rest_handle` gave
it back early.
-/
structure Server where
  jobs : Nat → RestJob
  allocated : Nat
  jobFreelist : List Nat
  finished : List (Option Nat × Nat)
  contexts : List (Nat × Event Nat)
  openIds : List Nat
  early : List (Nat × Nat)

def Server.init : Server :=
  {
    jobs := fun _ => .zeroed
    allocated := 0
    jobFreelist := []
    finished := []
    contexts := []
    openIds := []
    early := []
  }

-- The functions of web_server.c

def Server.setJob (server : Server) (job : Nat) (change : RestJob → RestJob) : Server :=
  { server with jobs := Function.update server.jobs job (change (server.jobs job)) }

/-- `nng_aio_finish` -/
def Server.aioFinish (server : Server) (aio : Option Nat) (rv : Nat) : Server :=
  { server with finished := server.finished ++ [(aio, rv)] }

/-- `nng_ctx_open(&job->ctx, req_sock)` -/
def Server.ctxOpen (ids : CtxIds) (server : Server) (job : Nat) : Server :=
  let id := ids.grant server.contexts.length server.openIds
  {
    server.setJob job (fun fields => { fields with ctx := id }) with
    contexts := server.contexts ++ [(job, .opened id)]
    openIds := id :: server.openIds
  }

/-- `nng_ctx_close(job->ctx)`. Nothing is closed when no open context has the id. -/
def Server.ctxClose (server : Server) (job : Nat) : Server :=
  let id := (server.jobs job).ctx
  {
    server with
    contexts := server.contexts ++ [(job, .closed id)]
    openIds := server.openIds.erase id
  }

/-- `rest_recycle_job` up to the lock. The id of the context stays in the job. -/
def Server.release (server : Server) (job : Nat) : Server :=
  let server := server.setJob job fun fields => { fields with httpRes := false, msg := false }
  if (server.jobs job).ctx ≠ 0 then server.ctxClose job else server

/-- `rest_recycle_job` under the lock. -/
def Server.push (server : Server) (job : Nat) : Server :=
  { server with jobFreelist := job :: server.jobFreelist }

/-- `rest_http_fatal` up to the call of `rest_recycle_job`. -/
def Request.restHttpFatal (request : Request) (job : Nat) (server : Server)
    : Option Request × Server :=
  let aio := (server.jobs job).httpAio
  let server := server.setJob job fun fields => { fields with httpRes := false, httpAio := none }
  (request.goto (.releasing job none), server.aioFinish aio 0)

/-- `rest_job_cb`, when the aio of the job completes with `result`. -/
def Request.restJobCb (request : Request) (job result : Nat) (server : Server)
    : Option Request × Server :=
  match (server.jobs job).state with
  | .SEND_REQ =>
      if result ≠ 0 then request.restHttpFatal job server
      else
        (request.goto (.receiving job),
          server.setJob job fun fields => { fields with msg := false, state := .RECV_REP })
  | .RECV_REP =>
      if result ≠ 0 then request.restHttpFatal job server
      else
        let server := server.setJob job fun fields => { fields with msg := true }
        if request.outcomes.copyData ≠ 0 then request.restHttpFatal job server
        else
          let server := server.aioFinish (server.jobs job).httpAio 0
          (request.goto (.releasing job none),
            server.setJob job fun fields => { fields with httpAio := none, httpRes := false })

/-- The next call made for a request. -/
def Request.next (ids : CtxIds) (request : Request) (server : Server)
    : Option Request × Server :=
  match request.point with
  | .getJob =>
      match server.jobFreelist with
      | [] => (request.goto .callocJob, server)
      | job :: rest => (request.goto (.httpResAlloc job), { server with jobFreelist := rest })
  | .callocJob =>
      if request.outcomes.calloc = true ∧ request.outcomes.aioAlloc = 0 then
        (request.goto (.httpResAlloc server.allocated),
          {
            server.setJob server.allocated (fun _ => .zeroed) with
            allocated := server.allocated + 1
          })
      else (request.goto (.finishing NNG_ENOMEM), server)
  | .httpResAlloc job =>
      if request.outcomes.httpResAlloc ≠ 0 then
        (request.goto (.releasing job (some request.outcomes.httpResAlloc)), server)
      else
        (request.goto (.ctxOpen job),
          server.setJob job fun fields => { fields with httpRes := true })
  | .ctxOpen job =>
      if request.outcomes.ctxOpen ≠ 0 then
        (request.goto (.releasing job (some request.outcomes.ctxOpen)), server)
      else (request.goto (.msgAlloc job), server.ctxOpen ids job)
  | .msgAlloc job =>
      let server := server.setJob job fun fields => { fields with httpAio := some request.aio }
      if request.outcomes.msgAlloc ≠ 0 then request.restHttpFatal job server
      else
        (request.goto (.sending job),
          server.setJob job fun fields => { fields with msg := true, state := .SEND_REQ })
  | .sending job => request.restJobCb job request.outcomes.ctxSend server
  | .receiving job => request.restJobCb job request.outcomes.ctxRecv server
  | .releasing job reply =>
      let early := reply.toList.map fun _ => (job, (server.jobs job).ctx)
      (request.goto (.pushing job reply),
        { server.release job with early := server.early ++ early })
  | .pushing job reply =>
      (reply.bind fun rv => request.goto (.finishing rv), server.push job)
  | .finishing rv => (none, server.aioFinish (some request.aio) rv)

/-- The requests in the order of their `rest_handle` calls. -/
def start (outcomes : List Outcomes) : Pool Server Request :=
  {
    shared := .init
    waiting := outcomes.mapIdx fun aio outcomes => { aio, outcomes, point := .getJob }
    running := []
  }

/-- All states of all interleavings. -/
abbrev Reach (ids : CtxIds) : Pool Server Request → Pool Server Request → Prop :=
  TaskPool.Reach (Request.next ids) (fun _ _ => True)

-- What a request holds

/-- The job in the hands of a request. -/
def Point.job : Point → Option Nat
  | .httpResAlloc job | .ctxOpen job | .msgAlloc job | .sending job | .receiving job
  | .releasing job _ | .pushing job _ =>
      some job
  | .getJob | .callocJob | .finishing _ => none

/-- The aio is still to be finished. -/
def Point.due : Point → Bool
  | .releasing _ reply | .pushing _ reply => reply.isSome
  | _ => true

/-- The job is waiting for a completion, in the state for that completion. -/
def Point.awaits : Point → Option JobState
  | .sending _ => some .SEND_REQ
  | .receiving _ => some .RECV_REP
  | _ => none

def Request.job (request : Request) : Option Nat :=
  request.point.job

/-- The answer that is still to be given. -/
def Request.due (request : Request) : Option (Option Nat) :=
  if request.point.due then some (some request.aio) else none

/-- The job has its aio and its state from the request that waits for it. -/
structure Request.Fits (server : Server) (request : Request) (job : Nat) : Prop where
  httpAio
    : (server.jobs job).httpAio = if request.point.awaits.isSome then some request.aio else none
  state : ∀ state ∈ request.point.awaits, (server.jobs job).state = state

/-- The aios that were finished. -/
def Server.answers (server : Server) : List (Option Nat) :=
  server.finished.map Prod.fst

/-- Only requests are answered, none of them twice, and each once by the time it is over; no job
is twice on the free list, none of those there belongs to a request; and all requests can still
be answered.
-/
structure Answered (ids : CtxIds) (requests : Nat) (pool : Pool Server Request) : Prop where
  requested : ∀ answer ∈ pool.shared.answers, ∃ aio < requests, answer = some aio
  once : ∀ answer, pool.shared.answers.count answer ≤ 1
  ended
    : ∀ aio < requests,
        (∀ request ∈ pool.waiting ++ pool.running, request.aio ≠ aio)
        → pool.shared.answers.count (some aio) = 1
  freelist : pool.shared.jobFreelist.Nodup
  unowned
    : ∀ job ∈ pool.shared.jobFreelist,
        (pool.shared.jobs job).httpAio = none
        ∧ ∀ request ∈ pool.running, request.job ≠ some job
  completes
    : ∃ last,
        Reach ids pool last
        ∧ last.waiting = []
        ∧ last.running = []
        ∧ ∀ aio < requests, last.shared.answers.count (some aio) = 1

-- One step

/-- What a step of a request does to the answers and to the jobs. -/
structure Request.Moves (request : Request) (server : Server) (result : Option Request × Server)
    : Prop where
  answers
    : (result.2.answers ++ (result.1.bind Request.due).toList).Perm
        (server.answers ++ request.due.toList)
  held
    : ∃ created,
        List.range result.2.allocated = List.range server.allocated ++ created
        ∧ (result.2.jobFreelist ++ (result.1.bind Request.job).toList).Perm
            (created ++ server.jobFreelist ++ request.job.toList)
  others
    : ∀ other < server.allocated,
        request.job ≠ some other → result.2.jobs other = server.jobs other
  fits : ∀ next ∈ result.1, ∀ job ∈ next.job, next.Fits result.2 job
  idle
    : ∀ job ∈ result.2.jobFreelist,
        job ∉ server.jobFreelist → (result.2.jobs job).httpAio = none

section Steps

variable {request : Request} {server after : Server} {job : Nat} {point : Point}

@[simp]
theorem Server.jobs_setJob_self (server : Server) (job : Nat) (change : RestJob → RestJob)
    : (server.setJob job change).jobs job = change (server.jobs job) :=
  Function.update_self _ _ _

@[simp]
theorem Server.jobs_setJob_of_ne {other : Nat} (different : other ≠ job) (server : Server)
    (change : RestJob → RestJob)
    : (server.setJob job change).jobs other = server.jobs other :=
  Function.update_of_ne different _ _

@[simp]
theorem Server.jobs_aioFinish (server : Server) (aio : Option Nat) (rv : Nat)
    : (server.aioFinish aio rv).jobs = server.jobs :=
  rfl

@[simp]
theorem Server.answers_setJob (server : Server) (job : Nat) (change : RestJob → RestJob)
    : (server.setJob job change).answers = server.answers :=
  rfl

@[simp]
theorem Server.answers_aioFinish (server : Server) (aio : Option Nat) (rv : Nat)
    : (server.aioFinish aio rv).answers = server.answers ++ [aio] := by
  simp [Server.answers, Server.aioFinish]

theorem Request.toList_due (request : Request)
    : request.due.toList = if request.point.due then [some request.aio] else [] := by
  rw [Request.due]
  split <;> rfl

/-- Of the jobs only one was written to, and none was taken, created or given back. -/
structure Server.Touches (job : Nat) (server after : Server) : Prop where
  allocated : after.allocated = server.allocated
  freelist : after.jobFreelist = server.jobFreelist
  others : ∀ other, other ≠ job → after.jobs other = server.jobs other

theorem Server.Touches.refl (job : Nat) (server : Server) : server.Touches job server :=
  ⟨rfl, rfl, fun _ _ => rfl⟩

theorem Server.Touches.setJob (touches : server.Touches job after)
    (change : RestJob → RestJob)
    : server.Touches job (after.setJob job change) where
  allocated := touches.allocated
  freelist := touches.freelist
  others := by
    intro other different
    rw [Server.jobs_setJob_of_ne different, touches.others other different]

theorem Server.Touches.aioFinish (touches : server.Touches job after) (aio : Option Nat)
    (rv : Nat)
    : server.Touches job (after.aioFinish aio rv) :=
  ⟨touches.allocated, touches.freelist, touches.others⟩

theorem Server.touches_ctxOpen (ids : CtxIds) (server : Server) (job : Nat)
    : server.Touches job (server.ctxOpen ids job) where
  allocated := rfl
  freelist := rfl
  others := by
    intro other different
    simp [Server.ctxOpen, different]

theorem Server.release_touches (server : Server) (job : Nat)
    : server.Touches job (server.release job)
      ∧ (server.release job).answers = server.answers
      ∧ ((server.release job).jobs job).httpAio = (server.jobs job).httpAio := by
  have released := (Server.Touches.refl job server).setJob
    (fun fields => { fields with httpRes := false, msg := false })
  rw [Server.release]
  split
  · exact ⟨⟨released.allocated, released.freelist, released.others⟩, rfl, by simp [Server.ctxClose]⟩
  · exact ⟨released, rfl, by simp⟩

theorem Request.moves_of_touches (holds : request.point.job = some job)
    (stays : point.job = some job) (touches : server.Touches job after)
    (answers
      : (after.answers ++ (if point.due then [some request.aio] else [])).Perm
          (server.answers ++ (if request.point.due then [some request.aio] else [])))
    (fits : Request.Fits after { request with point } job)
    : request.Moves server (request.goto point, after) where
  answers := by simpa [Request.goto, Request.toList_due] using answers
  held := by
    refine ⟨[], by simp [touches.allocated], ?_⟩
    simp [Request.goto, Request.job, stays, holds, touches.freelist]
  others := by
    intro other _ different
    refine touches.others other ?_
    rintro rfl
    exact different holds
  fits := by
    intro next isNext kept isKept
    obtain rfl : { request with point } = next := Option.some.inj isNext
    obtain rfl : job = kept := Option.some.inj (stays.symm.trans isKept)
    exact fits
  idle := by
    intro free found absent
    exact absurd (touches.freelist ▸ found) absent

theorem Request.moves_unanswered (holds : request.point.job = some job)
    (stays : point.job = some job) (touches : server.Touches job after)
    (due : point.due = request.point.due) (quiet : point.awaits = none)
    (answers : after.answers = server.answers)
    (idle : (after.jobs job).httpAio = none)
    : request.Moves server (request.goto point, after) := by
  refine Request.moves_of_touches holds stays touches ?_ ⟨?_, ?_⟩
  · rw [due, answers]
  · simpa [quiet] using idle
  · simp [quiet]

theorem Request.moves_answered (holds : request.point.job = some job)
    (due : request.point.due = true) (touches : server.Touches job after)
    (answers : after.answers = server.answers ++ [some request.aio])
    (idle : (after.jobs job).httpAio = none)
    : request.Moves server (request.goto (.releasing job none), after) := by
  refine Request.moves_of_touches holds rfl touches ?_ ⟨?_, ?_⟩
  · have paid : (Point.releasing job none).due = false := rfl
    simp [paid, due, answers]
  · simpa [Point.awaits] using idle
  · simp [Point.awaits]

theorem Request.moves_restHttpFatal (holds : request.point.job = some job)
    (due : request.point.due = true) (touches : server.Touches job after)
    (answers : after.answers = server.answers)
    (belongs : (after.jobs job).httpAio = some request.aio)
    : request.Moves server (request.restHttpFatal job after) := by
  apply Request.moves_answered holds due
  · exact (touches.setJob _).aioFinish _ _
  · simp [answers, belongs]
  · simp

/-- `rest_job_cb` answers the request or goes on to the receive. -/
theorem Request.moves_restJobCb {result : Nat} (holds : request.point.job = some job)
    (due : request.point.due = true) (belongs : (server.jobs job).httpAio = some request.aio)
    : request.Moves server (request.restJobCb job result server) := by
  have same := Server.Touches.refl job server
  rw [Request.restJobCb]
  cases (server.jobs job).state with
  | SEND_REQ =>
      dsimp only
      split
      · exact Request.moves_restHttpFatal holds due same rfl belongs
      · refine Request.moves_of_touches holds rfl (same.setJob _) ?_ ⟨?_, ?_⟩
        · have unpaid : (Point.receiving job).due = true := rfl
          simp [due, unpaid]
        · simpa [Point.awaits] using belongs
        · simp [Point.awaits]
  | RECV_REP =>
      dsimp only
      split
      · exact Request.moves_restHttpFatal holds due same rfl belongs
      · split
        · exact Request.moves_restHttpFatal holds due (same.setJob _) rfl (by simpa using belongs)
        · apply Request.moves_answered holds due
          · exact ((same.setJob _).aioFinish _ _).setJob _
          · simp [belongs]
          · simp

theorem Request.moves_empty (holds : request.point.job = none) (stays : point.job = none)
    (due : point.due = request.point.due)
    : request.Moves server (request.goto point, server) where
  answers := by simp [Request.goto, Request.toList_due, due]
  held := ⟨[], by simp, by simp [Request.goto, Request.job, holds, stays]⟩
  others := fun _ _ _ => rfl
  fits := by
    intro next isNext job isJob
    obtain rfl : { request with point } = next := Option.some.inj isNext
    cases stays.symm.trans isJob
  idle := fun _ found absent => absurd found absent

theorem Request.moves_pop {rest : List Nat} (holds : request.point = .getJob)
    (shape : server.jobFreelist = job :: rest) (idle : (server.jobs job).httpAio = none)
    : request.Moves server
        (request.goto (.httpResAlloc job), { server with jobFreelist := rest }) where
  answers := by simp [Request.goto, Request.toList_due, holds, Point.due, Server.answers]
  held := ⟨[], by simp, by simp [Request.goto, Request.job, holds, shape, Point.job]⟩
  others := fun _ _ _ => rfl
  fits := by
    intro next isNext kept isKept
    obtain rfl : { request with point := .httpResAlloc job } = next := Option.some.inj isNext
    obtain rfl : job = kept := Option.some.inj isKept
    exact ⟨by simpa [Point.awaits] using idle, by simp [Point.awaits]⟩
  idle := fun free found absent => absurd (shape ▸ List.mem_cons_of_mem job found) absent

theorem Request.moves_calloc (holds : request.point = .callocJob)
    : request.Moves server
        (request.goto (.httpResAlloc server.allocated),
          {
            server.setJob server.allocated (fun _ => .zeroed) with
            allocated := server.allocated + 1
          }) where
  answers := by
    simp [Request.goto, Request.toList_due, holds, Point.due, Server.answers, Server.setJob]
  held := by
    refine ⟨[server.allocated], List.range_succ, ?_⟩
    simp [Request.goto, Request.job, holds, Point.job, Server.setJob]
  others := by
    intro other below _
    simp [below.ne]
  fits := by
    intro next isNext kept isKept
    obtain rfl : { request with point := .httpResAlloc server.allocated } = next :=
      Option.some.inj isNext
    obtain rfl : server.allocated = kept := Option.some.inj isKept
    constructor <;> simp [Point.awaits, RestJob.zeroed]
  idle := fun _ found absent => absurd found absent

theorem Request.moves_push {reply : Option Nat} (holds : request.point = .pushing job reply)
    (idle : (server.jobs job).httpAio = none)
    : request.Moves server
        (reply.bind fun rv => request.goto (.finishing rv), server.push job) where
  answers := by
    cases reply <;>
      simp [Request.goto, Request.toList_due, holds, Point.due, Server.answers, Server.push]
  held := by
    refine ⟨[], by simp [Server.push], ?_⟩
    have added := (List.perm_append_singleton job server.jobFreelist).symm
    cases reply <;> simpa [Request.goto, Request.job, holds, Point.job, Server.push] using added
  others := fun _ _ _ => rfl
  fits := by
    intro next isNext kept isKept
    cases reply with
    | none => cases isNext
    | some rv =>
        obtain rfl : { request with point := .finishing rv } = next := Option.some.inj isNext
        cases isKept
  idle := by
    intro free found absent
    rcases List.mem_cons.mp found with rfl | found
    · exact idle
    · exact absurd found absent

/-- The next step of a request, by cases on where it stands. -/
theorem Request.moves_next (ids : CtxIds) (fits : ∀ job ∈ request.job, request.Fits server job)
    (idle : ∀ job ∈ server.jobFreelist, (server.jobs job).httpAio = none)
    : request.Moves server (request.next ids server) := by
  obtain ⟨aio, outcomes, point⟩ := request
  cases point with
  | getJob =>
      rw [Request.next]
      cases shape : server.jobFreelist with
      | nil => exact Request.moves_empty rfl rfl rfl
      | cons job rest =>
          exact Request.moves_pop rfl shape (idle job (shape ▸ List.mem_cons_self))
  | callocJob =>
      simp only [Request.next]
      split
      · exact Request.moves_calloc rfl
      · exact Request.moves_empty rfl rfl rfl
  | httpResAlloc job =>
      have idle : (server.jobs job).httpAio = none := (fits job rfl).httpAio
      have same := Server.Touches.refl job server
      simp only [Request.next]
      split
      · exact Request.moves_unanswered rfl rfl same rfl rfl rfl idle
      · exact Request.moves_unanswered rfl rfl (same.setJob _) rfl rfl rfl (by simpa using idle)
  | ctxOpen job =>
      have idle : (server.jobs job).httpAio = none := (fits job rfl).httpAio
      simp only [Request.next]
      split
      · exact Request.moves_unanswered rfl rfl (.refl job server) rfl rfl rfl idle
      · refine Request.moves_unanswered rfl rfl (server.touches_ctxOpen ids job) rfl rfl rfl ?_
        simpa [Server.ctxOpen] using idle
  | msgAlloc job =>
      have given := (Server.Touches.refl job server).setJob
        fun fields => { fields with httpAio := some aio }
      simp only [Request.next]
      split
      · exact Request.moves_restHttpFatal rfl rfl given rfl (by simp)
      · refine Request.moves_of_touches rfl rfl (given.setJob _) (.refl _) ⟨?_, ?_⟩
        · simp [Point.awaits]
        · simp [Point.awaits]
  | sending job | receiving job =>
      have belongs : (server.jobs job).httpAio = some aio := (fits job rfl).httpAio
      exact Request.moves_restJobCb rfl rfl belongs
  | releasing job reply =>
      obtain ⟨touches, answers, kept⟩ := server.release_touches job
      have idle : (server.jobs job).httpAio = none := (fits job rfl).httpAio
      have logged : server.Touches job
          {
            server.release job with
            early := server.early ++ reply.toList.map fun _ => (job, (server.jobs job).ctx)
          } :=
        ⟨touches.allocated, touches.freelist, touches.others⟩
      exact Request.moves_unanswered rfl rfl logged rfl rfl answers (kept.trans idle)
  | pushing job reply => exact Request.moves_push rfl (fits job rfl).httpAio
  | finishing rv =>
      exact {
        answers := by simp [Request.next, Request.toList_due, Point.due]
        held := ⟨[], by simp [Request.next, Server.aioFinish],
          by simp [Request.next, Server.aioFinish, Request.job, Point.job]⟩
        others := fun _ _ _ => rfl
        fits := fun _ none => by cases none
        idle := fun _ found absent => absurd found absent
      }

end Steps

-- All interleavings

/-- What holds throughout. Every request is answered or still due, and every job is on the free
list or in the hands of one request.
-/
structure Orderly (requests : Nat) (pool : Pool Server Request) : Prop where
  answers
    : (pool.shared.answers ++ pool.running.filterMap Request.due
        ++ pool.waiting.filterMap Request.due).Perm
        ((List.range requests).map some)
  held
    : (pool.shared.jobFreelist ++ pool.running.filterMap Request.job).Perm
        (List.range pool.shared.allocated)
  waiting : ∀ request ∈ pool.waiting, request.point = .getJob
  fits : ∀ request ∈ pool.running, ∀ job ∈ request.job, request.Fits pool.shared job
  idle : ∀ job ∈ pool.shared.jobFreelist, (pool.shared.jobs job).httpAio = none

section Interleavings

variable {ids : CtxIds} {requests : Nat} {pool after : Pool Server Request}

theorem Orderly.start (outcomes : List Outcomes)
    : Orderly outcomes.length (WebServer.start outcomes) where
  answers := by
    have due : (WebServer.start outcomes).waiting.filterMap Request.due
        = (List.range outcomes.length).map some := by
      rw [WebServer.start, List.mapIdx_eq_zipIdx_map, List.filterMap_map, List.range_eq_range',
        ← List.zipIdx_map_snd 0 outcomes, List.map_map, ← List.filterMap_eq_map]
      rfl
    rw [due]
    exact List.Perm.refl _
  held := List.Perm.refl []
  waiting := by
    intro request member
    obtain ⟨index, below, rfl⟩ := List.mem_mapIdx.mp member
    rfl
  fits := by simp [WebServer.start]
  idle := by simp [WebServer.start, Server.init]

theorem Orderly.started (orderly : Orderly requests pool) {request : Request}
    {rest : List Request} (first : pool.waiting = request :: rest)
    : Orderly requests { pool with waiting := rest, running := pool.running ++ [request] } := by
  have fresh : request.point = .getJob := orderly.waiting request (first ▸ List.mem_cons_self)
  have empty : request.job = none := by rw [Request.job, fresh, Point.job]
  have due : request.due = some (some request.aio) := by rw [Request.due, fresh]; rfl
  exact {
    answers := by simpa [first, due] using orderly.answers
    held := by simpa [empty] using orderly.held
    waiting := fun other member => orderly.waiting other (first ▸ List.mem_cons_of_mem _ member)
    fits := by
      intro other member job isJob
      rcases List.mem_append.mp member with member | isRequest
      · exact orderly.fits other member job isJob
      · obtain rfl := List.mem_singleton.mp isRequest
        cases empty.symm.trans isJob
    idle := orderly.idle
  }

theorem Orderly.free_below (orderly : Orderly requests pool) {job : Nat}
    (free : job ∈ pool.shared.jobFreelist)
    : job < pool.shared.allocated :=
  List.mem_range.mp (orderly.held.mem_iff.mp (List.mem_append_left _ free))

theorem Orderly.below (orderly : Orderly requests pool) {request : Request}
    (isRunning : request ∈ pool.running) {job : Nat} (holds : job ∈ request.job)
    : job < pool.shared.allocated := by
  have member : job ∈ pool.running.filterMap Request.job :=
    List.mem_filterMap.mpr ⟨request, isRunning, holds⟩
  exact List.mem_range.mp (orderly.held.mem_iff.mp (List.mem_append_right _ member))

/-- A job in the hands of a request is in no other hands and not on the free list. -/
theorem Orderly.apart (orderly : Orderly requests pool) {before behind : List Request}
    {request : Request} (split : pool.running = before ++ request :: behind) {job : Nat}
    (holds : request.job = some job)
    : job ∉ pool.shared.jobFreelist ∧ ∀ other ∈ before ++ behind, other.job ≠ some job := by
  have nodup := orderly.held.nodup_iff.mpr List.nodup_range
  rw [split, List.filterMap_append, List.filterMap_cons_some holds, ← List.append_assoc,
    List.nodup_middle, List.nodup_cons, List.append_assoc, ← List.filterMap_append] at nodup
  refine ⟨fun free => nodup.1 (List.mem_append_left _ free), ?_⟩
  intro other member same
  have held : job ∈ (before ++ behind).filterMap Request.job :=
    List.mem_filterMap.mpr ⟨other, member, same⟩
  exact nodup.1 (List.mem_append_right _ held)

theorem Orderly.stepped (orderly : Orderly requests pool) {before behind : List Request}
    {request : Request} (split : pool.running = before ++ request :: behind)
    : Orderly requests (pool.advance (Request.next ids) before request behind) := by
  have isRunning : request ∈ pool.running := by simp [split]
  have moves := Request.moves_next ids (orderly.fits request isRunning) orderly.idle
  obtain ⟨created, allocated, held⟩ := moves.held
  exact {
    answers := by
      refine (List.Perm.append_right _ ?_).trans orderly.answers
      exact Pool.perm_advance Request.due split moves.answers
    held := by
      refine (Pool.perm_advance Request.job split held).trans ?_
      rw [List.append_assoc]
      refine (orderly.held.append_left created).trans ?_
      rw [Pool.advance, allocated]
      exact List.perm_append_comm
    waiting := orderly.waiting
    fits := by
      refine Pool.forall_mem_advance ?_ moves.fits
      intro other member job isJob
      have isOther := Pool.mem_of_split split member
      have fits := orderly.fits other isOther job isJob
      have same := moves.others job (orderly.below isOther isJob)
        (fun holds => (orderly.apart split holds).2 other member isJob)
      exact ⟨same ▸ fits.httpAio, same ▸ fits.state⟩
    idle := by
      intro job found
      by_cases known : job ∈ pool.shared.jobFreelist
      · have same := moves.others job (orderly.free_below known)
          (fun holds => (orderly.apart split holds).1 known)
        exact (congrArg RestJob.httpAio same).trans (orderly.idle job known)
      · exact moves.idle job found known
  }

theorem Orderly.step (orderly : Orderly requests pool)
    (step : TaskPool.Step (Request.next ids) (fun _ _ => True) pool after)
    : Orderly requests after := by
  cases step with
  | start first => exact orderly.started first
  | atomic split _ => exact orderly.stepped split

theorem Orderly.reached (orderly : Orderly requests pool) (run : Reach ids pool after)
    : Orderly requests after := by
  induction run with
  | refl => exact orderly
  | tail _ step ih => exact ih.step step

/-- The steps that are left, and one more. -/
def Point.rank : Point → Nat
  | .finishing _ => 1
  | .pushing _ _ => 2
  | .releasing _ _ => 3
  | .receiving _ => 4
  | .sending _ => 5
  | .msgAlloc _ => 6
  | .ctxOpen _ => 7
  | .httpResAlloc _ => 8
  | .callocJob => 9
  | .getJob => 10

/-- Every step of a request brings it nearer to its end. -/
theorem Request.rank_next (ids : CtxIds) {request : Request} {server : Server}
    (fits : ∀ job ∈ request.job, request.Fits server job)
    : (((request.next ids server).1.map (Point.rank ∘ Request.point)).getD 0)
      < request.point.rank := by
  obtain ⟨aio, outcomes, point⟩ := request
  cases point with
  | getJob =>
      simp only [Request.next]
      split <;> simp [Request.goto, Point.rank]
  | sending job =>
      have state : (server.jobs job).state = .SEND_REQ := (fits job rfl).state _ rfl
      simp only [Request.next, Request.restJobCb, state]
      split <;> simp [Request.restHttpFatal, Request.goto, Point.rank]
  | receiving job =>
      have state : (server.jobs job).state = .RECV_REP := (fits job rfl).state _ rfl
      simp only [Request.next, Request.restJobCb, state]
      split
      · simp [Request.restHttpFatal, Request.goto, Point.rank]
      · split <;> simp [Request.restHttpFatal, Request.goto, Point.rank]
  | callocJob | httpResAlloc job | ctxOpen job | msgAlloc job =>
      simp only [Request.next]
      split <;> simp [Request.restHttpFatal, Request.goto, Point.rank]
  | releasing job reply => simp [Request.next, Request.goto, Point.rank]
  | pushing job reply => cases reply <;> simp [Request.next, Request.goto, Point.rank]
  | finishing rv => simp [Request.next, Point.rank]

theorem Orderly.completes (ids : CtxIds) (orderly : Orderly requests pool)
    : ∃ last, Reach ids pool last ∧ last.waiting = [] ∧ last.running = [] := by
  refine TaskPool.exists_finished (Point.rank ∘ Request.point) Orderly.step ?_ orderly
  intro pool before request behind orderly split
  exact Request.rank_next ids (orderly.fits request (by simp [split]))

/-- The aio of a request that is neither waiting nor running was finished once. -/
theorem Orderly.count_answers (orderly : Orderly requests pool) {aio : Nat}
    (isRequest : aio < requests)
    (ended : ∀ request ∈ pool.waiting ++ pool.running, request.aio ≠ aio)
    : pool.shared.answers.count (some aio) = 1 := by
  have undue (group : List Request) (ended : ∀ request ∈ group, request.aio ≠ aio)
      : (group.filterMap Request.due).count (some aio) = 0 := by
    refine List.count_eq_zero_of_not_mem fun member => ?_
    obtain ⟨request, found, due⟩ := List.mem_filterMap.mp member
    rw [Request.due] at due
    split at due
    · exact ended request found (by simpa using due)
    · cases due
  have total := orderly.answers.count_eq (some aio)
  rw [List.count_append, List.count_append,
    undue pool.running fun request found => ended request (List.mem_append_right _ found),
    undue pool.waiting fun request found => ended request (List.mem_append_left _ found),
    List.count_map_of_injective _ _ (Option.some_injective Nat),
    List.count_eq_one_of_mem List.nodup_range (List.mem_range.mpr isRequest)] at total
  exact total

theorem Orderly.answered (ids : CtxIds) (orderly : Orderly requests pool)
    : Answered ids requests pool where
  requested := by
    intro answer found
    have member :=
      orderly.answers.mem_iff.mp (List.mem_append_left _ (List.mem_append_left _ found))
    obtain ⟨aio, below, rfl⟩ := List.mem_map.mp member
    exact ⟨aio, List.mem_range.mp below, rfl⟩
  once := by
    have nodup : ((List.range requests).map some).Nodup :=
      List.nodup_range.map (Option.some_injective Nat)
    have answered := (orderly.answers.nodup_iff.mpr nodup).of_append_left.of_append_left
    exact List.nodup_iff_count_le_one.mp answered
  ended := fun aio isRequest ended => orderly.count_answers isRequest ended
  freelist := (orderly.held.nodup_iff.mpr List.nodup_range).of_append_left
  unowned := by
    intro job free
    refine ⟨orderly.idle job free, ?_⟩
    intro request isRunning holds
    obtain ⟨before, behind, split⟩ := List.append_of_mem isRunning
    exact (orderly.apart split holds).1 free
  completes := by
    obtain ⟨last, run, waiting, running⟩ := orderly.completes ids
    refine ⟨last, run, waiting, running, ?_⟩
    intro aio isRequest
    exact (orderly.reached run).count_answers isRequest (by simp [waiting, running])

end Interleavings

/-- In every interleaving of any requests with any outcomes, each request is answered exactly
once and no job is shared.
-/
theorem requests_answered_once (ids : CtxIds) (outcomes : List Outcomes)
    (pool : Pool Server Request) (run : Reach ids (start outcomes) pool)
    : Answered ids outcomes.length pool :=
  ((Orderly.start outcomes).reached run).answered ids

/-- Every call succeeds. -/
def Outcomes.fine : Outcomes :=
  {
    calloc := true
    aioAlloc := 0
    httpResAlloc := 0
    ctxOpen := 0
    msgAlloc := 0
    ctxSend := 0
    ctxRecv := 0
    copyData := 0
  }

/-- Witness: a request that succeeds and, on the same job, one whose send fails. -/
theorem two_requests_answered
    : Answered .above 2
        ((start [.fine, { Outcomes.fine with ctxSend := 5 }]).follow (Request.next .above)
          ([Choice.start, Choice.start] ++ List.replicate 16 (Choice.run 0)))
      ∧ ((start [.fine, { Outcomes.fine with ctxSend := 5 }]).follow (Request.next .above)
          ([Choice.start, Choice.start] ++ List.replicate 16 (Choice.run 0))).shared.answers
        = [some 0, some 1] := by
  refine ⟨requests_answered_once .above [.fine, { Outcomes.fine with ctxSend := 5 }] _ ?_,
    by decide +kernel⟩
  exact TaskPool.reach_follow _ _ _ _ (by decide +kernel)

end NanoMQ.WebServer
