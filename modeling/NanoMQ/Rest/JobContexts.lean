import NanoMQ.Rest.Jobs

/-! The contexts of the REST jobs. `rest_recycle_job` closes the context of a job and leaves its
id in the job, so a job that is given back early, before it got a new context, has its old
context closed again.
-/

namespace NanoMQ.WebServer

open TaskPool (Pool Choice)
open Sessions

/-- The contexts that a job opened and closed. -/
def Server.history (server : Server) (job : Nat) : List (Event Nat) :=
  server.contexts.filterMap fun entry => if entry.1 = job then some entry.2 else none

/-- The request has opened a context and not closed it yet. -/
def Point.usesContext : Point → Bool
  | .msgAlloc _ | .sending _ | .receiving _ => true
  | .releasing _ reply => reply.isNone
  | _ => false

/-- The context that a request has open. -/
def Request.context (server : Server) (request : Request) : Option Nat :=
  if request.point.usesContext then request.job.map fun job => (server.jobs job).ctx else none

/-- Each job closed each of its contexts once, right after its use. Those that are open now are
the ones of running requests, all different.
-/
structure ContextsClosed (pool : Pool Server Request) : Prop where
  paired
    : ∀ job,
        ∃ held,
          Paired (pool.shared.history job) held
          ∧ ∀ id ∈ held,
              ∃ request ∈ pool.running,
                request.job = some job ∧ request.context pool.shared = some id
  opened : pool.shared.openIds.Perm (pool.running.filterMap (Request.context pool.shared))
  different : pool.shared.openIds.Nodup

-- One step

/-- The job was never given back early with an old context. -/
def Server.Clean (server : Server) (job : Nat) : Prop :=
  ∀ entry ∈ server.early, entry.1 = job → entry.2 = 0

/-- The job has this context open, and its history is in order as long as it is clean. -/
def Server.Follows (server : Server) (job : Nat) (held : Option Nat) : Prop :=
  Tracks (server.Clean job) (server.history job) held

/-- What a step of a request does to the contexts. -/
structure Request.Handles (request : Request) (server : Server)
    (result : Option Request × Server)
    : Prop where
  others
    : ∀ other held,
        request.job ≠ some other → server.Follows other held → result.2.Follows other held
  early : server.early ⊆ result.2.early
  follows
    : ∀ next ∈ result.1, ∀ job ∈ next.job,
        result.2.Follows job (next.context result.2)
        ∧ ∀ id ∈ next.context result.2, id ≠ 0
  free
    : ∀ job ∈ result.2.jobFreelist, job ∉ server.jobFreelist → result.2.Follows job none
  different : server.openIds.Nodup → result.2.openIds.Nodup
  opened
    : (∀ entry ∈ result.2.early, entry.2 = 0)
      → (∀ id ∈ request.context server, id ∈ server.openIds)
      → (result.2.openIds ++ (request.context server).toList).Perm
          (server.openIds ++ (result.1.bind (Request.context result.2)).toList)

section Steps

variable {request : Request} {server after : Server} {job : Nat} {point : Point}
  {held : Option Nat}

/-- The contexts and the record of early returns are as before. -/
structure Server.SameContexts (server after : Server) : Prop where
  contexts : after.contexts = server.contexts
  openIds : after.openIds = server.openIds
  early : after.early = server.early

theorem Server.SameContexts.follows (same : server.SameContexts after)
    (follows : server.Follows job held)
    : after.Follows job held := by
  simpa only [Server.Follows, Server.Clean, Server.history, same.contexts, same.early]
    using follows

theorem Request.context_of_unused (unused : request.point.usesContext = false)
    : request.context server = none := by
  simp [Request.context, unused]

theorem Server.release_of_context (server : Server) (job : Nat)
    (valid : (server.jobs job).ctx ≠ 0)
    : (server.release job).contexts
        = server.contexts ++ [(job, .closed (server.jobs job).ctx)]
      ∧ (server.release job).openIds = server.openIds.erase (server.jobs job).ctx := by
  simp [Server.release, Server.ctxClose, Server.setJob, valid]

theorem Server.release_of_no_context (server : Server) (job : Nat)
    (absent : (server.jobs job).ctx = 0)
    : (server.release job).contexts = server.contexts
      ∧ (server.release job).openIds = server.openIds := by
  simp [Server.release, Server.setJob, absent]

theorem Server.Follows.other {logged : List (Nat × Event Nat)} {returned : List (Nat × Nat)}
    {other : Nat} (follows : server.Follows other held) (different : other ≠ job)
    (contexts : after.contexts = server.contexts ++ logged)
    (early : after.early = server.early ++ returned)
    (isLogged : ∀ entry ∈ logged, entry.1 = job)
    (isReturned : ∀ entry ∈ returned, entry.1 = job)
    : after.Follows other held := by
  have history : after.history other = server.history other := by
    have nothing : logged.filterMap (fun entry => if entry.1 = other then some entry.2 else none)
        = [] := by
      rw [List.filterMap_eq_nil_iff]
      intro entry member
      simp [isLogged entry member, different.symm]
    rw [Server.history, contexts, List.filterMap_append, nothing, List.append_nil, Server.history]
  have clean : after.Clean other = server.Clean other := by
    have none : ∀ entry ∈ returned, entry.1 = other → entry.2 = 0 := fun entry member same =>
      absurd (same.symm.trans (isReturned entry member)) different
    simp only [Server.Clean, early, List.forall_mem_append, and_iff_left none]
  rw [Server.Follows, history, clean]
  exact follows

theorem Server.history_logged {event : Event Nat}
    (contexts : after.contexts = server.contexts ++ [(job, event)])
    : after.history job = server.history job ++ [event] := by
  simp [Server.history, contexts]

theorem Request.handles_of_recorded {logged : List (Nat × Event Nat)}
    {returned : List (Nat × Nat)} (holds : request.point.job = some job)
    (stays : point.job = some job) (freelist : after.jobFreelist = server.jobFreelist)
    (contexts : after.contexts = server.contexts ++ logged)
    (early : after.early = server.early ++ returned)
    (isLogged : ∀ entry ∈ logged, entry.1 = job)
    (isReturned : ∀ entry ∈ returned, entry.1 = job)
    (follows : after.Follows job (Request.context after { request with point }))
    (valid : ∀ id ∈ Request.context after { request with point }, id ≠ 0)
    (different : server.openIds.Nodup → after.openIds.Nodup)
    (opened
      : (∀ entry ∈ after.early, entry.2 = 0)
        → (∀ id ∈ request.context server, id ∈ server.openIds)
        → (after.openIds ++ (request.context server).toList).Perm
            (server.openIds ++ (Request.context after { request with point }).toList))
    : request.Handles server (request.goto point, after) where
  others := by
    intro other held isOther follows
    refine follows.other ?_ contexts early isLogged isReturned
    rintro rfl
    exact isOther holds
  early := by
    rw [early]
    exact List.subset_append_left _ _
  follows := by
    intro next isNext kept isKept
    obtain rfl : { request with point } = next := Option.some.inj isNext
    obtain rfl : job = kept := Option.some.inj (stays.symm.trans isKept)
    exact ⟨follows, valid⟩
  free := fun free found absent => absurd (freelist ▸ found) absent
  different := different
  opened := opened

theorem Request.handles_of_same (holds : request.point.job = some job)
    (stays : point.job = some job) (uses : point.usesContext = request.point.usesContext)
    (same : server.SameContexts after) (freelist : after.jobFreelist = server.jobFreelist)
    (ctx : (after.jobs job).ctx = (server.jobs job).ctx)
    (follows : server.Follows job (request.context server))
    (valid : ∀ id ∈ request.context server, id ≠ 0)
    : request.Handles server (request.goto point, after) := by
  have context : Request.context after { request with point } = request.context server := by
    simp [Request.context, Request.job, holds, stays, uses, ctx]
  have contexts : after.contexts = server.contexts ++ [] := by simp [same.contexts]
  have early : after.early = server.early ++ [] := by simp [same.early]
  apply Request.handles_of_recorded holds stays freelist contexts early
  · simp
  · simp
  · rw [context]
    exact same.follows follows
  · rw [context]
    exact valid
  · rw [same.openIds]
    exact id
  · intro _ _
    rw [context, same.openIds]

theorem Request.handles_taken (uses : request.point.usesContext = false)
    (same : server.SameContexts after) (freelist : after.jobFreelist ⊆ server.jobFreelist)
    (follows : server.Follows job none)
    : request.Handles server (request.goto (.httpResAlloc job), after) where
  others := fun _ _ _ => same.follows
  early := by rw [same.early]; exact List.Subset.refl _
  follows := by
    intro next isNext kept isKept
    obtain rfl : { request with point := .httpResAlloc job } = next := Option.some.inj isNext
    obtain rfl : job = kept := Option.some.inj isKept
    exact ⟨same.follows follows, by simp [Request.context, Point.usesContext]⟩
  free := fun _ found absent => absurd (freelist found) absent
  different := by rw [same.openIds]; exact id
  opened := by
    intro _ _
    have unused : Request.context after { request with point := .httpResAlloc job } = none := rfl
    rw [Request.context_of_unused uses]
    simp [Request.goto, unused, same.openIds]

theorem Request.handles_jobless {following : Option Request}
    (jobless : ∀ next ∈ following, next.point.job = none)
    (uses : request.point.usesContext = false) (same : server.SameContexts after)
    (free
      : ∀ job ∈ after.jobFreelist, job ∉ server.jobFreelist → server.Follows job none)
    : request.Handles server (following, after) where
  others := fun _ _ _ => same.follows
  early := by rw [same.early]; exact List.Subset.refl _
  follows := by
    intro next isNext job isJob
    cases (jobless next isNext).symm.trans isJob
  free := fun job found absent => same.follows (free job found absent)
  different := by rw [same.openIds]; exact id
  opened := by
    have without : following.bind (Request.context after) = none := by
      rw [Option.bind_eq_none_iff]
      intro next isNext
      simp [Request.context, Request.job, jobless next isNext]
    simp [without, Request.context, uses, same.openIds]

/-- `nng_ctx_open` -/
theorem Request.handles_ctxOpen (ids : CtxIds) (holds : request.point = .ctxOpen job)
    (follows : server.Follows job none)
    : request.Handles server (request.goto (.msgAlloc job), server.ctxOpen ids job) := by
  have holdsJob : request.point.job = some job := by rw [holds, Point.job]
  have before : request.context server = none := by
    simp [Request.context, holds, Point.usesContext]
  have context : Request.context (server.ctxOpen ids job) { request with point := .msgAlloc job }
      = some (ids.grant server.contexts.length server.openIds) := by
    simp [Request.context, Point.usesContext, Request.job, Point.job, Server.ctxOpen]
  have freelist : (server.ctxOpen ids job).jobFreelist = server.jobFreelist := rfl
  have early : (server.ctxOpen ids job).early = server.early ++ [] := (List.append_nil _).symm
  apply Request.handles_of_recorded holdsJob rfl freelist rfl early
  · simp
  · simp
  · rw [context, Server.Follows, Server.history_logged rfl]
    exact Tracks.opened follows _
  · rw [context]
    rintro id ⟨rfl⟩
    exact ids.positive _ _
  · exact fun different => List.nodup_cons.mpr ⟨ids.fresh _ _, different⟩
  · intro _ _
    rw [context, before]
    simpa [Server.ctxOpen] using (List.perm_append_singleton _ _).symm

theorem Request.handles_release (holds : request.point = .releasing job none)
    (freelist : after.jobFreelist = server.jobFreelist)
    (contexts : after.contexts = server.contexts ++ [(job, .closed (server.jobs job).ctx)])
    (openIds : after.openIds = server.openIds.erase (server.jobs job).ctx)
    (early : after.early = server.early)
    (follows : server.Follows job (some (server.jobs job).ctx))
    : request.Handles server (request.goto (.pushing job none), after) := by
  have holdsJob : request.point.job = some job := by rw [holds, Point.job]
  have before : request.context server = some (server.jobs job).ctx := by
    simp [Request.context, Request.job, holds, Point.usesContext, Point.job]
  have context : Request.context after { request with point := .pushing job none } = none := rfl
  apply Request.handles_of_recorded holdsJob rfl freelist contexts
    (early.trans (List.append_nil _).symm)
  · simp
  · simp
  · rw [context, Server.Follows, Server.history_logged contexts, Server.Clean, early]
    exact Tracks.closed follows
  · simp [context]
  · intro different
    rw [openIds]
    exact different.erase _
  · intro _ isOpen
    rw [openIds, before, context]
    have found := List.perm_cons_erase (isOpen _ before)
    simpa using (List.perm_append_singleton _ _).trans found.symm

section Release

-- `rest_recycle_job`, called when `rest_handle` returns early.
variable {rv : Nat} (holds : request.point = .releasing job (some rv))
  (freelist : after.jobFreelist = server.jobFreelist)
  (early : after.early = server.early ++ [(job, (server.jobs job).ctx)])
  (follows : server.Follows job none)

include holds freelist early follows

theorem Request.handles_earlyRelease (absent : (server.jobs job).ctx = 0)
    (contexts : after.contexts = server.contexts) (openIds : after.openIds = server.openIds)
    : request.Handles server (request.goto (.pushing job (some rv)), after) := by
  have holdsJob : request.point.job = some job := by rw [holds, Point.job]
  have before : request.context server = none := by
    simp [Request.context, holds, Point.usesContext]
  have context : Request.context after { request with point := .pushing job (some rv) } = none :=
    rfl
  have clean : after.Clean job = server.Clean job := by
    simp [Server.Clean, early, or_imp, forall_and, absent]
  apply Request.handles_of_recorded holdsJob rfl freelist
    (contexts.trans (List.append_nil _).symm) early
  · simp
  · simp
  · rw [context, Server.Follows, clean, Server.history, contexts]
    exact follows
  · simp [context]
  · rw [openIds]
    exact id
  · intro _ _
    rw [openIds, before, context]

/-- With a job that had a context before, the old context is closed again. -/
theorem Request.handles_staleRelease (stale : (server.jobs job).ctx ≠ 0)
    (contexts : after.contexts = server.contexts ++ [(job, .closed (server.jobs job).ctx)])
    (openIds : after.openIds = server.openIds.erase (server.jobs job).ctx)
    : request.Handles server (request.goto (.pushing job (some rv)), after) := by
  have holdsJob : request.point.job = some job := by rw [holds, Point.job]
  have context : Request.context after { request with point := .pushing job (some rv) } = none :=
    rfl
  have recorded : (job, (server.jobs job).ctx) ∈ after.early := by simp [early]
  apply Request.handles_of_recorded holdsJob rfl freelist contexts early
  · simp
  · simp
  · rw [context, Server.Follows, Server.history_logged contexts]
    exact Tracks.closed_again follows _ (fun clean => stale (clean _ recorded rfl))
  · simp [context]
  · intro different
    rw [openIds]
    exact different.erase _
  · intro clean _
    exact absurd (clean _ recorded) stale

end Release

theorem Request.handles_restHttpFatal (holds : request.point.job = some job)
    (uses : request.point.usesContext = true) (same : server.SameContexts after)
    (freelist : after.jobFreelist = server.jobFreelist)
    (ctx : (after.jobs job).ctx = (server.jobs job).ctx)
    (follows : server.Follows job (request.context server))
    (valid : ∀ id ∈ request.context server, id ≠ 0)
    : request.Handles server (request.restHttpFatal job after) := by
  refine Request.handles_of_same holds rfl uses.symm ?_ freelist ?_ follows valid
  · exact ⟨same.contexts, same.openIds, same.early⟩
  · simpa using ctx

theorem Request.handles_restJobCb {result : Nat} (holds : request.point.job = some job)
    (uses : request.point.usesContext = true)
    (follows : server.Follows job (request.context server))
    (valid : ∀ id ∈ request.context server, id ≠ 0)
    : request.Handles server (request.restJobCb job result server) := by
  have fatal (after : Server) (same : server.SameContexts after)
      (freelist : after.jobFreelist = server.jobFreelist)
      (ctx : (after.jobs job).ctx = (server.jobs job).ctx)
      : request.Handles server (request.restHttpFatal job after) :=
    Request.handles_restHttpFatal holds uses same freelist ctx follows valid
  rw [Request.restJobCb]
  cases (server.jobs job).state with
  | SEND_REQ =>
      dsimp only
      split
      · exact fatal server ⟨rfl, rfl, rfl⟩ rfl rfl
      · exact Request.handles_of_same holds rfl uses.symm ⟨rfl, rfl, rfl⟩ rfl (by simp) follows
          valid
  | RECV_REP =>
      dsimp only
      split
      · exact fatal server ⟨rfl, rfl, rfl⟩ rfl rfl
      · split
        · exact fatal _ ⟨rfl, rfl, rfl⟩ rfl (by simp)
        · exact Request.handles_of_same holds rfl uses.symm ⟨rfl, rfl, rfl⟩ rfl (by simp) follows
            valid

/-- The next step of a request, by cases on where it stands. -/
theorem Request.handles_next (ids : CtxIds)
    (follows
      : ∀ job ∈ request.job,
          server.Follows job (request.context server)
          ∧ ∀ id ∈ request.context server, id ≠ 0)
    (free : ∀ job ∈ server.jobFreelist, server.Follows job none)
    (fresh : server.Follows server.allocated none)
    : request.Handles server (request.next ids server) := by
  obtain ⟨aio, outcomes, point⟩ := request
  have unchanged : server.SameContexts server := ⟨rfl, rfl, rfl⟩
  cases point with
  | getJob =>
      simp only [Request.next]
      split
      case h_1 =>
        refine Request.handles_jobless ?_ rfl unchanged fun _ found absent => absurd found absent
        rintro next ⟨rfl⟩
        rfl
      case h_2 job rest shape =>
        refine Request.handles_taken rfl ⟨rfl, rfl, rfl⟩ ?_ ?_
        · rw [shape]
          exact List.subset_cons_self job rest
        · exact free job (shape ▸ List.mem_cons_self)
  | callocJob =>
      simp only [Request.next]
      split
      · exact Request.handles_taken rfl ⟨rfl, rfl, rfl⟩ (List.Subset.refl _) fresh
      · refine Request.handles_jobless ?_ rfl unchanged fun _ found absent => absurd found absent
        rintro next ⟨rfl⟩
        rfl
  | httpResAlloc job =>
      obtain ⟨follows, valid⟩ := follows job rfl
      simp only [Request.next]
      split
      · exact Request.handles_of_same rfl rfl rfl unchanged rfl rfl follows valid
      · exact Request.handles_of_same rfl rfl rfl ⟨rfl, rfl, rfl⟩ rfl (by simp) follows valid
  | ctxOpen job =>
      obtain ⟨follows, valid⟩ := follows job rfl
      simp only [Request.next]
      split
      · exact Request.handles_of_same rfl rfl rfl unchanged rfl rfl follows valid
      · exact Request.handles_ctxOpen ids rfl follows
  | msgAlloc job =>
      obtain ⟨follows, valid⟩ := follows job rfl
      simp only [Request.next]
      split
      · exact Request.handles_restHttpFatal rfl rfl ⟨rfl, rfl, rfl⟩ rfl (by simp) follows valid
      · exact Request.handles_of_same rfl rfl rfl ⟨rfl, rfl, rfl⟩ rfl (by simp) follows valid
  | sending job | receiving job =>
      obtain ⟨follows, valid⟩ := follows job rfl
      exact Request.handles_restJobCb rfl rfl follows valid
  | releasing job reply =>
      obtain ⟨follows, valid⟩ := follows job rfl
      have freelist := (server.release_touches job).1.freelist
      cases reply with
      | none =>
          obtain ⟨contexts, openIds⟩ := server.release_of_context job (valid _ rfl)
          exact Request.handles_release rfl freelist contexts openIds (List.append_nil _) follows
      | some rv =>
          by_cases absent : (server.jobs job).ctx = 0
          · obtain ⟨contexts, openIds⟩ := server.release_of_no_context job absent
            exact Request.handles_earlyRelease rfl freelist rfl follows absent contexts openIds
          · obtain ⟨contexts, openIds⟩ := server.release_of_context job absent
            exact Request.handles_staleRelease rfl freelist rfl follows absent contexts openIds
  | pushing job reply =>
      refine Request.handles_jobless ?_ rfl ⟨rfl, rfl, rfl⟩ ?_
      · cases reply with
        | none => simp
        | some rv =>
            rintro next ⟨rfl⟩
            rfl
      · intro other found absent
        rcases List.mem_cons.mp found with rfl | found
        · exact (follows other rfl).1
        · exact absurd found absent
  | finishing rv =>
      refine Request.handles_jobless (by simp) rfl ⟨rfl, rfl, rfl⟩ ?_
      exact fun _ found absent => absurd found absent

end Steps

-- All interleavings

/-- What holds throughout: every job follows its context, and as long as no old context was
closed again, the open contexts are those of the running requests.
-/
structure Attended (pool : Pool Server Request) : Prop where
  follows
    : ∀ request ∈ pool.running, ∀ job ∈ request.job,
        pool.shared.Follows job (request.context pool.shared)
        ∧ ∀ id ∈ request.context pool.shared, id ≠ 0
  free : ∀ job ∈ pool.shared.jobFreelist, pool.shared.Follows job none
  fresh : ∀ job, pool.shared.allocated ≤ job → pool.shared.Follows job none
  different : pool.shared.openIds.Nodup
  opened
    : (∀ entry ∈ pool.shared.early, entry.2 = 0)
      → pool.shared.openIds.Perm (pool.running.filterMap (Request.context pool.shared))

section Interleavings

variable {ids : CtxIds} {requests : Nat} {pool after : Pool Server Request}

theorem Attended.start (outcomes : List Outcomes) : Attended (WebServer.start outcomes) where
  follows := by simp [WebServer.start]
  free := by simp [WebServer.start, Server.init]
  fresh := by
    intro job _
    refine ⟨fun _ => paired_nil, fun stained => absurd ?_ stained⟩
    simp [Server.Clean, WebServer.start, Server.init]
  different := List.nodup_nil
  opened := fun _ => List.Perm.refl []

theorem Attended.started (attended : Attended pool) (orderly : Orderly requests pool)
    {request : Request} {rest : List Request} (first : pool.waiting = request :: rest)
    : Attended { pool with waiting := rest, running := pool.running ++ [request] } := by
  have isNew : request.point = .getJob := orderly.waiting request (first ▸ List.mem_cons_self)
  have empty : request.job = none := by rw [Request.job, isNew, Point.job]
  have unused : request.context pool.shared = none := by simp [Request.context, empty]
  exact {
    attended with
    follows := by
      intro other member job isJob
      rcases List.mem_append.mp member with member | isRequest
      · exact attended.follows other member job isJob
      · obtain rfl := List.mem_singleton.mp isRequest
        cases empty.symm.trans isJob
    opened := by
      intro clean
      simpa [unused] using attended.opened clean
  }

theorem Orderly.context_of_other (orderly : Orderly requests pool)
    {before behind : List Request} {request : Request}
    (split : pool.running = before ++ request :: behind) {other : Request}
    (member : other ∈ before ++ behind)
    : other.context (request.next ids pool.shared).2 = other.context pool.shared := by
  have isRunning : request ∈ pool.running := by simp [split]
  have moves := Request.moves_next ids (orderly.fits request isRunning) orderly.idle
  have isOther := Pool.mem_of_split split member
  cases isJob : other.job with
  | none => simp [Request.context, isJob]
  | some job =>
      have same := moves.others job (orderly.below isOther isJob)
        (fun holds => (orderly.apart split holds).2 other member isJob)
      simp [Request.context, isJob, same]

theorem Attended.stepped (attended : Attended pool) (orderly : Orderly requests pool)
    {before behind : List Request} {request : Request}
    (split : pool.running = before ++ request :: behind)
    : Attended (pool.advance (Request.next ids) before request behind) := by
  have isRunning : request ∈ pool.running := by simp [split]
  have handles := Request.handles_next ids (attended.follows request isRunning) attended.free
    (attended.fresh _ (Nat.le_refl _))
  have context (other : Request) (member : other ∈ before ++ behind)
      : other.context (request.next ids pool.shared).2 = other.context pool.shared :=
    orderly.context_of_other split member
  have moves := Request.moves_next ids (orderly.fits request isRunning) orderly.idle
  exact {
    follows := by
      refine Pool.forall_mem_advance ?_ handles.follows
      intro other member job isJob
      obtain ⟨follows, valid⟩ :=
        attended.follows other (Pool.mem_of_split split member) job isJob
      have isOther (holds : request.job = some job) : False :=
        (orderly.apart split holds).2 other member isJob
      rw [Pool.advance, context other member]
      exact ⟨handles.others job _ isOther follows, valid⟩
    free := by
      intro job found
      by_cases known : job ∈ pool.shared.jobFreelist
      · exact handles.others job _ (fun holds => (orderly.apart split holds).1 known)
          (attended.free job known)
      · exact handles.free job found known
    fresh := by
      intro job above
      obtain ⟨created, allocated, _⟩ := moves.held
      have grows : pool.shared.allocated ≤ (request.next ids pool.shared).2.allocated := by
        have sizes := congrArg List.length allocated
        simp only [List.length_range, List.length_append] at sizes
        omega
      have unheld (holds : request.job = some job) : False :=
        Nat.not_lt.mpr (grows.trans above) (orderly.below isRunning holds)
      exact handles.others job _ unheld (attended.fresh job (grows.trans above))
    different := handles.different attended.different
    opened := by
      intro clean
      have opened := attended.opened fun entry member => clean entry (handles.early member)
      have isOpen : ∀ id ∈ request.context pool.shared, id ∈ pool.shared.openIds := by
        intro id isContext
        exact opened.mem_iff.mpr (List.mem_filterMap.mpr ⟨request, isRunning, isContext⟩)
      have same (group : List Request) (within : group ⊆ before ++ behind)
          : group.filterMap (Request.context (request.next ids pool.shared).2)
            = group.filterMap (Request.context pool.shared) :=
        List.filterMap_congr fun other member => context other (within member)
      rw [Pool.filterMap_split _ split] at opened
      rw [Pool.filterMap_advance]
      rw [← same before (List.subset_append_left _ _),
        ← same behind (List.subset_append_right _ _)] at opened
      exact TaskPool.perm_exchange opened (handles.opened clean isOpen)
  }

theorem Attended.reached (attended : Attended pool) (orderly : Orderly requests pool)
    (run : Reach ids pool after)
    : Attended after := by
  induction run with
  | refl => exact attended
  | tail run step ih =>
      have orderly := orderly.reached run
      cases step with
      | start first => exact ih.started orderly first
      | atomic split _ => exact ih.stepped orderly split

theorem Attended.follows_job (attended : Attended pool) (orderly : Orderly requests pool)
    (job : Nat)
    : ∃ held,
        pool.shared.Follows job held
        ∧ ∀ id ∈ held,
            ∃ request ∈ pool.running,
              request.job = some job ∧ request.context pool.shared = some id := by
  by_cases above : pool.shared.allocated ≤ job
  · exact ⟨none, attended.fresh job above, by simp⟩
  · have known := orderly.held.mem_iff.mpr (List.mem_range.mpr (Nat.lt_of_not_le above))
    rcases List.mem_append.mp known with free | isHeld
    · exact ⟨none, attended.free job free, by simp⟩
    · obtain ⟨request, isRunning, holds⟩ := List.mem_filterMap.mp isHeld
      refine ⟨_, (attended.follows request isRunning job holds).1, ?_⟩
      exact fun id isContext => ⟨request, isRunning, holds, isContext⟩

end Interleavings

/-- In every interleaving, every context is closed exactly once, by the job that opened it and
before that job gets another, if and only if no job was given back early by `rest_handle` with
the id of an old context.
-/
theorem contexts_closed_once_iff (ids : CtxIds) (outcomes : List Outcomes)
    (pool : Pool Server Request) (run : Reach ids (start outcomes) pool)
    : ContextsClosed pool ↔ ∀ entry ∈ pool.shared.early, entry.2 = 0 := by
  have orderly := (Orderly.start outcomes).reached run
  have attended := (Attended.start outcomes).reached (Orderly.start outcomes) run
  constructor
  · intro closed entry member
    by_contra stale
    obtain ⟨held, paired, _⟩ := closed.paired entry.1
    obtain ⟨_, follows, _⟩ := attended.follows_job orderly entry.1
    exact (follows.broken fun clean => stale (clean entry member rfl)).not_paired held paired
  · intro clean
    refine ⟨?_, attended.opened clean, attended.different⟩
    intro job
    obtain ⟨held, follows, belongs⟩ := attended.follows_job orderly job
    exact ⟨held, follows.paired fun entry member _ => clean entry member, belongs⟩

/-- Witness: a request that succeeds and, on the same job, one whose send fails. -/
theorem two_requests_close_contexts
    : ContextsClosed
        ((start [.fine, { Outcomes.fine with ctxSend := 5 }]).follow (Request.next .above)
          ([Choice.start, Choice.start] ++ List.replicate 16 (Choice.run 0)))
      ∧ ((start [.fine, { Outcomes.fine with ctxSend := 5 }]).follow (Request.next .above)
          ([Choice.start, Choice.start] ++ List.replicate 16 (Choice.run 0))).shared.contexts
        = [(0, .opened 1), (0, .closed 1), (0, .opened 1), (0, .closed 1)] := by
  refine ⟨?_, by decide +kernel⟩
  refine (contexts_closed_once_iff .above [.fine, { Outcomes.fine with ctxSend := 5 }] _ ?_).mpr ?_
  · exact TaskPool.reach_follow _ _ _ _ (by decide +kernel)
  · decide +kernel

/-- A request gets the job of one that is over, and while it waits a third gets a new job and a
context with the id of the closed one. When the response of the second cannot be allocated, that
context is closed under the third.
-/
theorem context_closed_twice
    : ∃ pool,
        Reach .above (start [.fine, { Outcomes.fine with httpResAlloc := 2 }, .fine]) pool
        ∧ pool.shared.contexts
          = [(0, .opened 1), (0, .closed 1), (1, .opened 1), (0, .closed 1)]
        ∧ pool.shared.openIds = []
        ∧ pool.running.filterMap (Request.context pool.shared) = [1]
        ∧ ¬ContextsClosed pool := by
  refine ⟨_, TaskPool.reach_follow (Request.next .above) (fun _ _ => True)
    (List.replicate 3 Choice.start ++ List.replicate 10 (Choice.run 0)
      ++ List.replicate 4 (Choice.run 1) ++ List.replicate 2 (Choice.run 0)) _ (by decide +kernel),
    by decide +kernel, by decide +kernel, by decide +kernel, ?_⟩
  intro closed
  exact absurd closed.opened.length_eq (by decide +kernel)

end NanoMQ.WebServer
