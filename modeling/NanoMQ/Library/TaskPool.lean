import Mathlib

/-! Tasks that share one state and interleave at atomic steps.
Tasks wait in arrival order, are started from the front of the queue, and from then on
any running task may take the next step.
-/

namespace TaskPool

variable {Shared Task : Type}

/-- The shared state, the tasks not yet started and the tasks in progress. -/
structure Pool (Shared Task : Type) where
  shared : Shared
  waiting : List Task
  running : List Task

section Steps

variable (next : Task → Shared → Option Task × Shared)
  (allowed : Pool Shared Task → Task → Prop)

/-- The pool after one atomic step of a task that runs between two groups of others.
A task whose step returns no continuation has finished and leaves the pool.
-/
def Pool.advance (pool : Pool Shared Task) (before : List Task) (task : Task)
    (after : List Task)
    : Pool Shared Task :=
  {
    pool with
    shared := (next task pool.shared).2
    running := before ++ (next task pool.shared).1.toList ++ after
  }

/-- One step of the pool: start the first waiting task, or let a running task take one
atomic step that `allowed` does not exclude in the current state.
-/
inductive Step : Pool Shared Task → Pool Shared Task → Prop
  | start {pool task rest} (first : pool.waiting = task :: rest)
    : Step pool { pool with waiting := rest, running := pool.running ++ [task] }
  | atomic {pool before task after} (split : pool.running = before ++ task :: after)
    (permitted : allowed pool task)
    : Step pool (pool.advance next before task after)

/-- Every state of every interleaving whose atomic steps are all allowed. -/
abbrev Reach : Pool Shared Task → Pool Shared Task → Prop :=
  Relation.ReflTransGen (Step next allowed)

/-- What holds at the start and survives both kinds of step holds in every reached state.
Witness: induction on the interleaving.
-/
theorem Reach.invariant {Inv : Pool Shared Task → Prop}
    (started
      : ∀ {pool task rest},
          Inv pool
          → pool.waiting = task :: rest
          → Inv { pool with waiting := rest, running := pool.running ++ [task] })
    (stepped
      : ∀ {pool before task after},
          Inv pool
          → pool.running = before ++ task :: after
          → allowed pool task
          → Inv (pool.advance next before task after))
    {first last : Pool Shared Task} (holds : Inv first)
    (reached : Reach next allowed first last)
    : Inv last := by
  induction reached with
  | refl => exact holds
  | tail _ step ih =>
      cases step with
      | start waiting => exact started ih waiting
      | atomic split permitted => exact stepped ih split permitted

end Steps

-- What a step leaves as it was

section Conservation

variable {next : Task → Shared → Option Task × Shared} {pool : Pool Shared Task}
  {before after : List Task} {task : Task}

theorem Pool.mem_of_split (split : pool.running = before ++ task :: after) {other : Task}
    (member : other ∈ before ++ after)
    : other ∈ pool.running := by
  rw [split]
  exact List.mem_append.mpr ((List.mem_append.mp member).imp_right (List.mem_cons_of_mem _))

theorem Pool.forall_mem_advance {P : Task → Prop}
    (others : ∀ other ∈ before ++ after, P other)
    (own : ∀ following ∈ (next task pool.shared).1, P following)
    : ∀ running ∈ (pool.advance next before task after).running, P running := by
  intro running member
  simp only [Pool.advance, List.mem_append, Option.mem_toList] at member
  rcases member with (member | continues) | member
  · exact others running (List.mem_append_left _ member)
  · exact own running continues
  · exact others running (List.mem_append_right _ member)

theorem Pool.filterMap_advance {β : Type} (held : Task → Option β)
    : (pool.advance next before task after).running.filterMap held
      = before.filterMap held ++ ((next task pool.shared).1.bind held).toList
        ++ after.filterMap held := by
  rw [Pool.advance]
  cases (next task pool.shared).1 with
  | none => simp
  | some following => cases found : held following <;> simp [found]

theorem Pool.filterMap_split {β : Type} (held : Task → Option β)
    (split : pool.running = before ++ task :: after)
    : pool.running.filterMap held
      = before.filterMap held ++ (held task).toList ++ after.filterMap held := by
  rw [split]
  cases found : held task <;> simp [found]

theorem perm_block_last {β : Type} (front block back : List β)
    : (front ++ block ++ back).Perm (front ++ back ++ block) := by
  simp only [List.append_assoc]
  exact List.Perm.append_left front List.perm_append_comm

theorem perm_exchange {β : Type} {front taken added back stock restock : List β}
    (holds : stock.Perm (front ++ taken ++ back))
    (moved : (restock ++ taken).Perm (stock ++ added))
    : restock.Perm (front ++ added ++ back) := by
  refine (List.perm_append_right_iff taken).mp ?_
  refine moved.trans ((holds.append_right added).trans ?_)
  -- first the taken block goes behind the added one, then the added one to its place
  refine ((perm_block_last front taken back).append_right added).trans ?_
  refine (perm_block_last (front ++ back) taken added).trans ?_
  exact (perm_block_last front back added).append_right taken

/-- What a task moves between its own hands and a common stock is neither lost nor doubled in
the pool.
-/
theorem Pool.perm_advance {β : Type} (held : Task → Option β) {stock restock : List β}
    (split : pool.running = before ++ task :: after)
    (kept
      : (restock ++ ((next task pool.shared).1.bind held).toList).Perm
          (stock ++ (held task).toList))
    : (restock ++ (pool.advance next before task after).running.filterMap held).Perm
        (stock ++ pool.running.filterMap held) := by
  rw [Pool.filterMap_advance, Pool.filterMap_split held split]
  have regroup (shelf block : List β)
      : (shelf ++ (before.filterMap held ++ block ++ after.filterMap held)).Perm
          (shelf ++ block ++ (before.filterMap held ++ after.filterMap held)) := by
    refine ((perm_block_last _ block _).append_left shelf).trans ?_
    rw [← List.append_assoc]
    exact (perm_block_last shelf block _).symm
  exact (regroup _ _).trans ((kept.append_right _).trans (regroup _ _).symm)

end Conservation

/-- Tasks whose rank falls with every step all come to their end, as long as the ranks fall
wherever an invariant holds. By induction on what is left of all ranks.
-/
theorem exists_finished {next : Task → Shared → Option Task × Shared}
    {Inv : Pool Shared Task → Prop} (rank : Task → Nat)
    (kept : ∀ {pool after}, Inv pool → Step next (fun _ _ => True) pool after → Inv after)
    (falls
      : ∀ {pool before task after},
          Inv pool
          → pool.running = before ++ task :: after
          → ((next task pool.shared).1.map rank).getD 0 < rank task)
    {pool : Pool Shared Task} (holds : Inv pool)
    : ∃ last,
        Reach next (fun _ _ => True) pool last ∧ last.waiting = [] ∧ last.running = [] := by
  induction size : (pool.waiting.map (rank · + 1)).sum + (pool.running.map rank).sum
    using Nat.strong_induction_on generalizing pool with
  | _ size ih =>
      subst size
      cases waiting : pool.waiting with
      | cons task rest =>
          have step : Step next (fun _ _ => True) pool _ := .start waiting
          obtain ⟨last, run, finished⟩ := ih _ (by simp [waiting]; omega) (kept holds step) rfl
          exact ⟨last, .head step run, finished⟩
      | nil =>
          cases running : pool.running with
          | nil => exact ⟨pool, .refl, waiting, running⟩
          | cons task rest =>
              have split : pool.running = [] ++ task :: rest := running
              have step : Step next (fun _ _ => True) pool _ := .atomic split trivial
              have less := falls holds split
              have smaller
                  : (((next task pool.shared).1.toList).map rank).sum < rank task := by
                cases following : (next task pool.shared).1 with
                | none => simpa [following] using less
                | some following => simpa [following] using less
              obtain ⟨last, run, finished⟩ :=
                ih _ (by simpa [Pool.advance, waiting, running] using smaller) (kept holds step) rfl
              exact ⟨last, .head step run, finished⟩

-- Schedules

/-- A scheduling decision: start the next task, or run the one at a position. -/
inductive Choice where
  | start
  | run (index : Nat)

/-- Follow one decision; an impossible one leaves the pool as it is. -/
def Pool.act (next : Task → Shared → Option Task × Shared) (pool : Pool Shared Task)
    : Choice → Pool Shared Task
  | .start =>
      match pool.waiting with
      | [] => pool
      | task :: rest => { pool with waiting := rest, running := pool.running ++ [task] }
  | .run index =>
      match pool.running.drop index with
      | [] => pool
      | task :: after => pool.advance next (pool.running.take index) task after

/-- Follow a whole schedule. -/
def Pool.follow (next : Task → Shared → Option Task × Shared) (schedule : List Choice)
    (pool : Pool Shared Task)
    : Pool Shared Task :=
  schedule.foldl (Pool.act next) pool

/-- Every task that a schedule runs is allowed to take its step at that point. -/
def Pool.permits (next : Task → Shared → Option Task × Shared)
    (allowed : Pool Shared Task → Task → Prop)
    [∀ pool task, Decidable (allowed pool task)]
    : List Choice → Pool Shared Task → Bool
  | [], _ => true
  | .start :: rest, pool => (pool.act next .start).permits next allowed rest
  | .run index :: rest, pool =>
      (pool.running.drop index).head?.all (fun task => decide (allowed pool task))
      && (pool.act next (.run index)).permits next allowed rest

/-- A permitted schedule is an interleaving.
Witness: induction on the schedule; an impossible decision takes no step.
-/
theorem reach_follow (next : Task → Shared → Option Task × Shared)
    (allowed : Pool Shared Task → Task → Prop)
    [∀ pool task, Decidable (allowed pool task)] (schedule : List Choice)
    (pool : Pool Shared Task) (permitted : pool.permits next allowed schedule = true)
    : Reach next allowed pool (pool.follow next schedule) := by
  induction schedule generalizing pool with
  | nil => exact .refl
  | cons choice rest ih =>
      cases choice with
      | start =>
          refine Relation.ReflTransGen.trans ?_ (ih _ permitted)
          cases found : pool.waiting with
          | nil => simpa only [Pool.act, found] using Relation.ReflTransGen.refl
          | cons task others =>
              simpa only [Pool.act, found] using .single (.start found)
      | run index =>
          rw [Pool.permits, Bool.and_eq_true] at permitted
          refine Relation.ReflTransGen.trans ?_ (ih _ permitted.2)
          cases found : pool.running.drop index with
          | nil => simpa only [Pool.act, found] using Relation.ReflTransGen.refl
          | cons task after =>
              have split : pool.running = pool.running.take index ++ task :: after := by
                rw [← found, List.take_append_drop]
              have permits : allowed pool task := by simpa [found] using permitted.1
              simpa only [Pool.act, found] using .single (.atomic split permits)

-- A task on its own

/-- A task reaches a result alone when its own steps, with no other task in between,
finish in that shared state.
-/
inductive Alone (next : Task → Shared → Option Task × Shared)
  : Task → Shared → Shared → Prop
  | done {task shared result} (finished : next task shared = (none, result))
    : Alone next task shared result
  | more {task following shared middle result}
    (stepped : next task shared = (some following, middle))
    (rest : Alone next following middle result)
    : Alone next task shared result

theorem step_only (next : Task → Shared → Option Task × Shared) (task : Task)
    (shared : Shared)
    : Step next (fun _ _ => True) { shared, waiting := [], running := [task] }
        {
          shared := (next task shared).2,
          waiting := [],
          running := (next task shared).1.toList
        } := by
  have step : Step next (fun _ _ => True) { shared, waiting := [], running := [task] }
      (Pool.advance next { shared, waiting := [], running := [task] } [] task []) :=
    .atomic rfl trivial
  simpa only [Pool.advance, List.nil_append, List.append_nil] using step

/-- A task that waits in an otherwise empty pool is an interleaving to its own result.
Witness: induction on its steps after the start.
-/
theorem Alone.reach {next : Task → Shared → Option Task × Shared} {task : Task}
    {shared result : Shared} (alone : Alone next task shared result)
    : Reach next (fun _ _ => True) { shared, waiting := [task], running := [] }
        { shared := result, waiting := [], running := [] } := by
  refine Relation.ReflTransGen.head (.start rfl) ?_
  induction alone with
  | @done task shared result finished =>
      have step := step_only next task shared
      rw [finished] at step
      exact .single step
  | @more task following shared middle result stepped _ ih =>
      have step := step_only next task shared
      rw [stepped] at step
      exact .head step ih

end TaskPool
