import SwiftNetCore.ThreadPoolTasks
import SwiftNetCore.Lib.Fair

/-!
# Accepted tasks are executed

`SwiftNetCore.ThreadPoolTasks` says that no task is executed twice or out of order, and that the
queue is never left without a worker. That the worker comes to the queue needs threads that run and
tasks that return. A notification is not needed: a worker in `wait_for` has the mutex again after
`WAIT_SECONDS` at the latest, and then looks at the queue.

* `Scheduled`: these premises, about a run that goes on for ever, in which nothing may happen for a
  while, or any more.
* `Step.idxOf_le`, `Step.idxOf_lt`: no step puts a task that waits further back, and every critical
  section of a worker moves it on.
* `executed_in_the_end`: every task that was accepted has been executed at some later time, also
  when the destructor has set `quit_` meanwhile.
-/

namespace SwiftNetCore

open Fair (Endless Resting)

namespace ThreadPool

variable {p p' : ThreadPool} {event : Event} {id : ThreadID} {task : Task} {tasks : List Task}

/-- A worker that has the mutex takes the front of the queue. -/
lemma Step.takes (hst : Step p event p') (hworker : IsWorker event)
    (hfront : p.tasks = task :: tasks) :
    p'.tasks = tasks ∧ ∃ id, p'.running = p.running ++ [(id, task)] := by
  have hready : p.Ready := Or.inr (by simp [hfront])
  have hproceed : ∀ {q : ThreadPool} {id : ThreadID} {hasTimedout : Bool},
      q.proceed id hasTimedout = .ok p' → q.tasks = p.tasks → q.running = p.running →
      p'.tasks = tasks ∧ ∃ id, p'.running = p.running ++ [(id, task)] := by
    intro q id hasTimedout heq htasks hrunning
    simp only [proceed, htasks, hfront, hrunning] at heq
    obtain rfl := Except.ok.inj heq
    exact ⟨rfl, id, rfl⟩
  obtain ⟨-, heq⟩ := hst.apply_eq
  cases hworker with
  | enter id =>
      have hentered : ({ p with
          idleThreads := p.idleThreads + 1
          starting := p.starting.erase id } : ThreadPool).Ready := hready
      rw [apply, enter] at heq
      simp only [if_pos hentered] at heq
      exact hproceed heq rfl rfl
  | wake id =>
      rw [apply, wake, if_pos hready] at heq
      exact hproceed heq rfl rfl
  | timeout id =>
      rw [apply, timeout] at heq
      exact hproceed heq rfl rfl

/-- A worker whose task has returned is about to take the mutex. -/
lemma Step.starting_of_finishTask (hst : Step p (.finishTask id task) p') : id ∈ p'.starting := by
  obtain ⟨-, heq⟩ := hst.apply_eq
  obtain rfl := Except.ok.inj heq
  exact List.mem_append_right _ (List.mem_singleton_self _)

/-- All other steps leave the queue alone, or put a task behind it. -/
lemma Step.tasks_extends (hst : Step p event p') (hworker : ¬ IsWorker event) :
    p.tasks <+: p'.tasks := by
  cases hst.change with
  | drop => exact List.prefix_rfl
  | notify => exact List.prefix_append _ _
  | spawn _ _ _ _ _ _ htasks =>
      rw [htasks]
      exact List.prefix_append _ _
  | push => exact List.prefix_append _ _
  | take _ _ _ _ _ hw => exact absurd hw hworker
  | wait _ _ hw => exact absurd hw hworker
  | leave _ _ hw => exact absurd hw hworker
  | finish => exact List.prefix_rfl
  | quit => exact List.prefix_rfl
  | join => exact List.prefix_rfl

end ThreadPool

namespace TaskRecord

open ThreadPool (Change Event IsWorker)

variable {r r' : TaskRecord} {event : Event} {task : Task}

/-- A step of the record is one of the pool, and notes the task that it takes. -/
lemma Step.pool (hst : Step r event r') :
    ThreadPool.Step r.pool event r'.pool ∧ r' = r.note r'.pool event ∧ r.Numbered event := by
  unfold Step TaskRecord.step at hst
  split_ifs at hst with hnumbered
  obtain ⟨p, hp, rfl⟩ := Option.map_eq_some_iff.mp hst
  have hpool : (r.note p event).pool = p := by
    cases event with
    | submit task id =>
        rw [note]
        split <;> rfl
    | _ => rfl
  rw [hpool]
  exact ⟨hp, rfl, hnumbered⟩

/-- An accepted task that no worker took waits in the queue. -/
lemma Kept.mem_tasks (h : r.Kept) (hmem : task ∈ r.accepted) (hnot : task ∉ r.taken) :
    task ∈ r.pool.tasks := by
  rw [h.accepted] at hmem
  exact (List.mem_append.mp hmem).resolve_left hnot

/-- A worker that comes to the queue takes its front. -/
lemma Step.takes {tasks : List Task} (hst : Step r event r') (hworker : IsWorker event)
    (hfront : r.pool.tasks = task :: tasks) :
    r'.pool.tasks = tasks ∧ r'.taken = r.taken ++ [task] := by
  obtain ⟨hpool, heq, -⟩ := hst.pool
  obtain ⟨htasks, id, hrunning⟩ := hpool.takes hworker hfront
  refine ⟨htasks, ?_⟩
  rw [heq, note_of_take hworker hrunning]

/-- Every critical section of a worker moves a task that waits on. -/
lemma Step.idxOf_lt (hst : Step r event r') (hworker : IsWorker event)
    (hmem : task ∈ r.pool.tasks) (hnot : task ∉ r'.taken) :
    r'.pool.tasks.idxOf task < r.pool.tasks.idxOf task := by
  obtain ⟨front, tasks, hfront⟩ := List.exists_cons_of_ne_nil (List.ne_nil_of_mem hmem)
  obtain ⟨htasks, htaken⟩ := hst.takes hworker hfront
  have hne : front ≠ task := by
    rintro rfl
    exact hnot (by simp [htaken])
  rw [htasks, hfront, List.idxOf_cons_ne _ hne]
  exact Nat.lt_succ_self _

/-- No step puts a task that waits further back. -/
lemma Step.idxOf_le (hst : Step r event r') (hmem : task ∈ r.pool.tasks)
    (hnot : task ∉ r'.taken) : r'.pool.tasks.idxOf task ≤ r.pool.tasks.idxOf task := by
  by_cases hworker : IsWorker event
  · exact (hst.idxOf_lt hworker hmem hnot).le
  · obtain ⟨more, hmore⟩ := hst.pool.1.tasks_extends hworker
    rw [← hmore, List.idxOf_append_of_mem hmem]

/-- Tasks that were accepted, and those that were executed, remain so. -/
lemma Step.mono (hst : Step r event r') :
    r.accepted ⊆ r'.accepted ∧ r.taken ⊆ r'.taken ∧ r.finished ⊆ r'.finished := by
  rw [hst.pool.2.1]
  cases event with
  | submit t id =>
      rw [note]
      split
      · exact ⟨List.Subset.refl _, List.Subset.refl _, List.Subset.refl _⟩
      · exact ⟨List.subset_append_left _ _, List.Subset.refl _, List.Subset.refl _⟩
  | finishTask id t =>
      exact ⟨List.Subset.refl _, List.Subset.refl _, List.subset_append_left _ _⟩
  | enter | wake | timeout | quit | join =>
      exact ⟨List.Subset.refl _, List.subset_append_left _ _, List.Subset.refl _⟩

/-! ## The run -/

section run

variable {state : ℕ → TaskRecord} {label : ℕ → Option Event} {n : ℕ}

/-- What the threads of a pool need to go on. -/
structure Scheduled (state : ℕ → TaskRecord) (label : ℕ → Option Event) : Prop where
  /-- a worker that is about to take the mutex gets it -/
  enters : ∀ n id, id ∈ (state n).pool.starting → ∃ m, n ≤ m ∧ label m = some (.enter id)
  /-- one in `wait_for` gets it when it is woken, or after `WAIT_SECONDS` -/
  wakes : ∀ n id, id ∈ (state n).pool.waiting →
    ∃ m, n ≤ m ∧ (label m = some (.wake id) ∨ label m = some (.timeout id))
  /-- a task returns -/
  returns : ∀ n elem, elem ∈ (state n).pool.running →
    ∃ m, n ≤ m ∧ label m = some (.finishTask elem.1 elem.2)

/-- While the queue is not empty, a worker comes to it. -/
lemma Scheduled.next (h : Scheduled state label) (hrun : Endless (Resting Step) state label)
    (hkept : (state n).Kept) (hne : (state n).pool.tasks ≠ []) :
    ∃ m, n ≤ m ∧ ∃ event, label m = some event ∧ IsWorker event := by
  have hmanned := hkept.manned hne
  rcases hstarting : (state n).pool.starting with _ | ⟨id, starting⟩
  · rcases hwaiting : (state n).pool.waiting with _ | ⟨id, waiting⟩
    · -- all workers are at their tasks: one of them returns, and then takes the mutex
      have hbusy : (state n).pool.running ≠ [] := by
        rw [← List.length_pos_iff]
        simpa [ThreadPool.free, hstarting, hwaiting] using hmanned
      obtain ⟨elem, running, hrunning⟩ := List.exists_cons_of_ne_nil hbusy
      obtain ⟨k, hk, hlabel⟩ := h.returns n elem (by simp [hrunning])
      have hst := hrun k
      rw [hlabel] at hst
      have hstarting' := (Step.pool hst).1.starting_of_finishTask
      obtain ⟨m, hm, hlabel'⟩ := h.enters (k + 1) elem.1 hstarting'
      exact ⟨m, (Nat.le_succ_of_le hk).trans hm, _, hlabel', .enter elem.1⟩
    · obtain ⟨m, hm, hlabel⟩ := h.wakes n id (by simp [hwaiting])
      rcases hlabel with hlabel | hlabel
      · exact ⟨m, hm, _, hlabel, .wake id⟩
      · exact ⟨m, hm, _, hlabel, .timeout id⟩
  · obtain ⟨m, hm, hlabel⟩ := h.enters n id (by simp [hstarting])
    exact ⟨m, hm, _, hlabel, .enter id⟩

/-- **Every accepted task is executed in the end**, in every run of a pool that may have a
thread. It goes on for ever, or ends where no thread of the pool can go on, with the destructor
or without. -/
theorem executed_in_the_end {maxThreads : ℕ} {maxTasks : Option ℕ} (hmax : 0 < maxThreads)
    (hrun : Endless (Resting Step) state label)
    (hstart : state 0 = { pool := .new maxThreads maxTasks })
    (hscheduled : Scheduled state label) (hmem : task ∈ (state n).accepted) :
    ∃ m, n ≤ m ∧ task ∈ (state m).finished := by
  have hkept : ∀ m, (state m).Kept := by
    intro m
    refine hrun.always (Resting.keeps fun _ _ _ h hst => h.step hst) (n := 0) ?_ m (Nat.zero_le m)
    rw [hstart]
    exact kept_new hmax maxTasks
  have haccepted : ∀ m, n ≤ m → task ∈ (state m).accepted :=
    hrun.always (I := fun r : TaskRecord => task ∈ r.accepted)
      (Resting.keeps fun _ _ _ h hst => hst.mono.1 h) hmem
  -- a worker takes it,
  have htaken : ∃ m, n ≤ m ∧ task ∈ (state m).taken := by
    refine Fair.reaches_of_rank (Q := fun m => task ∈ (state m).taken)
      (r := fun m => (state m).pool.tasks.idxOf task) (fun hnot m hm => ?_) (fun hnot m hm => ?_)
    · have hst := hrun m
      rcases hlabel : label m with _ | event
      · rw [hlabel] at hst
        rw [show state (m + 1) = state m from hst]
      · rw [hlabel] at hst
        exact Step.idxOf_le hst ((hkept m).mem_tasks (haccepted m hm) (hnot m hm))
          (hnot (m + 1) (Nat.le_succ_of_le hm))
    · have hwaits := (hkept m).mem_tasks (haccepted m hm) (hnot m hm)
      obtain ⟨k, hk, event, hlabel, hworker⟩ :=
        hscheduled.next hrun (hkept m) (List.ne_nil_of_mem hwaits)
      have hnk := hm.trans hk
      have hst := hrun k
      rw [hlabel] at hst
      exact ⟨k, hk, Step.idxOf_lt hst hworker ((hkept k).mem_tasks (haccepted k hnk) (hnot k hnk))
        (hnot (k + 1) (Nat.le_succ_of_le hnk))⟩
  -- and it returns
  obtain ⟨m, hm, htask⟩ := htaken
  have hwhere := (hkept m).executed.subset htask
  rw [List.mem_append, List.mem_map] at hwhere
  rcases hwhere with hfinished | ⟨elem, helem, rfl⟩
  · exact ⟨m, hm, hfinished⟩
  · obtain ⟨k, hk, hlabel⟩ := hscheduled.returns m elem helem
    refine ⟨k + 1, (hm.trans hk).trans (Nat.le_succ k), ?_⟩
    have hst := hrun k
    rw [hlabel] at hst
    rw [(Step.pool hst).2.1]
    exact List.mem_append_right _ (List.mem_singleton_self _)

/-- A worker executes two tasks, of which one waits for the other, and the destructor waits for
both: then nothing happens any more. -/
def twoTasks : List (Option Event × TaskRecord) :=
  (Paths.trace step { pool := .new 1 none }
    [.submit 0 10, .enter 10, .submit 1 11, .quit, .finishTask 10 0, .enter 10, .finishTask 10 1,
      .enter 10, .join 10]).map (Prod.map some id)

/-- A pool of one thread whose first task is followed by a second one: the second is executed in the
end, and the destructor joins the thread behind it. -/
theorem executed_in_the_end_two :
    ∃ m, 3 ≤ m ∧ 1 ∈ (Fair.stateOf { pool := .new 1 none } twoTasks m).finished := by
  have hrun : Endless (Resting Step) (Fair.stateOf { pool := .new 1 none } twoTasks)
      (Fair.labelOf twoTasks none) :=
    Fair.endless_of_path (Fair.path_resting (Paths.path_trace step _ _)) rfl
  have hscheduled : Scheduled (Fair.stateOf { pool := .new 1 none } twoTasks)
      (Fair.labelOf twoTasks none) := by
    have henters : ∀ n < twoTasks.length,
        ∀ id ∈ (Fair.stateOf { pool := .new 1 none } twoTasks n).pool.starting,
          ∃ m ≤ twoTasks.length, n ≤ m ∧ Fair.labelOf twoTasks none m = some (.enter id) := by
      decide
    have hwakes : ∀ n < twoTasks.length,
        ∀ id ∈ (Fair.stateOf { pool := .new 1 none } twoTasks n).pool.waiting,
          ∃ m ≤ twoTasks.length, n ≤ m ∧ (Fair.labelOf twoTasks none m = some (.wake id) ∨
            Fair.labelOf twoTasks none m = some (.timeout id)) := by
      decide
    have hreturns : ∀ n < twoTasks.length,
        ∀ elem ∈ (Fair.stateOf { pool := .new 1 none } twoTasks n).pool.running,
          ∃ m ≤ twoTasks.length, n ≤ m ∧
            Fair.labelOf twoTasks none m = some (.finishTask elem.1 elem.2) := by
      decide
    refine ⟨fun n id => ?_, fun n id => ?_, fun n elem => ?_⟩
    · exact Fair.comes_of_path (Q := fun r : TaskRecord => id ∈ r.pool.starting)
        (R := fun (_ : TaskRecord) event => event = some (.enter id))
        (fun h => absurd h List.not_mem_nil) (fun n hn => henters n hn id) n
    · exact Fair.comes_of_path (Q := fun r : TaskRecord => id ∈ r.pool.waiting)
        (R := fun (_ : TaskRecord) event => event = some (.wake id) ∨ event = some (.timeout id))
        (fun h => absurd h List.not_mem_nil) (fun n hn => hwakes n hn id) n
    · exact Fair.comes_of_path (Q := fun r : TaskRecord => elem ∈ r.pool.running)
        (R := fun (_ : TaskRecord) event => event = some (.finishTask elem.1 elem.2))
        (fun h => absurd h List.not_mem_nil) (fun n hn => hreturns n hn elem) n
  exact executed_in_the_end (by decide) hrun rfl hscheduled (by decide)

end run

end TaskRecord

end SwiftNetCore
