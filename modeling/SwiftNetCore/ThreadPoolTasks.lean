import SwiftNetCore.ThreadPoolBooks

/-!
# The tasks of a thread pool

`submit` queues a task and then relies on a worker for it: one that waits, a new one, or, when there
are as many threads as there may be, one that is busy. A worker takes the front of the queue, and
leaves only from an empty one.

* `Change`: what a step does to the queue and to the workers, with all that a step looks at.
* `TaskRecord`: a pool with the tasks that were accepted, dropped, taken and executed. A task is the
  number of its submission.
* `executes_throughout`: over every run, tasks are taken in the order they were accepted, none twice
  and none that was dropped; while the queue has one there is a worker; and when the destructor has
  joined all threads, every accepted task has been executed.
-/

namespace SwiftNetCore

open Paths (Path Throughout trace path_trace)

namespace ThreadPool

variable {p p' : ThreadPool} {id : ThreadID} {event : Event} {task : Task} {tasks : List Task}

/-! ## What a step does to the tasks -/

/-- The workers that will look at the queue before they execute a task. -/
def free (p : ThreadPool) : ℕ := p.starting.length + p.waiting.length

/-- An active worker will look at the queue, or executes a task. -/
lemma length_active (p : ThreadPool) : p.active.length = p.free + p.running.length := by
  simp [active, free, Nat.add_assoc]

/-- The critical sections of a worker. -/
inductive IsWorker : Event → Prop
  | enter (id : ThreadID) : IsWorker (.enter id)
  | wake (id : ThreadID) : IsWorker (.wake id)
  | timeout (id : ThreadID) : IsWorker (.timeout id)

/-- What a step does to the queue and to the workers. -/
inductive Change (p : ThreadPool) : Event → ThreadPool → Prop
  /-- the queue is full -/
  | drop (task : Task) (id : ThreadID) (hfull : p.Full) : Change p (.submit task id) p
  /-- a worker that waits is notified -/
  | notify (task : Task) (id : ThreadID) (hfull : ¬ p.Full) (hidle : 0 < p.idleThreads) :
      Change p (.submit task id) { p with tasks := p.tasks ++ [task] }
  /-- a worker is created -/
  | spawn (task : Task) (id : ThreadID) (p' : ThreadPool) (hfull : ¬ p.Full)
      (hidle : p.idleThreads = 0) (hlimit : p.currentThreads < p.maxThreads)
      (htasks : p'.tasks = p.tasks ++ [task]) (hrunning : p'.running = p.running)
      (hfree : p'.free = p.free + 1) (hmax : p'.maxThreads = p.maxThreads) :
      Change p (.submit task id) p'
  /-- no worker waits, and there are as many as there may be -/
  | push (task : Task) (id : ThreadID) (hfull : ¬ p.Full) (hidle : p.idleThreads = 0)
      (hlimit : p.maxThreads ≤ p.currentThreads) :
      Change p (.submit task id) { p with tasks := p.tasks ++ [task] }
  /-- a worker takes the front of the queue -/
  | take (event : Event) (id : ThreadID) (task : Task) (tasks : List Task) (p' : ThreadPool)
      (hworker : IsWorker event) (hfront : p.tasks = task :: tasks) (htasks : p'.tasks = tasks)
      (hrunning : p'.running = p.running ++ [(id, task)]) (hfree : p'.free + 1 = p.free)
      (hcurrent : p'.currentThreads = p.currentThreads) (hmax : p'.maxThreads = p.maxThreads) :
      Change p event p'
  /-- a worker waits, or goes on waiting -/
  | wait (event : Event) (p' : ThreadPool) (hworker : IsWorker event) (htasks : p'.tasks = p.tasks)
      (hrunning : p'.running = p.running) (hfree : p'.free = p.free)
      (hcurrent : p'.currentThreads = p.currentThreads) (hmax : p'.maxThreads = p.maxThreads) :
      Change p event p'
  /-- a worker leaves -/
  | leave (event : Event) (p' : ThreadPool) (hworker : IsWorker event) (hempty : p.tasks = [])
      (htasks : p'.tasks = []) (hrunning : p'.running = p.running)
      (hmax : p'.maxThreads = p.maxThreads) : Change p event p'
  /-- a task returns -/
  | finish (id : ThreadID) (task : Task) (hrunning : (id, task) ∈ p.running) :
      Change p (.finishTask id task) (p.finishTask id task)
  | quit : Change p .quit { p with quit := true }
  | join (id : ThreadID) : Change p (.join id) (p.join id)

/-- `joinFinishedThreads` leaves the tasks and the workers alone. -/
lemma joinAll_frame {ids : List ThreadID} (h : joinAll ids p = .ok p') :
    p'.tasks = p.tasks ∧ p'.running = p.running ∧ p'.maxThreads = p.maxThreads := by
  induction ids generalizing p with
  | nil =>
      obtain rfl := Except.ok.inj h
      exact ⟨rfl, rfl, rfl⟩
  | cons id ids ih =>
      rw [joinAll] at h
      split at h
      · cases h
      · split_ifs at h with hjoinable hleft
        have hframe := ih h
        exact hframe

/-- A worker behind `wait_for` takes the front of the queue, or leaves an empty one. -/
lemma change_of_proceed {q : ThreadPool} {hasTimedout : Bool}
    (h : q.proceed id hasTimedout = .ok p') (hworker : IsWorker event)
    (htasks : q.tasks = p.tasks) (hrunning : q.running = p.running)
    (hfree : q.free + 1 = p.free) (hcurrent : q.currentThreads = p.currentThreads)
    (hmax : q.maxThreads = p.maxThreads) : Change p event p' := by
  unfold proceed at h
  dsimp only at h
  split at h
  · next task tasks hfront =>
      obtain rfl := Except.ok.inj h
      exact .take event id task tasks _ hworker (htasks ▸ hfront) rfl (by simp [hrunning]) hfree
        hcurrent hmax
  · next hempty =>
      split_ifs at h with hquit hto
      · obtain rfl := Except.ok.inj h
        exact .leave event _ hworker (htasks ▸ hempty) hempty hrunning hmax
      · rcases hjoin : joinFinishedThreads { q with
          idleThreads := q.idleThreads - 1
          currentThreads := q.currentThreads - 1 } with fault | q'
        · rw [hjoin] at h
          cases h
        · rw [hjoin] at h
          obtain rfl := Except.ok.inj h
          obtain ⟨h₁, h₂, h₃⟩ := joinAll_frame hjoin
          exact .leave event _ hworker (htasks ▸ hempty) (h₁.trans hempty) (h₂.trans hrunning)
            (h₃.trans hmax)

/-- Every step of a pool is one of the changes. -/
lemma Step.change (hst : Step p event p') : Change p event p' := by
  obtain ⟨hen, heq⟩ := hst.apply_eq
  cases event with
  | submit task id =>
      have hquit : ¬ p.quit = true := by simp [hen.1]
      dsimp only [apply] at heq
      unfold submit at heq
      rw [if_neg hquit] at heq
      split_ifs at heq with hfull hidle hlimit hkeys
      · obtain rfl := Except.ok.inj heq
        exact .drop task id hfull
      · obtain rfl := Except.ok.inj heq
        exact .notify task id hfull hidle
      · obtain rfl := Except.ok.inj heq
        refine .spawn task id _ hfull (by omega) hlimit rfl rfl ?_ rfl
        simp only [free, List.length_append, List.length_singleton]
        omega
      · obtain rfl := Except.ok.inj heq
        exact .push task id hfull (by omega) (by omega)
  | enter id =>
      have hlength := List.length_erase_add_one hen
      simp only [apply, enter] at heq
      split_ifs at heq with hready
      · refine change_of_proceed heq (.enter id) rfl rfl ?_ rfl rfl
        simp only [free]
        omega
      · obtain rfl := Except.ok.inj heq
        refine .wait _ _ (.enter id) rfl rfl ?_ rfl rfl
        simp only [free, List.length_append, List.length_singleton]
        omega
  | wake id =>
      have hlength := List.length_erase_add_one hen
      simp only [apply, wake] at heq
      split_ifs at heq with hready
      · refine change_of_proceed heq (.wake id) rfl rfl ?_ rfl rfl
        simp only [free]
        omega
      · obtain rfl := Except.ok.inj heq
        exact .wait _ _ (.wake id) rfl rfl rfl rfl rfl
  | timeout id =>
      have hlength := List.length_erase_add_one hen
      simp only [apply, timeout] at heq
      refine change_of_proceed heq (.timeout id) rfl rfl ?_ rfl rfl
      simp only [free]
      omega
  | finishTask id task =>
      obtain rfl := Except.ok.inj heq
      exact .finish id task hen
  | quit =>
      obtain rfl := Except.ok.inj heq
      exact .quit
  | join id =>
      obtain rfl := Except.ok.inj heq
      exact .join id

/-! ## The record of the tasks -/

end ThreadPool

/-- A pool with what became of its tasks. -/
structure TaskRecord where
  pool : ThreadPool
  /-- how often `submit` was called -/
  submitted : ℕ := 0
  /-- the tasks that went into `tasks_`, -/
  accepted : List Task := []
  /-- those that found it full, -/
  dropped : List Task := []
  /-- those that a worker took, -/
  taken : List Task := []
  /-- and those that were executed -/
  finished : List Task := []
  deriving DecidableEq, Repr

namespace TaskRecord

open ThreadPool (Change Books Event IsWorker free length_active)

/-- The record behind an event that leads to the pool `p`. -/
def note (r : TaskRecord) (p : ThreadPool) : Event → TaskRecord
  | .submit task _ =>
    if r.pool.Full then
      { r with pool := p, submitted := r.submitted + 1, dropped := r.dropped ++ [task] }
    else { r with pool := p, submitted := r.submitted + 1, accepted := r.accepted ++ [task] }
  | .finishTask _ task => { r with pool := p, finished := r.finished ++ [task] }
  | _ =>
    { r with
      pool := p
      taken := r.taken ++ (p.running.drop r.pool.running.length).map Prod.snd }

/-- A task is the number of its submission. -/
def Numbered (r : TaskRecord) : Event → Prop
  | .submit task _ => task = r.submitted
  | _ => True

instance (r : TaskRecord) : DecidablePred r.Numbered
  | .submit _ _ => inferInstanceAs (Decidable (_ = _))
  | .enter _ | .wake _ | .timeout _ | .finishTask _ _ | .quit | .join _ =>
    inferInstanceAs (Decidable True)

/-- One event. -/
def step (r : TaskRecord) (event : Event) : Option TaskRecord :=
  if r.Numbered event then (r.pool.step event).map (r.note · event) else none

/-- The steps of a pool, recorded. -/
def Step (r : TaskRecord) (event : Event) (r' : TaskRecord) : Prop := r.step event = some r'

/-- Every accepted task is executed once. -/
structure Executes (r : TaskRecord) : Prop where
  /-- the tasks taken are the first that were accepted, in that order, -/
  order : r.taken <+: r.accepted
  /-- each once, -/
  once : r.taken.Nodup
  /-- and a dropped task is not among them -/
  dropped : ∀ task ∈ r.dropped, task ∉ r.taken
  /-- a task that was taken has been executed, once, or a worker is at it -/
  executed : r.taken.Perm (r.finished ++ r.pool.running.map Prod.snd)
  /-- while there are tasks, some worker has not exited -/
  manned : r.pool.tasks ≠ [] → r.pool.active ≠ []
  /-- when the destructor has joined all threads, every accepted task has been executed -/
  joined : r.pool.quit = true → (∀ elem ∈ r.pool.threads, elem.2 = false) →
    r.pool.tasks = [] ∧ r.finished.Perm r.accepted

/-- What every step keeps. -/
structure Kept (r : TaskRecord) : Prop where
  books : r.pool.Books []
  positive : 0 < r.pool.maxThreads
  accepted : r.accepted = r.taken ++ r.pool.tasks
  numbers : (r.accepted ++ r.dropped).Perm (List.range r.submitted)
  executed : r.taken.Perm (r.finished ++ r.pool.running.map Prod.snd)
  manned : r.pool.tasks ≠ [] → 0 < r.pool.free + r.pool.running.length

variable {r r' : TaskRecord} {p : ThreadPool} {event : Event} {task : Task} {id : ThreadID}

/-- A step of a worker that takes no task notes none. -/
lemma note_of_running (hevent : IsWorker event) (h : p.running = r.pool.running) :
    r.note p event = { r with pool := p } := by
  cases hevent <;> simp [note, h]

/-- A step of a worker that takes a task notes it. -/
lemma note_of_take (hevent : IsWorker event) (h : p.running = r.pool.running ++ [(id, task)]) :
    r.note p event = { r with pool := p, taken := r.taken ++ [task] } := by
  cases hevent <;> simp [note, h]

/-- The number of the next submission is new. -/
lemma numbers_append {l : List Task} {n : ℕ} (h : l.Perm (List.range n)) :
    (l ++ [n]).Perm (List.range (n + 1)) := by
  rw [List.range_succ]
  exact h.append_right [n]

/-- A task that goes into the queue, where some worker will be, is kept. -/
lemma Kept.accept (h : r.Kept) (hbooks : p.Books []) (hfull : ¬ r.pool.Full)
    (htasks : p.tasks = r.pool.tasks ++ [r.submitted]) (hrunning : p.running = r.pool.running)
    (hmax : p.maxThreads = r.pool.maxThreads) (hmanned : 0 < p.free + p.running.length) :
    (r.note p (.submit r.submitted id)).Kept := by
  rw [note, if_neg hfull]
  constructor
  · exact hbooks
  · exact hmax ▸ h.positive
  · dsimp only
    rw [h.accepted, htasks, List.append_assoc]
  · refine (List.perm_iff_count.mpr fun x => ?_).trans (numbers_append h.numbers)
    simp only [List.count_append]
    omega
  · exact hrunning ▸ h.executed
  · exact fun _ => hmanned

/-- Every step keeps the record. -/
lemma Kept.step (h : r.Kept) (hst : Step r event r') : r'.Kept := by
  unfold Step TaskRecord.step at hst
  split_ifs at hst with hnumbered
  obtain ⟨p, hp, rfl⟩ := Option.map_eq_some_iff.mp hst
  have hbooks : p.Books [] := (h.books.step hp).1
  have hactive := h.books.current
  rw [length_active] at hactive
  have hchange : Change r.pool event p := ThreadPool.Step.change hp
  cases hchange with
  | drop task id hfull =>
      obtain rfl : task = r.submitted := hnumbered
      rw [note, if_pos hfull]
      refine ⟨hbooks, h.positive, h.accepted, ?_, h.executed, h.manned⟩
      rw [← List.append_assoc]
      exact numbers_append h.numbers
  | notify task id hfull hidle =>
      obtain rfl : task = r.submitted := hnumbered
      apply h.accept hbooks hfull rfl rfl rfl
      have hwaiting := h.books.idle
      simp only [free, List.length_nil] at hwaiting ⊢
      omega
  | spawn task id _ hfull hidle hlimit htasks hrunning hfree hmax =>
      obtain rfl : task = r.submitted := hnumbered
      exact h.accept hbooks hfull htasks hrunning hmax (by omega)
  | push task id hfull hidle hlimit =>
      obtain rfl : task = r.submitted := hnumbered
      apply h.accept hbooks hfull rfl rfl rfl
      have hpositive := h.positive
      simp only [free, List.length_nil] at hactive ⊢
      omega
  | take _ id task tasks _ hworker hfront htasks hrunning hfree hcurrent hmax =>
      rw [note_of_take hworker hrunning]
      refine ⟨hbooks, hmax ▸ h.positive, ?_, h.numbers, ?_, fun _ => ?_⟩
      · dsimp only
        rw [h.accepted, hfront, htasks, List.append_assoc]
        rfl
      · dsimp only
        rw [hrunning, List.map_append, ← List.append_assoc]
        exact h.executed.append_right [task]
      · simp [hrunning]
  | wait _ _ hworker htasks hrunning hfree hcurrent hmax =>
      rw [note_of_running hworker hrunning]
      refine ⟨hbooks, hmax ▸ h.positive, ?_, h.numbers, hrunning ▸ h.executed, ?_⟩
      · dsimp only
        rw [htasks, h.accepted]
      · dsimp only
        rw [htasks, hfree, hrunning]
        exact h.manned
  | leave _ _ hworker hempty htasks hrunning hmax =>
      rw [note_of_running hworker hrunning]
      refine ⟨hbooks, hmax ▸ h.positive, ?_, h.numbers, hrunning ▸ h.executed, ?_⟩
      · dsimp only
        rw [htasks, h.accepted, hempty]
      · exact fun hne => absurd htasks hne
  | finish id task hrunning =>
      refine ⟨hbooks, h.positive, h.accepted, h.numbers, ?_, fun _ => ?_⟩
      · refine h.executed.trans (List.perm_iff_count.mpr fun x => ?_)
        have hcount := ((List.perm_cons_erase hrunning).map Prod.snd).count_eq x
        rw [List.map_cons, ← List.singleton_append, List.count_append] at hcount
        simp only [note, ThreadPool.finishTask, List.count_append]
        dsimp only at hcount
        omega
      · simp only [note, ThreadPool.finishTask, free, List.length_append, List.length_singleton]
        omega
  | quit =>
      refine ⟨hbooks, h.positive, ?_, h.numbers, ?_, h.manned⟩
      · simpa [note] using h.accepted
      · simpa [note] using h.executed
  | join id =>
      refine ⟨hbooks, h.positive, ?_, h.numbers, ?_, h.manned⟩
      · simpa [note, ThreadPool.join] using h.accepted
      · simpa [note, ThreadPool.join] using h.executed

/-- What every step keeps says that each accepted task is executed once. -/
lemma Kept.executes (h : r.Kept) : r.Executes := by
  have hnodup : (r.taken ++ r.pool.tasks ++ r.dropped).Nodup := by
    rw [← h.accepted]
    exact h.numbers.nodup_iff.mpr List.nodup_range
  rw [List.append_assoc] at hnodup
  obtain ⟨honce, -, hapart⟩ := List.nodup_append.mp hnodup
  have hmanned : r.pool.tasks ≠ [] → r.pool.active ≠ [] := by
    intro hne
    rw [← List.length_pos_iff, length_active]
    exact h.manned hne
  refine ⟨⟨r.pool.tasks, h.accepted.symm⟩, honce, ?_, h.executed, hmanned, fun hquit hall => ?_⟩
  · intro task hdropped htaken
    exact hapart task htaken task (List.mem_append_right _ hdropped) rfl
  · -- no thread can be joined, so no worker is there
    have hjoinable : r.pool.joinable = [] := by
      rw [ThreadPool.joinable,
        List.filter_eq_nil_iff.mpr fun elem helem => by simp [hall elem helem]]
      rfl
    have hnone : r.pool.active = [] := by
      have hperm := h.books.joinable
      rw [hjoinable] at hperm
      have hnil := List.nil_perm.mp hperm
      rw [List.nil_append, List.append_eq_nil_iff] at hnil
      exact hnil.1
    have htasks : r.pool.tasks = [] := by_contra fun hne => hmanned hne hnone
    have hrunning : r.pool.running = [] := by
      have hlength := length_active r.pool
      rw [hnone, List.length_nil] at hlength
      exact List.length_eq_zero_iff.mp (by omega)
    refine ⟨htasks, ?_⟩
    have hexecuted := h.executed
    rw [hrunning, List.map_nil, List.append_nil] at hexecuted
    rw [h.accepted, htasks, List.append_nil]
    exact hexecuted.symm

/-- A new pool that may have a thread has accepted nothing, and keeps to that. -/
lemma kept_new {maxThreads : ℕ} (hmax : 0 < maxThreads) (maxTasks : Option ℕ) :
    Kept { pool := .new maxThreads maxTasks } :=
  ⟨ThreadPool.books_new _ _, hmax, rfl, .nil, .nil, fun hne => absurd rfl hne⟩

/-- **Every accepted task is executed once**, in the order of acceptance, over every run of a pool
that may have a thread: in every order of submissions, critical sections of the workers, time-outs,
tasks and the destructor. -/
theorem executes_throughout {maxThreads : ℕ} (hmax : 0 < maxThreads) {maxTasks : Option ℕ}
    {path : List (Event × TaskRecord)}
    (hp : Path Step { pool := .new maxThreads maxTasks } path) :
    Throughout Executes { pool := .new maxThreads maxTasks } path := by
  have hkept : Throughout Kept { pool := .new maxThreads maxTasks } path :=
    hp.throughout (fun r event r' h hst => h.step hst) (kept_new hmax maxTasks)
  exact hkept.mono fun r h => h.executes

/-- A task is accepted while the only worker has timed out and not left, another is dropped, and the
pool quits with a task in its queue. -/
theorem executes_throughout_timeout :
    Throughout Executes { pool := .new 1 (some 1) } (trace step { pool := .new 1 (some 1) }
      [.submit 0 10, .enter 10, .finishTask 10 0, .enter 10, .submit 1 11, .submit 2 12,
        .timeout 10, .submit 3 12, .quit, .finishTask 10 1, .enter 10, .finishTask 10 3, .enter 10,
        .join 10]) :=
  executes_throughout (by decide) (path_trace step _ _)

end TaskRecord

end SwiftNetCore
