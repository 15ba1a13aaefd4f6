import SwiftNetCore.Base
import SwiftNetCore.Lib.Path

/-!
# The thread pool

`ThreadPool` keeps its queue and its counters under one mutex, so what happens is a sequence of
critical sections: `submit`, the destructor's setting of `quit_`, and the sections of the workers,
which begin when a worker takes the mutex for the first time, when a task has returned, and when
`wait_for` has taken it again. Which worker is where is part of the state, and so is whether a
`std::thread` was joined.

* `wait_for` looks at its predicate whenever it has the mutex. A waiting worker may wake at any
  time, so a notification changes nothing that the state has to keep.
* A critical section has no result, but a `Fault`, where an assertion fails, a front is taken off an
  empty queue, or a thread is joined under the mutex that still has to take it.
* The constructor of `std::thread` succeeds. What `submit` leaves behind when it throws is not
  modelled.
-/

namespace SwiftNetCore

/-- `std::thread::id` -/
abbrev ThreadID := ℕ

/-- `std::function<void()>`, by a number. -/
abbrev Task := ℕ

/-- `ThreadPool` and its workers. Source: ThreadPool.h 210-220 -/
structure ThreadPool where
  /-- `quit_` -/
  quit : Bool := false
  /-- `currentThreads_` -/
  currentThreads : ℕ := 0
  /-- `idleThreads_` -/
  idleThreads : ℕ := 0
  /-- `maxThreads_` -/
  maxThreads : ℕ
  /-- `maxTasks_`, where `-1` is `none` -/
  maxTasks : Option ℕ := none
  /-- `tasks_` -/
  tasks : List Task := []
  /-- `finishedThreadIDs_` -/
  finishedThreadIDs : List ThreadID := []
  /-- `threads_`, each with whether it is joinable -/
  threads : List (ThreadID × Bool) := []
  /-- the workers that are about to take the mutex, for the first time or behind a task, -/
  starting : List ThreadID := []
  /-- those inside `wait_for`, -/
  waiting : List ThreadID := []
  /-- those that execute a task, -/
  running : List (ThreadID × Task) := []
  /-- and those that have left their last critical section and are not joined -/
  left : List ThreadID := []
  deriving DecidableEq, Repr

namespace ThreadPool

/-- What must not happen in a critical section. -/
inductive Fault where
  /-- `assert(!quit_)` -/
  | quitting
  /-- `assert(threads_.find(t.get_id()) == threads_.end())` -/
  | idInUse
  /-- `assert(iter != threads_.end())` -/
  | notFound
  /-- `assert(iter->second.joinable())` -/
  | notJoinable
  /-- a thread is joined that has to take the mutex once more -/
  | deadlock
  /-- `tasks_.front()` when `tasks_` is empty -/
  | emptyFront
  deriving DecidableEq, Repr

/-- A pool with no threads. Source: ThreadPool.h 29-45 -/
def new (maxThreads : ℕ) (maxTasks : Option ℕ) : ThreadPool :=
  { maxThreads := maxThreads, maxTasks := maxTasks }

/-- The keys of `threads_`. -/
def keys (p : ThreadPool) : List ThreadID := p.threads.map Prod.fst

/-- The workers that have not left. -/
def active (p : ThreadPool) : List ThreadID := p.starting ++ p.waiting ++ p.running.map Prod.fst

/-- The queue takes no more. Source: ThreadPool.h 101 -/
def Full (p : ThreadPool) : Prop := ∃ maxTasks ∈ p.maxTasks, maxTasks ≤ p.tasks.length

instance (p : ThreadPool) : Decidable p.Full :=
  inferInstanceAs (Decidable (∃ maxTasks ∈ p.maxTasks, maxTasks ≤ p.tasks.length))

/-- `submit`, with the identifier that a new thread would get. Source: ThreadPool.h 97-124 -/
def submit (task : Task) (id : ThreadID) (p : ThreadPool) : Except Fault ThreadPool :=
  if p.quit then .error .quitting
  else if p.Full then .ok p
  else if 0 < p.idleThreads then .ok { p with tasks := p.tasks ++ [task] }
  else if p.currentThreads < p.maxThreads then
    if id ∈ p.keys then .error .idInUse
    else .ok { p with
      tasks := p.tasks ++ [task]
      threads := p.threads ++ [(id, true)]
      currentThreads := p.currentThreads + 1
      starting := p.starting ++ [id] }
  else .ok { p with tasks := p.tasks ++ [task] }

/-- The loop of `joinFinishedThreads`. -/
def joinAll : List ThreadID → ThreadPool → Except Fault ThreadPool
  | [], p => .ok p
  | id :: ids, p =>
    match p.threads.find? fun elem => elem.1 = id with
    | none => .error .notFound
    | some (_, joinable) =>
      if joinable = false then .error .notJoinable
      else if id ∉ p.left then .error .deadlock
      else joinAll ids { p with
        threads := p.threads.filter fun elem => elem.1 ≠ id
        left := p.left.erase id }

/-- Source: ThreadPool.h 192-206 -/
def joinFinishedThreads (p : ThreadPool) : Except Fault ThreadPool :=
  joinAll p.finishedThreadIDs { p with finishedThreadIDs := [] }

/-- The rest of a worker's critical section, behind `wait_for`. Source: ThreadPool.h 169-186 -/
def proceed (id : ThreadID) (hasTimedout : Bool) (p : ThreadPool) : Except Fault ThreadPool :=
  -- both counters count this worker, so neither wraps
  let p := { p with idleThreads := p.idleThreads - 1 }
  match p.tasks with
  | task :: tasks => .ok { p with tasks := tasks, running := p.running ++ [(id, task)] }
  | [] =>
    if p.quit then .ok { p with
      currentThreads := p.currentThreads - 1
      left := p.left ++ [id] }
    else if hasTimedout then
      (joinFinishedThreads { p with currentThreads := p.currentThreads - 1 }).map fun p =>
        { p with
          finishedThreadIDs := p.finishedThreadIDs ++ [id]
          left := p.left ++ [id] }
    else .error .emptyFront

/-- The predicate of `wait_for`. Source: ThreadPool.h 167 -/
def Ready (p : ThreadPool) : Prop := p.quit = true ∨ p.tasks ≠ []

instance (p : ThreadPool) : Decidable p.Ready := inferInstanceAs (Decidable (_ ∨ _))

/-- A worker takes the mutex and calls `wait_for`. Source: ThreadPool.h 159-168 -/
def enter (id : ThreadID) (p : ThreadPool) : Except Fault ThreadPool :=
  let p := { p with idleThreads := p.idleThreads + 1, starting := p.starting.erase id }
  if p.Ready then proceed id false p else .ok { p with waiting := p.waiting ++ [id] }

/-- A worker in `wait_for` has been woken and has the mutex. -/
def wake (id : ThreadID) (p : ThreadPool) : Except Fault ThreadPool :=
  if p.Ready then proceed id false { p with waiting := p.waiting.erase id } else .ok p

/-- A worker in `wait_for` has waited for `WAIT_SECONDS` and has the mutex. -/
def timeout (id : ThreadID) (p : ThreadPool) : Except Fault ThreadPool :=
  proceed id (decide (¬ p.Ready)) { p with waiting := p.waiting.erase id }

/-- A task returns. -/
def finishTask (id : ThreadID) (task : Task) (p : ThreadPool) : ThreadPool :=
  { p with running := p.running.erase (id, task), starting := p.starting ++ [id] }

/-- The destructor joins a thread. Source: ThreadPool.h 60-64 -/
def join (id : ThreadID) (p : ThreadPool) : ThreadPool :=
  { p with
    threads := p.threads.map fun elem => if elem.1 = id then (id, false) else elem
    left := p.left.erase id }

/-! ## Steps -/

/-- What happens to a pool. -/
inductive Event where
  | submit (task : Task) (id : ThreadID)
  | enter (id : ThreadID)
  | wake (id : ThreadID)
  | timeout (id : ThreadID)
  | finishTask (id : ThreadID) (task : Task)
  /-- the destructor sets `quit_` -/
  | quit
  /-- the destructor joins the next thread of its loop -/
  | join (id : ThreadID)
  deriving DecidableEq, Repr

/-- When an event can come. Nobody submits behind the destructor, and a thread's identifier is not
given again before it is joined. -/
def Enabled (p : ThreadPool) : Event → Prop
  | .submit _ id => p.quit = false ∧ id ∉ p.active ++ p.left
  | .enter id => id ∈ p.starting
  | .wake id => id ∈ p.waiting
  | .timeout id => id ∈ p.waiting
  | .finishTask id task => (id, task) ∈ p.running
  | .quit => p.quit = false
  | .join id => p.quit = true ∧ (id, true) ∈ p.threads ∧ id ∈ p.left

instance (p : ThreadPool) : DecidablePred p.Enabled := by
  intro event
  unfold Enabled
  split <;> infer_instance

/-- What an event does. -/
def apply (p : ThreadPool) : Event → Except Fault ThreadPool
  | .submit task id => p.submit task id
  | .enter id => p.enter id
  | .wake id => p.wake id
  | .timeout id => p.timeout id
  | .finishTask id task => .ok (p.finishTask id task)
  | .quit => .ok { p with quit := true }
  | .join id => .ok (p.join id)

/-- One event, when it can come. There is no step behind a fault. -/
def step (p : ThreadPool) (event : Event) : Option ThreadPool :=
  if p.Enabled event then (p.apply event).toOption else none

/-- The steps of a pool. -/
def Step (p : ThreadPool) (event : Event) (p' : ThreadPool) : Prop := p.step event = some p'

/-- A step takes an event that can come to its result. -/
lemma Step.apply_eq {p p' : ThreadPool} {event : Event} (h : Step p event p') :
    p.Enabled event ∧ p.apply event = .ok p' := by
  unfold Step step at h
  split at h
  · next hen =>
      refine ⟨hen, ?_⟩
      rcases heq : p.apply event with fault | p₁
      · simp [heq, Except.toOption] at h
      · rw [heq] at h
        rw [Option.some.inj h]
  · simp at h

end ThreadPool

end SwiftNetCore
