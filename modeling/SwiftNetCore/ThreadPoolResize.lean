import SwiftNetCore.ThreadPoolProgress

/-!
# Resizing a thread pool

`setMaxThreads` and `setMaxTasks` change a limit under the mutex, whatever the pool is doing, and do
nothing else: threads above a lower limit stay until they time out, tasks above it stay in the
queue, and a greater limit creates no thread.

* `under`: the same pool under other limits. Only `submit` looks at them, so every other critical
  section does the same under all limits (`apply_under`).
* `resized_throughout`: over every run in which the limits stay within two bounds, the books are
  those of a pool with the bounds for limits, no critical section has a fault, and a thread is
  created only below the limit of that moment.
* `executes_iff_fed`: the order, and the execution, of the accepted tasks do not depend on the
  limits, but for one case: a task that is accepted while there is no thread and none may be created
  stays behind, and with it the queue.
-/

namespace SwiftNetCore

open Paths (Path Throughout MeetsAll trace path_trace)

namespace ThreadPool

variable {p p' q : ThreadPool} {event : Event} {id : ThreadID} {task : Task} {mostThreads : ℕ}
  {mostTasks : Option ℕ}

/-- Source: ThreadPool.h 67-71 -/
def setMaxThreads (maxThreads : ℕ) (p : ThreadPool) : ThreadPool :=
  { p with maxThreads := maxThreads }

/-- `-1` is `none`. Source: ThreadPool.h 73-77 -/
def setMaxTasks (maxTasks : Option ℕ) (p : ThreadPool) : ThreadPool :=
  { p with maxTasks := maxTasks }

/-- The pool under other limits. -/
def under (maxThreads : ℕ) (maxTasks : Option ℕ) (p : ThreadPool) : ThreadPool :=
  (p.setMaxThreads maxThreads).setMaxTasks maxTasks

/-! ## Steps under other limits -/

section under

variable (maxThreads : ℕ) (maxTasks : Option ℕ)

/-- Joining threads does not look at the limits. -/
lemma joinAll_under (ids : List ThreadID) (p : ThreadPool) :
    joinAll ids (p.under maxThreads maxTasks) =
      (joinAll ids p).map (under maxThreads maxTasks) := by
  induction ids generalizing p with
  | nil => rfl
  | cons id ids ih =>
      have hthreads : (p.under maxThreads maxTasks).threads = p.threads := rfl
      have hleft : (p.under maxThreads maxTasks).left = p.left := rfl
      unfold joinAll
      rw [hthreads, hleft]
      rcases hfind : p.threads.find? (fun elem => elem.1 = id) with _ | ⟨key, joinable⟩
      · simp only [hfind]
        rfl
      · simp only [hfind]
        split_ifs
        · rfl
        · exact ih { p with
            threads := p.threads.filter fun elem => elem.1 ≠ id
            left := p.left.erase id }
        · rfl

/-- A worker's critical section does not look at the limits. -/
lemma proceed_under (id : ThreadID) (hasTimedout : Bool) (p : ThreadPool) :
    (p.under maxThreads maxTasks).proceed id hasTimedout =
      (p.proceed id hasTimedout).map (under maxThreads maxTasks) := by
  have htasks : (p.under maxThreads maxTasks).tasks = p.tasks := rfl
  have hquit : (p.under maxThreads maxTasks).quit = p.quit := rfl
  rcases hempty : p.tasks with _ | ⟨task, tasks⟩
  · have hjoin := joinAll_under maxThreads maxTasks p.finishedThreadIDs { p with
      idleThreads := p.idleThreads - 1
      currentThreads := p.currentThreads - 1
      finishedThreadIDs := [] }
    simp only [proceed, htasks, hquit, hempty]
    split_ifs
    · rfl
    · simp only [joinFinishedThreads, under, setMaxThreads, setMaxTasks] at hjoin ⊢
      rw [hempty] at hjoin
      rw [hjoin]
      rcases joinAll p.finishedThreadIDs _ with fault | q
      · rfl
      · rfl
    · rfl
  · simp only [proceed, htasks, hempty]
    rfl

/-- A worker that enters its loop does not look at the limits. -/
lemma enter_under (id : ThreadID) (p : ThreadPool) :
    (p.under maxThreads maxTasks).enter id = (p.enter id).map (under maxThreads maxTasks) := by
  unfold enter
  dsimp only
  rw [apply_ite (Except.map (under maxThreads maxTasks))]
  refine if_congr Iff.rfl ?_ rfl
  exact proceed_under maxThreads maxTasks id false { p with
    idleThreads := p.idleThreads + 1
    starting := p.starting.erase id }

/-- A worker that is woken up does not look at the limits. -/
lemma wake_under (id : ThreadID) (p : ThreadPool) :
    (p.under maxThreads maxTasks).wake id = (p.wake id).map (under maxThreads maxTasks) := by
  unfold wake
  rw [apply_ite (Except.map (under maxThreads maxTasks))]
  refine if_congr Iff.rfl ?_ rfl
  exact proceed_under maxThreads maxTasks id false { p with waiting := p.waiting.erase id }

/-- Nothing but `submit` looks at the limits. -/
lemma apply_under (p : ThreadPool) (hevent : ∀ task id, event ≠ .submit task id) :
    (p.under maxThreads maxTasks).apply event =
      (p.apply event).map (under maxThreads maxTasks) := by
  cases event with
  | submit task id => exact absurd rfl (hevent task id)
  | enter id => exact enter_under maxThreads maxTasks id p
  | wake id => exact wake_under maxThreads maxTasks id p
  | timeout id =>
      exact proceed_under maxThreads maxTasks id (decide (¬ p.Ready)) { p with
        waiting := p.waiting.erase id }
  | finishTask | quit | join => rfl

/-- Which events can come does not depend on the limits. -/
lemma enabled_under : (p.under maxThreads maxTasks).Enabled event ↔ p.Enabled event := by
  cases event <;> exact Iff.rfl

/-- A step that is not a submission is one under any limits. -/
lemma Step.under (hst : Step p event p') (hevent : ∀ task id, event ≠ .submit task id) :
    Step (p.under maxThreads maxTasks) event (p'.under maxThreads maxTasks) := by
  obtain ⟨hen, heq⟩ := hst.apply_eq
  unfold Step step
  rw [if_pos ((enabled_under maxThreads maxTasks).mpr hen),
    apply_under maxThreads maxTasks p hevent, heq]
  rfl

end under

/-- A step that is not a submission leaves the limits alone. -/
lemma Step.limits (hst : Step p event p') (hevent : ∀ task id, event ≠ .submit task id) :
    p'.maxThreads = p.maxThreads ∧ p'.maxTasks = p.maxTasks := by
  have hsame : Step p event (p'.under p.maxThreads p.maxTasks) :=
    hst.under p.maxThreads p.maxTasks hevent
  have heq : p' = p'.under p.maxThreads p.maxTasks :=
    Option.some.inj (hst.symm.trans hsame)
  rw [heq]
  exact ⟨rfl, rfl⟩

/-! ## Submissions -/

/-- What a submission does that finds the queue not full: only the last case has a new thread. -/
lemma submit_cases (h : p.submit task id = .ok p') (hfull : ¬ p.Full) :
    (0 < p.idleThreads ∨ p.maxThreads ≤ p.currentThreads) ∧
        p' = { p with tasks := p.tasks ++ [task] } ∨
      p.currentThreads < p.maxThreads ∧ p' = { p with
        tasks := p.tasks ++ [task]
        threads := p.threads ++ [(id, true)]
        currentThreads := p.currentThreads + 1
        starting := p.starting ++ [id] } := by
  unfold submit at h
  split_ifs at h with hquit hidle hlimit hkeys
  · exact Or.inl ⟨Or.inl hidle, (Except.ok.inj h).symm⟩
  · exact Or.inr ⟨hlimit, (Except.ok.inj h).symm⟩
  · exact Or.inl ⟨Or.inr (Nat.not_lt.mp hlimit), (Except.ok.inj h).symm⟩

/-- A submission to a full pool is dropped. -/
lemma submit_of_full (h : p.submit task id = .ok p') (hfull : p.Full) : p' = p := by
  unfold submit at h
  split_ifs at h with hquit
  exact (Except.ok.inj h).symm

/-! ## Limits that stay within bounds -/

/-- One limit of the queue is not greater than another, where `none` is no limit. -/
def NoMore (maxTasks mostTasks : Option ℕ) : Prop := ∀ most ∈ mostTasks, ∃ n ∈ maxTasks, n ≤ most

instance (maxTasks mostTasks : Option ℕ) : Decidable (NoMore maxTasks mostTasks) :=
  inferInstanceAs (Decidable (∀ most ∈ mostTasks, ∃ n ∈ maxTasks, n ≤ most))

/-- The limits are within bounds, and the books are right for a pool with the bounds for limits. -/
structure Limited (mostThreads : ℕ) (mostTasks : Option ℕ) (p : ThreadPool) : Prop where
  books : (p.under mostThreads mostTasks).Books []
  threads : p.maxThreads ≤ mostThreads
  tasks : NoMore p.maxTasks mostTasks

/-- A task that is accepted leaves the queue within its bound. -/
lemma Limited.queue (h : p.Limited mostThreads mostTasks) (hfull : ¬ p.Full) (task : Task) :
    ∀ most ∈ mostTasks, (p.tasks ++ [task]).length ≤ most := by
  intro most hmost
  obtain ⟨n, hn, hle⟩ := h.tasks most hmost
  have hlt : ¬ n ≤ p.tasks.length := fun hfulln => hfull ⟨n, hn, hfulln⟩
  rw [List.length_append, List.length_singleton]
  omega

/-- A submission keeps the books of the pool with greater limits, whatever that one would do. -/
lemma Limited.submit (h : p.Limited mostThreads mostTasks) (hen : p.Enabled (.submit task id))
    (heq : p.submit task id = .ok p') : p'.Limited mostThreads mostTasks := by
  by_cases hfull : p.Full
  · rw [submit_of_full heq hfull]
    exact h
  · have hqueue := h.queue hfull task
    rcases submit_cases heq hfull with ⟨-, rfl⟩ | ⟨hlimit, rfl⟩
    · exact ⟨h.books.move (.refl _) h.books.idle hqueue, h.threads, h.tasks⟩
    · exact ⟨h.books.spawn hen.1 hen.2 (hlimit.trans_le h.threads) hqueue, h.threads, h.tasks⟩

/-- Every step of the pool keeps it within the bounds. -/
lemma Limited.step (h : p.Limited mostThreads mostTasks) (hst : Step p event p') :
    p'.Limited mostThreads mostTasks := by
  by_cases hevent : ∀ task id, event ≠ .submit task id
  · obtain ⟨hthreads, htasks⟩ := hst.limits hevent
    refine ⟨(h.books.step (hst.under mostThreads mostTasks hevent)).1, ?_, ?_⟩
    · exact hthreads ▸ h.threads
    · exact htasks ▸ h.tasks
  · push Not at hevent
    obtain ⟨task, id, rfl⟩ := hevent
    obtain ⟨hen, heq⟩ := hst.apply_eq
    exact h.submit hen heq

/-- No critical section has a fault. -/
lemma Limited.responds (h : p.Limited mostThreads mostTasks) : p.Responds := by
  intro event hen
  by_cases hevent : ∀ task id, event ≠ .submit task id
  · obtain ⟨q, hq⟩ := h.books.responds event ((enabled_under mostThreads mostTasks).mpr hen)
    rw [apply_under mostThreads mostTasks p hevent] at hq
    rcases heq : p.apply event with fault | p'
    · rw [heq] at hq
      cases hq
    · exact ⟨p', rfl⟩
  · push Not at hevent
    obtain ⟨task, id, rfl⟩ := hevent
    have hquit : ¬ p.quit = true := by simp [hen.1]
    have hkeys : id ∉ p.keys := h.books.notMem_keys hen.1 hen.2
    simp only [apply, ThreadPool.submit, if_neg hquit, if_neg hkeys]
    split_ifs <;> exact ⟨_, rfl⟩

/-- A pool within bounds is within greater ones. -/
lemma Limited.mono (h : p.Limited mostThreads none) {most : ℕ} (hle : mostThreads ≤ most) :
    p.Limited most none := by
  refine ⟨?_, h.threads.trans hle, by simp [NoMore]⟩
  exact { h.books with limit := h.books.limit.trans hle }

/-- A thread is created only below the limit of the moment. -/
def GrowsBelow (p : ThreadPool) : Prop := ∀ event p', Step p event p' →
  p.currentThreads < p'.currentThreads → p.currentThreads < p.maxThreads

/-- Joining threads leaves `currentThreads_` as it is. -/
lemma joinAll_currentThreads {ids : List ThreadID} (h : joinAll ids p = .ok p') :
    p'.currentThreads = p.currentThreads := by
  induction ids generalizing p with
  | nil =>
      obtain rfl := Except.ok.inj h
      rfl
  | cons id ids ih =>
      rw [joinAll] at h
      split at h
      · cases h
      · split_ifs at h
        have hsame := ih h
        exact hsame

/-- A worker that goes on creates no thread. -/
lemma proceed_currentThreads {hasTimedout : Bool} (h : q.proceed id hasTimedout = .ok p') :
    p'.currentThreads ≤ q.currentThreads := by
  unfold proceed at h
  dsimp only at h
  split at h
  · obtain rfl := Except.ok.inj h
    exact le_rfl
  · split_ifs at h
    · obtain rfl := Except.ok.inj h
      exact Nat.sub_le _ _
    · rcases hjoin : joinFinishedThreads { q with
        idleThreads := q.idleThreads - 1
        currentThreads := q.currentThreads - 1 } with fault | q'
      · rw [hjoin] at h
        cases h
      · rw [hjoin] at h
        obtain rfl := Except.ok.inj h
        exact (joinAll_currentThreads hjoin).trans_le (Nat.sub_le _ _)

/-- In any state, a step creates a thread only below the limit of the moment. -/
lemma growsBelow (p : ThreadPool) : p.GrowsBelow := by
  intro event p' hst hgrows
  obtain ⟨hen, heq⟩ := hst.apply_eq
  cases event with
  | submit task id =>
      by_cases hfull : p.Full
      · rw [submit_of_full heq hfull] at hgrows
        exact absurd hgrows (lt_irrefl _)
      · rcases submit_cases heq hfull with ⟨-, rfl⟩ | ⟨hlimit, -⟩
        · exact absurd hgrows (lt_irrefl _)
        · exact hlimit
  | enter id =>
      simp only [apply, enter] at heq
      split_ifs at heq
      · exact absurd hgrows (proceed_currentThreads heq).not_gt
      · obtain rfl := Except.ok.inj heq
        exact absurd hgrows (lt_irrefl _)
  | wake id =>
      simp only [apply, wake] at heq
      split_ifs at heq
      · exact absurd hgrows (proceed_currentThreads heq).not_gt
      · obtain rfl := Except.ok.inj heq
        exact absurd hgrows (lt_irrefl _)
  | timeout id => exact absurd hgrows (proceed_currentThreads heq).not_gt
  | finishTask | quit | join =>
      obtain rfl := Except.ok.inj heq
      exact absurd hgrows (lt_irrefl _)

end ThreadPool

namespace TaskRecord

open ThreadPool (Event Limited NoMore)

variable {r r' : TaskRecord} {event : Event} {task : Task} {id : ThreadID} {mostThreads : ℕ}
  {mostTasks : Option ℕ}

/-! ## Runs in which the limits change -/

/-- What happens to a pool whose limits change. -/
inductive ResizeEvent where
  | pool (event : Event)
  | setMaxThreads (maxThreads : ℕ)
  | setMaxTasks (maxTasks : Option ℕ)
  deriving DecidableEq, Repr

/-- One event. Nobody calls a setter behind the destructor. -/
def resize (r : TaskRecord) : ResizeEvent → Option TaskRecord
  | .pool event => r.step event
  | .setMaxThreads maxThreads =>
    if r.pool.quit then none else some { r with pool := r.pool.setMaxThreads maxThreads }
  | .setMaxTasks maxTasks =>
    if r.pool.quit then none else some { r with pool := r.pool.setMaxTasks maxTasks }

/-- The steps of a pool whose limits change. -/
def ResizeStep (r : TaskRecord) (event : ResizeEvent) (r' : TaskRecord) : Prop :=
  r.resize event = some r'

/-- A setter does no more than to set the limit. -/
lemma resize_inv {event : ResizeEvent} (hst : ResizeStep r event r') :
    (∃ e, event = .pool e ∧ Step r e r') ∨
      (∃ n, event = .setMaxThreads n ∧ r' = { r with pool := r.pool.setMaxThreads n }) ∨
      (∃ m, event = .setMaxTasks m ∧ r' = { r with pool := r.pool.setMaxTasks m }) := by
  cases event with
  | pool e => exact Or.inl ⟨e, rfl, hst⟩
  | setMaxThreads n =>
      unfold ResizeStep resize at hst
      split_ifs at hst
      exact Or.inr (Or.inl ⟨n, rfl, (Option.some.inj hst).symm⟩)
  | setMaxTasks m =>
      unfold ResizeStep resize at hst
      split_ifs at hst
      exact Or.inr (Or.inr ⟨m, rfl, (Option.some.inj hst).symm⟩)

/-- The limits stay within two bounds. -/
def WithinBounds (mostThreads : ℕ) (mostTasks : Option ℕ) : ResizeEvent → Prop
  | .pool _ => True
  | .setMaxThreads n => n ≤ mostThreads
  | .setMaxTasks m => NoMore m mostTasks

instance (mostThreads : ℕ) (mostTasks : Option ℕ) :
    DecidablePred (WithinBounds mostThreads mostTasks)
  | .pool _ => inferInstanceAs (Decidable True)
  | .setMaxThreads _ => inferInstanceAs (Decidable (_ ≤ _))
  | .setMaxTasks m => inferInstanceAs (Decidable (NoMore m mostTasks))

/-- A step of a pool that is resized within bounds keeps it within them. -/
lemma limited_step {event : ResizeEvent} (h : r.pool.Limited mostThreads mostTasks)
    (hst : ResizeStep r event r') (hwithin : WithinBounds mostThreads mostTasks event) :
    r'.pool.Limited mostThreads mostTasks := by
  rcases resize_inv hst with ⟨e, rfl, hstep⟩ | ⟨n, rfl, rfl⟩ | ⟨m, rfl, rfl⟩
  · exact h.step hstep.pool.1
  · exact ⟨h.books, hwithin, h.tasks⟩
  · exact ⟨h.books, h.threads, hwithin⟩

/-- **A pool can be resized at any time.** Over every run in which the limits stay within two
bounds, the books are right for a pool with the bounds for limits, no critical section has a fault,
and no thread is created at or above the limit of the moment. -/
theorem resized_throughout {maxThreads : ℕ} {maxTasks : Option ℕ}
    (hthreads : maxThreads ≤ mostThreads) (htasks : NoMore maxTasks mostTasks)
    {path : List (ResizeEvent × TaskRecord)}
    (hp : Path ResizeStep { pool := .new maxThreads maxTasks } path)
    (hwithin : MeetsAll (fun _ => WithinBounds mostThreads mostTasks)
      { pool := .new maxThreads maxTasks } path) :
    Throughout (fun r => (r.pool.under mostThreads mostTasks).Bookkeeping ∧ r.pool.Responds ∧
      r.pool.GrowsBelow) { pool := .new maxThreads maxTasks } path := by
  have hlimited : Throughout (fun r => r.pool.Limited mostThreads mostTasks)
      { pool := .new maxThreads maxTasks } path := by
    refine hp.throughout_of_meetsAll (fun r event r' h hst hg => ?_) hwithin ?_
    · exact limited_step h hst hg
    · exact ⟨ThreadPool.books_new _ _, hthreads, htasks⟩
  exact hlimited.mono fun r h => ⟨h.books.bookkeeping, h.responds, r.pool.growsBelow⟩

/-- The limits fall below what is there: two workers stay, and so do three tasks, but a fourth is
dropped. -/
theorem resized_throughout_shrink :
    Throughout (fun r => (r.pool.under 2 (some 3)).Bookkeeping ∧ r.pool.Responds ∧
      r.pool.GrowsBelow) { pool := .new 2 (some 3) } (trace resize { pool := .new 2 (some 3) }
        [.pool (.submit 0 10), .pool (.submit 1 11), .setMaxThreads 1, .pool (.submit 2 12),
          .setMaxTasks (some 1), .pool (.submit 3 12), .pool (.enter 10), .pool (.enter 11)]) :=
  resized_throughout (by decide) (by decide) (path_trace resize _ _) (by decide)

/-! ## The tasks of a pool whose limits change -/

/-- The record of a pool under other limits. -/
def under (mostThreads : ℕ) (mostTasks : Option ℕ) (r : TaskRecord) : TaskRecord :=
  { r with pool := r.pool.under mostThreads mostTasks }

/-- A step that is not a submission is one under any limits. -/
lemma Step.under (hst : Step r event r') (hevent : ∀ task id, event ≠ .submit task id) :
    Step (r.under mostThreads mostTasks) event (r'.under mostThreads mostTasks) := by
  obtain ⟨hpool, hnote, hnumbered⟩ := hst.pool
  have hunder := hpool.under mostThreads mostTasks hevent
  have hsame : (r.under mostThreads mostTasks).note (r'.pool.under mostThreads mostTasks) event =
      (r.note r'.pool event).under mostThreads mostTasks := by
    cases event with
    | submit task id => exact absurd rfl (hevent task id)
    | enter | wake | timeout | finishTask | quit | join => rfl
  have hn : (r.under mostThreads mostTasks).Numbered event := by
    cases event with
    | submit task id => exact absurd rfl (hevent task id)
    | enter | wake | timeout | finishTask | quit | join => trivial
  unfold Step TaskRecord.step
  rw [if_pos hn, Option.map_eq_some_iff]
  exact ⟨_, hunder, hsame.trans (congrArg _ hnote.symm)⟩

/-- A task is accepted only while there is a thread, or one may be created. -/
def Fed (r : TaskRecord) : ResizeEvent → Prop
  | .pool (.submit _ _) => ¬ r.pool.Full → 0 < r.pool.currentThreads ∨ 0 < r.pool.maxThreads
  | _ => True

instance (r : TaskRecord) : DecidablePred r.Fed
  | .pool (.submit _ _) => inferInstanceAs (Decidable (_ → _))
  | .pool (.enter _) | .pool (.wake _) | .pool (.timeout _) | .pool (.finishTask _ _)
  | .pool .quit | .pool (.join _) | .setMaxThreads _ | .setMaxTasks _ =>
    inferInstanceAs (Decidable True)

/-- What every such step keeps: what `Kept` says, for a pool whose queue has no limit, with a bound
that no limit of the threads has exceeded. -/
def ResizeKept (r : TaskRecord) : Prop :=
  ∃ most, r.pool.maxThreads ≤ most ∧ (r.under most none).Kept

/-- What is kept of a pool that is resized says that it executes its tasks. -/
lemma ResizeKept.executes (h : r.ResizeKept) : r.Executes := by
  obtain ⟨most, -, hkept⟩ := h
  have hexecutes := hkept.executes
  exact ⟨hexecutes.order, hexecutes.once, hexecutes.dropped, hexecutes.executed, hexecutes.manned,
    hexecutes.joined⟩

/-- A task that is accepted while there is a worker for it is kept. -/
lemma ResizeKept.submit (h : r.ResizeKept) (hst : Step r (.submit task id) r')
    (hfed : r.Fed (.pool (.submit task id))) : r'.ResizeKept := by
  obtain ⟨most, hle, hkept⟩ := h
  obtain ⟨hpool, hnote, hnumbered⟩ := hst.pool
  obtain rfl : task = r.submitted := hnumbered
  obtain ⟨hen, heq⟩ := hpool.apply_eq
  have hlimited : r.pool.Limited most none := ⟨hkept.books, hle, by simp [NoMore]⟩
  have hlimited' := hlimited.step hpool
  refine ⟨most, hlimited'.threads, ?_⟩
  have hbooks : (r'.pool.under most none).Books [] := hlimited'.books
  by_cases hfull : r.pool.Full
  · have hsame := ThreadPool.submit_of_full heq hfull
    rw [hnote, note, if_pos hfull, hsame]
    refine ⟨hkept.books, hkept.positive, hkept.accepted, ?_, hkept.executed, hkept.manned⟩
    refine List.Perm.trans ?_ (numbers_append hkept.numbers)
    exact .of_eq (List.append_assoc _ _ _).symm
  · have hnotFull : ¬ (r.under most none).pool.Full := by
      rintro ⟨n, hn, -⟩
      cases hn
    have hcurrent : r'.pool.currentThreads = r'.pool.free + r'.pool.running.length := by
      have hactive := hbooks.current
      rwa [ThreadPool.length_active] at hactive
    have hidle : r.pool.idleThreads ≤ r.pool.currentThreads :=
      hkept.books.bookkeeping.idle_le_current
    have hpos : 0 < r'.pool.currentThreads := by
      rcases ThreadPool.submit_cases heq hfull with ⟨hworker, hp'⟩ | ⟨-, hp'⟩
      · have hfed' := hfed hfull
        rw [hp']
        dsimp only
        omega
      · rw [hp']
        exact Nat.succ_pos _
    have htasks : r'.pool.tasks = r.pool.tasks ++ [r.submitted] := by
      rcases ThreadPool.submit_cases heq hfull with ⟨-, hp'⟩ | ⟨-, hp'⟩ <;> rw [hp']
    have hrunning : r'.pool.running = r.pool.running := by
      rcases ThreadPool.submit_cases heq hfull with ⟨-, hp'⟩ | ⟨-, hp'⟩ <;> rw [hp']
    have hsame : (r.under most none).note (r'.pool.under most none) (.submit r.submitted id) =
        r'.under most none := by
      rw [hnote, note, note, if_neg hnotFull, if_neg hfull]
      rfl
    rw [← hsame]
    exact hkept.accept hbooks hnotFull htasks hrunning rfl (hcurrent ▸ hpos)

/-- Every step in which no task is accepted without a worker keeps it so. -/
lemma ResizeKept.step {event : ResizeEvent} (h : r.ResizeKept) (hst : ResizeStep r event r')
    (hfed : r.Fed event) : r'.ResizeKept := by
  rcases resize_inv hst with ⟨e, rfl, hstep⟩ | ⟨n, rfl, rfl⟩ | ⟨m, rfl, rfl⟩
  · by_cases he : ∀ task id, e ≠ .submit task id
    · obtain ⟨most, hle, hkept⟩ := h
      refine ⟨most, ?_, hkept.step (hstep.under he)⟩
      rw [(hstep.pool.1.limits he).1]
      exact hle
    · push Not at he
      obtain ⟨task, id, rfl⟩ := he
      exact h.submit hstep hfed
  · obtain ⟨most, hle, hkept⟩ := h
    refine ⟨max most n, le_max_right _ _, ?_⟩
    have hlimited : r.pool.Limited most none := ⟨hkept.books, hle, by simp [NoMore]⟩
    exact ⟨(hlimited.mono (le_max_left most n)).books, hkept.positive.trans_le (le_max_left _ _),
      hkept.accepted, hkept.numbers, hkept.executed, hkept.manned⟩
  · exact h

/-- A task that is accepted while there is no worker, and none is created, is not executed. -/
lemma not_executes_of_not_fed {event : ResizeEvent} (h : r.ResizeKept)
    (hst : ResizeStep r event r') (hnot : ¬ r.Fed event) : ¬ r'.Executes := by
  intro hexecutes
  rcases resize_inv hst with ⟨e, rfl, hstep⟩ | ⟨n, rfl, rfl⟩ | ⟨m, rfl, rfl⟩
  · cases e with
    | submit task id =>
        simp only [Fed, not_forall, not_or, Nat.not_lt, Nat.le_zero] at hnot
        obtain ⟨hfull, hcurrent, hmax⟩ := hnot
        obtain ⟨most, -, hkept⟩ := h
        have hnone : r.pool.active = [] := by
          have hactive := hkept.books.current
          exact List.length_eq_zero_iff.mp (hactive.symm.trans hcurrent)
        obtain ⟨-, heq⟩ := hstep.pool.1.apply_eq
        rcases ThreadPool.submit_cases heq hfull with ⟨-, hp'⟩ | ⟨hlimit, -⟩
        · have hmanned := hexecutes.manned
          rw [hp'] at hmanned
          exact hmanned (by simp) hnone
        · omega
    | enter | wake | timeout | finishTask | quit | join => exact hnot trivial
  · exact hnot trivial
  · exact hnot trivial

/-- **When the tasks of a resized pool are executed**: in every run, with all changes of the limits,
every accepted task is executed once, in the order of acceptance, and the destructor leaves none
behind, exactly when no task is accepted while there is no thread and none may be created. -/
theorem executes_iff_fed {maxThreads : ℕ} {maxTasks : Option ℕ}
    {path : List (ResizeEvent × TaskRecord)}
    (hp : Path ResizeStep { pool := .new maxThreads maxTasks } path) :
    Throughout Executes { pool := .new maxThreads maxTasks } path ↔
      MeetsAll Fed { pool := .new maxThreads maxTasks } path := by
  refine hp.throughout_iff_meetsAll_of_invariant (I := ResizeKept) (fun r h => h.executes)
    (fun r event r' h hst hfed => h.step hst hfed) (fun r event r' h hst hexecutes => ?_) ?_
  · by_contra hnot
    exact not_executes_of_not_fed h hst hnot hexecutes
  · refine ⟨max 1 maxThreads, le_max_right _ _, ?_⟩
    exact kept_new (lt_max_of_lt_left Nat.one_pos) none

/-- With the limit at nothing, a worker that is there executes the next task; behind its time-out
the next task finds none. -/
theorem executes_iff_fed_closed :
    Throughout Executes { pool := .new 1 none } (trace resize { pool := .new 1 none }
      [.pool (.submit 0 10), .pool (.enter 10), .setMaxThreads 0, .pool (.submit 1 11),
        .pool (.finishTask 10 0), .pool (.enter 10), .pool (.finishTask 10 1), .pool (.enter 10),
        .pool (.timeout 10)]) ∧
    ¬ Throughout Executes { pool := .new 1 none } (trace resize { pool := .new 1 none }
      [.setMaxThreads 0, .pool (.submit 0 10)]) :=
  ⟨(executes_iff_fed (path_trace resize _ _)).mpr (by decide),
    fun h => absurd ((executes_iff_fed (path_trace resize _ _)).mp h) (by decide)⟩

end TaskRecord

end SwiftNetCore
