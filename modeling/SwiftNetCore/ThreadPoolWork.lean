import SwiftNetCore.ThreadPoolTasks

/-!
# Conservation of work in a thread pool

`submit` creates a thread when no worker waits. A worker that was notified counts as idle until it
has the mutex again, so several submissions in a row may rely on one and the same worker, and all
tasks but one then wait until a running task returns, with threads to spare.

* `Conserving`: no task waits in the queue while all workers are busy and another thread may be
  created.
* `Enough`: a submission that relies on a worker that waits finds more workers than tasks.
* `conserving_of_enough`: if every submission does, work is conserved throughout.
* `strands_of_not_enough`: wherever a submission does not, a task can be stranded from there.
-/

namespace SwiftNetCore

open Paths (Path Throughout MeetsAll last trace path_trace)

namespace ThreadPool

variable {p p' : ThreadPool} {event : Event} {id : ThreadID} {task : Task}

/-- No task waits behind a running one while another thread may be created: when all workers execute
tasks and the queue is not empty, there are as many threads as there may be. -/
def Conserving (p : ThreadPool) : Prop :=
  p.starting = [] → p.waiting = [] → p.tasks ≠ [] → p.currentThreads = p.maxThreads

instance : DecidablePred Conserving := fun _ => inferInstanceAs (Decidable (_ → _))

/-- A submission that relies on a worker that waits finds fewer tasks than workers that will look at
the queue, or as many threads as there may be. -/
def Enough (p : ThreadPool) : Event → Prop
  | .submit _ _ =>
    ¬ p.Full → 0 < p.idleThreads → p.currentThreads < p.maxThreads → p.tasks.length < p.free
  | _ => True

instance (p : ThreadPool) : DecidablePred p.Enough
  | .submit _ _ => inferInstanceAs (Decidable (_ → _))
  | .enter _ | .wake _ | .timeout _ | .finishTask _ _ | .quit | .join _ =>
    inferInstanceAs (Decidable True)

/-- There is a worker for every task in the queue, or as many workers as there may be. -/
def Covered (p : ThreadPool) : Prop :=
  p.tasks.length ≤ p.free ∨ p.currentThreads = p.maxThreads

/-- Where there is a worker for every task, no task waits behind a running one in vain. -/
lemma Covered.conserving (h : p.Covered) : p.Conserving := by
  intro hstarting hwaiting hne
  have hpos := List.length_pos_iff.mpr hne
  rcases h with h | h
  · simp only [free, hstarting, hwaiting, List.length_nil] at h
    omega
  · exact h

/-- Every step that finds workers enough leaves a worker for every task. -/
lemma Covered.step (h : p.Covered) (hbooks : p.Books []) (hst : Step p event p')
    (henough : p.Enough event) : p'.Covered := by
  have hlimit := hbooks.limit
  cases hst.change with
  | drop => exact h
  | notify task id hfull hidle =>
      rcases hlimit.lt_or_eq with hlt | heq
      · have hless := henough hfull hidle hlt
        left
        rw [List.length_append, List.length_singleton]
        exact hless
      · exact .inr heq
  | spawn task id _ hfull hidle hlt htasks hrunning hfree hmax =>
      left
      rw [htasks, hfree, List.length_append, List.length_singleton]
      rcases h with h | h
      · omega
      · omega
  | push task id hfull hidle hle => exact .inr (le_antisymm hlimit hle)
  | take _ id task tasks _ hworker hfront htasks hrunning hfree hcurrent hmax =>
      rcases h with h | h
      · left
        rw [hfront, List.length_cons] at h
        rw [htasks]
        omega
      · exact .inr (hcurrent.trans (h.trans hmax.symm))
  | wait _ _ hworker htasks hrunning hfree hcurrent hmax =>
      rcases h with h | h
      · left
        rwa [htasks, hfree]
      · exact .inr (hcurrent.trans (h.trans hmax.symm))
  | leave _ _ hworker hempty htasks =>
      left
      rw [htasks]
      exact Nat.zero_le _
  | finish id task hrunning =>
      rcases h with h | h
      · left
        simp only [finishTask, free, List.length_append, List.length_singleton] at h ⊢
        omega
      · exact .inr h
  | quit => exact h
  | join id => exact h

/-- **When work is conserved.** In every run in which no submission relies on a worker that waits
while there are already as many tasks as workers that will look at the queue, no task ever waits
behind a running one while another thread may be created. -/
theorem conserving_of_enough {maxThreads : ℕ} {maxTasks : Option ℕ}
    {path : List (Event × ThreadPool)} (hp : Path Step (new maxThreads maxTasks) path)
    (henough : MeetsAll Enough (new maxThreads maxTasks) path) :
    Throughout Conserving (new maxThreads maxTasks) path := by
  have hcovered : Throughout (fun p => p.Books [] ∧ p.Covered) (new maxThreads maxTasks) path := by
    refine hp.throughout_of_meetsAll (fun p event p' h hst hg => ?_) henough ?_
    · exact ⟨(h.1.step hst).1, h.2.step h.1 hst hg⟩
    · exact ⟨books_new _ _, .inl (Nat.zero_le _)⟩
  exact hcovered.mono fun p h => h.2.conserving

/-- Two tasks for one worker that waits: the second waits behind the first. -/
theorem not_conserving :
    ¬ Throughout Conserving (new 2 none) (trace step (new 2 none)
      [.submit 0 10, .enter 10, .finishTask 10 0, .enter 10, .submit 1 11, .submit 2 11, .wake 10]) :=
  by decide

/-- A worker that waits, two that are created, and a submission for each worker. -/
theorem conserving_of_enough_three :
    Throughout Conserving (new 3 none) (trace step (new 3 none)
      [.submit 0 10, .enter 10, .finishTask 10 0, .enter 10, .submit 1 11, .wake 10, .submit 2 11,
        .submit 3 12, .enter 11, .submit 4 13, .enter 12]) :=
  conserving_of_enough (path_trace step _ _) (by decide)

/-! ## Without enough workers -/

/-- A worker that is ready takes the front of the queue. -/
lemma step_of_take {q : ThreadPool} {tasks : List Task} (hen : p.Enabled event)
    (happly : p.apply event = q.proceed id false) (hfront : q.tasks = task :: tasks) :
    Step p event { q with
      idleThreads := q.idleThreads - 1
      tasks := tasks
      running := q.running ++ [(id, task)] } := by
  unfold Step step
  rw [if_pos hen, happly]
  simp [proceed, hfront, Except.toOption]

/-- A worker that is free can take a task. -/
lemma exists_take (hne : p.tasks ≠ []) (hfree : 0 < p.free) :
    ∃ event p', Step p event p' ∧ p'.free + 1 = p.free ∧ p'.tasks.length + 1 = p.tasks.length ∧
      p'.currentThreads = p.currentThreads ∧ p'.maxThreads = p.maxThreads := by
  obtain ⟨task, tasks, hfront⟩ := List.exists_cons_of_ne_nil hne
  have hready : p.Ready := .inr hne
  rcases hstarting : p.starting with _ | ⟨id, starting⟩
  · rcases hwaiting : p.waiting with _ | ⟨id, waiting⟩
    · simp [free, hstarting, hwaiting] at hfree
    · have hen : p.Enabled (.wake id) := by simp [Enabled, hwaiting]
      have happly : p.apply (.wake id) =
          proceed id false { p with waiting := p.waiting.erase id } := if_pos hready
      refine ⟨_, _, step_of_take hen happly hfront, ?_, ?_, rfl, rfl⟩
      · simp [free, hstarting, hwaiting]
      · simp [hfront]
  · have hen : p.Enabled (.enter id) := by simp [Enabled, hstarting]
    have happly : p.apply (.enter id) = proceed id false { p with
        idleThreads := p.idleThreads + 1
        starting := p.starting.erase id } := if_pos hready
    refine ⟨_, _, step_of_take hen happly hfront, ?_, ?_, rfl, rfl⟩
    · simp only [free, hstarting, List.erase_cons_head, List.length_cons]
      omega
    · simp [hfront]

/-- With more tasks than free workers, a task is stranded when they have taken theirs. -/
lemma exists_strand (hless : p.free < p.tasks.length) (hlimit : p.currentThreads < p.maxThreads) :
    ∃ path, Path Step p path ∧ ¬ (last p path).Conserving := by
  induction hn : p.free generalizing p with
  | zero =>
      refine ⟨[], Paths.path_nil, fun hconserving => ?_⟩
      simp only [free, Nat.add_eq_zero_iff, List.length_eq_zero_iff] at hn
      have hne : p.tasks ≠ [] := List.length_pos_iff.mp (by omega)
      exact hlimit.ne (hconserving hn.1 hn.2 hne)
  | succ n ih =>
      have hne : p.tasks ≠ [] := List.length_pos_iff.mp (by omega)
      obtain ⟨event, p', hst, hfree, htasks, hcurrent, hmax⟩ := exists_take hne (by omega)
      obtain ⟨path, hp, hstranded⟩ := ih (p := p') (by omega) (by omega) (by omega)
      exact ⟨(event, p') :: path, Paths.path_cons.mpr ⟨hst, hp⟩, hstranded⟩

/-- **The condition leaves out no more than it must**: behind a submission that does not meet it,
the workers can go on so that a task is stranded. -/
theorem strands_of_not_enough (hst : Step p event p') (hnot : ¬ p.Enough event) :
    ∃ path, Path Step p' path ∧ ¬ (last p' path).Conserving := by
  cases event with
  | submit task id =>
      simp only [Enough, not_forall, Nat.not_lt] at hnot
      obtain ⟨hfull, hidle, hlimit, hle⟩ := hnot
      cases hst.change with
      | drop _ _ h => exact absurd h hfull
      | notify =>
          refine exists_strand ?_ hlimit
          rw [List.length_append, List.length_singleton]
          exact Nat.lt_succ_of_le hle
      | spawn _ _ _ _ h => omega
      | push _ _ _ h => omega
      | take _ _ _ _ _ hworker => cases hworker
      | wait _ _ hworker => cases hworker
      | leave _ _ hworker => cases hworker
  | _ => exact absurd trivial hnot

end ThreadPool

end SwiftNetCore
