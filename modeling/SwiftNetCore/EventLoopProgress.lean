import SwiftNetCore.EventLoopFunctors
import SwiftNetCore.Lib.Fair

/-!
# Queued functors run

`SwiftNetCore.EventLoopFunctors` says in which order functors run and that the loop does not sleep
on them. That each of them runs needs a loop that goes on: callbacks and functors return, `poll`
returns when `wakeupFd_` can be read, and a thread that has queued a functor comes to its `wakeup`.

* `Scheduled`, `Wakes`, `WakesQuit`: these premises, about a run that goes on for ever.
* `remaining`: how many steps of the loop there are at most before a functor is started. No step
  makes it larger (`remaining_le`), and every step of the loop makes it smaller (`remaining_lt`).
* `started_in_the_end`: a functor that was queued is started at some later time, or the loop is
  left.
* `left_in_the_end`: a loop that is behind its `quit_ = false` and is told to quit is left.
-/

namespace SwiftNetCore

open Fair (Endless)

namespace EventLoop

variable {s s' : EventLoop} {event : Event} {f : ℕ}

/-- The steps of the loop's thread that are no calls of the user. -/
def Event.isOwn : Event → Bool
  | .loop | .clearQuit | .test | .handleRead | .doPendingFunctors | .swap | .functor | .finish
  | .release => true
  | _ => false

/-- `poll` returns. -/
def Event.isPoll : Event → Bool
  | .poll _ => true
  | _ => false

/-- The steps of the loop up to the next `swap`, at most, but for the functors of the batch. -/
def Point.distance : Point → ℕ
  | .outside => 0
  | .calling => 1
  | .dispatching false => 2
  | .dispatching true => 3
  | .polling => 4
  | .testing => 5
  | .entered => 6
  | .releasing => 6
  | .running => 7

/-- How many steps of the loop there are at most before the functor `f` is started. -/
def remaining (f : ℕ) (s : EventLoop) : ℕ :=
  if f ∈ s.functors then s.functors.idxOf f
  else s.point.distance + s.functors.length + (s.pendingFunctors.idxOf f + 1)

/-- The functor `f` was started, or the loop is not entered. -/
def Over (f : ℕ) (s : EventLoop) : Prop := f ∈ s.started.map Prod.fst ∨ s.point = .outside

/-- A functor that was queued and not started is in the batch or waits. -/
lemma Batched.waits (h : s.Batched) (hf : f < s.queued.length) (hover : ¬ s.Over f) :
    f ∈ s.functors ∨ f ∈ s.pendingFunctors := by
  have hmem : f ∈ s.started.map Prod.fst ++ s.functors ++ s.pendingFunctors := by
    rw [h.order]
    exact List.mem_range.mpr hf
  rw [List.mem_append, List.mem_append] at hmem
  rcases hmem with (hstarted | hbatch) | hwaits
  · exact absurd (Or.inl hstarted) hover
  · exact Or.inl hbatch
  · exact Or.inr hwaits

/-- What counts for the rank, when nothing of the batch is left. -/
lemma remaining_of_nil (h : s.functors = []) :
    remaining f s = s.point.distance + (s.pendingFunctors.idxOf f + 1) := by
  simp [remaining, h]

/-- A call in the loop's thread pushes its functor, and writes to `wakeupFd_` from a functor
only. -/
lemma queueFunctor_cases (s : EventLoop) (f : ℕ) :
    s.queueFunctor f = s.pushFunctor f ∨ s.queueFunctor f = (s.pushFunctor f).writeWakeupFd := by
  unfold queueFunctor
  dsimp only
  split_ifs
  · exact Or.inr rfl
  · exact Or.inl rfl

/-- Another functor goes behind those that wait. -/
lemma remaining_pushFunctor_le {g : ℕ} (hf : f ∈ s.functors ∨ f ∈ s.pendingFunctors) :
    remaining f (s.noteQueued.pushFunctor g) ≤ remaining f s := by
  by_cases hbatch : f ∈ s.functors
  · simp [remaining, pushFunctor, noteQueued, hbatch]
  · have hpending := hf.resolve_left hbatch
    simp [remaining, pushFunctor, noteQueued, hbatch, List.idxOf_append_of_mem hpending]

/-- Behind a `wakeup` the counter is positive. -/
lemma Step.wakeupFd_pos (hst : Step s (.wakeup f) s') : 0 < s'.wakeupFd := by
  cases hst.effect
  exact Nat.succ_pos _

/-- Behind the `wakeup` of `quit`, `wakeupFd_` can be read. -/
lemma Step.wakeupFd_pos_of_quit (hst : Step s .wakeupQuit s') : 0 < s'.wakeupFd := by
  cases hst.effect
  exact Nat.succ_pos _

/-- No step forgets a functor that was queued. -/
lemma Step.queued_le (hst : Step s event s') : s.queued.length ≤ s'.queued.length := by
  cases hst.effect with
  | queueInLoop =>
      rcases queueFunctor_cases s.noteQueued s.queued.length with heq | heq <;> rw [heq] <;>
        simp [pushFunctor, noteQueued, writeWakeupFd]
  | push => simp [pushFunctor, noteQueued]
  | _ => exact le_rfl

/-- A step of the loop brings every functor that was queued nearer to its start; no other step takes
it away. -/
lemma Step.remaining_add_le (h : s.Batched) (hst : Step s event s') (hf : f < s.queued.length)
    (hover : ¬ s.Over f) (hover' : ¬ s'.Over f) :
    remaining f s' + (if event.isOwn || event.isPoll then 1 else 0) ≤ remaining f s := by
  have hwaits := h.waits hf hover
  cases hst.effect with
  | loop hpoint => exact absurd (Or.inr hpoint) hover
  | leave => exact absurd (Or.inr rfl) hover'
  | clearQuit hpoint | goOn hpoint | handleRead hpoint | doPendingFunctors hpoint =>
      have hnil := h.alone (by simp [hpoint])
      rw [remaining_of_nil hnil, remaining_of_nil (by exact hnil), hpoint]
      simp [Point.distance, Event.isOwn]
  | poll wakeup hpoint =>
      have hnil := h.alone (by simp [hpoint])
      rw [remaining_of_nil hnil, remaining_of_nil (by exact hnil), hpoint]
      cases wakeup <;> simp [Point.distance, Event.isOwn, Event.isPoll]
  | swap hpoint =>
      have hnil := h.alone (by simp [hpoint])
      have hpending : f ∈ s.pendingFunctors := by simpa [hnil] using hwaits
      rw [remaining_of_nil hnil]
      simp [remaining, hpending, Event.isOwn]
  | functor g functors hpoint hfunctors =>
      have hne : g ≠ f := by
        rintro rfl
        exact hover' (Or.inl (by simp))
      rw [hfunctors] at hwaits
      by_cases hmem : f ∈ functors
      · simp [remaining, hfunctors, hmem, Event.isOwn, List.idxOf_cons_ne _ hne]
      · simp [remaining, hfunctors, hmem, Ne.symm hne, Event.isOwn]
  | finish hpoint hfunctors =>
      rw [remaining_of_nil hfunctors, remaining_of_nil (by exact hfunctors), hpoint]
      simp [Point.distance, Event.isOwn]
  | release hpoint =>
      have hnil := h.alone (by simp [hpoint])
      rw [remaining_of_nil hnil, remaining_of_nil (by exact hnil), hpoint]
      simp [Point.distance, Event.isOwn]
  | queueInLoop =>
      have hle := remaining_pushFunctor_le (g := s.queued.length) hwaits
      rcases queueFunctor_cases s.noteQueued s.queued.length with heq | heq <;> rw [heq] <;>
        exact hle
  | push => exact remaining_pushFunctor_le hwaits
  | wakeup | quit | setQuit | wakeupQuit => exact le_of_eq rfl

/-! ## The loop is left -/

/-- The part of the loop's round that is left in front of its condition. -/
def Point.phase : Point → ℕ
  | .testing => 0
  | .releasing => 1
  | .running => 2
  | .calling => 3
  | .dispatching false => 4
  | .dispatching true => 5
  | .polling => 6
  | .entered => 7
  | .outside => 8

/-- What is left of the round: its part, and in `doPendingFunctors` the functors of the batch, which
may queue others. -/
def toLeave (s : EventLoop) : ℕ ×ₗ ℕ := toLex (s.point.phase, s.functors.length)

/-- The loop is in its round, with `quit_` set. -/
def Quitting (s : EventLoop) : Prop :=
  s.quit = true ∧ s.point ≠ .entered ∧
    (s.point = .polling → 0 < s.wakeupFd ∨ 0 < s.quitting)

/-- A later part of the round leaves less of it. -/
lemma toLeave_lt_of_phase (h : s'.point.phase < s.point.phase) : s'.toLeave < s.toLeave :=
  Prod.Lex.toLex_lt_toLex.mpr (Or.inl h)

/-- Every step of the loop shortens the round, and no other step takes anything back. -/
lemma Step.toLeave_le (hst : Step s event s') (h : s.Quitting) (hin : s.point ≠ .outside)
    (hin' : s'.point ≠ .outside) : s'.Quitting ∧ s'.toLeave ≤ s.toLeave ∧
      ((event.isOwn || event.isPoll) = true → s'.toLeave < s.toLeave) := by
  obtain ⟨hquit, hentered, hawake⟩ := h
  cases hst.effect with
  | loop hpoint => exact absurd hpoint hin
  | clearQuit hpoint => exact absurd hpoint hentered
  | leave => exact absurd rfl hin'
  | goOn _ hnot => exact absurd (hquit.symm.trans hnot) nofun
  | poll wakeup hpoint =>
      have hlt : toLeave { s with point := .dispatching wakeup } < s.toLeave := by
        apply toLeave_lt_of_phase
        rw [hpoint]
        cases wakeup <;> simp [Point.phase]
      exact ⟨⟨hquit, nofun, nofun⟩, hlt.le, fun _ => hlt⟩
  | handleRead hpoint =>
      have hlt : toLeave { s with wakeupFd := 0, point := .dispatching false } < s.toLeave :=
        toLeave_lt_of_phase (by simp [hpoint, Point.phase])
      exact ⟨⟨hquit, nofun, nofun⟩, hlt.le, fun _ => hlt⟩
  | doPendingFunctors hpoint =>
      have hlt : toLeave { s with callingPendingFunctors := true, point := .calling } < s.toLeave :=
        toLeave_lt_of_phase (by simp [hpoint, Point.phase])
      exact ⟨⟨hquit, nofun, nofun⟩, hlt.le, fun _ => hlt⟩
  | swap hpoint =>
      have hlt : toLeave { s with
          functors := s.pendingFunctors
          pendingFunctors := []
          batches := s.batches + 1
          point := .running } < s.toLeave :=
        toLeave_lt_of_phase (by simp [hpoint, Point.phase])
      exact ⟨⟨hquit, nofun, nofun⟩, hlt.le, fun _ => hlt⟩
  | functor f functors hpoint hfunctors =>
      have hlt : toLeave { s with
          functors := functors
          started := s.started ++ [(f, s.batches)] } < s.toLeave :=
        Prod.Lex.toLex_lt_toLex.mpr (Or.inr ⟨rfl, by simp [hfunctors]⟩)
      exact ⟨⟨hquit, hentered, hawake⟩, hlt.le, fun _ => hlt⟩
  | finish hpoint =>
      have hlt : toLeave { s with callingPendingFunctors := false, point := .releasing } <
          s.toLeave :=
        toLeave_lt_of_phase (by simp [hpoint, Point.phase])
      exact ⟨⟨hquit, nofun, nofun⟩, hlt.le, fun _ => hlt⟩
  | release hpoint =>
      have hlt : toLeave { s with point := .testing } < s.toLeave :=
        toLeave_lt_of_phase (by simp [hpoint, Point.phase])
      exact ⟨⟨hquit, nofun, nofun⟩, hlt.le, fun _ => hlt⟩
  | queueInLoop =>
      rcases queueFunctor_cases s.noteQueued s.queued.length with heq | heq <;> rw [heq]
      · exact ⟨⟨hquit, hentered, hawake⟩, le_rfl, nofun⟩
      · exact ⟨⟨hquit, hentered, fun _ => Or.inl (Nat.succ_pos _)⟩, le_rfl, nofun⟩
  | push => exact ⟨⟨hquit, hentered, hawake⟩, le_rfl, nofun⟩
  | wakeup => exact ⟨⟨hquit, hentered, fun _ => Or.inl (Nat.succ_pos _)⟩, le_rfl, nofun⟩
  | quit => exact ⟨⟨rfl, hentered, hawake⟩, le_rfl, nofun⟩
  | setQuit => exact ⟨⟨rfl, hentered, fun _ => Or.inr (Nat.succ_pos _)⟩, le_rfl, nofun⟩
  | wakeupQuit => exact ⟨⟨hquit, hentered, fun _ => Or.inl (Nat.succ_pos _)⟩, le_rfl, nofun⟩

/-! ## The run -/

section run

variable {state : ℕ → EventLoop} {label : ℕ → Event} {n : ℕ}

/-- What a loop needs to go on. -/
structure Scheduled (state : ℕ → EventLoop) (label : ℕ → Event) : Prop where
  /-- callbacks and functors return, so the loop's thread takes its next step -/
  returns : ∀ n, (state n).point ≠ .outside ∧ (state n).point ≠ .polling →
    ∃ m, n ≤ m ∧ (label m).isOwn = true
  /-- `poll` returns when `wakeupFd_` can be read -/
  polls : ∀ n, (state n).point = .polling ∧ 0 < (state n).wakeupFd →
    ∃ m, n ≤ m ∧ (label m).isPoll = true

/-- A thread that has queued a functor comes to its `wakeup`. -/
def Wakes (state : ℕ → EventLoop) (label : ℕ → Event) : Prop :=
  ∀ n, ∀ f ∈ (state n).waking, ∃ m, n ≤ m ∧ label m = .wakeup f

/-- A thread that has set `quit_` comes to its `wakeup`. -/
def WakesQuit (state : ℕ → EventLoop) (label : ℕ → Event) : Prop :=
  ∀ n, 0 < (state n).quitting → ∃ m, n ≤ m ∧ label m = .wakeupQuit

/-- Whoever queues no functor outside of `loop` with the counter at zero keeps these. -/
lemma invariants (hrun : Endless Step state label) (hwoken : ∀ n, (state n).Woken (label n))
    (hstart : state 0 = {}) (n : ℕ) : (state n).Batched ∧ (state n).Phased ∧ (state n).Alert := by
  have hguarded : Endless (fun s event s' => Step s event s' ∧ s.Woken event) state label :=
    fun n => ⟨hrun n, hwoken n⟩
  refine hguarded.always (I := fun s : EventLoop => s.Batched ∧ s.Phased ∧ s.Alert) (n := 0)
    ?_ ?_ n (Nat.zero_le n)
  · rintro s event s' ⟨hbatched, hphased, halert⟩ ⟨hst, hw⟩
    exact ⟨hbatched.step hst, hphased.step hst, halert.step hphased hst hw⟩
  · rw [hstart]
    exact ⟨⟨⟨rfl, by simp⟩, fun _ => rfl, by simp, by simp⟩, ⟨by simp, by simp⟩, fun _ _ => by simp⟩

/-- The loop takes a step when `wakeupFd_` can be read. -/
lemma Scheduled.next_of_written (h : Scheduled state label) (hpos : 0 < (state n).wakeupFd)
    (hout : (state n).point ≠ .outside) :
    ∃ m, n ≤ m ∧ ((label m).isOwn || (label m).isPoll) = true := by
  by_cases hpolling : (state n).point = .polling
  · obtain ⟨m, hm, hpoll⟩ := h.polls n ⟨hpolling, hpos⟩
    exact ⟨m, hm, by simp [hpoll]⟩
  · obtain ⟨m, hm, hown⟩ := h.returns n ⟨hout, hpolling⟩
    exact ⟨m, hm, by simp [hown]⟩

/-- While a functor waits, the loop takes a step. -/
lemma Scheduled.next (h : Scheduled state label) (hwakes : Wakes state label)
    (hrun : Endless Step state label)
    (hinv : (state n).Batched ∧ (state n).Phased ∧ (state n).Alert)
    (hf : f < (state n).queued.length) (hnot : ∀ m, n ≤ m → ¬ (state m).Over f) :
    ∃ m, n ≤ m ∧ ((label m).isOwn || (label m).isPoll) = true := by
  have hout : ∀ m, n ≤ m → (state m).point ≠ .outside :=
    fun m hm hpoint => hnot m hm (Or.inr hpoint)
  by_cases hpolling : (state n).point = .polling
  · have hpending : f ∈ (state n).pendingFunctors := by
      have hnil := hinv.1.alone (by simp [hpolling])
      simpa [hnil] using hinv.1.waits hf (hnot n le_rfl)
    rcases hinv.2.2.awake hpolling f hpending with hpos | hwaking
    · exact h.next_of_written hpos (hout n le_rfl)
    · -- the thread that queued it writes, and then `poll` returns unless it has before
      obtain ⟨k, hk, hlabel⟩ := hwakes n f hwaking
      have hst := hrun k
      rw [hlabel] at hst
      have hle : n ≤ k + 1 := Nat.le_succ_of_le hk
      obtain ⟨m, hm, hown⟩ := h.next_of_written hst.wakeupFd_pos (hout _ hle)
      exact ⟨m, hle.trans hm, hown⟩
  · obtain ⟨m, hm, hown⟩ := h.returns n ⟨hout n le_rfl, hpolling⟩
    exact ⟨m, hm, by simp [hown]⟩

/-- Another thread queues a functor while the loop is in `poll`; it runs and queues another one; and
then the loop is left for good. -/
def twoFunctors : List (Event × EventLoop) :=
  Paths.trace step {}
    [.loop, .clearQuit, .test, .push, .wakeup 0, .poll true, .handleRead, .doPendingFunctors, .swap,
      .functor, .queueInLoop, .finish, .release, .test, .poll true, .handleRead, .doPendingFunctors,
      .swap, .functor, .quit, .finish, .release, .test, .quit]

/-- The run behind which nothing changes. -/
lemma endless_twoFunctors :
    Endless Step (Fair.stateOf {} twoFunctors) (Fair.labelOf twoFunctors .quit) := by
  have hidle : (Paths.last {} twoFunctors).step .quit = some (Paths.last {} twoFunctors) := by
    decide
  exact Fair.endless_of_path (Paths.path_trace step _ _) hidle

/-- In the run with two functors, the loop goes on. -/
lemma scheduled_twoFunctors :
    Scheduled (Fair.stateOf {} twoFunctors) (Fair.labelOf twoFunctors .quit) := by
  constructor
  · apply Fair.comes_of_path (Q := fun s : EventLoop => s.point ≠ .outside ∧ s.point ≠ .polling)
      (R := fun (_ : EventLoop) event => Event.isOwn event = true) <;> decide
  · apply Fair.comes_of_path (Q := fun s : EventLoop => s.point = .polling ∧ 0 < s.wakeupFd)
      (R := fun (_ : EventLoop) event => Event.isPoll event = true) <;> decide

/-- The thread that queues the first functor comes to its `wakeup` in it. -/
lemma wakes_twoFunctors :
    Wakes (Fair.stateOf {} twoFunctors) (Fair.labelOf twoFunctors .quit) := by
  have hwakes : ∀ n < twoFunctors.length, ∀ f ∈ (Fair.stateOf {} twoFunctors n).waking,
      ∃ m ≤ twoFunctors.length, n ≤ m ∧ Fair.labelOf twoFunctors .quit m = .wakeup f := by
    decide
  intro n f
  exact Fair.comes_of_path (Q := fun s : EventLoop => f ∈ s.waking)
    (R := fun (_ : EventLoop) event => event = .wakeup f)
    (fun hf => absurd hf List.not_mem_nil)
    (fun n hn => hwakes n hn f) n

/-- No other thread calls `quit` in it. -/
lemma wakesQuit_twoFunctors :
    WakesQuit (Fair.stateOf {} twoFunctors) (Fair.labelOf twoFunctors .quit) := by
  apply Fair.comes_of_path (Q := fun s : EventLoop => 0 < s.quitting)
    (R := fun (_ : EventLoop) event => event = Event.wakeupQuit) <;> decide

/-- **A functor that was queued is started in the end**, in every endless run in which the loop's
thread queues nothing outside of `loop`, and nothing in the destructor of a functor, with the
counter at zero, or the loop is left. -/
theorem started_in_the_end (hrun : Endless Step state label) (hstart : state 0 = {})
    (hwoken : ∀ n, (state n).Woken (label n)) (hscheduled : Scheduled state label)
    (hwakes : Wakes state label) (hf : f < (state n).queued.length) :
    ∃ m, n ≤ m ∧ (f ∈ (state m).started.map Prod.fst ∨ (state m).point = .outside) := by
  have hinv := invariants hrun hwoken hstart
  have hknown : ∀ m, n ≤ m → f < (state m).queued.length :=
    hrun.always (I := fun s : EventLoop => f < s.queued.length)
      (fun s event s' h hst => h.trans_le hst.queued_le) hf
  refine Fair.reaches_of_rank (Q := fun m => (state m).Over f)
    (r := fun m => remaining f (state m)) (fun hnot m hm => ?_) (fun hnot m hm => ?_)
  · have hle := (hrun m).remaining_add_le (hinv m).1 (hknown m hm) (hnot m hm)
      (hnot (m + 1) (Nat.le_succ_of_le hm))
    exact (Nat.le_add_right _ _).trans hle
  · obtain ⟨k, hk, hnext⟩ := hscheduled.next hwakes hrun (hinv m) (hknown m hm)
      fun k hk => hnot k (hm.trans hk)
    have hnk := hm.trans hk
    have hle := (hrun k).remaining_add_le (hinv k).1 (hknown k hnk) (hnot k hnk)
      (hnot (k + 1) (Nat.le_succ_of_le hnk))
    rw [hnext, if_pos rfl] at hle
    exact ⟨k, hk, hle⟩

/-- The second functor, which the first one queued, is started in the end. -/
theorem started_in_the_end_two :
    ∃ m, 11 ≤ m ∧ (1 ∈ (Fair.stateOf {} twoFunctors m).started.map Prod.fst ∨
      (Fair.stateOf {} twoFunctors m).point = .outside) :=
  started_in_the_end endless_twoFunctors rfl (Fair.forall_of_path (by decide) (by decide))
    scheduled_twoFunctors wakes_twoFunctors (by decide)

/-- While the loop's thread is in `poll` with `quit_` set, `wakeupFd_` can be read or is about to be
written. -/
def QuitAwake (s : EventLoop) : Prop :=
  s.point = .polling → s.quit = true → 0 < s.wakeupFd ∨ 0 < s.quitting

/-- Every step keeps a loop with `quit_` set from sleeping. -/
lemma QuitAwake.step (h : s.QuitAwake) (hst : Step s event s') : s'.QuitAwake := by
  cases hst.effect with
  | goOn _ hnot => exact fun _ hquit => absurd (hquit.symm.trans hnot) nofun
  | queueInLoop =>
      rcases queueFunctor_cases s.noteQueued s.queued.length with heq | heq <;> rw [heq]
      · exact h
      · exact fun _ _ => Or.inl (Nat.succ_pos _)
  | functor | push => exact h
  | wakeup | wakeupQuit => exact fun _ _ => Or.inl (Nat.succ_pos _)
  | setQuit => exact fun _ _ => Or.inr (Nat.succ_pos _)
  | quit huser =>
      intro hpoint
      simp [InUserCode, show s.point = .polling from hpoint] at huser
  | loop | clearQuit | leave | poll | handleRead | doPendingFunctors | swap | finish | release =>
      exact fun hpoint => absurd hpoint nofun

/-- **A loop that is told to quit is left in the end**, in every endless run, when `quit` comes
behind its `quit_ = false`. -/
theorem left_in_the_end (hrun : Endless Step state label) (hstart : state 0 = {})
    (hscheduled : Scheduled state label) (hwakes : WakesQuit state label)
    (hquit : (state n).quit = true)
    (hentered : (state n).point ≠ .entered) : ∃ m, n ≤ m ∧ (state m).point = .outside := by
  have hawake : (state n).QuitAwake :=
    hrun.always (fun _ _ _ h hst => h.step hst) (n := 0) (by rw [hstart]; exact nofun) n
      (Nat.zero_le n)
  -- as long as the loop is not left, it goes on quitting
  have hquitting : (∀ m, n ≤ m → (state m).point ≠ .outside) →
      ∀ m, n ≤ m → (state m).Quitting := by
    intro hnot m hm
    induction m, hm using Nat.le_induction with
    | base => exact ⟨hquit, hentered, fun hpoint => hawake hpoint hquit⟩
    | succ m hm ih =>
        exact ((hrun m).toLeave_le ih (hnot m hm) (hnot (m + 1) (Nat.le_succ_of_le hm))).1
  refine Fair.reaches_of_rank (Q := fun m => (state m).point = .outside)
    (r := fun m => (state m).toLeave) (fun hnot m hm => ?_) (fun hnot m hm => ?_)
  · exact ((hrun m).toLeave_le (hquitting hnot m hm) (hnot m hm)
      (hnot (m + 1) (Nat.le_succ_of_le hm))).2.1
  · have hstep : ∃ k, m ≤ k ∧ ((label k).isOwn || (label k).isPoll) = true := by
      by_cases hpolling : (state m).point = .polling
      · rcases (hquitting hnot m hm).2.2 hpolling with hpos | hleft
        · exact hscheduled.next_of_written hpos (hnot m hm)
        · -- the thread that has set `quit_` writes
          obtain ⟨k, hk, hlabel⟩ := hwakes m hleft
          have hst := hrun k
          rw [hlabel] at hst
          have hle : m ≤ k + 1 := Nat.le_succ_of_le hk
          obtain ⟨r, hr, hown⟩ := hscheduled.next_of_written hst.wakeupFd_pos_of_quit
            (hnot _ (hm.trans hle))
          exact ⟨r, hle.trans hr, hown⟩
      · obtain ⟨k, hk, hown⟩ := hscheduled.returns m ⟨hnot m hm, hpolling⟩
        exact ⟨k, hk, by simp [hown]⟩
    obtain ⟨k, hk, hown⟩ := hstep
    have hnk := hm.trans hk
    exact ⟨k, hk, ((hrun k).toLeave_le (hquitting hnot k hnk) (hnot k hnk)
      (hnot (k + 1) (Nat.le_succ_of_le hnk))).2.2 hown⟩

/-- The call of `quit` in the run with two functors makes `loop` return. -/
theorem left_in_the_end_two : ∃ m, 20 ≤ m ∧ (Fair.stateOf {} twoFunctors m).point = .outside :=
  left_in_the_end endless_twoFunctors rfl scheduled_twoFunctors wakesQuit_twoFunctors (by decide)
    (by decide)

end run

end EventLoop

end SwiftNetCore
