import SwiftNetCore.EventLoop

/-!
# Quitting an event loop

`quit` sets `quit_`, and `loop` sets it to false when it starts. An `EventLoopThread` gives its loop
to others before it starts it: `startLoop` returns when the pointer is there, and the destructor
calls `quit` on it and waits for the thread.

* `Heeded`: behind `quit`, the loop does not go on with `quit_` false, and does not stay in `poll`.
  Then it leaves with the iteration it is in (`Heeded.descends`).
* `InTime`: `loop` sets `quit_` to false when nobody has called `quit`.
* `EventLoopThread`: the thread, its owner, and whatever else happens to the loop.
* `heeded_iff`: over every run, of a loop with callers of `quit` on any thread and of an
  `EventLoopThread`, all is heeded exactly when every step is in time.
-/

namespace SwiftNetCore

open Paths (Path Throughout MeetsAll trace path_trace)

namespace EventLoop

variable {s s' : EventLoop} {event : Event}

/-- `loop` is at its iterations. -/
def Looping (s : EventLoop) : Prop := s.point ≠ .outside ∧ s.point ≠ .entered

instance : DecidablePred Looping := fun _ => inferInstanceAs (Decidable (_ ∧ _))

/-- A request to quit is not lost. -/
structure Heeded (s : EventLoop) : Prop where
  /-- the loop does not go on with `quit_` false, -/
  kept : s.requested = true → s.Looping → s.quit = true
  /-- and when it is in `poll`, that returns -/
  woken : s.requested = true → s.point = .polling → 0 < s.wakeupFd ∨ 0 < s.quitting

instance : DecidablePred Heeded := fun s =>
  decidable_of_iff ((s.requested = true → s.Looping → s.quit = true) ∧
      (s.requested = true → s.point = .polling → 0 < s.wakeupFd ∨ 0 < s.quitting))
    ⟨fun h => ⟨h.1, h.2⟩, fun h => ⟨h.1, h.2⟩⟩

/-- `loop` sets `quit_` to false when nobody has called `quit`. -/
def InTime (s : EventLoop) : Event → Prop
  | .clearQuit => s.requested = false
  | _ => True

instance (s : EventLoop) : DecidablePred s.InTime := by
  intro event
  unfold InTime
  split <;> infer_instance

/-- A step keeps requests from being lost exactly when it is in time. -/
lemma Heeded.step_iff (h : s.Heeded) (hst : Step s event s') : s'.Heeded ↔ s.InTime event := by
  cases hst.effect with
  | clearQuit hpoint =>
      constructor
      · intro h'
        by_contra hrequested
        have hyes : s.requested = true := Bool.eq_true_of_not_eq_false hrequested
        have hquit := h'.kept hyes (by simp [Looping])
        cases hquit
      · intro hrequested
        have hnot : ¬ s.requested = true := Bool.eq_false_iff.mp hrequested
        exact ⟨fun hyes => absurd hyes hnot, fun hyes => absurd hyes hnot⟩
  | loop => exact iff_of_true ⟨fun _ hlooping => absurd rfl hlooping.2, by simp⟩ trivial
  | leave => exact iff_of_true ⟨by simp, by simp⟩ trivial
  | goOn hpoint hquit =>
      have hnot : ¬ s.requested = true := by
        intro hrequested
        have := h.kept hrequested (by simp [Looping, hpoint])
        simp [hquit] at this
      exact iff_of_true ⟨fun hyes => absurd hyes hnot, fun hyes => absurd hyes hnot⟩ trivial
  | poll _ hpoint | handleRead hpoint | doPendingFunctors hpoint | swap hpoint | finish hpoint
  | release hpoint =>
      exact iff_of_true ⟨fun hrequested _ => h.kept hrequested (by simp [Looping, hpoint]), by simp⟩
        trivial
  | functor | push => exact iff_of_true ⟨h.kept, h.woken⟩ trivial
  | queueInLoop =>
      refine iff_of_true ?_ trivial
      unfold queueFunctor
      dsimp only
      split_ifs
      · exact ⟨h.kept, fun _ _ => .inl (Nat.succ_pos _)⟩
      · exact ⟨h.kept, h.woken⟩
  | wakeup | wakeupQuit => exact iff_of_true ⟨h.kept, fun _ _ => .inl (Nat.succ_pos _)⟩ trivial
  | quit huser =>
      refine iff_of_true ⟨fun _ _ => rfl, fun _ hpoint => ?_⟩ trivial
      unfold InUserCode at huser
      rw [show s.point = .polling from hpoint] at huser
      exact huser.elim
  | setQuit => exact iff_of_true ⟨fun _ _ => rfl, fun _ _ => .inr (Nat.succ_pos _)⟩ trivial

/-! ## The rest of an iteration -/

/-- How far an iteration is from its end. -/
def phase (s : EventLoop) : ℕ :=
  match s.point with
  | .polling => 6
  | .dispatching true => 5
  | .dispatching false => 4
  | .calling => 3
  | .running => 2
  | .releasing => 1
  | _ => 0

/-- A step of the loop itself. All others are steps of callbacks, of functors, and of other
threads. -/
inductive IsControl : Event → Prop
  | test : IsControl .test
  | poll (wakeup : Bool) : IsControl (.poll wakeup)
  | handleRead : IsControl .handleRead
  | doPendingFunctors : IsControl .doPendingFunctors
  | swap : IsControl .swap
  | functor : IsControl .functor
  | finish : IsControl .finish
  | release : IsControl .release

/-- **A loop that heeds a request leaves with the iteration it is in**: each of its own steps
leaves, or comes closer to the end of the iteration, by its phase and by the functors it has still
to start, and no other step changes these. -/
theorem Heeded.descends (h : s.Heeded) (hrequested : s.requested = true) (hlooping : s.Looping)
    (hst : Step s event s') :
    (IsControl event → s'.point = .outside ∨
        toLex (s'.phase, s'.functors.length) < toLex (s.phase, s.functors.length)) ∧
      (¬ IsControl event → s'.phase = s.phase ∧ s'.functors = s.functors) := by
  have hphase : ∀ {m n k l : ℕ}, m < n → toLex (m, k) < toLex (n, l) :=
    fun hlt => Prod.Lex.toLex_lt_toLex.mpr (.inl hlt)
  cases hst.effect with
  | loop hpoint => exact absurd hpoint hlooping.1
  | clearQuit hpoint => exact absurd hpoint hlooping.2
  | leave => exact ⟨fun _ => .inl rfl, fun hnot => absurd .test hnot⟩
  | goOn _ hquit =>
      have hyes := h.kept hrequested hlooping
      exact absurd hyes (by simp [hquit])
  | poll wakeup hpoint =>
      refine ⟨fun _ => .inr (hphase ?_), fun hnot => absurd (.poll wakeup) hnot⟩
      rcases wakeup <;> simp [phase, hpoint]
  | handleRead hpoint =>
      exact ⟨fun _ => .inr (hphase (by simp [phase, hpoint])), fun hnot => absurd .handleRead hnot⟩
  | doPendingFunctors hpoint =>
      exact ⟨fun _ => .inr (hphase (by simp [phase, hpoint])),
        fun hnot => absurd .doPendingFunctors hnot⟩
  | swap hpoint =>
      exact ⟨fun _ => .inr (hphase (by simp [phase, hpoint])), fun hnot => absurd .swap hnot⟩
  | functor f functors hpoint hfunctors =>
      refine ⟨fun _ => .inr ?_, fun hnot => absurd .functor hnot⟩
      exact Prod.Lex.toLex_lt_toLex.mpr (.inr ⟨rfl, by simp [hfunctors]⟩)
  | finish hpoint =>
      exact ⟨fun _ => .inr (hphase (by simp [phase, hpoint])), fun hnot => absurd .finish hnot⟩
  | release hpoint =>
      exact ⟨fun _ => .inr (hphase (by simp [phase, hpoint])), fun hnot => absurd .release hnot⟩
  | queueInLoop =>
      refine ⟨nofun, fun _ => ?_⟩
      unfold queueFunctor
      dsimp only
      split_ifs
      · exact ⟨rfl, rfl⟩
      · exact ⟨rfl, rfl⟩
  | push | wakeup | quit | setQuit | wakeupQuit => exact ⟨nofun, fun _ => ⟨rfl, rfl⟩⟩

end EventLoop

/-! ## A loop with a thread of its own -/

/-- Where the thread of an `EventLoopThread` is in `threadFunc`. -/
inductive ThreadPoint where
  | notStarted
  /-- it has made its `EventLoop`, -/
  | constructed
  /-- stored the pointer to it in `loop_`, -/
  | looping
  /-- come back from `loop`, -/
  | returned
  /-- and reset `loop_` -/
  | finished
  deriving DecidableEq, Repr

/-- Where the owner of an `EventLoopThread` is. -/
inductive OwnerPoint where
  /-- in none of its functions, -/
  | idle
  /-- in `startLoop`, where it waits for `loop_`, -/
  | starting
  /-- in the destructor, in front of the test of `loop_`, -/
  | destroying
  /-- in front of `quit`, -/
  | quitting
  /-- in `quit`, in front of `wakeup`, -/
  | waking
  /-- in `join`, -/
  | joining
  /-- and behind the destructor -/
  | destroyed
  deriving DecidableEq, Repr

/-- An `EventLoopThread`. Source: EventLoopThread.h 27-32 -/
structure EventLoopThread where
  /-- the `EventLoop` of `threadFunc` -/
  loop : EventLoop := {}
  /-- whether `loop_` points to it -/
  published : Bool := false
  /-- `exiting_` -/
  exiting : Bool := false
  thread : ThreadPoint := .notStarted
  owner : OwnerPoint := .idle
  deriving DecidableEq, Repr

namespace EventLoopThread

/-- What happens to an `EventLoopThread`. -/
inductive Event where
  /-- `startLoop` starts the thread -/
  | startLoop
  /-- the thread stores the pointer to its loop, behind `callback_` -/
  | publish
  /-- `startLoop` returns it -/
  | started
  /-- the destructor sets `exiting_` -/
  | destroy
  /-- it looks at `loop_` -/
  | look
  /-- its `quit` sets `quit_` -/
  | setQuit
  /-- the `wakeup` behind it -/
  | wakeup
  /-- `join` returns -/
  | join
  /-- the thread resets `loop_` and destroys its loop -/
  | clear
  /-- something happens to the loop, in its thread or by other threads -/
  | loop (event : EventLoop.Event)
  deriving DecidableEq, Repr

/-- An event of the loop can come: calls of other threads while it exists, those of `callback_` in
front of `loop`, and all others in `loop`. -/
def CanCome (t : EventLoopThread) : EventLoop.Event → Prop
  | .push | .wakeup _ | .setQuit | .wakeupQuit => t.thread ≠ .notStarted ∧ t.thread ≠ .finished
  | .queueInLoop | .quit => t.thread = .constructed ∨ t.thread = .looping
  | _ => t.thread = .looping

instance (t : EventLoopThread) : DecidablePred t.CanCome := by
  intro event
  unfold CanCome
  split <;> infer_instance

/-- One event. A call on the loop when the thread has destroyed it is no step.
Source: EventLoopThread.cpp 16-59 -/
def step (t : EventLoopThread) : Event → Option EventLoopThread
  | .startLoop =>
    if t.owner = .idle ∧ t.thread = .notStarted then
      some { t with owner := .starting, thread := .constructed }
    else none
  | .publish =>
    if t.thread = .constructed then some { t with published := true, thread := .looping } else none
  | .started =>
    if t.owner = .starting ∧ t.published = true then some { t with owner := .idle } else none
  | .destroy => if t.owner = .idle then some { t with exiting := true, owner := .destroying } else none
  | .look =>
    if t.owner = .destroying then
      some { t with owner := if t.published then .quitting else .destroyed }
    else none
  | .setQuit =>
    if t.owner = .quitting ∧ t.thread ≠ .finished then
      (t.loop.step .setQuit).map fun loop => { t with loop := loop, owner := .waking }
    else none
  | .wakeup =>
    if t.owner = .waking ∧ t.thread ≠ .finished then
      (t.loop.step .wakeupQuit).map fun loop => { t with loop := loop, owner := .joining }
    else none
  | .join =>
    if t.owner = .joining ∧ t.thread = .finished then some { t with owner := .destroyed } else none
  | .clear =>
    if t.thread = .returned then some { t with published := false, thread := .finished } else none
  | .loop event =>
    if t.CanCome event then
      (t.loop.step event).map fun loop =>
        { t with
          loop := loop
          thread := if event = .test ∧ loop.point = .outside then .returned else t.thread }
    else none

/-- The steps of an `EventLoopThread`. -/
def Step (t : EventLoopThread) (event : Event) (t' : EventLoopThread) : Prop :=
  t.step event = some t'

/-- The destructor's request is heeded: no request to the loop is lost, and while the destructor
waits for a thread that is in `loop`, there is one. -/
structure Quits (t : EventLoopThread) : Prop where
  heeded : t.loop.Heeded
  joins : t.owner = .joining → t.thread = .looping → t.loop.requested = true

instance : DecidablePred Quits := fun t =>
  decidable_of_iff (t.loop.Heeded ∧
      (t.owner = .joining → t.thread = .looping → t.loop.requested = true))
    ⟨fun h => ⟨h.1, h.2⟩, fun h => ⟨h.1, h.2⟩⟩

/-- `loop` sets `quit_` to false when nobody has called `quit`. -/
def InTime (t : EventLoopThread) : Event → Prop
  | .loop event => t.loop.InTime event
  | _ => True

instance (t : EventLoopThread) : DecidablePred t.InTime := by
  intro event
  unfold InTime
  split <;> infer_instance

/-- The destructor's call of `quit` is under way, or done. -/
def Asking (t : EventLoopThread) : Prop :=
  t.owner = .quitting ∨ t.owner = .waking ∨ t.owner = .joining

/-- What every step keeps, in time or not. -/
structure Phased (t : EventLoopThread) : Prop where
  /-- the pointer is there while the thread is in `loop` or just behind it, -/
  published : t.published = true → t.thread = .looping ∨ t.thread = .returned
  /-- so the thread has come to `loop` when the destructor asks it to quit -/
  late : t.Asking → t.thread = .looping ∨ t.thread = .returned ∨ t.thread = .finished
  asked : t.owner = .waking ∨ t.owner = .joining → t.thread = .looping → t.loop.requested = true

variable {t t' : EventLoopThread} {event : Event}

/-- Only leaving its loop makes the thread forget a request. -/
lemma requested_of_step {s s' : EventLoop} {event : EventLoop.Event}
    (hst : EventLoop.Step s event s') (hrequested : s.requested = true) :
    s'.requested = true ∨ event = .test ∧ s'.point = .outside := by
  cases hst.effect with
  | leave => exact .inr ⟨rfl, rfl⟩
  | queueInLoop =>
      left
      unfold EventLoop.queueFunctor
      dsimp only
      split_ifs <;> exact hrequested
  | quit | setQuit => exact .inl rfl
  | _ => exact .inl hrequested

/-- An event of the loop leaves the owner where it is, and the thread unless it leaves its loop. -/
lemma Phased.loop (h : t.Phased) {event : EventLoop.Event} {loop : EventLoop}
    (hst : EventLoop.Step t.loop event loop) : Phased { t with
      loop := loop
      thread := if event = .test ∧ loop.point = .outside then .returned else t.thread } := by
  by_cases hleave : event = .test ∧ loop.point = .outside
  · simp only [if_pos hleave]
    exact ⟨fun _ => .inr rfl, fun _ => .inr (.inl rfl), fun _ => nofun⟩
  · simp only [if_neg hleave]
    refine ⟨h.published, h.late, fun howner hthread => ?_⟩
    rcases requested_of_step hst (h.asked howner hthread) with hrequested | hleft
    · exact hrequested
    · exact absurd hleft hleave

/-- Every step keeps what the phases of the two threads say of the loop. -/
lemma Phased.step (h : t.Phased) (hst : Step t event t') : t'.Phased := by
  unfold Step EventLoopThread.step at hst
  cases event with
  | startLoop =>
      dsimp only at hst
      split_ifs at hst with hcan
      obtain rfl := Option.some.inj hst
      refine ⟨fun hpublished => ?_, by simp [Asking], by simp⟩
      have := h.published hpublished
      simp [hcan.2] at this
  | publish =>
      dsimp only at hst
      split_ifs at hst with hcan
      obtain rfl := Option.some.inj hst
      refine ⟨fun _ => .inl rfl, fun _ => .inl rfl, fun howner => ?_⟩
      have := h.late (.inr howner)
      simp [hcan] at this
  | started =>
      dsimp only at hst
      split_ifs at hst with hcan
      obtain rfl := Option.some.inj hst
      exact ⟨h.published, by simp [Asking], by simp⟩
  | destroy =>
      dsimp only at hst
      split_ifs at hst with hcan
      obtain rfl := Option.some.inj hst
      exact ⟨h.published, by simp [Asking], by simp⟩
  | look =>
      dsimp only at hst
      split_ifs at hst with hcan hpublished
      · obtain rfl := Option.some.inj hst
        refine ⟨h.published, fun _ => ?_, by simp⟩
        exact (h.published hpublished).imp_right .inl
      · obtain rfl := Option.some.inj hst
        exact ⟨h.published, by simp [Asking], by simp⟩
  | setQuit =>
      dsimp only at hst
      split_ifs at hst with hcan
      obtain ⟨loop, hloop, rfl⟩ := Option.map_eq_some_iff.mp hst
      obtain rfl := Option.some.inj hloop
      exact ⟨h.published, fun _ => h.late (.inl hcan.1), fun _ _ => rfl⟩
  | wakeup =>
      dsimp only at hst
      split_ifs at hst with hcan
      obtain ⟨loop, hloop, rfl⟩ := Option.map_eq_some_iff.mp hst
      refine ⟨h.published, fun _ => h.late (.inr (.inl hcan.1)), fun _ hthread => ?_⟩
      rcases requested_of_step hloop (h.asked (.inl hcan.1) hthread) with hrequested | hleft
      · exact hrequested
      · cases hleft.1
  | join =>
      dsimp only at hst
      split_ifs at hst with hcan
      obtain rfl := Option.some.inj hst
      exact ⟨h.published, by simp [Asking], by simp⟩
  | clear =>
      dsimp only at hst
      split_ifs at hst with hcan
      obtain rfl := Option.some.inj hst
      exact ⟨by simp, fun _ => .inr (.inr rfl), fun _ => nofun⟩
  | loop event =>
      dsimp only at hst
      split_ifs at hst with hcan
      obtain ⟨loop, hloop, rfl⟩ := Option.map_eq_some_iff.mp hst
      exact h.loop hloop

/-- What a step does to the loop: nothing, or a step of it. -/
lemma Step.loop_cases (hst : Step t event t') :
    (t'.loop = t.loop ∧ t.InTime event) ∨
      ∃ loopEvent, EventLoop.Step t.loop loopEvent t'.loop ∧
        (t.loop.InTime loopEvent ↔ t.InTime event) := by
  unfold Step EventLoopThread.step at hst
  cases event with
  | loop event =>
      dsimp only at hst
      split_ifs at hst with hcan
      obtain ⟨loop, hloop, rfl⟩ := Option.map_eq_some_iff.mp hst
      exact .inr ⟨event, hloop, Iff.rfl⟩
  | setQuit =>
      dsimp only at hst
      split_ifs at hst with hcan
      obtain ⟨loop, hloop, rfl⟩ := Option.map_eq_some_iff.mp hst
      exact .inr ⟨.setQuit, hloop, Iff.rfl⟩
  | wakeup =>
      dsimp only at hst
      split_ifs at hst with hcan
      obtain ⟨loop, hloop, rfl⟩ := Option.map_eq_some_iff.mp hst
      exact .inr ⟨.wakeupQuit, hloop, Iff.rfl⟩
  | _ =>
      dsimp only at hst
      split_ifs at hst
      all_goals
        obtain rfl := Option.some.inj hst
        exact .inl ⟨rfl, trivial⟩

/-- A step keeps requests from being lost exactly when it is in time. -/
lemma Step.heeded_iff (h : t.loop.Heeded) (hst : Step t event t') :
    t'.loop.Heeded ↔ t.InTime event := by
  rcases hst.loop_cases with ⟨hsame, hintime⟩ | ⟨loopEvent, hloop, hiff⟩
  · rw [hsame]
    exact iff_of_true h hintime
  · exact (h.step_iff hloop).trans hiff

/-- Where no request to the loop is lost, the request of the destructor is heeded. -/
lemma Phased.quits (h : t.Phased) (hheeded : t.loop.Heeded) : t.Quits :=
  ⟨hheeded, fun howner => h.asked (.inr howner)⟩

/-- **When a request to quit is heeded**: in every run of a loop with callers of `quit` on any
thread, and in every run of an `EventLoopThread` and its owner, whatever else happens to the loop,
exactly when `loop` never sets `quit_` to false behind a call of `quit`. -/
theorem quits_iff (calls : List (EventLoop.Event × EventLoop))
    (path : List (Event × EventLoopThread)) :
    (Path EventLoop.Step {} calls →
      (Throughout EventLoop.Heeded {} calls ↔ MeetsAll EventLoop.InTime {} calls)) ∧
    (Path Step {} path → (Throughout Quits {} path ↔ MeetsAll InTime {} path)) := by
  constructor
  · intro hp
    exact hp.throughout_iff_meetsAll (fun s event s' h hst => h.step_iff hst) ⟨by simp, by simp⟩
  · intro hp
    refine hp.throughout_iff_meetsAll_of_invariant
      (I := fun t => t.Phased ∧ t.loop.Heeded) (fun t h => h.1.quits h.2) ?_ ?_ ?_
    · exact fun t event t' h hst hintime => ⟨h.1.step hst, (hst.heeded_iff h.2).mpr hintime⟩
    · exact fun t event t' h hst h' => (hst.heeded_iff h.2).mp h'.heeded
    · exact ⟨⟨by simp, by simp [Asking], by simp⟩, by simp, by simp⟩

/-- The destructor comes before the thread has called `loop`: the loop goes on, and the destructor
waits for it. -/
theorem not_quits :
    ¬ Throughout Quits {} (trace step {}
      [.startLoop, .publish, .started, .destroy, .look, .setQuit, .wakeup, .loop .loop,
        .loop .clearQuit]) := by decide

/-- A loop that quits from a callback while another thread asks it to, and an `EventLoopThread`
whose destructor comes while its loop is in `poll`. -/
theorem quits_iff_two :
    Throughout EventLoop.Heeded {} (trace EventLoop.step {}
      [.loop, .clearQuit, .test, .setQuit, .poll false, .quit, .wakeupQuit, .doPendingFunctors,
        .swap, .finish, .release, .test]) ∧
    Throughout Quits {} (trace step {}
      [.startLoop, .publish, .loop .loop, .started, .loop .clearQuit, .loop .test, .destroy, .look,
        .setQuit, .wakeup, .loop (.poll true), .loop .handleRead, .loop .doPendingFunctors,
        .loop .swap, .loop .finish, .loop .release, .loop .test, .clear, .join]) :=
  ⟨((quits_iff _ []).1 (path_trace _ _ _)).mpr (by decide),
    ((quits_iff [] _).2 (path_trace _ _ _)).mpr (by decide)⟩

end EventLoopThread

end SwiftNetCore
