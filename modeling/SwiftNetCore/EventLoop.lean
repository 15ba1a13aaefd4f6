import SwiftNetCore.Lib.Path

/-!
# The event loop

The thread of an `EventLoop` polls, lets the channels handle their events and runs the functors that
were queued, until `quit_` is set. All other threads queue functors and call `quit`, and then write
to `wakeupFd_`, which ends a `poll`.

* A step of the loop's own thread is what it does between two moments at which another thread may
  come in between, and matters. Its own calls of `queueInLoop` and `quit` are one step each: they
  come from callbacks and functors, from the destructors of the functors of a batch, which run when
  `doPendingFunctors` has already reset `callingPendingFunctors_`, or from outside of `loop`.
* Another thread's call is two steps, before and behind which the loop may do anything.
* A functor is the number of its call of `queueInLoop`, in the order of the critical sections. What
  it does is made of the other steps. The calls are noted where they happen, in `step`, and not by
  the functions that are called.
-/

namespace SwiftNetCore

namespace EventLoop

/-- Where the loop's thread is. -/
inductive Point where
  /-- in front of `loop` or behind it, -/
  | outside
  /-- in `loop`, which has set `looping_` and not yet `quit_`, -/
  | entered
  /-- in front of the condition of its loop, -/
  | testing
  /-- in `poll`, -/
  | polling
  /-- behind it, with whether an event of `wakeupChannel_` was reported and is still to be handled, -/
  | dispatching (wakeup : Bool)
  /-- in `doPendingFunctors`, which has set `callingPendingFunctors_`, -/
  | calling
  /-- behind its critical section, at the functors, -/
  | running
  /-- and behind `callingPendingFunctors_ = false`, at the destructors of the functors -/
  | releasing
  deriving DecidableEq, Repr

end EventLoop

/-- An `EventLoop`, with its thread and the calls of other threads. Source: EventLoop.h 61-73 -/
structure EventLoop where
  /-- `looping_` -/
  looping : Bool := false
  /-- `quit_` -/
  quit : Bool := false
  /-- `callingPendingFunctors_` -/
  callingPendingFunctors : Bool := false
  /-- `pendingFunctors_` -/
  pendingFunctors : List ℕ := []
  /-- the local `functors` of `doPendingFunctors`, those that were not started yet -/
  functors : List ℕ := []
  /-- the counter of `wakeupFd_` -/
  wakeupFd : ℕ := 0
  point : EventLoop.Point := .outside
  /-- the functors whose calls, on other threads, have not come to `wakeup` -/
  waking : List ℕ := []
  /-- how many calls of `quit` on other threads have not -/
  quitting : ℕ := 0
  /-- whether `quit` was called since `loop` returned last -/
  requested : Bool := false
  /-- how often `doPendingFunctors` has taken the functors over -/
  batches : ℕ := 0
  /-- what that number was when a functor was queued, for each -/
  queued : List ℕ := []
  /-- the functors that were started, in order, each with the number of its batch -/
  started : List (ℕ × ℕ) := []
  deriving DecidableEq, Repr

namespace EventLoop

/-- What happens to an event loop. -/
inductive Event where
  /-- `loop` is called -/
  | loop
  /-- it sets `quit_` to false -/
  | clearQuit
  /-- it evaluates its condition -/
  | test
  /-- `poll` returns, with whether it reports `wakeupFd_` -/
  | poll (wakeup : Bool)
  /-- `wakeupChannel_` handles its event -/
  | handleRead
  /-- `doPendingFunctors` is called -/
  | doPendingFunctors
  /-- it takes the functors over -/
  | swap
  /-- it starts the next one -/
  | functor
  /-- it resets `callingPendingFunctors_` -/
  | finish
  /-- its functors are destroyed, and it returns -/
  | release
  /-- `queueInLoop` in the loop's thread -/
  | queueInLoop
  /-- the critical section of `queueInLoop` in another thread -/
  | push
  /-- the `wakeup` behind it -/
  | wakeup (functor : ℕ)
  /-- `quit` in the loop's thread -/
  | quit
  /-- another thread's `quit` sets `quit_` -/
  | setQuit
  /-- the `wakeup` behind it -/
  | wakeupQuit
  deriving DecidableEq, Repr

variable (s : EventLoop)

/-- The loop's thread executes callbacks, functors or their destructors, or what is outside of
`loop`. -/
def InUserCode : Prop :=
  match s.point with
  | .outside | .dispatching _ | .running | .releasing => True
  | _ => False

instance : Decidable s.InUserCode := by
  unfold InUserCode
  split <;> infer_instance

/-- The critical section of `queueInLoop`. Source: EventLoop.cpp 116-119 -/
def pushFunctor (functor : ℕ) : EventLoop :=
  { s with pendingFunctors := s.pendingFunctors ++ [functor] }

/-- `wakeup`: the counter of an eventfd goes up. Source: EventLoop.cpp 140-148 -/
def writeWakeupFd : EventLoop := { s with wakeupFd := s.wakeupFd + 1 }

/-- `queueInLoop` in the loop's thread. Source: EventLoop.cpp 114-127 -/
def queueFunctor (functor : ℕ) : EventLoop :=
  let s := s.pushFunctor functor
  if s.callingPendingFunctors then s.writeWakeupFd else s

/-- A call of `queueInLoop` is noted. Its functor has the number `queued.length` from here on. -/
def noteQueued : EventLoop := { s with queued := s.queued ++ [s.batches] }

/-- One event. Source: EventLoop.cpp 61-178 -/
def step : Event → Option EventLoop
  | .loop =>
    if s.point = .outside then some { s with looping := true, point := .entered } else none
  | .clearQuit =>
    if s.point = .entered then some { s with quit := false, point := .testing } else none
  | .test =>
    if s.point = .testing then
      if s.quit then some { s with looping := false, point := .outside, requested := false }
      else some { s with point := .polling }
    else none
  | .poll wakeup =>
    -- it may return at any time, and need not report all that is ready
    if s.point = .polling ∧ (wakeup = true → 0 < s.wakeupFd) then
      some { s with point := .dispatching wakeup }
    else none
  | .handleRead =>
    if s.point = .dispatching true then
      some { s with wakeupFd := 0, point := .dispatching false }
    else none
  | .doPendingFunctors =>
    if s.point = .dispatching false then
      some { s with callingPendingFunctors := true, point := .calling }
    else none
  | .swap =>
    if s.point = .calling then
      some { s with
        functors := s.pendingFunctors
        pendingFunctors := []
        batches := s.batches + 1
        point := .running }
    else none
  | .functor =>
    match s.point, s.functors with
    | .running, functor :: functors =>
      some { s with functors := functors, started := s.started ++ [(functor, s.batches)] }
    | _, _ => none
  | .finish =>
    if s.point = .running ∧ s.functors = [] then
      some { s with callingPendingFunctors := false, point := .releasing }
    else none
  | .release => if s.point = .releasing then some { s with point := .testing } else none
  | .queueInLoop =>
    if s.InUserCode then some (s.noteQueued.queueFunctor s.queued.length) else none
  | .push =>
    some { s.noteQueued.pushFunctor s.queued.length with
      waking := s.waking ++ [s.queued.length] }
  | .wakeup functor =>
    if functor ∈ s.waking then
      some { s.writeWakeupFd with waking := s.waking.erase functor }
    else none
  | .quit => if s.InUserCode then some { s with quit := true, requested := true } else none
  | .setQuit => some { s with quit := true, requested := true, quitting := s.quitting + 1 }
  | .wakeupQuit =>
    if 0 < s.quitting then some { s.writeWakeupFd with quitting := s.quitting - 1 } else none

/-- The steps of an event loop. -/
def Step (event : Event) (s' : EventLoop) : Prop := s.step event = some s'

/-! ## What a step does -/

/-- What the events do, and when. -/
inductive Effect : Event → EventLoop → Prop
  | loop (hpoint : s.point = .outside) :
      Effect .loop { s with looping := true, point := .entered }
  | clearQuit (hpoint : s.point = .entered) :
      Effect .clearQuit { s with quit := false, point := .testing }
  | leave (hpoint : s.point = .testing) (hquit : s.quit = true) :
      Effect .test { s with looping := false, point := .outside, requested := false }
  | goOn (hpoint : s.point = .testing) (hquit : s.quit = false) :
      Effect .test { s with point := .polling }
  | poll (wakeup : Bool) (hpoint : s.point = .polling) (hwakeup : wakeup = true → 0 < s.wakeupFd) :
      Effect (.poll wakeup) { s with point := .dispatching wakeup }
  | handleRead (hpoint : s.point = .dispatching true) :
      Effect .handleRead { s with wakeupFd := 0, point := .dispatching false }
  | doPendingFunctors (hpoint : s.point = .dispatching false) :
      Effect .doPendingFunctors { s with callingPendingFunctors := true, point := .calling }
  | swap (hpoint : s.point = .calling) :
      Effect .swap { s with
        functors := s.pendingFunctors
        pendingFunctors := []
        batches := s.batches + 1
        point := .running }
  | functor (f : ℕ) (functors : List ℕ) (hpoint : s.point = .running)
      (hfunctors : s.functors = f :: functors) :
      Effect .functor { s with functors := functors, started := s.started ++ [(f, s.batches)] }
  | finish (hpoint : s.point = .running) (hfunctors : s.functors = []) :
      Effect .finish { s with callingPendingFunctors := false, point := .releasing }
  | release (hpoint : s.point = .releasing) : Effect .release { s with point := .testing }
  | queueInLoop (huser : s.InUserCode) :
      Effect .queueInLoop (s.noteQueued.queueFunctor s.queued.length)
  | push : Effect .push { s.noteQueued.pushFunctor s.queued.length with
      waking := s.waking ++ [s.queued.length] }
  | wakeup (f : ℕ) (hwaking : f ∈ s.waking) :
      Effect (.wakeup f) { s.writeWakeupFd with waking := s.waking.erase f }
  | quit (huser : s.InUserCode) : Effect .quit { s with quit := true, requested := true }
  | setQuit : Effect .setQuit { s with quit := true, requested := true, quitting := s.quitting + 1 }
  | wakeupQuit (hquitting : 0 < s.quitting) :
      Effect .wakeupQuit { s.writeWakeupFd with quitting := s.quitting - 1 }

variable {s}

/-- Every step has one of the effects. -/
lemma Step.effect {event : Event} {s' : EventLoop} (h : s.Step event s') : s.Effect event s' := by
  unfold Step step at h
  cases event with
  | test =>
      dsimp only at h
      split_ifs at h with hpoint hquit
      · exact Option.some.inj h ▸ .leave hpoint hquit
      · exact Option.some.inj h ▸ .goOn hpoint (by simpa using hquit)
  | functor =>
      dsimp only at h
      split at h
      · next f functors hpoint hfunctors =>
          exact Option.some.inj h ▸ .functor f functors hpoint hfunctors
      · cases h
  | push => exact Option.some.inj h ▸ .push
  | setQuit => exact Option.some.inj h ▸ .setQuit
  | loop | clearQuit | handleRead | doPendingFunctors | swap | release | queueInLoop | quit =>
      dsimp only at h
      split_ifs at h with hcan
      obtain rfl := Option.some.inj h
      constructor
      exact hcan
  | wakeup f =>
      dsimp only at h
      split_ifs at h with hwaking
      exact Option.some.inj h ▸ .wakeup f hwaking
  | wakeupQuit =>
      dsimp only at h
      split_ifs at h with hquitting
      exact Option.some.inj h ▸ .wakeupQuit hquitting
  | poll wakeup =>
      dsimp only at h
      split_ifs at h with hpoint
      exact Option.some.inj h ▸ .poll wakeup hpoint.1 hpoint.2
  | finish =>
      dsimp only at h
      split_ifs at h with hfinish
      exact Option.some.inj h ▸ .finish hfinish.1 hfinish.2

end EventLoop

end SwiftNetCore
