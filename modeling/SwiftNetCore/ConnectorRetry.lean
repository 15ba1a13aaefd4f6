import SwiftNetCore.Connector
import SwiftNetCore.TimerQueue

/-!
# Trying again

An attempt that fails is followed by another one after a delay, which doubles with every failure up
to a bound. `retry` gives the delay to `runAfter` of the loop, and that to the loop's `TimerQueue`.
The constructor of `EventLoop` makes no `TimerQueue`, and nothing else does.

* `Failure`: the ways in which an attempt can fail so that `retry` is called, each with the steps
  that the connector takes.
* `waiting`: the state of a connector between a failure and the next attempt. `fails` takes one to
  the next, and is where `timerQueue_` is needed.
* `expiration_delayMs`: `runAfter` does not lose anything of a delay.
* `backsOff_iff`: the connector backs off as it should exactly when there is a `TimerQueue`, or no
  failure.
-/

namespace SwiftNetCore

/-! ## Timers of the loop -/

/-- `addTimer(cb, when, interval)` in the loop's thread, where `runInLoop` calls `addTimerInLoop` at
once. Source: TimerQueue.cc 93-99 -/
def TimerQueue.addTimer (queue : TimerQueue) (address : Address) (timer : Timer) :
    Option TimerQueue :=
  (queue.step (.newTimer address timer)).bind fun queue => queue.step (.addTimerInLoop address)

namespace EventLoop

/-- A moment at which the loop's thread may add a timer: what `timerQueue_` points to, if it does;
the clock, the address of the new `Timer` and its sequence number. -/
structure Moment where
  queue : TimerQueue
  now : Timestamp
  address : Address
  sequence : ℤ
  callable : queue.Callable
  free : queue.heap address = none ∧ 0 < address ∧ address < UINTPTR_MAX
  fresh : sequence ∉ queue.created

variable (moment : Moment)

/-- `runAt(time, cb)`; `none` where `timerQueue_` is null. Source: EventLoop.cpp 180-183 -/
def runAt (timerQueue : Option TimerQueue) (time : Timestamp) : Option TimerQueue :=
  timerQueue.bind fun queue => queue.addTimer moment.address ⟨time, 0, moment.sequence⟩

/-- `runAfter(delay, cb)`. Source: EventLoop.cpp 185-189 -/
def runAfter (timerQueue : Option TimerQueue) (delay : Double) : Option TimerQueue :=
  runAt moment timerQueue (addTime moment.now delay)

/-- A timer is in the queue for the time it was added for. -/
lemma runAt_some (time : Timestamp) :
    ∃ queue, runAt moment (some moment.queue) time = some queue ∧
      Entry.mk time moment.address ∈ queue.timers := by
  obtain ⟨queue, now, address, sequence, callable, ⟨hnone, hpos, hlt⟩, fresh⟩ := moment
  set timer : Timer := ⟨time, 0, sequence⟩ with htimer
  have hnew : queue.step (.newTimer address timer) = some (queue.newTimer address timer) :=
    if_pos ⟨hnone, hpos, hlt, fresh⟩
  have hadd : (queue.newTimer address timer).Enabled (.addTimerInLoop address) :=
    ⟨by simp [TimerQueue.newTimer], callable⟩
  have hheap : (queue.newTimer address timer).heap address = some timer := by
    simp [TimerQueue.newTimer]
  have hstep : (queue.newTimer address timer).step (.addTimerInLoop address) =
      (queue.newTimer address timer).addTimerInLoop address := if_pos hadd
  have hrun : runAt ⟨queue, now, address, sequence, callable, ⟨hnone, hpos, hlt⟩, fresh⟩
      (some queue) time = (queue.newTimer address timer).addTimerInLoop address := by
    rw [runAt, Option.bind_some, TimerQueue.addTimer, ← htimer, hnew, Option.bind_some, hstep]
  rw [hrun, TimerQueue.addTimerInLoop_eq hheap]
  exact ⟨_, rfl, OrdSet.mem_insert.mpr (.inl rfl)⟩

end EventLoop

namespace Connector

/-! ## Delays -/

/-- The delay behind the `k`-th failure. -/
def delayMs (k : ℕ) : ℕ := min (kInitRetryDelayMs * 2 ^ (k - 1)) kMaxRetryDelayMs

/-- `retry` doubles the delay, up to the longest. -/
lemma delayMs_succ (k : ℕ) : min (delayMs (k + 1) * 2) kMaxRetryDelayMs = delayMs (k + 2) := by
  simp only [delayMs, kInitRetryDelayMs, kMaxRetryDelayMs, Nat.add_sub_cancel]
  have hpow : 2 ^ (k + 2 - 1) = 2 ^ k * 2 := pow_succ 2 k
  omega

/-- Every delay is one of seven. -/
lemma delayMs_mem (k : ℕ) : delayMs k ∈ [500, 1000, 2000, 4000, 8000, 16000, 30000] := by
  rcases Nat.lt_or_ge k 8 with hk | hk
  · interval_cases k <;> decide
  · have hpow : 2 ^ 7 ≤ 2 ^ (k - 1) := Nat.pow_le_pow_right (by norm_num) (by omega)
    have hmax : delayMs k = 30000 := by
      simp only [delayMs, kInitRetryDelayMs, kMaxRetryDelayMs]
      omega
    simp [hmax]

/-- `retryDelayMs_ / 1000.0` -/
def delaySeconds (ms : ℕ) : Double := toDouble (ms / 1000)

/-- No microsecond is lost in the floating-point numbers between. -/
lemma truncate_delaySeconds : ∀ ms ∈ [500, 1000, 2000, 4000, 8000, 16000, 30000],
    Rounding.truncate (toDouble (delaySeconds ms * Timestamp.kMicroSecondsPerSecond)) =
      ms * 1000 := by
  decide +kernel

/-- The timer behind the `k`-th failure expires its delay later, to the microsecond. -/
lemma expiration_delayMs (now : Timestamp) (k : ℕ) :
    addTime now (delaySeconds (delayMs k)) =
      ⟨now.microSecondsSinceEpoch + delayMs k * 1000⟩ := by
  rw [addTime, truncate_delaySeconds _ (delayMs_mem k)]

/-! ## Failures -/

/-- How an attempt ends that the system has begun. -/
inductive Ending where
  /-- a write event, and `SO_ERROR` is set -/
  | soError
  /-- a write event, and the socket is connected to itself -/
  | selfConnect
  /-- an error event -/
  | error
  deriving DecidableEq

/-- The event that the channel reports. -/
def Ending.event : Ending → Event
  | .soError => .write true false
  | .selfConnect => .write false true
  | .error => .error

/-- The ways to fail and try again. -/
inductive Failure where
  /-- `connect` fails at once, -/
  | refused (savedErrno : {savedErrno // branch savedErrno = .retry})
  /-- or later -/
  | later (savedErrno : {savedErrno // branch savedErrno = .connecting}) (ending : Ending)

/-- What `startInLoop` is called from. -/
inductive Trigger where
  /-- from the functor that `start` has queued in another thread, -/
  | functor
  /-- from `start` in the loop's thread, -/
  | goOn
  /-- or from a timer -/
  | timer
  deriving DecidableEq

/-- The step of the connector. -/
def Trigger.event (attempt : Attempt) : Trigger → Event
  | .functor => .functor attempt
  | .goOn => .goOn attempt
  | .timer => .timer 0 attempt

/-- What the loop does not have any more when `startInLoop` is called. -/
def Trigger.taken (c : Connector) : Trigger → Connector
  | .functor => { c with pendingFunctors := c.pendingFunctors.tail }
  | .goOn => { c with point := .idle }
  | .timer => { c with timers := c.timers.tail }

/-- The steps of an attempt that fails. -/
def Failure.events (trigger : Trigger) : Failure → List Event
  | .refused savedErrno => [trigger.event (.socket savedErrno)]
  | .later savedErrno ending =>
    [trigger.event (.socket savedErrno), ending.event, .functor .noSocket]

/-- The threads that `start` can be called in. -/
inductive Caller where
  | loop
  | other
  deriving DecidableEq

/-- The steps of `start`, up to `startInLoop`. -/
def Caller.start : Caller → List Event
  | .loop => [.callInLoop .start]
  | .other => [.call .start, .enqueue 0]

/-- What it is called from. -/
def Caller.trigger : Caller → Trigger
  | .loop => .goOn
  | .other => .functor

/-- The steps of attempts that fail one after another. -/
def failing : Trigger → List Failure → List Event
  | _, [] => []
  | trigger, failure :: failures => failure.events trigger ++ failing .timer failures

/-- What the next attempt is called from. -/
def next (caller : Caller) : List Failure → Trigger
  | [] => caller.trigger
  | _ :: _ => .timer

/-- The connector behind `start` and a number of failures; `none` where a null pointer was used. -/
def afterFailures (c : Connector) (caller : Caller) (failures : List Failure) : Option Connector :=
  (caller.start ++ failing caller.trigger failures).foldlM step c

/-! ## The property -/

/-- What `timerQueue_` is, at a moment. -/
def timerQueueAt (c : Connector) (moment : EventLoop.Moment) : Option TimerQueue :=
  if c.timerQueue then some moment.queue else none

/-- A connector, behind its `k`-th failure, and what the next attempt is called from. -/
structure Retries (c : Connector) (trigger : Trigger) (k : ℕ) : Prop where
  /-- it has made a socket for each failure, -/
  created : c.created = k
  /-- and closed them all -/
  closed : c.closed = List.range k
  /-- it has asked for one timer, behind a failure -/
  delay : c.timers = if k = 0 then [] else [delayMs k]
  /-- which the loop's `TimerQueue` has for the time when the delay is over -/
  registered : 0 < k → ∀ moment : EventLoop.Moment, ∃ queue,
    EventLoop.runAfter moment (c.timerQueueAt moment) (delaySeconds (delayMs k)) = some queue ∧
      Entry.mk ⟨moment.now.microSecondsSinceEpoch + delayMs k * 1000⟩ moment.address ∈ queue.timers
  /-- then `startInLoop` makes an attempt, -/
  attempt : ∀ attempt, c.step (trigger.event attempt) = (trigger.taken c).connect attempt
  /-- and nothing else leads to another -/
  once : (trigger.taken c).timers = [] ∧ (trigger.taken c).pendingFunctors = [] ∧
    (trigger.taken c).calls = [] ∧ (trigger.taken c).point = .idle

/-- The connector gets behind the failures, and tries again. -/
def BacksOff (c : Connector) (caller : Caller) (failures : List Failure) : Prop :=
  ∃ c', c.afterFailures caller failures = some c' ∧
    c'.Retries (next caller failures) failures.length

/-! ## Waiting for the next attempt -/

/-- The connector behind `k` failures. -/
def waiting (timerQueue : Bool) (trigger : Trigger) (k : ℕ) : Connector where
  connect_ := true
  retryDelayMs := delayMs (k + 1)
  pendingFunctors := if trigger = .functor then [.startInLoop] else []
  timers := if trigger = .timer then [delayMs k] else []
  timerQueue := timerQueue
  point := if trigger = .goOn then .starting else .idle
  created := k
  closed := List.range k

variable {timerQueue : Bool} {trigger : Trigger} {k : ℕ}

/-- `start` leaves the connector in front of its first attempt. -/
lemma foldlM_start (timerQueue : Bool) (caller : Caller) :
    caller.start.foldlM step { timerQueue := timerQueue } =
      some (waiting timerQueue caller.trigger 0) := by
  cases caller <;> rfl

/-- What is taken is all that there was. -/
lemma taken_waiting (timerQueue : Bool) (trigger : Trigger) (k : ℕ) :
    trigger.taken (waiting timerQueue trigger k) =
      { waiting timerQueue trigger k with timers := [], pendingFunctors := [], point := .idle } := by
  cases trigger <;> rfl

/-- The next attempt is a call of `connect`, with what it is called from taken. -/
lemma step_waiting (timerQueue : Bool) (trigger : Trigger) (k : ℕ) (attempt : Attempt) :
    (waiting timerQueue trigger k).step (trigger.event attempt) =
      (trigger.taken (waiting timerQueue trigger k)).connect attempt := by
  cases trigger <;> rfl

/-- An attempt that is refused leads to the next one when there is a timer queue. -/
lemma step_refused {attempt : Option Errno} (hbranch : branch attempt = .retry) :
    (waiting timerQueue trigger k).step (trigger.event (.socket attempt)) =
      if timerQueue then some (waiting timerQueue .timer (k + 1)) else none := by
  rw [step_waiting, taken_waiting, connect]
  simp only [hbranch]
  rw [retry_eq rfl]
  congr 2
  simp [waiting, createNonblockingOrDie, close, List.range_succ, delayMs_succ]

/-- The connector while the system is at an attempt. -/
def attempting (timerQueue : Bool) (k : ℕ) : Connector where
  connect_ := true
  state := .kConnecting
  channel := some ⟨k⟩
  retryDelayMs := delayMs (k + 1)
  timerQueue := timerQueue
  poller := [⟨k⟩]
  created := k + 1
  closed := List.range k

/-- An attempt that the system begins leaves the connector at it. -/
lemma step_begun {attempt : Option Errno} (hbranch : branch attempt = .connecting) :
    (waiting timerQueue trigger k).step (trigger.event (.socket attempt)) =
      some (attempting timerQueue k) := by
  rw [step_waiting, taken_waiting, connect]
  simp only [hbranch]
  rfl

/-- The end of an attempt leads to the next one when there is a timer queue. -/
lemma step_ending (ending : Ending) :
    (attempting timerQueue k).step ending.event =
      if timerQueue then
        some { waiting timerQueue .timer (k + 1) with
          channel := some ⟨k⟩
          pendingFunctors := [.resetChannel] }
      else none := by
  have hregistered : (attempting timerQueue k).Registered := ⟨_, rfl, List.mem_singleton_self _⟩
  obtain ⟨c, sockfd, hremoved, hretry⟩ : ∃ c sockfd,
      (attempting timerQueue k).removeAndResetChannel = some (c, sockfd) ∧
        c.retry sockfd =
          if timerQueue then
            some { waiting timerQueue .timer (k + 1) with
              channel := some ⟨k⟩
              pendingFunctors := [.resetChannel] }
          else none := by
    refine ⟨_, _, rfl, ?_⟩
    rw [retry_eq rfl]
    congr 2
    simp [attempting, waiting, close, queueInLoop, List.range_succ, delayMs_succ]
  have hidle : (attempting timerQueue k).point = .idle := rfl
  have hstate : (attempting timerQueue k).state = .kConnecting := rfl
  cases ending <;>
    simpa only [Ending.event, step, hidle, hregistered, and_self, if_true, handleWrite, handleError,
      hstate, hremoved, Option.bind_some, Bool.false_eq_true, if_false] using hretry

/-- A failure leads from one attempt to the next when there is a `TimerQueue`. -/
lemma foldlM_failure (failure : Failure) :
    (failure.events trigger).foldlM step (waiting timerQueue trigger k) =
      if timerQueue then some (waiting timerQueue .timer (k + 1)) else none := by
  cases failure with
  | refused savedErrno =>
      rw [Failure.events, List.foldlM_cons, step_refused savedErrno.2]
      cases timerQueue <;> rfl
  | later savedErrno ending =>
      rw [Failure.events, List.foldlM_cons, step_begun savedErrno.2]
      simp only [Option.bind_eq_bind, Option.bind_some]
      rw [List.foldlM_cons, step_ending]
      cases timerQueue <;> rfl

/-- Any number of failures lead to the next attempt when there is a `TimerQueue`. -/
lemma foldlM_failing (failures : List Failure) (trigger : Trigger) (k : ℕ) :
    (failing trigger failures).foldlM step (waiting true trigger k) =
      some (waiting true (if failures = [] then trigger else .timer) (k + failures.length)) := by
  induction failures generalizing trigger k with
  | nil => rfl
  | cons failure failures ih =>
      rw [failing, List.foldlM_append, foldlM_failure]
      simp only [if_true, Option.bind_eq_bind, Option.bind_some]
      rw [ih]
      simp [Nat.add_assoc, Nat.add_comm 1]

/-! ## The result -/

/-- The first attempt is called from where the caller calls, and every later one from the timer. -/
lemma next_eq (caller : Caller) (failures : List Failure) :
    next caller failures = if failures = [] then caller.trigger else .timer := by
  cases failures <;> rfl

/-- The connector that waits is as it should be. -/
lemma retries_waiting (htimer : trigger = .timer ↔ 0 < k) (hqueue : 0 < k → timerQueue = true) :
    (waiting timerQueue trigger k).Retries trigger k where
  created := rfl
  closed := rfl
  delay := by
    by_cases hk : k = 0
    · have : trigger ≠ .timer := by rw [ne_eq, htimer]; omega
      simp [waiting, hk, this]
    · simp [waiting, hk, htimer.mpr (Nat.pos_of_ne_zero hk)]
  registered := by
    intro hk moment
    have hsome : (waiting timerQueue trigger k).timerQueueAt moment = some moment.queue :=
      if_pos (hqueue hk)
    rw [hsome, EventLoop.runAfter, expiration_delayMs]
    exact EventLoop.runAt_some moment _
  attempt := step_waiting timerQueue trigger k
  once := by
    rw [taken_waiting]
    exact ⟨rfl, rfl, rfl, rfl⟩

/-- **When the connector backs off.** Behind `start` and any number of failures, refused attempts,
errors and self-connections, it has closed the sockets, a timer is registered for the time that is
due, and one attempt follows, exactly when there was no failure, or the loop has a `TimerQueue`. -/
theorem backsOff_iff (timerQueue : Bool) (caller : Caller) (failures : List Failure) :
    BacksOff { timerQueue := timerQueue } caller failures ↔ failures = [] ∨ timerQueue = true := by
  have hstart := foldlM_start timerQueue caller
  constructor
  · rintro ⟨c', hc', -⟩
    by_contra! hnot
    obtain ⟨failure, failures, rfl⟩ := List.exists_cons_of_ne_nil hnot.1
    obtain rfl : timerQueue = false := by simpa using hnot.2
    -- the first failure uses the null pointer
    rw [afterFailures, List.foldlM_append, hstart, failing] at hc'
    simp only [Option.bind_eq_bind, Option.bind_some] at hc'
    rw [List.foldlM_append, foldlM_failure] at hc'
    cases hc'
  · intro h
    have hrun : afterFailures { timerQueue := timerQueue } caller failures =
        some (waiting timerQueue (next caller failures) failures.length) := by
      rw [afterFailures, List.foldlM_append, hstart, next_eq]
      simp only [Option.bind_eq_bind, Option.bind_some]
      rcases h with rfl | rfl
      · rfl
      · rw [foldlM_failing, Nat.zero_add]
    refine ⟨_, hrun, retries_waiting ?_ ?_⟩
    · cases failures with
      | nil => cases caller <;> simp [next, Caller.trigger]
      | cons failure failures => simp [next]
    · intro hpos
      exact h.resolve_left (List.ne_nil_of_length_pos hpos)

/-- On a loop as its constructor leaves it, the first attempt that is refused uses the null
pointer. -/
theorem not_backsOff : ¬ ∀ (caller : Caller) (failures : List Failure),
    BacksOff {} caller failures := by
  intro h
  obtain ⟨c', hc', -⟩ := h .loop [.refused ⟨some .ECONNREFUSED, rfl⟩]
  cases hc'

end Connector

end SwiftNetCore
