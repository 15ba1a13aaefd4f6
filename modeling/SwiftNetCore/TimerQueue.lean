import SwiftNetCore.Base
import SwiftNetCore.Lib.OrdSet
import SwiftNetCore.Lib.Path
import SwiftNetCore.Lib.Rounding

/-!
# The timer queue

`TimerQueue` keeps its timers in two sets, by expiration and by address, and runs those that are due
in batches. The callbacks that a batch runs may add and cancel timers, so a batch is taken in its
steps: `handleRead` starts it, `run` invokes the next callback, `ret` returns from it, `finish` is
the end of the loop with `reset`. Between `run` and `ret` the callback does what it likes.

`Timer` objects live on a heap that is part of the state, and a function has no result when it reads
a `Timer` that is not there. The record also keeps what the properties speak of: which timers were
created, deleted and run, by their sequence numbers.

What `delete` destroys with a `Timer` is its callback, whose destructor does not call back into the
queue here. Expirations, and intervals in microseconds, stay in the range of `int64_t`, as they do
for intervals of less than `9.2e12` seconds: beyond it `addTime` is undefined.
-/

namespace SwiftNetCore

/-! ## Timestamps -/

namespace Timestamp

/-- A timestamp is given by its microseconds. -/
lemma microSecondsSinceEpoch_injective : Function.Injective microSecondsSinceEpoch := by
  rintro ⟨a⟩ ⟨b⟩ rfl
  rfl

/-- `operator<` and `operator==`. Source: Timestamp.h 24-32 -/
instance : LinearOrder Timestamp :=
  LinearOrder.lift' microSecondsSinceEpoch microSecondsSinceEpoch_injective

/-- Timestamps are ordered by their microseconds. -/
lemma le_def {a b : Timestamp} : a ≤ b ↔ a.microSecondsSinceEpoch ≤ b.microSecondsSinceEpoch :=
  Iff.rfl

/-- `valid()`. Source: Timestamp.h 18 -/
def Valid (t : Timestamp) : Prop := 0 < t.microSecondsSinceEpoch

instance (t : Timestamp) : Decidable t.Valid := inferInstanceAs (Decidable (_ < _))

/-- `kMicroSecondsPerSecond`. Source: Timestamp.h 14 -/
def kMicroSecondsPerSecond : ℤ := 1000 * 1000

end Timestamp

/-- A finite `double`, by its value. -/
abbrev Double := ℚ

/-- The value of an expression of type `double`: 52 fraction bits. -/
def toDouble (x : ℚ) : Double := Rounding.round 52 x

/-- `addTime`: the product is a `double`, which the conversion to `int64_t` truncates.
Source: Timestamp.h 43-47 -/
def addTime (timestamp : Timestamp) (seconds : Double) : Timestamp :=
  ⟨timestamp.microSecondsSinceEpoch +
    Rounding.truncate (toDouble (seconds * Timestamp.kMicroSecondsPerSecond))⟩

/-! ## Timers -/

/-- The address of a `Timer`. -/
abbrev Address := ℕ

/-- `UINTPTR_MAX` -/
def UINTPTR_MAX : Address := 2 ^ 64 - 1

/-- The members of a `Timer`. Source: Timer.h 35-39 -/
structure Timer where
  /-- `expiration_` -/
  expiration : Timestamp
  /-- `interval_` -/
  interval : Double
  /-- `sequence_` -/
  sequence : ℤ
  deriving DecidableEq, Repr

namespace Timer

/-- `repeat_`. Source: Timer.h 16 -/
def Repeats (timer : Timer) : Prop := 0 < timer.interval

instance (timer : Timer) : Decidable timer.Repeats := inferInstanceAs (Decidable (_ < _))

/-- Source: Timer.cpp 13-23 -/
def restart (now : Timestamp) (timer : Timer) : Timer :=
  { timer with expiration := if timer.Repeats then addTime now timer.interval else {} }

end Timer

/-- `TimerId`: an address, and a sequence number as an `int`. Source: TimerId.h 8-30 -/
structure TimerId where
  timer : Address
  sequence : ℤ
  deriving DecidableEq, Repr

/-- The `int` that a sequence number becomes in a `TimerId`. -/
def toInt (sequence : ℤ) : ℤ := sequence.bmod (2 ^ 32)

/-- `TimerId(timer, timer->sequence())`. Source: TimerQueue.cc 98 -/
def TimerId.of (address : Address) (sequence : ℤ) : TimerId := ⟨address, toInt sequence⟩

/-- `Entry`: ordered by expiration, then by address. Source: TimerQueue.h 32 -/
abbrev Entry := Timestamp ×ₗ Address

/-- `ActiveTimer`: an address and a sequence number. Source: TimerQueue.h 34 -/
abbrev ActiveTimer := Address ×ₗ ℤ

namespace Entry

/-- An entry of `timers_`. -/
def mk (expiration : Timestamp) (address : Address) : Entry := toLex (expiration, address)

/-- The timer's expiration when it was inserted. -/
def expiration (it : Entry) : Timestamp := (ofLex it).1

/-- The timer's address. -/
def address (it : Entry) : Address := (ofLex it).2

/-- The first part of an entry is its expiration. -/
@[simp] lemma expiration_mk (e : Timestamp) (a : Address) : (mk e a).expiration = e := rfl

/-- The second part of an entry is the address of its timer. -/
@[simp] lemma address_mk (e : Timestamp) (a : Address) : (mk e a).address = a := rfl

/-- An entry consists of its two parts. -/
@[simp] lemma mk_eta (it : Entry) : mk it.expiration it.address = it := rfl

/-- Entries are equal when both of their parts are. -/
lemma mk_inj {e e' : Timestamp} {a a' : Address} : mk e a = mk e' a' ↔ e = e' ∧ a = a' := by
  rw [mk, mk, toLex_inj, Prod.mk.injEq]

/-- Entries are ordered by expiration, and by address where that is equal. -/
lemma mk_lt_mk {e e' : Timestamp} {a a' : Address} :
    mk e a < mk e' a' ↔ e < e' ∨ e = e' ∧ a < a' := Prod.Lex.toLex_lt_toLex

/-- An earlier entry is due no later. -/
lemma expiration_le_of_le {it it' : Entry} (h : it ≤ it') : it.expiration ≤ it'.expiration := by
  rcases h.lt_or_eq with hlt | rfl
  · rw [← mk_eta it, ← mk_eta it', mk_lt_mk] at hlt
    rcases hlt with hlt | ⟨heq, -⟩
    · exact hlt.le
    · exact heq.le
  · exact le_rfl

end Entry

/-- An element of `activeTimers_` or of `cancelingTimers_`. -/
def ActiveTimer.mk (address : Address) (sequence : ℤ) : ActiveTimer := toLex (address, sequence)

/-- Elements of `activeTimers_` are equal when address and number are. -/
lemma ActiveTimer.mk_inj {a a' : Address} {n n' : ℤ} :
    ActiveTimer.mk a n = ActiveTimer.mk a' n' ↔ a = a' ∧ n = n' := by
  rw [mk, mk, toLex_inj, Prod.mk.injEq]

/-! ## The queue -/

/-- A call of `handleRead` that has not returned: its local variables and where it is. -/
structure Batch where
  now : Timestamp
  expired : List Entry
  /-- the entries whose callback was not invoked yet -/
  todo : List Entry
  /-- the timer whose callback runs -/
  running : Option Address
  deriving DecidableEq

/-- `TimerQueue` in its loop, with the heap that its timers are on.
Source: TimerQueue.h 47-56 -/
structure TimerQueue where
  /-- `timers_` -/
  timers : OrdSet Entry := .empty
  /-- `activeTimers_` -/
  activeTimers : OrdSet ActiveTimer := .empty
  /-- `callingExpiredTimers_` -/
  callingExpiredTimers : Bool := false
  /-- `cancelingTimers_` -/
  cancelingTimers : OrdSet ActiveTimer := .empty
  /-- what `timerfd_` is armed for -/
  timerfd : Option Timestamp := none
  /-- the `Timer` objects -/
  heap : Address → Option Timer := fun _ => none
  /-- the timers that `addTimer` has created and `addTimerInLoop` has not seen -/
  pending : List Address := []
  /-- the call of `handleRead` under way -/
  batch : Option Batch := none
  /-- the sequence numbers of the timers created, -/
  created : List ℤ := []
  /-- of those deleted, in order, -/
  deleted : List ℤ := []
  /-- and of those whose callback was invoked, in order -/
  fired : List ℤ := []

namespace TimerQueue

/-- `new Timer(..)`. Source: TimerQueue.cc 95 -/
def newTimer (address : Address) (timer : Timer) (q : TimerQueue) : TimerQueue :=
  { q with
    heap := Function.update q.heap address (some timer)
    pending := q.pending ++ [address]
    created := q.created ++ [timer.sequence] }

/-- `delete timer`. -/
def delete (address : Address) (q : TimerQueue) : Option TimerQueue :=
  (q.heap address).map fun timer =>
    { q with
      heap := Function.update q.heap address none
      deleted := q.deleted ++ [timer.sequence] }

/-- Whether a timer would come before all that are there. Source: TimerQueue.cc 203-209 -/
def EarliestChanged (expiration : Timestamp) (q : TimerQueue) : Prop :=
  match q.timers.first? with
  | none => True
  | some it => expiration < it.expiration

instance (expiration : Timestamp) (q : TimerQueue) :
    Decidable (q.EarliestChanged expiration) := by
  unfold EarliestChanged
  split <;> infer_instance

/-- A timer would come first when it expires before every entry. -/
lemma earliestChanged_iff {expiration : Timestamp} {q : TimerQueue} :
    q.EarliestChanged expiration ↔ ∀ it ∈ q.timers, expiration < it.expiration := by
  unfold EarliestChanged
  split
  · next hfirst =>
      exact iff_of_true trivial fun it hit => absurd hit (OrdSet.first?_eq_none_iff.mp hfirst it)
  · next it hfirst =>
      obtain ⟨hmem, hle⟩ := OrdSet.first?_eq_some_iff.mp hfirst
      exact ⟨fun hlt it' hit' => hlt.trans_le (Entry.expiration_le_of_le (hle it' hit')),
        fun hall => hall it hmem⟩

/-- Source: TimerQueue.cc 201-220 -/
def insert (address : Address) (q : TimerQueue) : Option (Bool × TimerQueue) :=
  (q.heap address).map fun timer =>
    (decide (q.EarliestChanged timer.expiration),
      { q with
        timers := q.timers.insert (.mk timer.expiration address)
        activeTimers := q.activeTimers.insert (.mk address timer.sequence) })

/-- `resetTimerfd`. Source: TimerQueue.cc 51-64 -/
def resetTimerfd (expiration : Timestamp) (q : TimerQueue) : TimerQueue :=
  { q with timerfd := some expiration }

/-- Source: TimerQueue.cc 107-115 -/
def addTimerInLoop (address : Address) (q : TimerQueue) : Option TimerQueue :=
  (insert address { q with pending := q.pending.erase address }).bind fun (earliestChanged, q) =>
    if earliestChanged then
      (q.heap address).map fun timer => q.resetTimerfd timer.expiration
    else some q

/-- Source: TimerQueue.cc 117-132 -/
def cancelInLoop (timerId : TimerId) (q : TimerQueue) : Option TimerQueue :=
  let timer := ActiveTimer.mk timerId.timer timerId.sequence
  if timer ∈ q.activeTimers then
    (q.heap timerId.timer).bind fun t =>
      (delete timerId.timer
        { q with timers := q.timers.erase (.mk t.expiration timerId.timer) }).map fun q =>
          { q with activeTimers := q.activeTimers.erase timer }
  else if q.callingExpiredTimers then
    some { q with cancelingTimers := q.cancelingTimers.insert timer }
  else some q

/-- The loop of `getExpired` over `activeTimers_`. Source: TimerQueue.cc 161-166 -/
def eraseActive : List Entry → TimerQueue → Option TimerQueue
  | [], q => some q
  | it :: expired, q =>
    (q.heap it.address).bind fun timer =>
      eraseActive expired
        { q with activeTimers := q.activeTimers.erase (.mk it.address timer.sequence) }

/-- The entry that `lower_bound` is asked for. Source: TimerQueue.cc 156 -/
def sentry (now : Timestamp) : Entry := .mk now UINTPTR_MAX

/-- Source: TimerQueue.cc 153-169 -/
def getExpired (now : Timestamp) (q : TimerQueue) : Option (List Entry × TimerQueue) :=
  let expired := q.timers.before (sentry now)
  (eraseActive expired { q with timers := q.timers.startingAt (sentry now) }).map (expired, ·)

/-- What `reset` does with one timer of the batch: a repeating one that was not cancelled goes back
into the queue, any other is deleted. Source: TimerQueue.cc 177-188 -/
def resetOne (now : Timestamp) (address : Address) (q : TimerQueue) : Option TimerQueue :=
  (q.heap address).bind fun timer =>
    if timer.Repeats ∧ ActiveTimer.mk address timer.sequence ∉ q.cancelingTimers then
      (insert address
        { q with heap := Function.update q.heap address (some (timer.restart now)) }).map (·.2)
    else q.delete address

/-- The loop of `reset`. Source: TimerQueue.cc 175-189 -/
def resetAll (now : Timestamp) : List Entry → TimerQueue → Option TimerQueue
  | [], q => some q
  | it :: expired, q => (q.resetOne now it.address).bind (resetAll now expired)

/-- The end of `reset`: the timer is armed for the first entry, if its expiration is valid.
Source: TimerQueue.cc 190-198 -/
def rearm (q : TimerQueue) : Option TimerQueue :=
  match q.timers.first? with
  | none => some q
  | some it =>
    (q.heap it.address).map fun timer =>
      if timer.expiration.Valid then q.resetTimerfd timer.expiration else q

/-- Source: TimerQueue.cc 171-199 -/
def reset (expired : List Entry) (now : Timestamp) (q : TimerQueue) : Option TimerQueue :=
  (resetAll now expired q).bind rearm

/-- The start of `handleRead`: the timer is read and the batch taken out. Source:
TimerQueue.cc 134-142 -/
def handleRead (now : Timestamp) (q : TimerQueue) : Option TimerQueue :=
  (getExpired now { q with timerfd := none }).map fun (expired, q) =>
    { q with
      callingExpiredTimers := true
      cancelingTimers := .empty
      batch := some ⟨now, expired, expired, none⟩ }

/-- The next callback of the batch is invoked. Source: TimerQueue.cc 144-147 -/
def run (batch : Batch) (it : Entry) (todo : List Entry) (q : TimerQueue) : Option TimerQueue :=
  (q.heap it.address).map fun timer =>
    { q with
      batch := some { batch with todo := todo, running := some it.address }
      fired := q.fired ++ [timer.sequence] }

/-- The callback returns. It is a member of the timer, which has to be there until then. -/
def ret (batch : Batch) (address : Address) (q : TimerQueue) : Option TimerQueue :=
  (q.heap address).map fun _ => { q with batch := some { batch with running := none } }

/-- The end of `handleRead`. Source: TimerQueue.cc 148-150 -/
def finish (batch : Batch) (q : TimerQueue) : Option TimerQueue :=
  reset batch.expired batch.now { q with callingExpiredTimers := false, batch := none }

/-! ## The heap -/

section heap

variable {heap : Address → Option Timer} {a b : Address} {t u : Timer}

/-- What is on the heap when a timer was put there. -/
lemma heap_of_update_some (h : Function.update heap a (some t) b = some u) :
    b = a ∧ u = t ∨ b ≠ a ∧ heap b = some u := by
  by_cases hba : b = a
  · rw [hba, Function.update_self, Option.some.injEq] at h
    exact Or.inl ⟨hba, h.symm⟩
  · rw [Function.update_of_ne hba] at h
    exact Or.inr ⟨hba, h⟩

/-- A timer that is put at a free address replaces none. -/
lemma heap_update_of_free (hfree : heap a = none) (h : heap b = some u) :
    Function.update heap a (some t) b = some u := by
  have hba : b ≠ a := by
    rintro rfl
    rw [hfree] at h
    exact absurd h nofun
  rw [Function.update_of_ne hba, h]

/-- What is on the heap when one was deleted. -/
lemma heap_of_update_none (h : Function.update heap a none b = some u) :
    b ≠ a ∧ heap b = some u := by
  by_cases hba : b = a
  · rw [hba, Function.update_self] at h
    exact absurd h (by simp)
  · rw [Function.update_of_ne hba] at h
    exact ⟨hba, h⟩

end heap

/-! ## What the functions come to -/

section results

variable {q : TimerQueue} {a : Address} {t : Timer} {timerId : TimerId} {now : Timestamp}

/-- A timer that is added goes into both sets, and arms `timerfd_` when it would come first. -/
lemma addTimerInLoop_eq (ha : q.heap a = some t) : q.addTimerInLoop a = some
    { q with
      pending := q.pending.erase a
      timers := q.timers.insert (.mk t.expiration a)
      activeTimers := q.activeTimers.insert (.mk a t.sequence)
      timerfd := if q.EarliestChanged t.expiration then some t.expiration else q.timerfd } := by
  unfold addTimerInLoop insert
  by_cases h : q.EarliestChanged t.expiration
  · have h' : EarliestChanged t.expiration { q with pending := q.pending.erase a } := h
    simp [ha, h, h', resetTimerfd]
  · have h' : ¬ EarliestChanged t.expiration { q with pending := q.pending.erase a } := h
    simp [ha, h, h']

/-- A timer that the queue has is deleted. -/
lemma cancelInLoop_of_mem (ha : q.heap timerId.timer = some t)
    (hmem : ActiveTimer.mk timerId.timer timerId.sequence ∈ q.activeTimers) :
    q.cancelInLoop timerId = some
      { q with
        timers := q.timers.erase (.mk t.expiration timerId.timer)
        activeTimers := q.activeTimers.erase (.mk timerId.timer timerId.sequence)
        heap := Function.update q.heap timerId.timer none
        deleted := q.deleted ++ [t.sequence] } := by
  unfold cancelInLoop delete
  simp [hmem, ha]

/-- A cancellation of a timer that is not in the queue is remembered while a batch runs. -/
lemma cancelInLoop_of_not_mem
    (hmem : ActiveTimer.mk timerId.timer timerId.sequence ∉ q.activeTimers) :
    q.cancelInLoop timerId = some
      { q with cancelingTimers :=
          if q.callingExpiredTimers then
            q.cancelingTimers.insert (.mk timerId.timer timerId.sequence)
          else q.cancelingTimers } := by
  unfold cancelInLoop
  simp only [hmem, if_false]
  by_cases hcalling : q.callingExpiredTimers = true
  · rw [if_pos hcalling, if_pos hcalling]
  · rw [if_neg hcalling, if_neg hcalling]

/-- A timer of the batch goes back: it repeats, and was not cancelled. -/
def GoesBack (q : TimerQueue) (a : Address) (t : Timer) : Prop :=
  t.Repeats ∧ ActiveTimer.mk a t.sequence ∉ q.cancelingTimers

instance (q : TimerQueue) (a : Address) (t : Timer) : Decidable (q.GoesBack a t) :=
  inferInstanceAs (Decidable (_ ∧ _))

/-- A timer that goes back is restarted and goes into both sets. -/
lemma resetOne_of_goesBack (ha : q.heap a = some t) (h : q.GoesBack a t) :
    q.resetOne now a = some
      { q with
        heap := Function.update q.heap a (some (t.restart now))
        timers := q.timers.insert (.mk (t.restart now).expiration a)
        activeTimers := q.activeTimers.insert (.mk a t.sequence) } := by
  unfold GoesBack at h
  unfold resetOne insert
  simp only [ha, Option.bind_some]
  rw [if_pos h]
  simp [Timer.restart]

/-- A timer that does not go back is deleted. -/
lemma resetOne_of_not_goesBack (ha : q.heap a = some t) (h : ¬ q.GoesBack a t) :
    q.resetOne now a = some
      { q with
        heap := Function.update q.heap a none
        deleted := q.deleted ++ [t.sequence] } := by
  unfold GoesBack at h
  unfold resetOne delete
  simp only [ha, Option.bind_some]
  rw [if_neg h]
  simp

/-- What `reset` leaves of a timer of the batch. -/
def afterReset (q : TimerQueue) (now : Timestamp) (a : Address) : Option Timer :=
  (q.heap a).bind fun timer => if q.GoesBack a timer then some (timer.restart now) else none

/-- What `reset` leaves is a timer that goes back, restarted. -/
lemma afterReset_eq_some {u : Timer} : q.afterReset now a = some u ↔
    ∃ t, q.heap a = some t ∧ q.GoesBack a t ∧ t.restart now = u := by
  rw [afterReset, Option.bind_eq_some_iff]
  refine exists_congr fun t => and_congr_right fun _ => ?_
  by_cases hback : q.GoesBack a t
  · simp [hback]
  · simp [hback]

/-- One step of the loop of `reset` puts its timer back or deletes it, and leaves the others. -/
lemma resetOne_spec {q' : TimerQueue} (h : q.resetOne now a = some q') :
    (∀ b, q'.heap b = if b = a then q.afterReset now a else q.heap b) ∧
      (∀ it, it ∈ q'.timers ↔ it ∈ q.timers ∨
        it.address = a ∧ ∃ u, q.afterReset now a = some u ∧ u.expiration = it.expiration) ∧
      q'.cancelingTimers = q.cancelingTimers := by
  rcases ha : q.heap a with _ | t
  · simp [resetOne, ha] at h
  · by_cases hback : q.GoesBack a t
    · have hafter : q.afterReset now a = some (t.restart now) :=
        afterReset_eq_some.mpr ⟨t, ha, hback, rfl⟩
      rw [resetOne_of_goesBack ha hback, Option.some.injEq] at h
      subst h
      refine ⟨fun b => ?_, fun it => ?_, rfl⟩
      · rw [hafter]
        exact Function.update_apply _ _ _ _
      · rw [hafter, OrdSet.mem_insert, ← Entry.mk_eta it, Entry.mk_inj]
        simp only [Entry.mk_eta, Option.some.injEq, exists_eq_left']
        tauto
    · have hafter : q.afterReset now a = none := by simp [afterReset, ha, hback]
      rw [resetOne_of_not_goesBack ha hback, Option.some.injEq] at h
      subst h
      refine ⟨fun b => ?_, fun it => ?_, rfl⟩
      · rw [hafter]
        exact Function.update_apply _ _ _ _
      · simp [hafter]

/-- Behind `reset` the timers of the batch that go back are in the queue, with a new expiration; all
others are as they were. -/
lemma resetAll_spec {expired : List Entry} {q' : TimerQueue}
    (hnodup : (expired.map Entry.address).Nodup) (h : q.resetAll now expired = some q') :
    (∀ b, q'.heap b =
      if b ∈ expired.map Entry.address then q.afterReset now b else q.heap b) ∧
      (∀ it, it ∈ q'.timers ↔ it ∈ q.timers ∨ it.address ∈ expired.map Entry.address ∧
        ∃ u, q.afterReset now it.address = some u ∧ u.expiration = it.expiration) := by
  induction expired generalizing q with
  | nil =>
      obtain rfl := Option.some.inj h
      simp
  | cons it₀ expired ih =>
      obtain ⟨q₁, heq, h⟩ := Option.bind_eq_some_iff.mp h
      obtain ⟨hheap, htimers, hcanceling⟩ := resetOne_spec heq
      obtain ⟨hnot, hnodup⟩ := List.nodup_cons.mp hnodup
      obtain ⟨hheap', htimers'⟩ := ih hnodup h
      -- the timers that follow are not at the address of the first
      have hafter : ∀ b, b ≠ it₀.address → q₁.afterReset now b = q.afterReset now b := by
        intro b hb
        ext u
        rw [afterReset_eq_some, afterReset_eq_some, hheap b, if_neg hb]
        simp only [GoesBack, hcanceling]
      constructor
      · intro b
        rw [hheap' b, hheap b]
        simp only [List.map_cons, List.mem_cons]
        by_cases hb : b = it₀.address
        · subst hb
          simp [hnot]
        · rw [hafter b hb, if_neg hb]
          exact if_congr (by simp [hb]) rfl rfl
      · intro it
        rw [htimers' it, htimers it, List.map_cons, List.mem_cons]
        by_cases hb : it.address = it₀.address
        · rw [hb]
          simp [hnot]
        · simp [hb, hafter _ hb]

/-- The end of `reset` arms the timer for the first entry, or does nothing as there is no entry with
a valid expiration in front. -/
lemma rearm_cases {q' : TimerQueue} (h : q.rearm = some q') :
    (q' = q ∧
      ∀ it ∈ q.timers.first?, ∃ t, q.heap it.address = some t ∧ ¬ t.expiration.Valid) ∨
    ∃ it t, q.timers.first? = some it ∧ q.heap it.address = some t ∧ t.expiration.Valid ∧
      q' = q.resetTimerfd t.expiration := by
  unfold rearm at h
  rcases hfirst : q.timers.first? with _ | it
  · rw [hfirst] at h
    exact Or.inl ⟨(Option.some.inj h).symm, nofun⟩
  · rw [hfirst] at h
    obtain ⟨t, ht, rfl⟩ := Option.map_eq_some_iff.mp h
    by_cases hvalid : t.expiration.Valid
    · exact Or.inr ⟨it, t, rfl, ht, hvalid, if_pos hvalid⟩
    · refine Or.inl ⟨if_neg hvalid, ?_⟩
      rintro _ ⟨⟩
      exact ⟨t, ht, hvalid⟩

/-- The entries of a batch go out of `activeTimers_`. -/
lemma eraseActive_eq {expired : List Entry} (h : ∀ it ∈ expired, q.heap it.address ≠ none) :
    ∃ active : OrdSet ActiveTimer,
      eraseActive expired q = some { q with activeTimers := active } ∧
      ∀ a n, ActiveTimer.mk a n ∈ active ↔ ActiveTimer.mk a n ∈ q.activeTimers ∧
        ¬ ∃ it ∈ expired, it.address = a ∧ ∃ t, q.heap a = some t ∧ t.sequence = n := by
  induction expired generalizing q with
  | nil => exact ⟨q.activeTimers, rfl, by simp⟩
  | cons it expired ih =>
      obtain ⟨t, ht⟩ := Option.ne_none_iff_exists'.mp (h it List.mem_cons_self)
      obtain ⟨active, heq, hmem⟩ := ih
        (q := { q with activeTimers := q.activeTimers.erase (.mk it.address t.sequence) })
        (fun it' hit' => h it' (List.mem_cons_of_mem _ hit'))
      refine ⟨active, ?_, ?_⟩
      · simp only [eraseActive, ht, Option.bind_some]
        exact heq
      · intro a n
        rw [hmem, OrdSet.mem_erase, ne_eq, ActiveTimer.mk_inj]
        constructor
        · rintro ⟨⟨hact, hne⟩, hnot⟩
          refine ⟨hact, ?_⟩
          rintro ⟨it', hit', rfl, u, hu, rfl⟩
          rcases List.mem_cons.mp hit' with rfl | hit'
          · rw [ht, Option.some.injEq] at hu
            exact hne ⟨rfl, by rw [hu]⟩
          · exact hnot ⟨it', hit', rfl, u, hu, rfl⟩
        · rintro ⟨hact, hnot⟩
          refine ⟨⟨hact, ?_⟩, ?_⟩
          · rintro ⟨rfl, rfl⟩
            exact hnot ⟨it, List.mem_cons_self, rfl, t, ht, rfl⟩
          · rintro ⟨it', hit', hex⟩
            exact hnot ⟨it', List.mem_cons_of_mem _ hit', hex⟩

/-- The loop of `getExpired` touches `activeTimers_` only. -/
lemma eraseActive_frame {expired : List Entry} {q' : TimerQueue}
    (h : eraseActive expired q = some q') :
    ∃ active, q' = { q with activeTimers := active } := by
  induction expired generalizing q with
  | nil => exact ⟨_, (Option.some.inj h).symm⟩
  | cons it expired ih =>
      obtain ⟨t, -, h⟩ := Option.bind_eq_some_iff.mp h
      obtain ⟨active, rfl⟩ := ih h
      exact ⟨active, rfl⟩

/-- The start of `handleRead` cuts the batch out and leaves the rest. -/
lemma handleRead_frame {q' : TimerQueue} (h : q.handleRead now = some q') :
    ∃ active, q' =
      { q with
        timers := q.timers.startingAt (sentry now)
        activeTimers := active
        callingExpiredTimers := true
        cancelingTimers := .empty
        timerfd := none
        batch := some ⟨now, q.timers.before (sentry now), q.timers.before (sentry now), none⟩ } := by
  obtain ⟨⟨expired, q₁⟩, hget, rfl⟩ := Option.map_eq_some_iff.mp h
  obtain ⟨q₂, heq, hpair⟩ := Option.map_eq_some_iff.mp hget
  obtain ⟨rfl, rfl⟩ := Prod.mk.inj hpair
  obtain ⟨active, rfl⟩ := eraseActive_frame heq
  exact ⟨active, rfl⟩

/-- The callback of a timer that lives is invoked. -/
lemma run_eq {batch : Batch} {it : Entry} {todo : List Entry} (ha : q.heap it.address = some t) :
    q.run batch it todo = some
      { q with
        batch := some { batch with todo := todo, running := some it.address }
        fired := q.fired ++ [t.sequence] } := by
  simp [run, ha]

/-- The callback of a timer that lives returns to the batch. -/
lemma ret_eq {batch : Batch} (ha : q.heap a = some t) :
    q.ret batch a = some { q with batch := some { batch with running := none } } := by
  simp [ret, ha]

end results

/-! ## Steps -/

/-- What happens to a timer queue. -/
inductive Event where
  /-- `addTimer` creates a timer -/
  | newTimer (address : Address) (timer : Timer)
  | addTimerInLoop (address : Address)
  | cancelInLoop (timerId : TimerId)
  | handleRead (now : Timestamp)
  | run
  | ret
  | finish
  deriving DecidableEq

/-- The loop thread is where the functions of the queue may be called: outside of `handleRead`, or
in a callback. -/
def Callable (q : TimerQueue) : Prop := ∀ batch ∈ q.batch, batch.running ≠ none

instance (q : TimerQueue) : Decidable q.Callable :=
  inferInstanceAs (Decidable (∀ batch ∈ q.batch, batch.running ≠ none))

/-- When an event can come. The allocator gives an address that is free, not null, and leaves room
for an object; sequence numbers are not given twice; `addTimerInLoop` is called once for each timer
created. -/
def Enabled (q : TimerQueue) : Event → Prop
  | .newTimer address timer =>
    q.heap address = none ∧ 0 < address ∧ address < UINTPTR_MAX ∧ timer.sequence ∉ q.created
  | .addTimerInLoop address => address ∈ q.pending ∧ q.Callable
  | .cancelInLoop _ => q.Callable
  | .handleRead _ => q.batch = none
  | .run => ∃ batch ∈ q.batch, batch.running = none ∧ batch.todo ≠ []
  | .ret => ∃ batch ∈ q.batch, batch.running ≠ none
  | .finish => ∃ batch ∈ q.batch, batch.running = none ∧ batch.todo = []

instance (q : TimerQueue) : DecidablePred q.Enabled
  | .newTimer _ _ => inferInstanceAs (Decidable (_ ∧ _))
  | .addTimerInLoop _ => inferInstanceAs (Decidable (_ ∧ _))
  | .cancelInLoop _ => inferInstanceAs (Decidable q.Callable)
  | .handleRead _ => inferInstanceAs (Decidable (_ = _))
  | .run => inferInstanceAs (Decidable (∃ batch ∈ q.batch, _))
  | .ret => inferInstanceAs (Decidable (∃ batch ∈ q.batch, _))
  | .finish => inferInstanceAs (Decidable (∃ batch ∈ q.batch, _))

/-- What an event does. There is no result when a timer is read or deleted that is not there. -/
def apply (q : TimerQueue) : Event → Option TimerQueue
  | .newTimer address timer => some (q.newTimer address timer)
  | .addTimerInLoop address => q.addTimerInLoop address
  | .cancelInLoop timerId => q.cancelInLoop timerId
  | .handleRead now => q.handleRead now
  | .run =>
    match q.batch with
    | some batch =>
      match batch.todo with
      | it :: todo => q.run batch it todo
      | [] => some q
    | none => some q
  | .ret =>
    match q.batch with
    | some batch =>
      match batch.running with
      | some address => q.ret batch address
      | none => some q
    | none => some q
  | .finish =>
    match q.batch with
    | some batch => q.finish batch
    | none => some q

/-- One event, when it can come. -/
def step (q : TimerQueue) (event : Event) : Option TimerQueue :=
  if q.Enabled event then q.apply event else none

/-- The steps of a timer queue. -/
def Step (q : TimerQueue) (event : Event) (q' : TimerQueue) : Prop := q.step event = some q'

/-- A step takes an event that can come to its result. -/
lemma Step.apply_eq {q q' : TimerQueue} {event : Event} (h : Step q event q') :
    q.Enabled event ∧ q.apply event = some q' := by
  unfold Step step at h
  split at h
  · exact ⟨by assumption, h⟩
  · exact absurd h nofun

section inversion

variable {q q' : TimerQueue}

/-- A callback is invoked when the one before has returned and another is to come. -/
lemma Step.run (h : Step q .run q') : ∃ batch it todo t,
    q.batch = some batch ∧ batch.running = none ∧ batch.todo = it :: todo ∧
      q.heap it.address = some t ∧
      q' = { q with
        batch := some { batch with todo := todo, running := some it.address }
        fired := q.fired ++ [t.sequence] } := by
  obtain ⟨⟨batch, hbatch, hidle, hne⟩, heq⟩ := h.apply_eq
  obtain ⟨it, todo, htodo⟩ := List.exists_cons_of_ne_nil hne
  simp only [apply, Option.mem_def.mp hbatch, htodo] at heq
  obtain ⟨t, ht, rfl⟩ := Option.map_eq_some_iff.mp heq
  exact ⟨batch, it, todo, t, hbatch, hidle, htodo, ht, rfl⟩

/-- A callback returns when it runs. -/
lemma Step.ret (h : Step q .ret q') : ∃ batch a,
    q.batch = some batch ∧ batch.running = some a ∧
      q' = { q with batch := some { batch with running := none } } := by
  obtain ⟨⟨batch, hbatch, hne⟩, heq⟩ := h.apply_eq
  obtain ⟨a, hrunning⟩ := Option.ne_none_iff_exists'.mp hne
  simp only [apply, Option.mem_def.mp hbatch, hrunning] at heq
  obtain ⟨t, -, rfl⟩ := Option.map_eq_some_iff.mp heq
  exact ⟨batch, a, hbatch, hrunning, rfl⟩

/-- The batch ends when all of its callbacks have returned. -/
lemma Step.finish (h : Step q .finish q') : ∃ batch,
    q.batch = some batch ∧ batch.running = none ∧ batch.todo = [] ∧
      q.finish batch = some q' := by
  obtain ⟨⟨batch, hbatch, hidle, htodo⟩, heq⟩ := h.apply_eq
  simp only [apply, Option.mem_def.mp hbatch] at heq
  exact ⟨batch, hbatch, hidle, htodo, heq⟩

end inversion

end TimerQueue

end SwiftNetCore
