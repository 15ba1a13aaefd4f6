import SwiftNetCore.TimerRuns

/-!
# Timers that are cancelled

A timer may be cancelled in the queue, in the batch before its callback is invoked, while it runs
and after. `cancelInLoop` deletes it from the queue, and remembers a cancellation in the batch in
`cancelingTimers_`. `reset` reads that set; the loop that invokes the callbacks does not.

* `WatchedQueue`: a queue that keeps a list of the timers whose cancellation was executed, and of
  those that ran after it.
* `Honoured`: none ran, and none is in the queue.
* `InTime`: a cancellation does not hit a timer of the batch that is still to run, and its `TimerId`
  has the timer's own sequence number where that matters.
* `honoured_of_inTime`: then every cancellation is honoured, in every state of every run. The next
  callback of a batch is invoked all the same (`not_honoured_later_in_batch`).
-/

namespace SwiftNetCore

open Paths (Path Throughout MeetsAll trace path_trace)

namespace TimerQueue

variable {q q' : TimerQueue} {a : Address} {t : Timer} {timerId : TimerId} {event : Event}

/-- The timer of the queue or of the batch that a `TimerId` is for. -/
def named (q : TimerQueue) (timerId : TimerId) : Option Timer :=
  (q.heap timerId.timer).filter fun t =>
    timerId.timer ∉ q.pending ∧ timerId = .of timerId.timer t.sequence

/-- A `TimerId` is for the timer at its address that was added and has its number. -/
lemma named_eq_some : q.named timerId = some t ↔
    q.heap timerId.timer = some t ∧ timerId.timer ∉ q.pending ∧
      timerId = .of timerId.timer t.sequence := by
  simp [named]

/-- The timers whose cancellation an event executes. -/
def cancels (q : TimerQueue) : Event → List ℤ
  | .cancelInLoop timerId => ((q.named timerId).map Timer.sequence).toList
  | _ => []

/-- A cancellation that comes in time: the timer does not wait to be run in the batch, and the
`TimerId` has its sequence number, or it is a timer of the batch that does not repeat. -/
def InTime (q : TimerQueue) : Event → Prop
  | .cancelInLoop timerId => ∀ t ∈ q.named timerId, timerId.timer ∉ q.waiting ∧
      (toInt t.sequence = t.sequence ∨ timerId.timer ∈ q.taken ∧ ¬ t.Repeats)
  | _ => True

instance (q : TimerQueue) : DecidablePred q.InTime := by
  intro event
  unfold InTime
  split <;> infer_instance

/-! ## Timers that do not come back -/

/-- What became of the timers `cancelled`: they are gone, or are in the batch, have run and do not
go back. -/
structure Spent (q : TimerQueue) (cancelled : List ℤ) : Prop where
  created : ∀ n ∈ cancelled, n ∈ q.created
  spent : ∀ a t, q.heap a = some t → t.sequence ∈ cancelled →
    a ∈ q.taken ∧ a ∉ q.waiting ∧ ¬ q.GoesBack a t

variable {cancelled : List ℤ}

/-- Without a batch no timer is taken. -/
lemma taken_eq_nil (h : q.batch = none) : q.taken = [] := by rw [taken, h]

/-- No event brings cancelled timers back. -/
lemma Spent.keep (h : q.Spent cancelled) (hsound : q.Sound) (heffect : Effect q event q') :
    q'.Spent cancelled := by
  cases heffect with
  | newTimer a t hen =>
      refine ⟨fun n hn => List.mem_append_left _ (h.created n hn), ?_⟩
      intro b u hb hn
      rcases heap_of_update_some hb with ⟨-, rfl⟩ | ⟨-, hb⟩
      · exact absurd (h.created _ hn) hen.2.2.2
      · exact h.spent b u hb hn
  | added a t hpending ha => exact ⟨h.created, h.spent⟩
  | cancelled timerId t ha hseq hmem =>
      exact ⟨h.created, fun b u hb => h.spent b u (heap_of_update_none hb).2⟩
  | noted timerId hnot =>
      refine ⟨h.created, ?_⟩
      intro b u hb hn
      obtain ⟨htaken, hwaiting, hback⟩ := h.spent b u hb hn
      refine ⟨htaken, hwaiting, ?_⟩
      -- `cancelingTimers_` only grows
      rintro ⟨hrepeats, hcanceling⟩
      refine hback ⟨hrepeats, fun hmem => hcanceling ?_⟩
      by_cases hcalling : q.callingExpiredTimers = true
      · simp [hcalling, hmem]
      · simpa [hcalling] using hmem
  | expired now active hbatch =>
      refine ⟨h.created, ?_⟩
      intro b u hb hn
      have htaken := (h.spent b u hb hn).1
      rw [taken_eq_nil hbatch] at htaken
      exact absurd htaken List.not_mem_nil
  | ran batch it todo t hbatch htodo ha =>
      refine ⟨h.created, ?_⟩
      intro b u hb hn
      obtain ⟨htaken, hwaiting, hback⟩ := h.spent b u hb hn
      rw [taken_of_batch hbatch] at htaken
      rw [waiting, hbatch] at hwaiting
      simp only [htodo, List.map_cons, List.mem_cons, not_or] at hwaiting
      exact ⟨htaken, hwaiting.2, hback⟩
  | returned batch hbatch =>
      refine ⟨h.created, ?_⟩
      intro b u hb hn
      obtain ⟨htaken, hwaiting, hback⟩ := h.spent b u hb hn
      rw [taken_of_batch hbatch] at htaken
      rw [waiting, hbatch] at hwaiting
      exact ⟨htaken, hwaiting, hback⟩
  | finished batch q' hbatch htodo heq =>
      obtain ⟨hheap, -, ⟨-, hcreated, -⟩, -⟩ := hsound.finish_spec hbatch heq
      refine ⟨fun n hn => ?_, ?_⟩
      · rw [hcreated]
        exact h.created n hn
      · intro b u hb hn
        rw [hheap b] at hb
        split at hb
        · obtain ⟨t, ht, hback, rfl⟩ := afterReset_eq_some.mp hb
          exact absurd hback (h.spent b t ht hn).2.2
        · next htaken => exact absurd (h.spent b u hb hn).1 htaken

/-- A cancellation creates no timer. -/
lemma Effect.created_of_cancel (h : Effect q (.cancelInLoop timerId) q') :
    q'.created = q.created := by
  cases h <;> rfl

/-- A cancellation in time is for a timer that does not come back. -/
lemma Spent.cancel (h : q'.Spent cancelled) (hsound : q.Sound)
    (heffect : Effect q (.cancelInLoop timerId) q') (hnamed : q.named timerId = some t)
    (hin : q.InTime (.cancelInLoop timerId)) : q'.Spent (cancelled ++ [t.sequence]) := by
  obtain ⟨ha, hpending, hid⟩ := named_eq_some.mp hnamed
  obtain ⟨hwaiting, hsame⟩ := hin t hnamed
  obtain ⟨S, hcore⟩ := hsound.core
  have hseq : timerId.sequence = toInt t.sequence := by rw [hid, TimerId.of]
  refine ⟨?_, ?_⟩
  · have hcreated : t.sequence ∈ q'.created := by
      rw [heffect.created_of_cancel]
      exact hcore.books.live_created _ _ ha
    simp only [List.mem_append, List.mem_singleton]
    rintro n (hn | rfl)
    · exact h.created n hn
    · exact hcreated
  intro b u hb hn
  rw [List.mem_append, List.mem_singleton] at hn
  rcases hn with hn | hn
  · exact h.spent b u hb hn
  cases heffect with
  | cancelled _ t₁ ha₁ hseq₁ hmem₁ =>
      -- the timer is deleted
      obtain ⟨hba, hb⟩ := heap_of_update_none hb
      exact absurd (hcore.books.injective b timerId.timer u t hb ha hn) hba
  | noted _ hnot =>
      obtain rfl : b = timerId.timer := hcore.books.injective b timerId.timer u t hb ha hn
      obtain rfl : u = t := Option.some.inj (hb.symm.trans ha)
      have htaken : timerId.timer ∈ q.taken := by
        rcases hsound.consistent.held _ _ ha hpending with ⟨e, he⟩ | htaken
        · -- it would have been found
          rcases hsame with hsame | ⟨htaken, -⟩
          · refine absurd ((hsound.consistent.active _ _).mpr ⟨e, u, he, ha, ?_⟩) hnot
            rw [hseq, hsame]
          · exact htaken
        · exact htaken
      refine ⟨htaken, hwaiting, ?_⟩
      rintro ⟨hrepeats, hcanceling⟩
      rcases hsame with hsame | ⟨-, hnotrepeats⟩
      · have hcalling : q.callingExpiredTimers = true := by
          rw [hsound.calling]
          rcases hbatch : q.batch with _ | batch
          · rw [taken_eq_nil hbatch] at htaken
            exact absurd htaken List.not_mem_nil
          · rfl
        apply hcanceling
        simp [hcalling, hseq, hsame]
      · exact hnotrepeats hrepeats

end TimerQueue

/-! ## Runs -/

/-- A timer queue, with what became of its cancellations. -/
structure WatchedQueue where
  queue : TimerQueue := {}
  /-- the timers whose cancellation was executed when they were in the queue or in the batch -/
  cancelled : List ℤ := []
  /-- those of them whose callback was invoked later -/
  late : List ℤ := []

namespace WatchedQueue

open TimerQueue (Event)

/-- One event of the queue. -/
def step (s : WatchedQueue) (event : Event) : Option WatchedQueue :=
  (s.queue.step event).map fun q =>
    { queue := q
      cancelled := s.cancelled ++ s.queue.cancels event
      late := s.late ++ (q.fired.drop s.queue.fired.length).filter (· ∈ s.cancelled) }

/-- The steps of a queue that is watched. -/
def Step (s : WatchedQueue) (event : Event) (s' : WatchedQueue) : Prop := s.step event = some s'

/-- No timer ran after it was cancelled, and none that was cancelled is in the queue. -/
structure Honoured (s : WatchedQueue) : Prop where
  late : s.late = []
  queued : ∀ it ∈ s.queue.timers, ∀ t, s.queue.heap it.address = some t →
    t.sequence ∉ s.cancelled

/-- The condition on an event of the queue. -/
def InTime (s : WatchedQueue) (event : Event) : Prop := s.queue.InTime event

instance (s : WatchedQueue) : DecidablePred s.InTime :=
  inferInstanceAs (DecidablePred s.queue.InTime)

variable {s s' : WatchedQueue} {event : Event}

/-- A step of a watched queue is one of the queue; it records the timers cancelled, and those that
ran behind their cancellation. -/
lemma Step.queue (h : Step s event s') : TimerQueue.Step s.queue event s'.queue ∧
    s'.cancelled = s.cancelled ++ s.queue.cancels event ∧
    s'.late =
      s.late ++ (s'.queue.fired.drop s.queue.fired.length).filter (· ∈ s.cancelled) := by
  obtain ⟨q, heq, rfl⟩ := Option.map_eq_some_iff.mp h
  exact ⟨heq, rfl, rfl⟩

/-- The invariant: the timers that were cancelled do not come back, and none ran. -/
structure Settled (s : WatchedQueue) : Prop where
  sound : s.queue.Sound
  spent : s.queue.Spent s.cancelled
  late : s.late = []

/-- Where cancelled timers do not come back and none ran, cancellations are honoured. -/
lemma Settled.honoured (h : s.Settled) : s.Honoured where
  late := h.late
  queued := by
    intro it hit t ht hn
    exact h.sound.consistent.apart _ (h.spent.spent _ _ ht hn).1 it.expiration hit

/-- What `run` invokes waits, so it was not cancelled. -/
lemma Settled.step (h : s.Settled) (hst : Step s event s') (hin : s.InTime event) :
    s'.Settled := by
  obtain ⟨hqueue, hcancelled, hlate⟩ := hst.queue
  have heffect := h.sound.effect hqueue
  have hkeep := h.spent.keep h.sound heffect
  refine ⟨h.sound.step hqueue, ?_, ?_⟩
  · rw [hcancelled]
    cases event with
    | cancelInLoop timerId =>
        rw [TimerQueue.cancels]
        rcases hnamed : s.queue.named timerId with _ | t
        · simpa using hkeep
        · exact hkeep.cancel h.sound heffect hnamed hin
    | _ => simpa [TimerQueue.cancels] using hkeep
  · rw [hlate, h.late]
    rcases heffect.fired h.sound with heq | ⟨a, t, ht, hwaiting, heq⟩
    · simp [heq]
    · have hnot : t.sequence ∉ s.cancelled := fun hn => (h.spent.spent a t ht hn).2.1 hwaiting
      simp [heq, hnot]

/-- Nothing was cancelled in a new queue. -/
lemma settled_empty : Settled {} := ⟨TimerQueue.sound_empty, ⟨nofun, nofun⟩, rfl⟩

/-- **A cancelled timer does not run**, nor is it in the queue, in every state of every run in which
each cancellation comes in time. -/
theorem honoured_of_inTime {p : List (Event × WatchedQueue)} (hp : Path Step {} p)
    (hin : MeetsAll InTime {} p) : Throughout Honoured {} p :=
  (hp.throughout_of_meetsAll (fun _ _ _ h hst => h.step hst) hin settled_empty).mono
    fun _ h => h.honoured

/-- A repeating timer cancels itself, a timer in the queue, and one that has run before it. -/
theorem honoured_of_inTime_three : Throughout Honoured {}
    (trace step {}
      [.newTimer 16 ⟨⟨5⟩, 1, 1⟩, .addTimerInLoop 16, .newTimer 32 ⟨⟨6⟩, 1, 2⟩, .addTimerInLoop 32,
        .newTimer 48 ⟨⟨9⟩, 0, 3⟩, .addTimerInLoop 48, .handleRead ⟨7⟩, .run, .ret, .run,
        .cancelInLoop (.of 32 2), .cancelInLoop (.of 48 3), .cancelInLoop (.of 16 1), .ret,
        .finish]) :=
  honoured_of_inTime (path_trace step _ _) (by decide +kernel)

/-- Two timers are due, and the callback of the first cancels the second. -/
def laterInBatch : List (Event × WatchedQueue) :=
  trace step {}
    [.newTimer 16 ⟨⟨5⟩, 0, 1⟩, .addTimerInLoop 16, .newTimer 32 ⟨⟨6⟩, 0, 2⟩, .addTimerInLoop 32,
      .handleRead ⟨7⟩, .run, .cancelInLoop (.of 32 2), .ret, .run]

/-- A timer that is cancelled by a callback before it in the batch runs. -/
theorem not_honoured_later_in_batch :
    ¬ ∀ p : List (Event × WatchedQueue), Path Step {} p → Throughout Honoured {} p := by
  intro h
  have hlate : ∀ x ∈ laterInBatch, x.2.late = [] :=
    fun x hx => ((h _ (path_trace step _ _)).2 x hx).late
  revert hlate
  decide +kernel

end WatchedQueue

end SwiftNetCore
