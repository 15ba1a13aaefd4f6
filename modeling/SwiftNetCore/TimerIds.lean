import SwiftNetCore.TimerRuns

/-!
# Timer identifiers

`addTimer` and `cancel` may be called on any thread. In the loop's own thread `runInLoop` carries a
call out at once, from another it goes into the queue of functors, which the loop takes in order.
The timer's number is an `int64_t`, counted over the whole process, and an `int` in its `TimerId`.

* `TimerLoop`: a loop with its timer queue, its functors and the identifiers that were returned. It
  keeps a list of the timers that were added, cancelled, and expired between the two.
* `Effective`: a timer that was added and cancelled, in whatever order, and did not expire between
  the two, is not in the queue and never runs.
* `InOrder`: the timer is added before it is cancelled, and its number is that of its `TimerId`.
* `effective_iff`: the identifiers are effective throughout a run exactly when all its steps are in
  order. They need not be: a cancellation in the loop overtakes an addition that waits, and a number
  beyond `int` is lost (`not_effective`).
-/

namespace SwiftNetCore

open Paths (Path Throughout MeetsAll trace path_trace)

/-- A functor that waits in the loop, for the timer with this number. Source: TimerQueue.cc 96-97,
103-104 -/
inductive TimerFunctor where
  | addTimerInLoop (address : Address)
  | cancelInLoop (address : Address) (sequence : ℤ)
  deriving DecidableEq

/-- A loop with its timer queue. -/
structure TimerLoop where
  queue : TimerQueue := {}
  /-- `Timer::s_numCreated_` -/
  numCreated : ℤ := 0
  /-- `pendingFunctors_`, those of the timer queue -/
  functors : List TimerFunctor := []
  /-- the timers that `addTimer` has returned a `TimerId` for -/
  returned : List (Address × ℤ) := []
  /-- those whose `addTimerInLoop` was carried out, -/
  added : List ℤ := []
  /-- those with a `cancelInLoop` that was, -/
  cancelled : List ℤ := []
  /-- those that expired after the first and before the second, -/
  crossed : List ℤ := []
  /-- and those that ran after both -/
  late : List ℤ := []

namespace TimerLoop

/-- What happens in a loop. -/
inductive Event where
  /-- `addTimer` creates a timer -/
  | newTimer (address : Address) (expiration : Timestamp) (interval : Double)
  /-- a timer is created for another loop -/
  | newTimerElsewhere
  /-- the rest of `addTimer`, in the loop's thread or in another -/
  | addTimer (isInLoopThread : Bool) (address : Address)
  | cancel (isInLoopThread : Bool) (address : Address) (sequence : ℤ)
  /-- `doPendingFunctors` takes the next functor -/
  | functor
  | handleRead (now : Timestamp)
  | run
  | ret
  | finish
  deriving DecidableEq

/-- The number of the timer at an address. -/
def sequence (s : TimerLoop) (address : Address) : List ℤ :=
  ((s.queue.heap address).map Timer.sequence).toList

/-- The numbers of the timers that are due. -/
def dueSequences (s : TimerLoop) (now : Timestamp) : List ℤ :=
  (s.queue.due now).flatMap (s.sequence ·.address)

/-- A functor is called. -/
def call (functor : TimerFunctor) (s : TimerLoop) : Option TimerLoop :=
  match functor with
  | .addTimerInLoop address =>
    (s.queue.step (.addTimerInLoop address)).map fun q =>
      { s with queue := q, added := s.added ++ s.sequence address }
  | .cancelInLoop address sequence =>
    (s.queue.step (.cancelInLoop (.of address sequence))).map fun q =>
      { s with queue := q, cancelled := s.cancelled ++ [sequence] }

/-- Source: EventLoop.cpp 101-127 -/
def runInLoop (isInLoopThread : Bool) (functor : TimerFunctor) (s : TimerLoop) :
    Option TimerLoop :=
  if isInLoopThread then s.call functor
  else some { s with functors := s.functors ++ [functor] }

/-- The timers that are added, cancelled and did not expire between. -/
def Revoked (s : TimerLoop) (n : ℤ) : Prop := n ∈ s.added ∧ n ∈ s.cancelled ∧ n ∉ s.crossed

instance (s : TimerLoop) : DecidablePred s.Revoked :=
  fun _ => inferInstanceAs (Decidable (_ ∧ _))

/-- A step of the batch, with what it runs. -/
def batchStep (s : TimerLoop) (event : TimerQueue.Event) : Option TimerLoop :=
  (s.queue.step event).map fun q =>
    { s with
      queue := q
      late := s.late ++ (q.fired.drop s.queue.fired.length).filter s.Revoked }

/-- One event. Source: TimerQueue.cc 91-105 -/
def step (s : TimerLoop) : Event → Option TimerLoop
  | .newTimer address expiration interval =>
    (s.queue.step (.newTimer address ⟨expiration, interval, s.numCreated + 1⟩)).map fun q =>
      { s with queue := q, numCreated := s.numCreated + 1 }
  | .newTimerElsewhere => some { s with numCreated := s.numCreated + 1 }
  | .addTimer isInLoopThread address =>
    if address ∈ s.queue.pending ∧ .addTimerInLoop address ∉ s.functors then
      (s.runInLoop isInLoopThread (.addTimerInLoop address)).map fun s =>
        { s with returned := s.returned ++ (s.sequence address).map (address, ·) }
    else none
  | .cancel isInLoopThread address sequence =>
    if (address, sequence) ∈ s.returned then
      s.runInLoop isInLoopThread (.cancelInLoop address sequence)
    else none
  | .functor =>
    match s.functors with
    | [] => none
    | functor :: functors =>
      if s.queue.batch = none then call functor { s with functors := functors } else none
  | .handleRead now =>
    (s.queue.step (.handleRead now)).map fun q =>
      { s with
        queue := q
        crossed := s.crossed ++ (s.dueSequences now).filter (· ∉ s.cancelled) }
  | .run => s.batchStep .run
  | .ret => s.batchStep .ret
  | .finish => s.batchStep .finish

/-- The steps of a loop. -/
def Step (s : TimerLoop) (event : Event) (s' : TimerLoop) : Prop := s.step event = some s'

/-- A timer that was added and cancelled, and did not expire between, is in neither set and has not
run since. -/
structure Effective (s : TimerLoop) : Prop where
  timers : ∀ it ∈ s.queue.timers, ∀ t, s.queue.heap it.address = some t → ¬ s.Revoked t.sequence
  activeTimers : ∀ a n, ActiveTimer.mk a n ∈ s.queue.activeTimers → ¬ s.Revoked n
  late : s.late = []

/-- The functor that an event calls. -/
def called (s : TimerLoop) : Event → Option TimerFunctor
  | .addTimer true address => some (.addTimerInLoop address)
  | .cancel true address sequence => some (.cancelInLoop address sequence)
  | .functor => s.functors.head?
  | _ => none

/-- A timer is added before it is cancelled. When it was and has not expired, its number is that of
its `TimerId`. -/
def InOrderCall (s : TimerLoop) : TimerFunctor → Prop
  | .addTimerInLoop address => ∀ n ∈ s.sequence address, n ∉ s.cancelled
  | .cancelInLoop _ sequence =>
    sequence ∈ s.added → sequence ∉ s.cancelled → sequence ∉ s.crossed → toInt sequence = sequence

instance (s : TimerLoop) : DecidablePred s.InOrderCall := by
  intro functor
  unfold InOrderCall
  split <;> infer_instance

/-- The condition on an event. -/
def InOrder (s : TimerLoop) (event : Event) : Prop := ∀ functor ∈ s.called event, s.InOrderCall functor

instance (s : TimerLoop) : DecidablePred s.InOrder :=
  fun event => inferInstanceAs (Decidable (∀ functor ∈ s.called event, s.InOrderCall functor))

end TimerLoop

/-! ## What a queue keeps of the timers' numbers -/

namespace TimerQueue

variable {q q' : TimerQueue} {a : Address} {t : Timer} {n : ℤ}

/-- No timer appears, and none gets another number. -/
structure Shrinks (q q' : TimerQueue) : Prop where
  heap : ∀ b u, q'.heap b = some u → ∃ t, q.heap b = some t ∧ t.sequence = u.sequence
  pending : ∀ b ∈ q'.pending, b ∈ q.pending
  created : q'.created = q.created

/-- No timer appears but by `newTimer`. -/
lemma Effect.shrinks {event : Event} (h : Effect q event q') (hsound : q.Sound)
    (hevent : ∀ a t, event ≠ .newTimer a t) : Shrinks q q' := by
  have hsame : ∀ b u, q.heap b = some u → ∃ t, q.heap b = some t ∧ t.sequence = u.sequence :=
    fun b u hb => ⟨u, hb, rfl⟩
  cases h with
  | newTimer a t => exact absurd rfl (hevent a t)
  | added a t => exact ⟨hsame, fun b => List.mem_of_mem_erase, rfl⟩
  | cancelled timerId t =>
      exact ⟨fun b u hb => hsame b u (heap_of_update_none hb).2, fun _ => id, rfl⟩
  | finished batch q' hbatch htodo heq =>
      obtain ⟨hheap, -, ⟨hpending, hcreated, -⟩, -⟩ := hsound.finish_spec hbatch heq
      refine ⟨fun b u hb => ?_, fun b hb => hpending ▸ hb, hcreated⟩
      rw [hheap b] at hb
      split at hb
      · obtain ⟨t, ht, -, rfl⟩ := afterReset_eq_some.mp hb
        exact ⟨t, ht, rfl⟩
      · exact hsame b u hb
  | _ => exact ⟨hsame, fun _ => id, rfl⟩

/-- A queue that only runs its batch keeps what is in it. -/
def KeepsQueued (q q' : TimerQueue) : Prop :=
  ∀ it ∈ q.timers, ∀ t, q.heap it.address = some t →
    it ∈ q'.timers ∧ q'.heap it.address = some t

/-- `reset` keeps what is in the queue. -/
lemma Sound.keepsQueued_finish {batch : Batch} (h : q.Sound) (hbatch : q.batch = some batch)
    (heq : q.finish batch = some q') : KeepsQueued q q' := by
  obtain ⟨hheap, htimers, -, -⟩ := h.finish_spec hbatch heq
  intro it hit t ht
  have hnot : it.address ∉ q.taken :=
    fun htaken => h.consistent.apart _ htaken it.expiration hit
  exact ⟨(htimers it).mpr (Or.inl hit), by rwa [hheap, if_neg hnot]⟩

end TimerQueue

namespace TimerLoop

open TimerQueue (Effect Sound Shrinks KeepsQueued)

variable {q q' : TimerQueue} {numCreated : ℤ} {returned : List (Address × ℤ)}
  {added cancelled crossed : List ℤ} {a : Address} {t : Timer} {n : ℤ}

/-! ## The numbers -/

/-- Numbers grow, so at an address none is after that of the timer there. -/
structure Numbered (q : TimerQueue) (numCreated : ℤ) (returned : List (Address × ℤ)) : Prop where
  nonneg : 0 ≤ numCreated
  created : ∀ n ∈ q.created, n ≤ numCreated
  bounds : ∀ a n, (a, n) ∈ returned → 0 ≤ n ∧ n ≤ numCreated
  latest : ∀ a n, (a, n) ∈ returned → ∀ t, q.heap a = some t → n ≤ t.sequence
  place : ∀ a n, (a, n) ∈ returned → ∀ b t, q.heap b = some t → t.sequence = n → b = a
  positive : ∀ a t, q.heap a = some t → 0 ≤ t.sequence

/-- A new timer has the next number. -/
lemma Numbered.newTimer (h : Numbered q numCreated returned) (hseq : t.sequence = numCreated + 1)
    : Numbered (q.newTimer a t) (numCreated + 1) returned := by
  have hnonneg := h.nonneg
  constructor
  · omega
  · intro n hn
    rcases List.mem_append.mp hn with hn | hn
    · have := h.created n hn
      omega
    · rw [List.mem_singleton.mp hn, hseq]
  · intro b n hn
    have := h.bounds b n hn
    omega
  · intro b n hn u hb
    rcases TimerQueue.heap_of_update_some hb with ⟨-, rfl⟩ | ⟨-, hb⟩
    · have := (h.bounds b n hn).2
      omega
    · exact h.latest b n hn u hb
  · intro b n hn c u hc hu
    rcases TimerQueue.heap_of_update_some hc with ⟨-, rfl⟩ | ⟨-, hc⟩
    · have := (h.bounds b n hn).2
      omega
    · exact h.place b n hn c u hc hu
  · intro b u hb
    rcases TimerQueue.heap_of_update_some hb with ⟨-, rfl⟩ | ⟨-, hb⟩
    · omega
    · exact h.positive b u hb

/-- Where no timer appears, the numbers are as they were. -/
lemma Numbered.keep (h : Numbered q numCreated returned) (hq : Shrinks q q') :
    Numbered q' numCreated returned where
  nonneg := h.nonneg
  created := by
    rw [hq.created]
    exact h.created
  bounds := h.bounds
  latest := by
    intro b n hn u hb
    obtain ⟨t, ht, hseq⟩ := hq.heap b u hb
    exact hseq ▸ h.latest b n hn t ht
  place := by
    intro b n hn c u hc hu
    obtain ⟨t, ht, hseq⟩ := hq.heap c u hc
    exact h.place b n hn c t ht (hseq.trans hu)
  positive := by
    intro b u hb
    obtain ⟨t, ht, hseq⟩ := hq.heap b u hb
    exact hseq ▸ h.positive b t ht

/-- `addTimer` returns the identifier of a timer that is there. -/
lemma Numbered.returns (h : Numbered q numCreated returned) (hsound : q.Sound)
    (ha : q.heap a = some t) : Numbered q numCreated (returned ++ [(a, t.sequence)]) := by
  obtain ⟨S, hcore⟩ := hsound.core
  have hcases : ∀ b n, (b, n) ∈ returned ++ [(a, t.sequence)] →
      (b, n) ∈ returned ∨ b = a ∧ n = t.sequence := by
    intro b n hn
    simpa using hn
  refine ⟨h.nonneg, h.created, ?_, ?_, ?_, h.positive⟩
  · intro b n hn
    rcases hcases b n hn with hn | ⟨-, rfl⟩
    · exact h.bounds b n hn
    · exact ⟨h.positive a t ha, h.created _ (hcore.books.live_created a t ha)⟩
  · intro b n hn u hb
    rcases hcases b n hn with hn | ⟨rfl, rfl⟩
    · exact h.latest b n hn u hb
    · rw [Option.some.inj (hb.symm.trans ha)]
  · intro b n hn c u hc hu
    rcases hcases b n hn with hn | ⟨rfl, rfl⟩
    · exact h.place b n hn c u hc hu
    · exact hcore.books.injective c b u t hc ha hu

/-- A number that is stored in an `int` does not get greater. -/
lemma toInt_le (hn : 0 ≤ n) : toInt n ≤ n := by
  unfold toInt
  rw [Int.bmod_def]
  split <;> omega

/-- A cancellation that finds a timer, finds the one that its identifier is for. -/
lemma Numbered.found (h : Numbered q numCreated returned) (hn : (a, n) ∈ returned)
    (ha : q.heap a = some t) (hseq : t.sequence = toInt n) : t.sequence = n :=
  le_antisymm (hseq.trans_le (toInt_le (h.bounds a n hn).1)) (h.latest a n hn t ha)

/-! ## The account of what was carried out -/

/-- Where a timer is that was added: in the queue until it is cancelled or expires, and gone when it
was cancelled before that. -/
structure Account (q : TimerQueue) (added cancelled crossed : List ℤ) : Prop where
  pending : ∀ a ∈ q.pending, ∀ t, q.heap a = some t → t.sequence ∉ added ∧ t.sequence ∉ crossed
  queued : ∀ n ∈ added, n ∉ cancelled → n ∉ crossed →
    ∃ it ∈ q.timers, ∃ t, q.heap it.address = some t ∧ t.sequence = n
  gone : ∀ n ∈ added, n ∈ cancelled → n ∉ crossed →
    ∀ a t, q.heap a = some t → t.sequence ≠ n

/-- A new timer is not added yet, and the account stays. -/
lemma Account.newTimer (h : Account q added cancelled crossed) (hfree : q.heap a = none)
    (hadded : t.sequence ∉ added) (hcrossed : t.sequence ∉ crossed) :
    Account (q.newTimer a t) added cancelled crossed := by
  refine ⟨?_, ?_, ?_⟩
  · intro b hb u hu
    rcases TimerQueue.heap_of_update_some hu with ⟨rfl, rfl⟩ | ⟨-, hu⟩
    · exact ⟨hadded, hcrossed⟩
    · rcases List.mem_append.mp hb with hb | hb
      · exact h.pending b hb u hu
      · rw [List.mem_singleton.mp hb, hfree] at hu
        exact absurd hu nofun
  · intro n hn hcancelled hcrossed
    obtain ⟨it, hit, u, hu, hseq⟩ := h.queued n hn hcancelled hcrossed
    exact ⟨it, hit, u, TimerQueue.heap_update_of_free hfree hu, hseq⟩
  · intro n hn hcancelled hcrossed b u hu
    rcases TimerQueue.heap_of_update_some hu with ⟨-, rfl⟩ | ⟨-, hu⟩
    · rintro rfl
      exact hadded hn
    · exact h.gone n hn hcancelled hcrossed b u hu

/-- A step that makes no timer and keeps the queue leaves the account. -/
lemma Account.keep (h : Account q added cancelled crossed) (hq : Shrinks q q')
    (hkeeps : KeepsQueued q q') : Account q' added cancelled crossed where
  pending := by
    intro b hb u hu
    obtain ⟨t, ht, hseq⟩ := hq.heap b u hu
    exact hseq ▸ h.pending b (hq.pending b hb) t ht
  queued := by
    intro n hn hcancelled hcrossed
    obtain ⟨it, hit, t, ht, hseq⟩ := h.queued n hn hcancelled hcrossed
    exact ⟨it, (hkeeps it hit t ht).1, t, (hkeeps it hit t ht).2, hseq⟩
  gone := by
    intro n hn hcancelled hcrossed b u hu
    obtain ⟨t, ht, hseq⟩ := hq.heap b u hu
    exact hseq ▸ h.gone n hn hcancelled hcrossed b t ht

/-- A timer is added that was not cancelled. -/
lemma Account.add (h : Account q added cancelled crossed) (hsound : q.Sound)
    (heffect : Effect q (.addTimerInLoop a) q') (ha : q.heap a = some t)
    (hnot : t.sequence ∉ cancelled) : Account q' (added ++ [t.sequence]) cancelled crossed := by
  obtain ⟨S, hcore⟩ := hsound.core
  cases heffect with
  | added _ t₁ hpending ha₁ =>
      obtain rfl : t₁ = t := Option.some.inj (ha₁.symm.trans ha)
      refine ⟨?_, ?_, ?_⟩
      · intro b hb u hu
        have hb' := (hcore.placed.pending_nodup.mem_erase_iff).mp hb
        have hne : u.sequence ≠ t₁.sequence :=
          fun heq => hb'.1 (hcore.books.injective b a u t₁ hu ha heq)
        simpa [hne] using h.pending b hb'.2 u hu
      · intro n hn hcancelled hcrossed
        rcases List.mem_append.mp hn with hn | hn
        · obtain ⟨it, hit, hex⟩ := h.queued n hn hcancelled hcrossed
          exact ⟨it, OrdSet.mem_insert.mpr (Or.inr hit), hex⟩
        · exact ⟨.mk t₁.expiration a, OrdSet.mem_insert.mpr (Or.inl rfl), t₁, ha,
            (List.mem_singleton.mp hn).symm⟩
      · intro n hn hcancelled hcrossed b u hu
        rcases List.mem_append.mp hn with hn | hn
        · exact h.gone n hn hcancelled hcrossed b u hu
        · rw [List.mem_singleton.mp hn] at hcancelled
          exact absurd hcancelled hnot

/-- A timer is deleted, and no other. -/
lemma Account.delete (h : Account q added cancelled crossed) (hsound : q.Sound) (e : Timestamp)
    (ha : q.heap a = some t) {active : OrdSet ActiveTimer} :
    Account { q with
      timers := q.timers.erase (.mk e a)
      activeTimers := active
      heap := Function.update q.heap a none
      deleted := q.deleted ++ [t.sequence] } added (cancelled ++ [t.sequence]) crossed := by
  obtain ⟨S, hcore⟩ := hsound.core
  refine ⟨?_, ?_, ?_⟩
  · intro b hb u hu
    exact h.pending b hb u (TimerQueue.heap_of_update_none hu).2
  · intro m hm hcancelled hcrossed
    rw [List.mem_append, List.mem_singleton, not_or] at hcancelled
    obtain ⟨it, hit, u, hu, hseq⟩ := h.queued m hm hcancelled.1 hcrossed
    have hne : it.address ≠ a := by
      intro heq
      rw [heq] at hu
      obtain rfl := Option.some.inj (hu.symm.trans ha)
      exact hcancelled.2 hseq.symm
    exact ⟨it, OrdSet.mem_erase.mpr ⟨hit, fun heq => hne (congrArg Entry.address heq)⟩, u,
      (Function.update_of_ne hne _ _).trans hu, hseq⟩
  · intro m hm hcancelled hcrossed b u hu
    obtain ⟨hba, hu⟩ := TimerQueue.heap_of_update_none hu
    rcases List.mem_append.mp hcancelled with hcancelled | hcancelled
    · exact h.gone m hm hcancelled hcrossed b u hu
    · rw [List.mem_singleton.mp hcancelled]
      exact fun heq => hba (hcore.books.injective b a u t hu ha heq)

/-- A timer that the queue holds under the number of its identifier is found. -/
lemma Numbered.found_of_queued (h : Numbered q numCreated returned) (hsound : q.Sound)
    (hn : (a, n) ∈ returned) (hsame : toInt n = n) {it : Entry} (hit : it ∈ q.timers)
    (ht : q.heap it.address = some t) (hseq : t.sequence = n) :
    ActiveTimer.mk a (toInt n) ∈ q.activeTimers := by
  obtain rfl : it.address = a := h.place a n hn it.address t ht hseq
  exact (hsound.consistent.active _ _).mpr ⟨it.expiration, t, hit, ht, hseq.trans hsame.symm⟩

/-- A timer is cancelled. If it was added and has not expired, its identifier finds it. -/
lemma Account.cancel (h : Account q added cancelled crossed) (hsound : q.Sound)
    (hids : Numbered q numCreated returned) (hn : (a, n) ∈ returned)
    (heffect : Effect q (.cancelInLoop (.of a n)) q')
    (hsame : n ∈ added → n ∉ cancelled → n ∉ crossed → toInt n = n) :
    Account q' added (cancelled ++ [n]) crossed := by
  cases heffect with
  | cancelled _ t ha hseq hmem =>
      obtain rfl : t.sequence = n := hids.found hn ha hseq
      exact h.delete hsound t.expiration ha
  | noted _ hnot =>
      refine ⟨h.pending, ?_, ?_⟩
      · intro m hm hcancelled hcrossed
        rw [List.mem_append, not_or] at hcancelled
        exact h.queued m hm hcancelled.1 hcrossed
      · intro m hm hcancelled hcrossed b u hu
        by_cases hbefore : m ∈ cancelled
        · exact h.gone m hm hbefore hcrossed b u hu
        obtain rfl : m = n :=
          List.mem_singleton.mp ((List.mem_append.mp hcancelled).resolve_left hbefore)
        obtain ⟨it, hit, t, ht, hseq⟩ := h.queued m hm hbefore hcrossed
        exact absurd (hids.found_of_queued hsound hn (hsame hm hbefore hcrossed) hit ht hseq) hnot

/-- The numbers of what is due are those of the timers of its entries. -/
lemma mem_dueSequences {s : TimerLoop} {now : Timestamp} : n ∈ s.dueSequences now ↔
    ∃ it ∈ s.queue.due now, ∃ t, s.queue.heap it.address = some t ∧ t.sequence = n := by
  simp [dueSequences, sequence, List.mem_flatMap]

/-- The timers of a batch that is taken out have expired, in the account. -/
lemma Account.expire {s : TimerLoop} (h : Account s.queue added cancelled crossed)
    (hsound : s.queue.Sound) {now : Timestamp} (heffect : Effect s.queue (.handleRead now) q') :
    Account q' added cancelled (crossed ++ (s.dueSequences now).filter (· ∉ cancelled)) := by
  obtain ⟨S, hcore⟩ := hsound.core
  cases heffect with
  | expired _ active hbatch =>
      refine ⟨?_, ?_, ?_⟩
      · intro b hb u hu
        obtain ⟨hadded, hcrossed⟩ := h.pending b hb u hu
        refine ⟨hadded, ?_⟩
        rw [List.mem_append, List.mem_filter, not_or, not_and_or]
        refine ⟨hcrossed, Or.inl fun hdue => ?_⟩
        -- what is due is in the queue, and what is pending is not
        obtain ⟨it, hit, t, ht, hseq⟩ := mem_dueSequences.mp hdue
        obtain rfl := hcore.books.injective it.address b t u ht hu hseq
        exact hcore.placed.pending_queue _ hb (hcore.mem_queue_of_due (List.mem_map_of_mem hit))
      · intro n hn hcancelled hcrossed
        rw [List.mem_append, List.mem_filter, not_or, not_and_or] at hcrossed
        obtain ⟨it, hit, t, ht, hseq⟩ := h.queued n hn hcancelled hcrossed.1
        refine ⟨it, OrdSet.mem_startingAt.mpr ⟨hit, not_lt.mp fun hlt => ?_⟩, t, ht, hseq⟩
        have hdue : n ∈ s.dueSequences now :=
          mem_dueSequences.mpr ⟨it, OrdSet.mem_before.mpr ⟨hit, hlt⟩, t, ht, hseq⟩
        rcases hcrossed.2 with hnot | hnot
        · exact hnot hdue
        · simp [hcancelled] at hnot
      · intro n hn hcancelled hcrossed
        rw [List.mem_append, not_or] at hcrossed
        exact h.gone n hn hcancelled hcrossed.1

/-! ## The invariant over runs -/

/-- The invariant of a loop. -/
structure Invariant (s : TimerLoop) : Prop where
  sound : s.queue.Sound
  numbered : Numbered s.queue s.numCreated s.returned
  account : Account s.queue s.added s.cancelled s.crossed
  added : ∀ n ∈ s.added, n ≤ s.numCreated
  crossed : ∀ n ∈ s.crossed, n ≤ s.numCreated
  functors : ∀ a n, .cancelInLoop a n ∈ s.functors → (a, n) ∈ s.returned
  late : s.late = []

variable {s s' : TimerLoop} {event : Event} {functor : TimerFunctor}

/-- A timer that lives was not cancelled since it was added. -/
lemma Invariant.not_revoked (h : s.Invariant) (ha : s.queue.heap a = some t) :
    ¬ s.Revoked t.sequence :=
  fun ⟨hadded, hcancelled, hcrossed⟩ => h.account.gone _ hadded hcancelled hcrossed a t ha rfl

/-- The invariant says that cancellations are effective. -/
lemma Invariant.effective (h : s.Invariant) : s.Effective where
  timers := fun _ _ _ ht => h.not_revoked ht
  activeTimers := by
    intro a n hmem
    obtain ⟨-, t, -, ht, rfl⟩ := (h.sound.consistent.active a n).mp hmem
    exact h.not_revoked ht
  late := h.late

/-- The number at an address is that of the timer there. -/
lemma sequence_eq (ha : s.queue.heap a = some t) : s.sequence a = [t.sequence] := by
  rw [sequence, ha]
  rfl

/-- A timer that lives has a number that was given. -/
lemma Invariant.le_numCreated (h : s.Invariant) (ha : s.queue.heap a = some t) :
    t.sequence ≤ s.numCreated := by
  obtain ⟨S, hcore⟩ := h.sound.core
  exact h.numbered.created _ (hcore.books.live_created a t ha)

/-- A functor for a `cancel` has an identifier that was returned. -/
def Known (s : TimerLoop) : TimerFunctor → Prop
  | .addTimerInLoop _ => True
  | .cancelInLoop address sequence => (address, sequence) ∈ s.returned

/-- A functor that is called in order keeps the invariant. -/
lemma Invariant.call (h : s.Invariant) (hknown : s.Known functor)
    (heq : s.call functor = some s') (hin : s.InOrderCall functor) : s'.Invariant := by
  cases functor with
  | addTimerInLoop a =>
      obtain ⟨q, hst, rfl⟩ := Option.map_eq_some_iff.mp heq
      have heffect := h.sound.effect hst
      obtain ⟨t, ha⟩ : ∃ t, s.queue.heap a = some t := by
        cases heffect with
        | added _ t _ ha => exact ⟨t, ha⟩
      have hnot : t.sequence ∉ s.cancelled := hin _ (by simp [sequence_eq ha])
      rw [sequence_eq ha]
      refine ⟨h.sound.step hst, h.numbered.keep (heffect.shrinks h.sound nofun),
        h.account.add h.sound heffect ha hnot, ?_, h.crossed, h.functors, h.late⟩
      intro n hn
      rcases List.mem_append.mp hn with hn | hn
      · exact h.added n hn
      · rw [List.mem_singleton.mp hn]
        exact h.le_numCreated ha
  | cancelInLoop a n =>
      obtain ⟨q, hst, rfl⟩ := Option.map_eq_some_iff.mp heq
      have heffect := h.sound.effect hst
      exact ⟨h.sound.step hst, h.numbered.keep (heffect.shrinks h.sound nofun),
        h.account.cancel h.sound h.numbered hknown heffect hin, h.added, h.crossed, h.functors,
        h.late⟩

/-- A call that is out of order leaves a timer in the queue that was added and cancelled. -/
lemma Invariant.inOrder_of_call (h : s.Invariant) (hknown : s.Known functor)
    (heq : s.call functor = some s') (hP : s'.Effective) : s.InOrderCall functor := by
  cases functor with
  | addTimerInLoop a =>
      obtain ⟨q, hst, rfl⟩ := Option.map_eq_some_iff.mp heq
      cases h.sound.effect hst with
      | added _ t hpending ha =>
          intro n hn hcancelled
          rw [sequence_eq ha, List.mem_singleton] at hn
          subst hn
          refine hP.timers (.mk t.expiration a) (OrdSet.mem_insert.mpr (Or.inl rfl)) t ha
            ⟨?_, hcancelled, (h.account.pending a hpending t ha).2⟩
          simp [sequence_eq ha]
  | cancelInLoop a n =>
      obtain ⟨q, hst, rfl⟩ := Option.map_eq_some_iff.mp heq
      intro hadded hcancelled hcrossed
      cases h.sound.effect hst with
      | cancelled _ t ha hseq =>
          have hfound := h.numbered.found hknown ha hseq
          exact hseq.symm.trans hfound
      | noted _ hnot =>
          obtain ⟨it, hit, t, ht, rfl⟩ := h.account.queued n hadded hcancelled hcrossed
          exact absurd ⟨hadded, by simp, hcrossed⟩ (hP.timers it hit t ht)

/-- `runInLoop` keeps the invariant, whether it calls the functor or queues it. -/
lemma Invariant.runInLoop {isInLoopThread : Bool} (h : s.Invariant) (hknown : s.Known functor)
    (heq : s.runInLoop isInLoopThread functor = some s')
    (hin : isInLoopThread = true → s.InOrderCall functor) : s'.Invariant := by
  unfold TimerLoop.runInLoop at heq
  split at heq
  · next hthread => exact h.call hknown heq (hin hthread)
  · obtain rfl := Option.some.inj heq
    refine ⟨h.sound, h.numbered, h.account, h.added, h.crossed, ?_, h.late⟩
    intro a n hmem
    rcases List.mem_append.mp hmem with hmem | hmem
    · exact h.functors a n hmem
    · obtain rfl := List.mem_singleton.mp hmem
      exact hknown

/-- Taking a functor out keeps the invariant. -/
lemma Invariant.tail {functors : List TimerFunctor} (h : s.Invariant)
    (heq : s.functors = functor :: functors) : Invariant { s with functors := functors } where
  sound := h.sound
  numbered := h.numbered
  account := h.account
  added := h.added
  crossed := h.crossed
  functors := fun a n hmem => h.functors a n (heq ▸ List.mem_cons_of_mem _ hmem)
  late := h.late

/-- The first functor in the queue has an identifier that was returned. -/
lemma Invariant.known_head {functors : List TimerFunctor} (h : s.Invariant)
    (heq : s.functors = functor :: functors) : s.Known functor := by
  cases functor with
  | addTimerInLoop a => trivial
  | cancelInLoop a n => exact h.functors a n (heq ▸ List.mem_cons_self)

/-- `addTimer` keeps the invariant when it returns. -/
lemma Invariant.returns (h : s.Invariant) (a : Address) :
    Invariant { s with returned := s.returned ++ (s.sequence a).map (a, ·) } := by
  refine ⟨h.sound, ?_, h.account, h.added, h.crossed,
    fun b n hmem => List.mem_append_left _ (h.functors b n hmem), h.late⟩
  rcases ha : s.queue.heap a with _ | t
  · simpa [sequence, ha] using h.numbered
  · rw [sequence_eq ha]
    exact h.numbered.returns h.sound ha

/-- The constructor of a timer keeps the invariant. -/
lemma Invariant.newTimer (h : s.Invariant) {e : Timestamp} {interval : Double}
    (hst : TimerQueue.Step s.queue (.newTimer a ⟨e, interval, s.numCreated + 1⟩) q) :
    Invariant { s with queue := q, numCreated := s.numCreated + 1 } := by
  have hsound := h.sound.step hst
  cases h.sound.effect hst with
  | newTimer _ _ hen =>
      have hadded : s.numCreated + 1 ∉ s.added := fun hn => by have := h.added _ hn; omega
      have hcrossed : s.numCreated + 1 ∉ s.crossed := fun hn => by have := h.crossed _ hn; omega
      have hle : s.numCreated ≤ s.numCreated + 1 := by omega
      exact ⟨hsound, h.numbered.newTimer rfl, h.account.newTimer hen.1 hadded hcrossed,
        fun n hn => (h.added n hn).trans hle, fun n hn => (h.crossed n hn).trans hle,
        h.functors, h.late⟩

/-- A timer of another loop takes a number, and keeps the invariant. -/
lemma Invariant.newTimerElsewhere (h : s.Invariant) :
    Invariant { s with numCreated := s.numCreated + 1 } := by
  have hle : s.numCreated ≤ s.numCreated + 1 := by omega
  refine ⟨h.sound, ?_, h.account, fun n hn => (h.added n hn).trans hle,
    fun n hn => (h.crossed n hn).trans hle, h.functors, h.late⟩
  exact ⟨h.numbered.nonneg.trans hle, fun n hn => (h.numbered.created n hn).trans hle,
    fun a n hn => (h.numbered.bounds a n hn).imp_right fun hbound => hbound.trans hle,
    h.numbered.latest, h.numbered.place, h.numbered.positive⟩

/-- Taking out a batch keeps the invariant. -/
lemma Invariant.handleRead (h : s.Invariant) {now : Timestamp}
    (hst : TimerQueue.Step s.queue (.handleRead now) q) :
    Invariant { s with
      queue := q
      crossed := s.crossed ++ (s.dueSequences now).filter (· ∉ s.cancelled) } := by
  have heffect := h.sound.effect hst
  refine ⟨h.sound.step hst, h.numbered.keep (heffect.shrinks h.sound nofun),
    h.account.expire h.sound heffect, h.added, ?_, h.functors, h.late⟩
  intro n hn
  rcases List.mem_append.mp hn with hn | hn
  · exact h.crossed n hn
  · obtain ⟨it, -, t, ht, rfl⟩ := mem_dueSequences.mp (List.mem_filter.mp hn).1
    exact h.le_numCreated ht

/-- The batch runs timers that are there, so none that was added and cancelled. -/
lemma Invariant.batchStep (h : s.Invariant) {event : TimerQueue.Event}
    (hst : TimerQueue.Step s.queue event q) (hevent : ∀ a t, event ≠ .newTimer a t)
    (hkeeps : KeepsQueued s.queue q) :
    Invariant { s with
      queue := q
      late := s.late ++ (q.fired.drop s.queue.fired.length).filter s.Revoked } := by
  have heffect := h.sound.effect hst
  have hshrinks := heffect.shrinks h.sound hevent
  refine ⟨h.sound.step hst, h.numbered.keep hshrinks, h.account.keep hshrinks hkeeps, h.added,
    h.crossed, h.functors, ?_⟩
  rw [h.late]
  rcases heffect.fired h.sound with heq | ⟨a, t, ha, -, heq⟩
  · simp [heq]
  · simp [heq, h.not_revoked ha]

/-- Every step in order keeps the invariant. -/
lemma Invariant.step (h : s.Invariant) (hst : Step s event s') (hin : s.InOrder event) :
    s'.Invariant := by
  cases event with
  | newTimer a e interval =>
      obtain ⟨q, hq, rfl⟩ := Option.map_eq_some_iff.mp hst
      exact h.newTimer hq
  | newTimerElsewhere =>
      obtain rfl := Option.some.inj hst
      exact h.newTimerElsewhere
  | addTimer isInLoopThread a =>
      simp only [Step, TimerLoop.step] at hst
      split at hst
      · obtain ⟨s₁, heq, rfl⟩ := Option.map_eq_some_iff.mp hst
        refine (h.runInLoop (by trivial) heq fun hthread => ?_).returns a
        exact hin _ (by rw [hthread]; rfl)
      · exact absurd hst nofun
  | cancel isInLoopThread a n =>
      simp only [Step, TimerLoop.step] at hst
      split at hst
      · next hmem =>
          have hknown : s.Known (.cancelInLoop a n) := hmem
          exact h.runInLoop hknown hst fun hthread => hin _ (by rw [hthread]; rfl)
      · exact absurd hst nofun
  | functor =>
      rcases hfunctors : s.functors with _ | ⟨functor, functors⟩
      · simp [Step, TimerLoop.step, hfunctors] at hst
      · simp only [Step, TimerLoop.step, hfunctors] at hst
        split at hst
        · exact (h.tail hfunctors).call (h.known_head hfunctors) hst
            (hin functor (by simp [called, hfunctors]))
        · exact absurd hst nofun
  | handleRead now =>
      obtain ⟨q, hq, rfl⟩ := Option.map_eq_some_iff.mp hst
      exact h.handleRead hq
  | run =>
      obtain ⟨q, hq, rfl⟩ := Option.map_eq_some_iff.mp hst
      refine h.batchStep hq nofun ?_
      cases h.sound.effect hq with
      | ran => exact fun it hit t ht => ⟨hit, ht⟩
  | ret =>
      obtain ⟨q, hq, rfl⟩ := Option.map_eq_some_iff.mp hst
      refine h.batchStep hq nofun ?_
      cases h.sound.effect hq with
      | returned => exact fun it hit t ht => ⟨hit, ht⟩
  | finish =>
      obtain ⟨q, hq, rfl⟩ := Option.map_eq_some_iff.mp hst
      refine h.batchStep hq nofun ?_
      cases h.sound.effect hq with
      | finished batch q hbatch htodo heq => exact h.sound.keepsQueued_finish hbatch heq

/-- A step that keeps the identifiers effective is in order. -/
lemma Invariant.inOrder (h : s.Invariant) (hst : Step s event s') (hP : s'.Effective) :
    s.InOrder event := by
  intro functor hcalled
  cases event with
  | addTimer isInLoopThread a =>
      cases isInLoopThread with
      | false => exact absurd hcalled nofun
      | true =>
          obtain rfl := Option.some.inj hcalled
          simp only [Step, TimerLoop.step] at hst
          split at hst
          · obtain ⟨s₁, heq, rfl⟩ := Option.map_eq_some_iff.mp hst
            exact h.inOrder_of_call (by trivial) heq ⟨hP.timers, hP.activeTimers, hP.late⟩
          · exact absurd hst nofun
  | cancel isInLoopThread a n =>
      cases isInLoopThread with
      | false => exact absurd hcalled nofun
      | true =>
          obtain rfl := Option.some.inj hcalled
          simp only [Step, TimerLoop.step] at hst
          split at hst
          · next hmem =>
              have hknown : s.Known (.cancelInLoop a n) := hmem
              exact h.inOrder_of_call hknown hst hP
          · exact absurd hst nofun
  | functor =>
      rcases hfunctors : s.functors with _ | ⟨head, functors⟩
      · simp [Step, TimerLoop.step, hfunctors] at hst
      · obtain rfl : head = functor := by simpa [called, hfunctors] using hcalled
        simp only [Step, TimerLoop.step, hfunctors] at hst
        split at hst
        · exact (h.tail hfunctors).inOrder_of_call (h.known_head hfunctors) hst hP
        · exact absurd hst nofun
  | _ => exact absurd hcalled nofun

/-- A loop that nothing happened in, in a process that has created timers. -/
def start (numCreated : ℕ) : TimerLoop := { numCreated := numCreated }

/-- A loop without timers satisfies the invariant. -/
lemma invariant_start (numCreated : ℕ) : Invariant (start numCreated) where
  sound := TimerQueue.sound_empty
  numbered := ⟨Int.natCast_nonneg _, nofun, nofun, nofun, nofun, nofun⟩
  account := ⟨nofun, nofun, nofun⟩
  added := nofun
  crossed := nofun
  functors := nofun
  late := rfl

/-- **When timer identifiers are effective**: throughout a run, exactly when every timer is added
before it is cancelled, and has the number of its identifier when it is. -/
theorem effective_iff {numCreated : ℕ} {p : List (Event × TimerLoop)}
    (hp : Path Step (start numCreated) p) :
    Throughout Effective (start numCreated) p ↔ MeetsAll InOrder (start numCreated) p :=
  hp.throughout_iff_meetsAll_of_invariant (fun _ h => h.effective)
    (fun _ _ _ h hst hin => h.step hst hin) (fun _ _ _ h hst hP => h.inOrder hst hP)
    (invariant_start numCreated)

/-- A timer of another thread, cancelled in the loop's own once it was added. -/
theorem effective_iff_two_threads :
    Throughout Effective (start 4)
      (trace step (start 4) [.newTimer 16 ⟨5⟩ 1, .newTimerElsewhere, .addTimer false 16, .functor,
        .cancel true 16 5, .handleRead ⟨7⟩, .finish]) :=
  (effective_iff (path_trace step _ _)).mpr (by decide +kernel)

/-- A timer is added on another thread, and cancelled in the loop's own before that is carried out.
-/
def overtaken : List (Event × TimerLoop) :=
  trace step (start 0) [.newTimer 16 ⟨5⟩ 0, .addTimer false 16, .cancel true 16 1, .functor]

/-- A timer is added and cancelled in the loop's thread, after 2147483647 others. -/
def beyondInt : List (Event × TimerLoop) :=
  trace step (start (2 ^ 31 - 1)) [.newTimer 16 ⟨5⟩ 0, .addTimer true 16, .cancel true 16 (2 ^ 31)]

/-- A timer whose cancellation comes first, and one whose number exceeds an `int`, stay in the
queue. -/
theorem not_effective :
    (¬ ∀ p : List (Event × TimerLoop), Path Step (start 0) p → Throughout Effective (start 0) p) ∧
      ¬ ∀ p : List (Event × TimerLoop), Path Step (start (2 ^ 31 - 1)) p →
        Throughout Effective (start (2 ^ 31 - 1)) p := by
  constructor
  · intro h
    have hgone : ∀ x ∈ overtaken, ∀ it ∈ x.2.queue.timers.toList,
        ∀ t ∈ x.2.queue.heap it.address, ¬ x.2.Revoked t.sequence :=
      fun x hx it hit t ht => ((h _ (path_trace step _ _)).2 x hx).timers it hit t ht
    revert hgone
    decide +kernel
  · intro h
    have hgone : ∀ x ∈ beyondInt, ∀ it ∈ x.2.queue.timers.toList,
        ∀ t ∈ x.2.queue.heap it.address, ¬ x.2.Revoked t.sequence :=
      fun x hx it hit t ht => ((h _ (path_trace step _ _)).2 x hx).timers it hit t ht
    revert hgone
    decide +kernel

end TimerLoop

end SwiftNetCore
