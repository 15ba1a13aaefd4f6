import SwiftNetCore.TimerCancel
import SwiftNetCore.TimerFiring

/-!
# What becomes of a timer

The record of a timer queue: the timers that were created, each as it was then, and the invocations
of their callbacks, each with the `now` of its batch.

* `OnTime`: a callback is not invoked before the expiration its timer was created with, and then not
  before one interval behind the last invocation; that of a timer that does not repeat, once at
  most.
* `onTime_throughout`: over every run, with any clock, any callbacks and any cancellations.
-/

namespace SwiftNetCore

open Paths (Path Throughout trace path_trace)

/-! ## The times of a timer -/

namespace Timer

/-- When a timer is due behind its invocations. -/
def dueBehind (t : Timer) (times : List Timestamp) : Timestamp :=
  match times.getLast? with
  | none => t.expiration
  | some now => addTime now t.interval

/-- The times at which a callback is invoked are as its timer was created. -/
structure OnTime (t : Timer) (times : List Timestamp) : Prop where
  /-- none comes early -/
  due : ∀ earlier now later, times = earlier ++ now :: later → t.dueBehind earlier ≤ now
  once : ¬ t.Repeats → times.length ≤ 1

variable {t : Timer} {times : List Timestamp} {now : Timestamp}

/-- At first a timer is due when it was set. -/
@[simp] lemma dueBehind_nil : t.dueBehind [] = t.expiration := rfl

/-- Behind an invocation, a timer is due an interval later. -/
@[simp] lemma dueBehind_append : t.dueBehind (times ++ [now]) = addTime now t.interval := by
  simp [dueBehind]

/-- A timer is due an interval behind the last of its invocations. -/
lemma dueBehind_of_getLast? (h : times.getLast? = some now) :
    t.dueBehind times = addTime now t.interval := by
  rw [dueBehind, h]

/-- A callback that was not invoked was not invoked early. -/
lemma onTime_nil : t.OnTime [] where
  due := by simp
  once := by simp

/-- One invocation more is on time when the timer is due, and has not run or repeats. -/
lemma OnTime.append (h : t.OnTime times) (hdue : t.dueBehind times ≤ now)
    (honce : ¬ t.Repeats → times = []) : t.OnTime (times ++ [now]) where
  due := by
    intro earlier now' later heq
    rcases List.eq_nil_or_concat later with rfl | ⟨later, last, rfl⟩
    · obtain ⟨rfl, hlast⟩ := List.append_inj' heq rfl
      obtain rfl := List.head_eq_of_cons_eq hlast
      exact hdue
    · rw [List.concat_eq_append, ← List.cons_append, ← List.append_assoc] at heq
      exact h.due earlier now' later (List.append_inj' heq rfl).1
  once := by
    intro hrepeats
    simp [honce hrepeats]

end Timer

/-! ## The record -/

namespace TimerQueue

/-- The invocation that an event is: the number of the timer, and the time of the batch. -/
def invoked (q : TimerQueue) : Event → List (ℤ × Timestamp)
  | .run =>
    match q.batch with
    | some batch =>
      match batch.todo with
      | it :: _ => ((q.heap it.address).map fun t => (t.sequence, batch.now)).toList
      | [] => []
    | none => []
  | _ => []

/-- A timer that waits to be run is in the batch. -/
lemma Sound.taken_of_waiting {q : TimerQueue} {a : Address} (h : q.Sound) (ha : a ∈ q.waiting) :
    a ∈ q.taken := by
  rcases hbatch : q.batch with _ | batch
  · rw [waiting, hbatch] at ha
    exact absurd ha List.not_mem_nil
  · rw [waiting, hbatch] at ha
    rw [taken_of_batch hbatch]
    exact List.map_subset _ (h.todo batch hbatch).subset ha

/-- The timer that an event creates. -/
def Event.createdTimer : Event → List Timer
  | .newTimer _ t => [t]
  | _ => []

end TimerQueue

/-- A timer queue and its record. -/
structure TimerHistory where
  queue : TimerQueue := {}
  /-- the timers created, as they were then -/
  timers : List Timer := []
  /-- the invocations, in order -/
  invocations : List (ℤ × Timestamp) := []

namespace TimerHistory

open TimerQueue (Event Effect)

/-- One event of the queue. -/
def step (s : TimerHistory) (event : Event) : Option TimerHistory :=
  (s.queue.step event).map fun q =>
    { queue := q
      timers := s.timers ++ event.createdTimer
      invocations := s.invocations ++ s.queue.invoked event }

/-- The steps of a queue with its record. -/
def Step (s : TimerHistory) (event : Event) (s' : TimerHistory) : Prop := s.step event = some s'

/-- The times at which the callback of a timer was invoked. -/
def times (s : TimerHistory) (n : ℤ) : List Timestamp :=
  (s.invocations.filter fun x => x.1 = n).map Prod.snd

variable {s s' : TimerHistory} {event : Event} {a : Address} {t u : Timer} {n : ℤ}

/-- A step of the record is one of the queue, and notes the timer created and the invocation. -/
lemma Step.cases (h : Step s event s') : TimerQueue.Step s.queue event s'.queue ∧
    s'.timers = s.timers ++ event.createdTimer ∧
    s'.invocations = s.invocations ++ s.queue.invoked event := by
  obtain ⟨q, heq, rfl⟩ := Option.map_eq_some_iff.mp h
  exact ⟨heq, rfl, rfl⟩

/-- The times of a timer are read off the invocations. -/
lemma times_congr (h : s'.invocations = s.invocations) : s'.times n = s.times n := by
  rw [times, times, h]

/-- An invocation is one more time for its own timer, and none for others. -/
lemma times_append {now : Timestamp} {m : ℤ} (h : s'.invocations = s.invocations ++ [(m, now)]) :
    s'.times n = if m = n then s.times n ++ [now] else s.times n := by
  rw [times, times, h, List.filter_append, List.map_append]
  split
  · next heq => simp [heq]
  · next hne => simp [hne]

/-- What the live timer `u` at `a` has to do with the timer `t` that was created. -/
structure Continues (s : TimerHistory) (a : Address) (u t : Timer) : Prop where
  interval : u.interval = t.interval
  /-- outside of a batch, and in it until it runs, it is due as it was created -/
  expiration : (a ∈ s.queue.taken → a ∈ s.queue.waiting) →
    u.expiration = t.dueBehind (s.times t.sequence)
  fresh : (a ∈ s.queue.taken → a ∈ s.queue.waiting) → ¬ t.Repeats → s.times t.sequence = []
  /-- the last time it was invoked is that of the batch in which it has run -/
  ran : ∀ batch ∈ s.queue.batch, a ∈ s.queue.taken → a ∉ s.queue.waiting →
    (s.times t.sequence).getLast? = some batch.now

/-- The invariant of the record. -/
structure Timed (s : TimerHistory) : Prop where
  sound : s.queue.Sound
  created : s.queue.created = s.timers.map Timer.sequence
  invoked : ∀ x ∈ s.invocations, x.1 ∈ s.queue.created
  onTime : ∀ t ∈ s.timers, t.OnTime (s.times t.sequence)
  continues : ∀ a u, s.queue.heap a = some u → ∀ t ∈ s.timers, t.sequence = u.sequence →
    s.Continues a u t
  /-- the timers of a batch that wait are due -/
  waiting : ∀ batch ∈ s.queue.batch, ∀ a ∈ s.queue.waiting, ∀ u, s.queue.heap a = some u →
    u.expiration ≤ batch.now

/-- Events that invoke nothing, create nothing and leave the batch keep the record on time. -/
lemma Timed.keep (h : s.Timed) (hsound : s'.queue.Sound) (htimers : s'.timers = s.timers)
    (hinvocations : s'.invocations = s.invocations)
    (hcreated : s'.queue.created = s.queue.created)
    (hheap : ∀ a u, s'.queue.heap a = some u → s.queue.heap a = some u)
    (htaken : s'.queue.taken = s.queue.taken) (hwaiting : s'.queue.waiting = s.queue.waiting)
    (hnow : ∀ batch ∈ s'.queue.batch, ∃ batch' ∈ s.queue.batch, batch'.now = batch.now) :
    s'.Timed where
  sound := hsound
  created := by rw [hcreated, htimers, h.created]
  invoked := by
    rw [hinvocations, hcreated]
    exact h.invoked
  onTime := by
    intro t ht
    rw [times_congr hinvocations]
    exact h.onTime t (htimers ▸ ht)
  continues := by
    intro a u hu t ht hseq
    have hc := h.continues a u (hheap a u hu) t (htimers ▸ ht) hseq
    refine ⟨hc.interval, ?_, ?_, ?_⟩ <;> rw [htaken, hwaiting, times_congr hinvocations]
    · exact hc.expiration
    · exact hc.fresh
    · intro batch hbatch
      obtain ⟨batch', hbatch', hnow⟩ := hnow batch hbatch
      exact hnow ▸ hc.ran batch' hbatch'
  waiting := by
    intro batch hbatch a ha u hu
    obtain ⟨batch', hbatch', hnow⟩ := hnow batch hbatch
    exact hnow ▸ h.waiting batch' hbatch' a (hwaiting ▸ ha) u (hheap a u hu)

/-- A new timer was not invoked, and its number is new. -/
lemma Timed.newTimer (h : s.Timed) (hsound : s'.queue.Sound)
    (hen : s.queue.Enabled (.newTimer a t)) (hqueue : s'.queue = s.queue.newTimer a t)
    (htimers : s'.timers = s.timers ++ [t]) (hinvocations : s'.invocations = s.invocations) :
    s'.Timed := by
  obtain ⟨hfree, -, -, hfresh⟩ := hen
  have hcreated : s'.queue.created = s.queue.created ++ [t.sequence] := by rw [hqueue]; rfl
  have hheap : s'.queue.heap = Function.update s.queue.heap a (some t) := by rw [hqueue]; rfl
  have hbatch : s'.queue.batch = s.queue.batch := by rw [hqueue]; rfl
  have htaken : s'.queue.taken = s.queue.taken := by rw [hqueue]; rfl
  have hwaiting : s'.queue.waiting = s.queue.waiting := by rw [hqueue]; rfl
  have hnever : s.times t.sequence = [] := by
    rw [times, List.map_eq_nil_iff, List.filter_eq_nil_iff]
    intro x hx heq
    exact hfresh (of_decide_eq_true heq ▸ h.invoked x hx)
  have hold : ∀ t' ∈ s.timers, t'.sequence ≠ t.sequence := by
    intro t' ht' heq
    exact hfresh (heq ▸ h.created ▸ List.mem_map_of_mem ht')
  -- nothing of the batch is at a free address
  obtain ⟨S, hcore⟩ := h.sound.core
  have hnot : a ∉ s.queue.taken := fun ha =>
    (hcore.placed.live_iff a).mpr (Or.inr (Or.inr ha)) hfree
  refine ⟨hsound, by rw [hcreated, htimers, h.created, List.map_append]; rfl, ?_, ?_, ?_, ?_⟩
  · rw [hinvocations, hcreated]
    exact fun x hx => List.mem_append_left _ (h.invoked x hx)
  · intro t' ht'
    rw [times_congr hinvocations]
    rcases List.mem_append.mp (htimers ▸ ht') with ht' | ht'
    · exact h.onTime t' ht'
    · obtain rfl := List.mem_singleton.mp ht'
      rw [hnever]
      exact Timer.onTime_nil
  · intro b u hu t' ht' hseq
    rw [hheap] at hu
    rcases TimerQueue.heap_of_update_some hu with ⟨rfl, rfl⟩ | ⟨-, hlive⟩
    · rcases List.mem_append.mp (htimers ▸ ht') with ht' | ht'
      · exact absurd hseq (hold t' ht')
      · obtain rfl := List.mem_singleton.mp ht'
        refine ⟨rfl, fun _ => ?_, fun _ _ => ?_, fun _ _ ha => ?_⟩
        · rw [times_congr hinvocations, hnever, Timer.dueBehind_nil]
        · rw [times_congr hinvocations, hnever]
        · exact absurd (htaken ▸ ha) hnot
    · rcases List.mem_append.mp (htimers ▸ ht') with ht' | ht'
      · have hc := h.continues b u hlive t' ht' hseq
        refine ⟨hc.interval, ?_, ?_, ?_⟩ <;> rw [htaken, hwaiting, times_congr hinvocations]
        · exact hc.expiration
        · exact hc.fresh
        · rw [hbatch]
          exact hc.ran
      · obtain rfl := List.mem_singleton.mp ht'
        exact absurd (hseq.symm ▸ hcore.books.live_created b u hlive) hfresh
  · intro batch hb b hwait u hu
    rw [hbatch] at hb
    rw [hwaiting] at hwait
    rw [hheap] at hu
    rcases TimerQueue.heap_of_update_some hu with ⟨rfl, rfl⟩ | ⟨-, hu⟩
    · exact absurd (h.sound.taken_of_waiting hwait) hnot
    · exact h.waiting batch hb b hwait u hu

/-- A batch that starts has the timers that are due. -/
lemma Timed.expired (h : s.Timed) {now : Timestamp} (hsound : s'.queue.Sound)
    (hbatch : s.queue.batch = none) (hqueue : s'.queue.heap = s.queue.heap)
    (hcreated : s'.queue.created = s.queue.created)
    (hbatch' : s'.queue.batch = some ⟨now, s.queue.due now, s.queue.due now, none⟩)
    (htimers : s'.timers = s.timers) (hinvocations : s'.invocations = s.invocations) :
    s'.Timed := by
  obtain ⟨S, hcore⟩ := h.sound.core
  have htaken : s'.queue.taken = (s.queue.due now).map Entry.address :=
    TimerQueue.taken_of_batch hbatch'
  have hwaiting : s'.queue.waiting = (s.queue.due now).map Entry.address := by
    rw [TimerQueue.waiting, hbatch']
  have hnone : ∀ a, a ∈ s.queue.taken → a ∈ s.queue.waiting := by
    intro a ha
    rw [TimerQueue.taken_eq_nil hbatch] at ha
    exact absurd ha List.not_mem_nil
  refine ⟨hsound, by rw [hcreated, htimers, h.created], ?_, ?_, ?_, ?_⟩
  · rw [hinvocations, hcreated]
    exact h.invoked
  · intro t ht
    rw [times_congr hinvocations]
    exact h.onTime t (htimers ▸ ht)
  · intro a u hu t ht hseq
    have hc := h.continues a u (hqueue ▸ hu) t (htimers ▸ ht) hseq
    refine ⟨hc.interval, fun _ => ?_, fun _ => ?_, fun _ _ ha hnot => ?_⟩
    · rw [times_congr hinvocations]
      exact hc.expiration (hnone a)
    · rw [times_congr hinvocations]
      exact hc.fresh (hnone a)
    · rw [htaken] at ha
      rw [hwaiting] at hnot
      exact absurd ha hnot
  · intro batch hb a ha u hu
    obtain rfl := Option.some.inj (hbatch'.symm.trans hb)
    rw [hwaiting] at ha
    obtain ⟨it, hit, rfl⟩ := List.mem_map.mp ha
    rw [← Entry.mk_eta it] at hit
    obtain ⟨hmem, hle⟩ := hcore.mem_expired.mp hit
    obtain ⟨v, hv, he⟩ := h.sound.consistent.expiration _ _ hmem
    rw [hqueue, hv] at hu
    obtain rfl := Option.some.inj hu
    rw [he]
    exact hle

/-- The first of the timers that wait is invoked, and is due. -/
lemma Timed.ran (h : s.Timed) {batch : Batch} {it : Entry} {todo : List Entry}
    (hsound : s'.queue.Sound) (hbatch : s.queue.batch = some batch) (htodo : batch.todo = it :: todo)
    (hu : s.queue.heap it.address = some u) (hheap : s'.queue.heap = s.queue.heap)
    (hcreated : s'.queue.created = s.queue.created)
    (hbatch' : s'.queue.batch = some { batch with todo := todo, running := some it.address })
    (htimers : s'.timers = s.timers)
    (hinvocations : s'.invocations = s.invocations ++ [(u.sequence, batch.now)]) : s'.Timed := by
  obtain ⟨S, hcore⟩ := h.sound.core
  have htaken : s.queue.taken = batch.expired.map Entry.address :=
    TimerQueue.taken_of_batch hbatch
  have htaken' : s'.queue.taken = batch.expired.map Entry.address := by
    rw [TimerQueue.taken_of_batch hbatch']
  have hwaiting : s.queue.waiting = it.address :: todo.map Entry.address := by
    rw [TimerQueue.waiting, hbatch]
    simp only [htodo, List.map_cons]
  have hwaiting' : s'.queue.waiting = todo.map Entry.address := by
    rw [TimerQueue.waiting, hbatch']
  have hwaits : it.address ∈ s.queue.waiting := hwaiting ▸ List.mem_cons_self
  -- it has one entry in the batch
  have hnot : it.address ∉ todo.map Entry.address := by
    have hnodup := hcore.placed.busy_nodup
    rw [htaken] at hnodup
    have hsuffix : batch.todo.map Entry.address <:+ batch.expired.map Entry.address :=
      (h.sound.todo batch hbatch).map _
    rw [htodo, List.map_cons] at hsuffix
    exact (List.nodup_cons.mp (hnodup.sublist hsuffix.sublist)).1
  have hdue : ∀ t ∈ s.timers, t.sequence = u.sequence →
      t.dueBehind (s.times t.sequence) ≤ batch.now := by
    intro t ht hseq
    have hc := h.continues _ u hu t ht hseq
    rw [← hc.expiration fun _ => hwaits]
    exact h.waiting batch hbatch _ hwaits u hu
  refine ⟨hsound, by rw [hcreated, htimers, h.created], ?_, ?_, ?_, ?_⟩
  · rw [hinvocations, hcreated]
    intro x hx
    rcases List.mem_append.mp hx with hx | hx
    · exact h.invoked x hx
    · rw [List.mem_singleton.mp hx]
      exact hcore.books.live_created _ u hu
  · intro t ht
    rw [htimers] at ht
    rw [times_append hinvocations]
    split
    · next hseq =>
        have hc := h.continues _ u hu t ht hseq.symm
        exact (h.onTime t ht).append (hdue t ht hseq.symm) (hc.fresh fun _ => hwaits)
    · exact h.onTime t ht
  · intro a v hv t ht hseq
    rw [hheap] at hv
    rw [htimers] at ht
    have hc := h.continues a v hv t ht hseq
    by_cases ha : a = it.address
    · subst ha
      obtain rfl := Option.some.inj (hu.symm.trans hv)
      have hin : it.address ∈ s'.queue.taken := by
        rw [htaken', ← htaken]
        exact h.sound.taken_of_waiting hwaits
      refine ⟨hc.interval, fun himp => ?_, fun himp => ?_, fun batch' hb _ _ => ?_⟩
      · exact absurd (hwaiting' ▸ himp hin) hnot
      · exact absurd (hwaiting' ▸ himp hin) hnot
      · obtain rfl := Option.some.inj (hbatch'.symm.trans hb)
        rw [times_append hinvocations, if_pos hseq.symm, List.getLast?_concat]
    · have hne : u.sequence ≠ t.sequence := fun heq =>
        ha (hcore.books.injective a it.address v u hv hu (hseq.symm.trans heq.symm))
      have hsame : a ∈ s.queue.waiting ↔ a ∈ s'.queue.waiting := by
        rw [hwaiting, hwaiting', List.mem_cons, or_iff_right ha]
      have htimes : s'.times t.sequence = s.times t.sequence := by
        rw [times_append hinvocations, if_neg hne]
      refine ⟨hc.interval, ?_, ?_, ?_⟩ <;> rw [htaken', ← htaken, ← hsame, htimes]
      · exact hc.expiration
      · exact hc.fresh
      · intro batch' hb
        obtain rfl := Option.some.inj (hbatch'.symm.trans hb)
        exact hc.ran batch hbatch
  · intro batch' hb a ha v hv
    obtain rfl := Option.some.inj (hbatch'.symm.trans hb)
    rw [hheap] at hv
    refine h.waiting batch hbatch a ?_ v hv
    rw [hwaiting]
    exact List.mem_cons_of_mem _ (hwaiting' ▸ ha)

/-- Behind a batch the timers that go back are due one interval later. -/
lemma Timed.finished (h : s.Timed) {batch : Batch} (hsound : s'.queue.Sound)
    (hbatch : s.queue.batch = some batch) (htodo : batch.todo = [])
    (hheap : ∀ b, s'.queue.heap b =
      if b ∈ s.queue.taken then s.queue.afterReset batch.now b else s.queue.heap b)
    (hcreated : s'.queue.created = s.queue.created) (hbatch' : s'.queue.batch = none)
    (htimers : s'.timers = s.timers) (hinvocations : s'.invocations = s.invocations) :
    s'.Timed := by
  have hwaiting : s.queue.waiting = [] := by
    rw [TimerQueue.waiting, hbatch]
    simp only [htodo, List.map_nil]
  refine ⟨hsound, by rw [hcreated, htimers, h.created], ?_, ?_, ?_, ?_⟩
  · rw [hinvocations, hcreated]
    exact h.invoked
  · intro t ht
    rw [times_congr hinvocations]
    exact h.onTime t (htimers ▸ ht)
  · intro a u hu t ht hseq
    rw [htimers] at ht
    rw [hheap] at hu
    split at hu
    · next ha =>
        obtain ⟨v, hv, ⟨hrepeats, -⟩, rfl⟩ := TimerQueue.afterReset_eq_some.mp hu
        have hc := h.continues a v hv t ht hseq
        have hlast := hc.ran batch hbatch ha (by simp [hwaiting])
        refine ⟨hc.interval, fun _ => ?_, fun _ hnot => ?_, fun _ hb => ?_⟩
        · rw [times_congr hinvocations, Timer.dueBehind_of_getLast? hlast,
            TimerQueue.restart_of_repeats hrepeats, hc.interval]
        · rw [Timer.Repeats, hc.interval] at hrepeats
          exact absurd hrepeats hnot
        · rw [hbatch'] at hb
          exact absurd hb (Option.not_mem_none _)
    · next ha =>
        have hc := h.continues a u hu t ht hseq
        refine ⟨hc.interval, fun _ => ?_, fun _ => ?_, fun _ hb => ?_⟩
        · rw [times_congr hinvocations]
          exact hc.expiration fun hin => absurd hin ha
        · rw [times_congr hinvocations]
          exact hc.fresh fun hin => absurd hin ha
        · rw [hbatch'] at hb
          exact absurd hb (Option.not_mem_none _)
  · intro batch' hb
    rw [hbatch'] at hb
    exact absurd hb (Option.not_mem_none _)

/-- Every event keeps the record on time. -/
lemma Timed.step (h : s.Timed) (hst : Step s event s') : s'.Timed := by
  obtain ⟨hqueue, htimers, hinvocations⟩ := hst.cases
  have hsound := h.sound.step hqueue
  have heffect := h.sound.effect hqueue
  obtain ⟨q, timers, invocations⟩ := s'
  simp only at hqueue htimers hinvocations hsound heffect
  cases heffect with
  | newTimer a t hen =>
      simp only [TimerQueue.invoked, List.append_nil] at hinvocations
      exact h.newTimer hsound hen rfl htimers hinvocations
  | added a t hpending ha =>
      simp only [TimerQueue.invoked, List.append_nil] at hinvocations
      simp only [Event.createdTimer, List.append_nil] at htimers
      exact h.keep hsound htimers hinvocations rfl (fun _ _ hu => hu) rfl rfl
        fun batch hb => ⟨batch, hb, rfl⟩
  | cancelled timerId t ha hseq hmem =>
      simp only [TimerQueue.invoked, List.append_nil] at hinvocations
      simp only [Event.createdTimer, List.append_nil] at htimers
      exact h.keep hsound htimers hinvocations rfl
        (fun _ _ hu => (TimerQueue.heap_of_update_none hu).2) rfl rfl
        fun batch hb => ⟨batch, hb, rfl⟩
  | noted timerId hnot =>
      simp only [TimerQueue.invoked, List.append_nil] at hinvocations
      simp only [Event.createdTimer, List.append_nil] at htimers
      exact h.keep hsound htimers hinvocations rfl (fun _ _ hu => hu) rfl rfl
        fun batch hb => ⟨batch, hb, rfl⟩
  | expired now active hbatch =>
      simp only [TimerQueue.invoked, List.append_nil] at hinvocations
      simp only [Event.createdTimer, List.append_nil] at htimers
      exact h.expired hsound hbatch rfl rfl rfl htimers hinvocations
  | ran batch it todo t hbatch htodo ha =>
      simp only [TimerQueue.invoked, hbatch, htodo, ha] at hinvocations
      simp only [Event.createdTimer, List.append_nil] at htimers
      exact h.ran hsound hbatch htodo ha rfl rfl rfl htimers hinvocations
  | returned batch hbatch =>
      simp only [TimerQueue.invoked, List.append_nil] at hinvocations
      simp only [Event.createdTimer, List.append_nil] at htimers
      refine h.keep hsound htimers hinvocations rfl (fun _ _ hu => hu) ?_ ?_ ?_
      · rw [TimerQueue.taken, TimerQueue.taken, hbatch]
      · rw [TimerQueue.waiting, TimerQueue.waiting, hbatch]
      · rintro _ ⟨⟩
        exact ⟨batch, hbatch, rfl⟩
  | finished batch q' hbatch htodo heq =>
      simp only [TimerQueue.invoked, List.append_nil] at hinvocations
      simp only [Event.createdTimer, List.append_nil] at htimers
      obtain ⟨hheap, -, ⟨-, hcreated, -⟩, hbatch'⟩ := h.sound.finish_spec hbatch heq
      exact h.finished hsound hbatch htodo hheap hcreated hbatch' htimers hinvocations

/-- A new queue has no timers and no invocations, which are on time. -/
lemma timed_empty : Timed {} :=
  ⟨TimerQueue.sound_empty, rfl, by simp, by simp, by simp, fun batch hb => absurd hb nofun⟩

/-- **Every timer keeps its time**: over every run, with any clock, any callbacks and any
cancellations. -/
theorem onTime_throughout {p : List (Event × TimerHistory)} (hp : Path Step {} p) :
    Throughout (fun s => ∀ t ∈ s.timers, t.OnTime (s.times t.sequence)) {} p :=
  (hp.throughout (fun _ _ _ h hst => h.step hst) timed_empty).mono fun _ h => h.onTime

/-- A repeating timer and one that does not repeat, over two batches, of which the second comes
late. -/
theorem onTime_throughout_late :
    Throughout (fun s => ∀ t ∈ s.timers, t.OnTime (s.times t.sequence)) {}
      (trace step {}
        [.newTimer 16 ⟨⟨5⟩, 1, 1⟩, .addTimerInLoop 16, .newTimer 32 ⟨⟨6⟩, 0, 2⟩, .addTimerInLoop 32,
          .handleRead ⟨7⟩, .run, .ret, .run, .ret, .finish, .handleRead ⟨2000000⟩, .run, .ret,
          .finish]) :=
  onTime_throughout (path_trace step _ _)

end TimerHistory

end SwiftNetCore
