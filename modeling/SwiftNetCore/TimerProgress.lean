import SwiftNetCore.TimerHistory
import SwiftNetCore.TimerWakeup
import SwiftNetCore.Lib.Fair

/-!
# Timers run

`SwiftNetCore.TimerHistory` says that no callback comes early. That it comes at all is up to the
loop, the kernel and the clock: a functor that adds a timer is run, a callback returns, `poll`
returns when `timerfd_` has expired, and the clock passes every time.

* `Pending`, `Queued`, `Waits`, `Returning`: where a timer is on its way to its callback, and behind
  it when it repeats. For each, what a step can make of it.
* `Scheduled`: the premises, about a run that goes on for ever.
* `runs_in_the_end`: the callback of a timer that is never cancelled is invoked, and that of a
  repeating one again and again.
-/

namespace SwiftNetCore

open Fair (Endless)

namespace TimerQueue

variable {q q' : TimerQueue} {event : Event} {a : Address} {t u : Timer} {now : Timestamp}

/-! ## Places -/

/-- `addTimerInLoop` has not seen the timer yet. -/
def Pending (q : TimerQueue) (a : Address) (t : Timer) : Prop := q.heap a = some t ∧ a ∈ q.pending

/-- It is in `timers_`. -/
def Queued (q : TimerQueue) (a : Address) (t : Timer) : Prop :=
  q.heap a = some t ∧ Entry.mk t.expiration a ∈ q.timers

/-- Its callback is to come in the batch. -/
def Waits (q : TimerQueue) (a : Address) (t : Timer) : Prop := q.heap a = some t ∧ a ∈ q.waiting

/-- It is in the batch, and `reset` will put it back. -/
def Returning (q : TimerQueue) (a : Address) (t : Timer) : Prop :=
  q.heap a = some t ∧ a ∈ q.taken ∧ q.GoesBack a t

/-- The event invokes the callback of the timer with this number. -/
def Invokes (q : TimerQueue) (event : Event) (n : ℤ) : Prop := n ∈ (q.invoked event).map Prod.fst

/-- A timer that nobody cancels stays as it is until `reset` comes to it. -/
lemma Effect.heap (h : Effect q event q') (ha : q.heap a = some t)
    (hcancel : event ≠ .cancelInLoop ⟨a, t.sequence⟩) (hfinish : event ≠ .finish) :
    q'.heap a = some t := by
  cases h with
  | newTimer b u hen => exact heap_update_of_free hen.1 ha
  | cancelled timerId u hu hseq hmem =>
      have hne : a ≠ timerId.timer := by
        rintro rfl
        obtain rfl := Option.some.inj (hu.symm.trans ha)
        exact hcancel (by rw [hseq])
      exact (Function.update_of_ne hne _ _).trans ha
  | finished => exact absurd rfl hfinish
  | _ => exact ha

/-- `addTimerInLoop` puts it into the queue. -/
lemma Pending.queued (h : q.Pending a t) (hsound : q.Sound) (hst : Step q (.addTimerInLoop a) q') :
    q'.Queued a t := by
  cases hsound.effect hst with
  | added b u hb hu =>
      obtain rfl := Option.some.inj (hu.symm.trans h.1)
      exact ⟨h.1, OrdSet.mem_insert.mpr (.inl rfl)⟩

/-- Until then a timer is pending. -/
lemma Pending.step (h : q.Pending a t) (hsound : q.Sound) (hst : Step q event q')
    (hcancel : event ≠ .cancelInLoop ⟨a, t.sequence⟩) :
    q'.Pending a t ∨ q'.Queued a t := by
  obtain ⟨ha, hpending⟩ := h
  have heffect := hsound.effect hst
  obtain ⟨S, hcore⟩ := hsound.core
  by_cases hfinish : event = .finish
  · subst hfinish
    obtain ⟨batch, hbatch, -, -, heq⟩ := hst.finish
    obtain ⟨hheap, -, ⟨hpending', -⟩, -⟩ := hsound.finish_spec hbatch heq
    refine .inl ⟨?_, hpending' ▸ hpending⟩
    rw [hheap, if_neg (hcore.placed.pending_busy a hpending), ha]
  · have ha' := heffect.heap ha hcancel hfinish
    cases heffect with
    | newTimer b u hen => exact .inl ⟨ha', List.mem_append_left _ hpending⟩
    | added b u hb hu =>
        by_cases hab : a = b
        · subst hab
          exact .inr (Pending.queued ⟨ha, hpending⟩ hsound hst)
        · exact .inl ⟨ha', (List.mem_erase_of_ne hab).mpr hpending⟩
    | finished => exact absurd rfl hfinish
    | _ => exact .inl ⟨ha', hpending⟩

/-- A timer stays in the queue until a batch starts behind its expiration. -/
lemma Queued.step (h : q.Queued a t) (hsound : q.Sound) (hst : Step q event q')
    (hcancel : event ≠ .cancelInLoop ⟨a, t.sequence⟩) :
    (q'.Queued a t ∧ ∀ now, event = .handleRead now → now < t.expiration) ∨
      (∃ now, event = .handleRead now) ∧ q'.Waits a t := by
  obtain ⟨ha, hmem⟩ := h
  have heffect := hsound.effect hst
  obtain ⟨S, hcore⟩ := hsound.core
  by_cases hfinish : event = .finish
  · subst hfinish
    obtain ⟨batch, hbatch, -, -, heq⟩ := hst.finish
    obtain ⟨hheap, htimers, -, -⟩ := hsound.finish_spec hbatch heq
    have hnot : a ∉ q.taken := fun htaken => hsound.consistent.apart a htaken _ hmem
    refine .inl ⟨⟨?_, (htimers _).mpr (.inl hmem)⟩, by simp⟩
    rw [hheap, if_neg hnot, ha]
  · have ha' := heffect.heap ha hcancel hfinish
    cases heffect with
    | added b u hb hu => exact .inl ⟨⟨ha', OrdSet.mem_insert.mpr (.inr hmem)⟩, by simp⟩
    | cancelled timerId u hu hseq hmemu =>
        refine .inl ⟨⟨ha', OrdSet.mem_erase.mpr ⟨hmem, ?_⟩⟩, by simp⟩
        rw [Ne, Entry.mk_inj]
        rintro ⟨-, rfl⟩
        obtain rfl := Option.some.inj (hu.symm.trans ha)
        exact hcancel (by rw [hseq])
    | expired now active hbatch =>
        by_cases hdue : t.expiration ≤ now
        · refine .inr ⟨⟨now, rfl⟩, ha', ?_⟩
          have hin : Entry.mk t.expiration a ∈ q.due now := hcore.mem_expired.mpr ⟨hmem, hdue⟩
          exact List.mem_map.mpr ⟨_, hin, rfl⟩
        · refine .inl ⟨⟨ha', ?_⟩, ?_⟩
          · refine OrdSet.mem_startingAt.mpr ⟨hmem, not_lt.mp fun hlt => hdue ?_⟩
            exact (hcore.mem_expired.mp (OrdSet.mem_before.mpr ⟨hmem, hlt⟩)).2
          · rintro _ ⟨⟩
            exact not_le.mp hdue
    | finished => exact absurd rfl hfinish
    | _ => exact .inl ⟨⟨ha', hmem⟩, by simp⟩

/-- A batch does not end before its callbacks have been invoked. -/
lemma Waits.step (h : q.Waits a t) (hsound : q.Sound) (hst : Step q event q')
    (hcancel : event ≠ .cancelInLoop ⟨a, t.sequence⟩) :
    event ≠ .finish ∧ (q'.Waits a t ∨ event = .run ∧ q.Invokes event t.sequence ∧
      q'.heap a = some t ∧ a ∈ q'.taken ∧ q'.cancelingTimers = q.cancelingTimers) := by
  obtain ⟨ha, hwaits⟩ := h
  have heffect := hsound.effect hst
  have hfinish : event ≠ .finish := by
    rintro rfl
    obtain ⟨batch, hbatch, -, htodo, -⟩ := hst.finish
    simp [waiting, hbatch, htodo] at hwaits
  refine ⟨hfinish, ?_⟩
  have htaken := hsound.taken_of_waiting hwaits
  have ha' := heffect.heap ha hcancel hfinish
  cases heffect with
  | expired now active hbatch => simp [waiting, hbatch] at hwaits
  | ran batch it todo u hbatch htodo hu =>
      simp only [waiting, hbatch, htodo, List.map_cons, List.mem_cons] at hwaits
      rcases hwaits with rfl | hwaits
      · obtain rfl := Option.some.inj (hu.symm.trans ha)
        refine .inr ⟨rfl, ?_, ha', ?_, rfl⟩
        · simp [Invokes, invoked, hbatch, htodo, hu]
        · rw [taken_of_batch hbatch] at htaken
          exact htaken
      · exact .inl ⟨ha', hwaits⟩
  | returned batch hbatch =>
      refine .inl ⟨ha', ?_⟩
      simp only [waiting, hbatch] at hwaits
      exact hwaits
  | finished => exact absurd rfl hfinish
  | _ => exact .inl ⟨ha', hwaits⟩

/-- A repeating timer that was not cancelled is in the queue behind its batch. -/
lemma Returning.step (h : q.Returning a t) (hsound : q.Sound) (hst : Step q event q')
    (hcancel : event ≠ .cancelInLoop ⟨a, t.sequence⟩) :
    q'.Returning a t ∨ ∃ now, q'.Queued a (t.restart now) := by
  obtain ⟨ha, htaken, hback⟩ := h
  have heffect := hsound.effect hst
  by_cases hfinish : event = .finish
  · subst hfinish
    obtain ⟨batch, hbatch, -, -, heq⟩ := hst.finish
    obtain ⟨hheap, htimers, -, -⟩ := hsound.finish_spec hbatch heq
    have hafter : q.afterReset batch.now a = some (t.restart batch.now) :=
      afterReset_eq_some.mpr ⟨t, ha, hback, rfl⟩
    refine .inr ⟨batch.now, ?_, (htimers _).mpr (.inr ⟨htaken, _, hafter, rfl⟩)⟩
    rw [hheap, if_pos htaken, hafter]
  · have ha' := heffect.heap ha hcancel hfinish
    cases heffect with
    | noted timerId hnot =>
        refine .inl ⟨ha', htaken, hback.1, ?_⟩
        dsimp only
        split_ifs
        · rw [OrdSet.mem_insert, not_or]
          refine ⟨?_, hback.2⟩
          rw [ActiveTimer.mk_inj]
          rintro ⟨rfl, hseq⟩
          exact hcancel (by rw [hseq])
        · exact hback.2
    | expired now active hbatch => simp [taken, hbatch] at htaken
    | ran batch it todo u hbatch htodo hu =>
        refine .inl ⟨ha', ?_, hback⟩
        rw [taken_of_batch hbatch] at htaken
        exact htaken
    | returned batch hbatch =>
        refine .inl ⟨ha', ?_, hback⟩
        rw [taken_of_batch hbatch] at htaken
        exact htaken
    | finished => exact absurd rfl hfinish
    | _ => exact .inl ⟨ha', htaken, hback⟩

/-- The end of a batch leaves `cancelingTimers_` as it is. -/
lemma finish_cancelingTimers {batch : Batch} (heq : q.finish batch = some q') :
    q'.cancelingTimers = q.cancelingTimers := by
  obtain ⟨q₁, heq₁, heq₂⟩ := Option.bind_eq_some_iff.mp heq
  have hrest := (sameRest_resetAll heq₁).cancelingTimers
  rcases rearm_cases heq₂ with ⟨rfl, -⟩ | ⟨it, t, -, -, -, rfl⟩
  · exact hrest
  · exact hrest

/-- Only a cancellation puts a timer among those that `reset` deletes. -/
lemma Effect.cancelingTimers (h : Effect q event q') {n : ℤ}
    (hnot : ActiveTimer.mk a n ∉ q.cancelingTimers) (hcancel : event ≠ .cancelInLoop ⟨a, n⟩) :
    ActiveTimer.mk a n ∉ q'.cancelingTimers := by
  cases h with
  | noted timerId hactive =>
      dsimp only
      split_ifs
      · rw [OrdSet.mem_insert, not_or]
        refine ⟨?_, hnot⟩
        rw [ActiveTimer.mk_inj]
        rintro ⟨rfl, rfl⟩
        exact hcancel rfl
      · exact hnot
  | expired => exact OrdSet.not_mem_empty
  | finished batch q' hbatch htodo heq =>
      rw [finish_cancelingTimers heq]
      exact hnot
  | _ => exact hnot

/-! ## The run -/

section run

variable {state : ℕ → TimerQueue} {label : ℕ → Event} {n : ℕ}

/-- What a timer queue needs to go on. -/
structure Scheduled (state : ℕ → TimerQueue) (label : ℕ → Event) : Prop where
  /-- the loop runs the functor that adds a timer, -/
  adds : ∀ n a, a ∈ (state n).pending → ∃ m, n ≤ m ∧ label m = .addTimerInLoop a
  /-- callbacks return, and then `handleRead` does, -/
  ends : ∀ n, (state n).batch ≠ none → ∃ m, n ≤ m ∧ label m = .finish
  /-- `poll` returns when `timerfd_` has expired, -/
  wakes : ∀ n, (state n).batch = none → (state n).timerfd ≠ none →
    ∃ m, n ≤ m ∧ ∃ now, label m = .handleRead now
  /-- and the clock, which has been set, passes every time -/
  clock : ∀ e, ∃ n, ∀ m, n ≤ m → ∀ now, label m = .handleRead now → e ≤ now
  valid : ∀ n, (label n).ClockValid

variable (hscheduled : Scheduled state label) (hrun : Endless Step state label)
  (hsound : ∀ m, (state m).Sound) (hcancel : ∀ m, label m ≠ .cancelInLoop ⟨a, t.sequence⟩)
include hscheduled hrun hsound

/-- Control comes back to the loop. -/
lemma Scheduled.in_loop (n : ℕ) : ∃ m, n ≤ m ∧ (state m).batch = none := by
  by_cases hbatch : (state n).batch = none
  · exact ⟨n, le_rfl, hbatch⟩
  · obtain ⟨m, hm, hlabel⟩ := hscheduled.ends n hbatch
    have hst := hrun m
    rw [hlabel] at hst
    obtain ⟨batch, hbatch, -, -, heq⟩ := hst.finish
    exact ⟨m + 1, Nat.le_succ_of_le hm, ((hsound m).finish_spec hbatch heq).2.2.2⟩

include hcancel

/-- What waits in a batch is invoked. -/
lemma Scheduled.invoked (h : (state n).Waits a t) :
    ∃ m, n ≤ m ∧ (state m).Waits a t ∧ label m = .run ∧ (state m).Invokes .run t.sequence ∧
      (state (m + 1)).heap a = some t ∧ a ∈ (state (m + 1)).taken := by
  have hcomes : ∃ m, n ≤ m ∧ label m = .finish := by
    refine hscheduled.ends n fun hnone => ?_
    simp [Waits, waiting, hnone] at h
  obtain ⟨m, hm, hlabel⟩ := hcomes
  obtain ⟨m, hm, hwaits, hlabel, hinvokes, hheap, htaken⟩ := Fair.comes_of_kept
    (P := fun m => (state m).Waits a t)
    (Q := fun m => label m = .run ∧ (state m).Invokes (label m) t.sequence ∧
      (state (m + 1)).heap a = some t ∧ a ∈ (state (m + 1)).taken) h
    (fun m hm hwaits => by
      obtain ⟨-, hkept | ⟨hrun, hinvokes, hheap, htaken, -⟩⟩ :=
        hwaits.step (hsound m) (hrun m) (hcancel m)
      · exact .inr hkept
      · exact .inl ⟨hrun, hinvokes, hheap, htaken⟩)
    ⟨m, hm, fun hwaits => absurd hlabel (hwaits.step (hsound m) (hrun m) (hcancel m)).1⟩
  exact ⟨m, hm, hwaits, hlabel, hlabel ▸ hinvokes, hheap, htaken⟩

/-- What is in the queue comes into a batch. -/
lemma Scheduled.expires (hcovered : ∀ m, (state m).Covered) (h : (state n).Queued a t) :
    ∃ m, n ≤ m ∧ (state m).Waits a t := by
  obtain ⟨late, hlate⟩ := hscheduled.clock t.expiration
  -- from `late` on, the next batch has it
  obtain ⟨m, hm, -, hwaits⟩ := Fair.comes_of_kept
    (P := fun m => (state m).Queued a t) (Q := fun m => (state (m + 1)).Waits a t) h
    (fun m _ hqueued => by
      rcases hqueued.step (hsound m) (hrun m) (hcancel m) with ⟨hkept, -⟩ | ⟨-, hwaits⟩
      · exact .inr hkept
      · exact .inl hwaits)
    (by
      obtain ⟨m, hm, hbatch⟩ := hscheduled.in_loop hrun hsound (max n late)
      by_cases hqueued : (state m).Queued a t
      · -- the timer is armed for the first entry, so the loop comes to a batch
        have harmed : (state m).timerfd ≠ none := by
          rcases hfirst : (state m).timers.first? with _ | it
          · exact absurd hqueued.2 (OrdSet.first?_eq_none_iff.mp hfirst _)
          · obtain ⟨e, he, -⟩ := (hcovered m).armed hbatch it hfirst
            rw [Option.mem_def.mp he]
            simp
        obtain ⟨k, hk, now, hlabel⟩ := hscheduled.wakes m hbatch harmed
        have hnk : n ≤ k := (le_max_left n late).trans (hm.trans hk)
        refine ⟨k, hnk, fun hqueued' => ?_⟩
        rcases hqueued'.step (hsound k) (hrun k) (hcancel k) with ⟨-, hearly⟩ | ⟨-, hwaits⟩
        · have hle := hlate k ((le_max_right n late).trans (hm.trans hk)) now hlabel
          exact absurd (hearly now hlabel) (not_lt.mpr hle)
        · exact hwaits
      · exact ⟨m, (le_max_left n late).trans hm, fun h => absurd h hqueued⟩)
  exact ⟨m + 1, Nat.le_succ_of_le hm, hwaits⟩

/-- What is pending comes into the queue. -/
lemma Scheduled.added (h : (state n).Pending a t) : ∃ m, n ≤ m ∧ (state m).Queued a t := by
  obtain ⟨m, hm, hlabel⟩ := hscheduled.adds n a h.2
  obtain ⟨m, hm, -, hqueued⟩ := Fair.comes_of_kept
    (P := fun m => (state m).Pending a t) (Q := fun m => (state (m + 1)).Queued a t) h
    (fun m _ hpending => by
      rcases hpending.step (hsound m) (hrun m) (hcancel m) with hkept | hqueued
      · exact .inr hkept
      · exact .inl hqueued)
    ⟨m, hm, fun hpending => by
      have hst := hrun m
      rw [hlabel] at hst
      exact hpending.queued (hsound m) hst⟩
  exact ⟨m + 1, Nat.le_succ_of_le hm, hqueued⟩

/-- What repeats comes back into the queue. -/
lemma Scheduled.returned (h : (state n).Returning a t) :
    ∃ m, n ≤ m ∧ ∃ now, (state m).Queued a (t.restart now) := by
  have hcomes : ∃ m, n ≤ m ∧ label m = .finish := by
    refine hscheduled.ends n fun hnone => ?_
    simp [Returning, taken, hnone] at h
  obtain ⟨m, hm, hlabel⟩ := hcomes
  obtain ⟨m, hm, -, hqueued⟩ := Fair.comes_of_kept
    (P := fun m => (state m).Returning a t)
    (Q := fun m => ∃ now, (state (m + 1)).Queued a (t.restart now)) h
    (fun m _ hreturning => by
      rcases hreturning.step (hsound m) (hrun m) (hcancel m) with hkept | hqueued
      · exact .inr hkept
      · exact .inl hqueued)
    ⟨m, hm, fun hreturning => by
      have hst := hrun m
      rw [hlabel] at hst
      obtain ⟨batch, hbatch, -, -, heq⟩ := hst.finish
      rcases hreturning.step (hsound m) (hrun m) (hcancel m) with hkept | hqueued
      · have hnone := ((hsound m).finish_spec hbatch heq).2.2.2
        exact absurd hkept.2.1 (by simp [taken, hnone])
      · exact hqueued⟩
  exact ⟨m + 1, Nat.le_succ_of_le hm, hqueued⟩

omit hscheduled in
/-- A timer that is not cancelled is nowhere among those to be deleted. -/
lemma not_canceling (hstart : state 0 = {}) (m : ℕ) :
    ActiveTimer.mk a t.sequence ∉ (state m).cancelingTimers := by
  induction m with
  | zero =>
      rw [hstart]
      exact OrdSet.not_mem_empty
  | succ m ih => exact ((hsound m).effect (hrun m)).cancelingTimers ih (hcancel m)

end run

/-- **Timers run**: in every endless run of a timer queue that is scheduled, the callback of a timer
that is never cancelled is invoked, and that of a repeating one again and again. -/
theorem runs_in_the_end {state : ℕ → TimerQueue} {label : ℕ → Event} {n : ℕ}
    (hrun : Endless Step state label) (hstart : state 0 = {}) (hscheduled : Scheduled state label)
    (hnew : label n = .newTimer a t) (hcancel : ∀ m, label m ≠ .cancelInLoop ⟨a, t.sequence⟩) :
    (∃ m, n < m ∧ (state m).Invokes (label m) t.sequence) ∧
      (t.Repeats → ∀ k, ∃ m, k ≤ m ∧ (state m).Invokes (label m) t.sequence) := by
  have hinv : ∀ m, (state m).Sound ∧ (state m).Covered := by
    intro m
    induction m with
    | zero =>
        rw [hstart]
        exact ⟨sound_empty, by simp, by simp⟩
    | succ m ih => exact ⟨ih.1.step (hrun m), ih.2.step ih.1 (hrun m) (hscheduled.valid m)⟩
  have hsound := fun m => (hinv m).1
  have hcovered := fun m => (hinv m).2
  -- from the queue to the callback, for what `reset` has made of the timer too
  have hinvoked : ∀ {u : Timer} {k : ℕ}, u.sequence = t.sequence → (state k).Queued a u →
      ∃ m, k ≤ m ∧ (state m).Invokes (label m) t.sequence ∧
        (state (m + 1)).heap a = some u ∧ a ∈ (state (m + 1)).taken := by
    intro u k hseq hqueued
    have hcancel' : ∀ m, label m ≠ .cancelInLoop ⟨a, u.sequence⟩ := by
      rw [hseq]
      exact hcancel
    obtain ⟨m, hm, hwaits⟩ :=
      hscheduled.expires hrun hsound hcancel' hcovered hqueued
    obtain ⟨l, hl, -, hlabel, hinvokes, hheap, htaken⟩ :=
      hscheduled.invoked hrun hsound hcancel' hwaits
    exact ⟨l, hm.trans hl, hlabel ▸ hseq ▸ hinvokes, hheap, htaken⟩
  have hpending : (state (n + 1)).Pending a t := by
    have heffect := (hsound n).effect (hrun n)
    rw [hnew] at heffect
    generalize state (n + 1) = q' at heffect
    cases heffect with
    | newTimer b u hen => exact ⟨Function.update_self _ _ _, by simp [newTimer]⟩
  obtain ⟨first, hfirst, hqueued⟩ := hscheduled.added hrun hsound hcancel hpending
  constructor
  · obtain ⟨m, hm, hinvokes, -⟩ := hinvoked rfl hqueued
    exact ⟨m, hfirst.trans hm, hinvokes⟩
  · intro hrepeats k
    -- it is in the queue again behind each time
    have hagain : ∀ k, ∃ m, k ≤ m ∧ ∃ u : Timer, u.sequence = t.sequence ∧ u.Repeats ∧
        (state m).Queued a u := by
      intro k
      induction k with
      | zero => exact ⟨first, Nat.zero_le _, t, rfl, hrepeats, hqueued⟩
      | succ k ih =>
          obtain ⟨m, hm, u, hseq, hu, hqueued⟩ := ih
          obtain ⟨l, hl, -, hheap, htaken⟩ := hinvoked hseq hqueued
          have hback : (state (l + 1)).Returning a u := by
            refine ⟨hheap, htaken, hu, ?_⟩
            rw [hseq]
            exact not_canceling hrun hsound hcancel hstart (l + 1)
          obtain ⟨r, hr, now, hqueued'⟩ := hscheduled.returned hrun hsound (by
            rw [hseq]
            exact hcancel) hback
          refine ⟨r, by omega, u.restart now, ?_, ?_, hqueued'⟩
          · rw [restart_of_repeats hu]
            exact hseq
          · rw [restart_of_repeats hu]
            exact hu
    obtain ⟨m, hm, u, hseq, -, hqueued⟩ := hagain k
    obtain ⟨l, hl, hinvokes, -⟩ := hinvoked hseq hqueued
    exact ⟨l, hm.trans hl, hinvokes⟩

/-- A timer whose batch comes early, goes back without it, and comes again. -/
def early : List (Event × TimerQueue) :=
  Paths.trace step {}
    [.newTimer 16 ⟨⟨5⟩, 0, 1⟩, .addTimerInLoop 16, .handleRead ⟨3⟩, .finish, .handleRead ⟨7⟩, .run,
      .ret, .finish]

/-- A cancellation of nothing. -/
def nothing : Event := .cancelInLoop ⟨0, 0⟩

/-- A timer set for five microseconds, whose first batch comes early, runs in the end. -/
theorem runs_in_the_end_early :
    (∃ m, 0 < m ∧ (Fair.stateOf {} early m).Invokes (Fair.labelOf early nothing m) 1) ∧
      ((⟨⟨5⟩, 0, 1⟩ : Timer).Repeats → ∀ k, ∃ m, k ≤ m ∧
        (Fair.stateOf {} early m).Invokes (Fair.labelOf early nothing m) 1) := by
  have hrun : Endless Step (Fair.stateOf {} early) (Fair.labelOf early nothing) :=
    Fair.endless_of_path (Paths.path_trace step _ _) rfl
  have hscheduled : Scheduled (Fair.stateOf {} early) (Fair.labelOf early nothing) := by
    have hadds : ∀ n < early.length, ∀ a ∈ (Fair.stateOf {} early n).pending,
        ∃ m ≤ early.length, n ≤ m ∧ Fair.labelOf early nothing m = .addTimerInLoop a := by
      decide
    have hends : ∀ n < early.length, (Fair.stateOf {} early n).batch ≠ none →
        ∃ m ≤ early.length, n ≤ m ∧ Fair.labelOf early nothing m = .finish := by
      decide
    have hwakes : ∀ n < early.length, (Fair.stateOf {} early n).batch = none ∧
        (Fair.stateOf {} early n).timerfd ≠ none →
        ∃ m ≤ early.length, n ≤ m ∧ (Fair.labelOf early nothing m = .handleRead ⟨3⟩ ∨
          Fair.labelOf early nothing m = .handleRead ⟨7⟩) := by
      decide
    refine ⟨fun n a => ?_, fun n => ?_, fun n hbatch harmed => ?_, fun e => ?_, fun n => ?_⟩
    · exact Fair.comes_of_path (Q := fun q : TimerQueue => a ∈ q.pending)
        (R := fun (_ : TimerQueue) (event : Event) => event = .addTimerInLoop a)
        (fun h => absurd h List.not_mem_nil) (fun n hn => hadds n hn a) n
    · exact Fair.comes_of_path (Q := fun q : TimerQueue => q.batch ≠ none)
        (R := fun (_ : TimerQueue) (event : Event) => event = .finish)
        (fun h => absurd rfl h) hends n
    · obtain ⟨m, hm, hlabel⟩ := Fair.comes_of_path
        (Q := fun q : TimerQueue => q.batch = none ∧ q.timerfd ≠ none)
        (R := fun (_ : TimerQueue) (event : Event) =>
          event = .handleRead ⟨3⟩ ∨ event = .handleRead ⟨7⟩)
        (fun h => absurd rfl h.2) hwakes n ⟨hbatch, harmed⟩
      exact ⟨m, hm, hlabel.elim (fun h => ⟨_, h⟩) fun h => ⟨_, h⟩⟩
    · refine ⟨early.length, fun m hm now hlabel => ?_⟩
      rw [Fair.labelOf_of_length_le hm] at hlabel
      cases hlabel
    · have hvalid : ∀ n < early.length, (Fair.labelOf early nothing n).ClockValid := by decide
      have hlast : nothing.ClockValid := trivial
      exact Fair.forall_of_path (s := {}) (R := fun (_ : TimerQueue) (event : Event) =>
        event.ClockValid) hlast hvalid n
  have hcancel : ∀ m, Fair.labelOf early nothing m ≠ .cancelInLoop ⟨16, 1⟩ := by
    have hnot : ∀ n < early.length, Fair.labelOf early nothing n ≠ .cancelInLoop ⟨16, 1⟩ := by
      decide
    have hlast : nothing ≠ .cancelInLoop ⟨16, 1⟩ := by decide
    exact Fair.forall_of_path (s := {}) (R := fun (_ : TimerQueue) (event : Event) =>
      event ≠ .cancelInLoop ⟨16, 1⟩) hlast hnot
  exact runs_in_the_end hrun rfl hscheduled (n := 0) rfl hcancel

end TimerQueue

end SwiftNetCore
