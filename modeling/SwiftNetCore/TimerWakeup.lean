import SwiftNetCore.TimerRuns

/-!
# The wake-up of a timer queue

`timerfd_` is armed in two places: by `addTimerInLoop` for a timer that comes before all others, and
at the end of `reset` for the first timer, if its expiration is valid. A cancellation arms nothing.

* `Covers`: the timer is armed, no later than an expiration.
* `Covered`: the invariant. Outside of a batch every entry is covered. In a batch, that starts by
  disarming the timer, those are that `reset` would not arm it for.
* `addTime_le`: a repeating timer goes back no earlier than the batch's own time.
* `armed_in_loop`: whenever control is back in the loop, the timer is armed for the first entry or
  for something before it.
-/

namespace SwiftNetCore

open Paths (Path Throughout MeetsAll trace path_trace meetsAll_iff_forall_mem)

namespace TimerQueue

variable {q q' : TimerQueue} {a : Address} {t : Timer} {e e' now : Timestamp} {event : Event}

/-! ## Expirations -/

/-- An expiration is valid when one before it is. -/
lemma valid_of_le (h : e ≤ e') (he : e.Valid) : e'.Valid := lt_of_lt_of_le he h

/-- Time does not run backwards. -/
lemma le_addTime {seconds : Double} (h : 0 ≤ seconds) : now ≤ addTime now seconds := by
  have hproduct : (0 : ℚ) ≤ seconds * Timestamp.kMicroSecondsPerSecond :=
    mul_nonneg h (by norm_num [Timestamp.kMicroSecondsPerSecond])
  have hround : 0 ≤ Rounding.round 52 (seconds * Timestamp.kMicroSecondsPerSecond) :=
    Rounding.round_nonneg hproduct
  rw [Timestamp.le_def, addTime, toDouble, Rounding.truncate_of_nonneg hround]
  exact le_add_of_nonneg_right (Int.floor_nonneg.mpr hround)

/-- A timer that goes back is due at the batch's time or later. -/
lemma le_of_afterReset {u : Timer} (h : q.afterReset now a = some u) : now ≤ u.expiration := by
  obtain ⟨t, -, ⟨hrepeats, -⟩, rfl⟩ := afterReset_eq_some.mp h
  rw [Timer.restart, if_pos hrepeats]
  exact le_addTime hrepeats.le

/-! ## What `timerfd_` covers -/

/-- `timerfd_` is armed, for an expiration not later than `e`. -/
def Covers (timerfd : Option Timestamp) (e : Timestamp) : Prop := ∃ e' ∈ timerfd, e' ≤ e

/-- What covers an expiration covers those behind it. -/
lemma Covers.mono {timerfd : Option Timestamp} (h : Covers timerfd e) (hle : e ≤ e') :
    Covers timerfd e' := by
  obtain ⟨e₀, hmem, hle₀⟩ := h
  exact ⟨e₀, hmem, hle₀.trans hle⟩

/-- A timer that is armed covers what expires no earlier. -/
lemma covers_some (h : e ≤ e') : Covers (some e) e' := ⟨e, rfl, h⟩

/-- The timer is armed for the first entry, or for something before it. -/
def Armed (q : TimerQueue) : Prop := ∀ it ∈ q.timers.first?, Covers q.timerfd it.expiration

/-- The entries that the timer has to be armed for are covered: all of them when control is in the
loop, and in a batch those that are not valid, which `reset` does not arm the timer for. -/
structure Covered (q : TimerQueue) : Prop where
  covers : ∀ it ∈ q.timers, q.batch = none ∨ ¬ it.expiration.Valid → Covers q.timerfd it.expiration
  clock : ∀ batch ∈ q.batch, batch.now.Valid

/-- When control is in the loop, the timer is armed for the first entry. -/
lemma Covered.armed (h : q.Covered) (hbatch : q.batch = none) : q.Armed :=
  fun it hit => h.covers it (OrdSet.first?_eq_some_iff.mp hit).1 (Or.inl hbatch)

/-- The clock, when a batch starts, has been set. -/
def Event.ClockValid : Event → Prop
  | .handleRead now => now.Valid
  | _ => True

instance : DecidablePred Event.ClockValid := by
  intro event
  unfold Event.ClockValid
  split <;> infer_instance

/-! ## The steps -/

/-- A timer that comes first is what the timer is armed for. Behind another it is covered as that
one is. -/
lemma Covered.added (h : q.Covered) :
    Covered { q with
      pending := q.pending.erase a
      timers := q.timers.insert (.mk t.expiration a)
      activeTimers := q.activeTimers.insert (.mk a t.sequence)
      timerfd := if q.EarliestChanged t.expiration then some t.expiration else q.timerfd } := by
  refine ⟨?_, h.clock⟩
  intro it hit hneeds
  rw [OrdSet.mem_insert] at hit
  by_cases hearlier : q.EarliestChanged t.expiration
  · rw [if_pos hearlier]
    rcases hit with rfl | hit
    · exact covers_some le_rfl
    · exact covers_some (earliestChanged_iff.mp hearlier it hit).le
  · rw [if_neg hearlier]
    rcases hit with rfl | hit
    · rw [earliestChanged_iff] at hearlier
      push Not at hearlier
      obtain ⟨it₀, hmem₀, hle⟩ := hearlier
      have hneeds₀ : q.batch = none ∨ ¬ it₀.expiration.Valid :=
        hneeds.imp_right fun hnot hvalid => hnot (valid_of_le hle hvalid)
      exact (h.covers it₀ hmem₀ hneeds₀).mono hle
    · exact h.covers it hit hneeds

/-- What a batch leaves in the queue is due later, so it is valid. -/
lemma covered_expired {active : OrdSet ActiveTimer} (hvalid : now.Valid) :
    Covered { q with
      timers := q.timers.startingAt (sentry now)
      activeTimers := active
      callingExpiredTimers := true
      cancelingTimers := .empty
      timerfd := none
      batch := some ⟨now, q.due now, q.due now, none⟩ } := by
  constructor
  · intro it hit hneeds
    have hsentry : sentry now ≤ it := (OrdSet.mem_startingAt.mp hit).2
    have hle : now ≤ it.expiration := Entry.expiration_le_of_le hsentry
    rcases hneeds with hnone | hnot
    · exact absurd hnone nofun
    · exact absurd (valid_of_le hle hvalid) hnot
  · rintro _ ⟨⟩
    exact hvalid

/-- `reset` arms the timer for the first entry. Where it does not, that entry was added in the
batch, with an expiration that is not valid, and is covered since. -/
lemma Covered.finish {batch : Batch} (h : q.Covered) (hsound : q.Sound)
    (hbatch : q.batch = some batch) (heq : q.finish batch = some q') : q'.Covered := by
  obtain ⟨-, htimers, -, hnone⟩ := hsound.finish_spec hbatch heq
  obtain ⟨q₂, heq₂, hsound'⟩ := hsound.finish hbatch
  rw [heq, Option.some.injEq] at heq₂
  subst heq₂
  refine ⟨?_, by simp [hnone]⟩
  -- it is enough to cover the first entry
  suffices hfirst : q'.Armed by
    intro it hit _
    rcases hq : q'.timers.first? with _ | it₀
    · exact absurd hit (OrdSet.first?_eq_none_iff.mp hq it)
    · exact (hfirst it₀ hq).mono
        (Entry.expiration_le_of_le ((OrdSet.first?_eq_some_iff.mp hq).2 it hit))
  intro it hit
  have hmem := (OrdSet.first?_eq_some_iff.mp hit).1
  obtain ⟨q₁, heq₁, hrearm⟩ := Option.bind_eq_some_iff.mp heq
  obtain ⟨t, ht, hexp⟩ := hsound'.consistent.expiration it.expiration it.address hmem
  rcases rearm_cases hrearm with ⟨rfl, hnot⟩ | ⟨it₀, t₀, hq, ht₀, -, rfl⟩
  · obtain ⟨t₁, ht₁, hnot⟩ := hnot it hit
    rw [ht, Option.some.injEq] at ht₁
    rw [← ht₁, hexp] at hnot
    rcases (htimers it).mp hmem with hold | ⟨-, u, hu, hexp'⟩
    · rw [(sameRest_resetAll heq₁).timerfd]
      exact h.covers it hold (Or.inr hnot)
    · rw [← hexp'] at hnot
      exact absurd (valid_of_le (le_of_afterReset hu) (h.clock batch hbatch)) hnot
  · obtain rfl : it₀ = it := Option.some.inj (hq.symm.trans hit)
    have htt : t₀ = t := Option.some.inj (ht₀.symm.trans ht)
    rw [← hexp, htt]
    exact covers_some le_rfl

/-- Every step with a clock that is set keeps the entries covered. -/
lemma Covered.step (h : q.Covered) (hsound : q.Sound) (hst : Step q event q')
    (hclock : event.ClockValid) : q'.Covered := by
  cases hsound.effect hst with
  | newTimer a t => exact ⟨h.covers, h.clock⟩
  | added a t hpending ha => exact h.added
  | cancelled timerId t =>
      exact ⟨fun it hit => h.covers it (OrdSet.mem_erase.mp hit).1, h.clock⟩
  | noted timerId => exact ⟨h.covers, h.clock⟩
  | expired now active => exact covered_expired hclock
  | ran batch it todo t hbatch =>
      refine ⟨fun it hit hneeds => h.covers it hit (Or.inr (hneeds.resolve_left nofun)), ?_⟩
      rintro _ ⟨⟩
      exact h.clock batch hbatch
  | returned batch hbatch =>
      refine ⟨fun it hit hneeds => h.covers it hit (Or.inr (hneeds.resolve_left nofun)), ?_⟩
      rintro _ ⟨⟩
      exact h.clock batch hbatch
  | finished batch q' hbatch htodo heq => exact h.finish hsound hbatch heq

/-- **No wake-up is lost.** Over every run, with callbacks that add timers with whatever expirations
and cancel what they like, whenever control is in the loop the timer is armed for the first entry or
for something before it. -/
theorem armed_in_loop {p : List (Event × TimerQueue)} (hp : Path Step {} p)
    (hclock : ∀ x ∈ p, x.1.ClockValid) : Throughout (fun q => q.batch = none → q.Armed) {} p := by
  have hguard : MeetsAll (fun _ event => Event.ClockValid event) {} p :=
    meetsAll_iff_forall_mem.mpr hclock
  have hinv : Throughout (fun q => q.Sound ∧ q.Covered) {} p := by
    refine hp.throughout_of_meetsAll ?_ hguard ⟨sound_empty, nofun, nofun⟩
    intro q event q' h hst hvalid
    exact ⟨h.1.step hst, h.2.step h.1 hst hvalid⟩
  apply hinv.mono
  intro q h hbatch
  exact h.2.armed hbatch

/-- A callback adds a timer that was due before the epoch. `reset` does not arm the timer for it. -/
theorem armed_in_loop_past :
    Throughout (fun q => q.batch = none → q.Armed) {}
      (trace step {}
        [.newTimer 16 ⟨⟨5⟩, 1, 1⟩, .addTimerInLoop 16, .handleRead ⟨7⟩, .run,
          .newTimer 32 ⟨⟨-3⟩, 0, 2⟩, .addTimerInLoop 32, .ret, .finish]) :=
  armed_in_loop (path_trace step _ _) (by decide +kernel)

end TimerQueue

end SwiftNetCore
