import SwiftNetCore.TimerRuns

/-!
# The unit of a timestamp

`addTime` counts microseconds, and so does `howMuchTimeFromNow`, which `timerfd_` is armed by.
`Timestamp::now` has the wall clock's seconds in the same field, and `getExpired` compares with
that.

* `OnTime`: a timer that was set at an instant for some microseconds is returned by `getExpired` at
  every instant a second later than that or more, and at none that is more than a second earlier.
* `le_delta`, `add_two_le_delta`: what `addTime` adds for `d` microseconds. It is a floating-point
  product, of which a bound on the error is enough to know.
* `onTime_iff`: a timer is on time exactly when it is set for at most one microsecond, or for two
  and the clock's second ends in them.
* `not_due_at_wakeup`: when `timerfd_` fires for a timer, it is not due.
-/

namespace SwiftNetCore

open Paths (Path last trace path_trace)

/-! ## The clock -/

/-- `time(NULL)`, at an instant in seconds. -/
noncomputable def time (instant : ℝ) : ℤ := ⌊instant⌋

/-- `Timestamp::now()`, by what `time(NULL)` gives. Source: Timestamp.cpp 10-14 -/
def Timestamp.now (it : ℤ) : Timestamp := ⟨it⟩

/-- `struct timespec` -/
structure Timespec where
  tv_sec : ℤ
  tv_nsec : ℤ

/-- Source: TimerQueue.cc 25-38 -/
def howMuchTimeFromNow (when now : Timestamp) : Timespec :=
  let microseconds := max 100 (when.microSecondsSinceEpoch - now.microSecondsSinceEpoch)
  ⟨microseconds / Timestamp.kMicroSecondsPerSecond,
    microseconds % Timestamp.kMicroSecondsPerSecond * 1000⟩

/-- The seconds that a `timespec` stands for. -/
noncomputable def Timespec.seconds (ts : Timespec) : ℝ := ts.tv_sec + ts.tv_nsec / 10 ^ 9

/-- `howMuchTimeFromNow` counts microseconds, and at least a hundred. -/
lemma seconds_howMuchTimeFromNow (when now : Timestamp) :
    (howMuchTimeFromNow when now).seconds =
      (max 100 (when.microSecondsSinceEpoch - now.microSecondsSinceEpoch) : ℤ) / 10 ^ 6 := by
  set m := max 100 (when.microSecondsSinceEpoch - now.microSecondsSinceEpoch) with hm
  have hdiv : m / 1000000 * 1000000 + m % 1000000 = m := by omega
  have hreal : ((m / 1000000 : ℤ) : ℝ) * 1000000 + ((m % 1000000 : ℤ) : ℝ) = m := by
    exact_mod_cast hdiv
  have heq : howMuchTimeFromNow when now = ⟨m / 1000000, m % 1000000 * 1000⟩ := rfl
  rw [heq, Timespec.seconds]
  push_cast
  linarith

/-- A delay of `d` microseconds, in seconds. -/
def delay (d : ℕ) : Double := toDouble (d / 10 ^ 6)

/-- What `addTime` adds for it. -/
def delta (d : ℕ) : ℤ :=
  Rounding.truncate (toDouble (delay d * Timestamp.kMicroSecondsPerSecond))

/-- The expiration of a timer that is set at an instant. Source: EventLoop.cpp 185-189 -/
noncomputable def expirationAfter (instant : ℝ) (d : ℕ) : Timestamp :=
  addTime (.now (time instant)) (delay d)

/-- The expiration is the second of the instant, with what `addTime` adds. -/
lemma expirationAfter_eq (instant : ℝ) (d : ℕ) :
    expirationAfter instant d = ⟨⌊instant⌋ + delta d⟩ := rfl

/-! ## The error of the product -/

/-- A rounding loses at most one part in `10 ^ 15`. -/
lemma mul_le_toDouble {x : ℚ} (hx : 0 ≤ x) : x * (1 - 1 / 10 ^ 15) ≤ toDouble x := by
  have herr := Rounding.abs_round_sub_le 52 x
  rw [abs_of_nonneg hx, abs_le] at herr
  have hparts : x / 2 ^ (52 + 1) ≤ x / 10 ^ 15 := by gcongr; norm_num
  unfold toDouble
  linarith [herr.1]

/-- The product loses at most two. -/
lemma le_product (d : ℕ) :
    (d : ℚ) * (1 - 2 / 10 ^ 15) ≤ toDouble (delay d * Timestamp.kMicroSecondsPerSecond) := by
  have hd : (0 : ℚ) ≤ d := Nat.cast_nonneg d
  have hdelay : (d : ℚ) / 10 ^ 6 * (1 - 1 / 10 ^ 15) ≤ delay d := mul_le_toDouble (by positivity)
  have hdelay₀ : 0 ≤ delay d := Rounding.round_nonneg (by positivity)
  have hproduct := mul_le_toDouble (x := delay d * 10 ^ 6) (by positivity)
  have hk : ((Timestamp.kMicroSecondsPerSecond : ℤ) : ℚ) = 10 ^ 6 := by
    norm_num [Timestamp.kMicroSecondsPerSecond]
  rw [hk]
  calc (d : ℚ) * (1 - 2 / 10 ^ 15)
      ≤ (d : ℚ) / 10 ^ 6 * (1 - 1 / 10 ^ 15) * 10 ^ 6 * (1 - 1 / 10 ^ 15) := by nlinarith
    _ ≤ delay d * 10 ^ 6 * (1 - 1 / 10 ^ 15) := by gcongr
    _ ≤ toDouble (delay d * 10 ^ 6) := hproduct

/-- What `addTime` adds is short of the delay, as a number of microseconds, by less than one and the
error of the product. -/
lemma sub_one_lt_delta (d : ℕ) : (d : ℚ) * (1 - 2 / 10 ^ 15) - 1 < delta d := by
  have hproduct := le_product d
  have hd : (0 : ℚ) ≤ d * (1 - 2 / 10 ^ 15) := mul_nonneg (Nat.cast_nonneg d) (by norm_num)
  rw [delta, Rounding.truncate_of_nonneg (hd.trans hproduct)]
  linarith [Int.lt_floor_add_one (toDouble (delay d * Timestamp.kMicroSecondsPerSecond))]

/-- For at most three microseconds, `addTime` adds as many seconds. -/
lemma delta_of_le : ∀ d ≤ 3, delta d = d := by
  decide +kernel

/-- For four microseconds or more it adds as many seconds and two. -/
lemma add_two_le_delta {d : ℕ} (hd : 4 ≤ d) : (d : ℤ) + 2 * 10 ^ 6 ≤ delta d * 10 ^ 6 := by
  have hlt := sub_one_lt_delta d
  have hd' : (4 : ℚ) ≤ d := by exact_mod_cast hd
  have hrat : (d : ℚ) + 2 * 10 ^ 6 ≤ delta d * 10 ^ 6 := by linarith
  exact_mod_cast hrat

/-- `addTime` adds at least as many seconds as the delay has microseconds. -/
lemma le_delta (d : ℕ) : (d : ℤ) ≤ delta d * 10 ^ 6 := by
  rcases Nat.lt_or_ge d 4 with hd | hd
  · rw [delta_of_le d (by omega)]
    omega
  · linarith [add_two_le_delta hd]

/-! ## When a timer is due -/

section due

variable {t₀ w : ℝ} {d : ℕ}

/-- A timer is due at an instant when its expiration is not behind the second of the instant. -/
lemma expirationAfter_le_now :
    expirationAfter t₀ d ≤ .now (time w) ↔ ⌊t₀⌋ + delta d ≤ ⌊w⌋ := by
  rw [expirationAfter_eq]
  exact Iff.rfl

/-- No timer is early: what is added is at least as many seconds. -/
lemma not_due_before (hw : w < t₀ + d / 10 ^ 6 - 1) :
    ¬ expirationAfter t₀ d ≤ .now (time w) := by
  rw [expirationAfter_le_now, not_le]
  have hdelta : (d : ℝ) ≤ delta d * 10 ^ 6 := by exact_mod_cast le_delta d
  have hreal : (⌊w⌋ : ℝ) < ⌊t₀⌋ + delta d := by
    calc (⌊w⌋ : ℝ) ≤ w := Int.floor_le w
      _ < t₀ + d / 10 ^ 6 - 1 := hw
      _ ≤ ⌊t₀⌋ + 1 + delta d - 1 := by linarith [Int.lt_floor_add_one t₀]
      _ = ⌊t₀⌋ + delta d := by ring
  exact_mod_cast hreal

/-- A timer is due from an instant on when it is due then, as the clock does not run backwards. -/
lemma due_from_iff : (∀ w : ℝ, t₀ + d / 10 ^ 6 + 1 ≤ w → expirationAfter t₀ d ≤ .now (time w)) ↔
    ⌊t₀⌋ + delta d ≤ ⌊t₀ + d / 10 ^ 6⌋ + 1 := by
  simp only [expirationAfter_le_now]
  rw [← Int.floor_add_one]
  exact ⟨fun h => h _ le_rfl, fun h w hw => h.trans (Int.floor_le_floor hw)⟩

/-- Four microseconds are more seconds than have gone by. -/
lemma not_due_from (hd : 4 ≤ d) : ¬ ⌊t₀⌋ + delta d ≤ ⌊t₀ + d / 10 ^ 6⌋ + 1 := by
  rw [not_le]
  have hdelta : (d : ℝ) + 2 * 10 ^ 6 ≤ delta d * 10 ^ 6 := by exact_mod_cast add_two_le_delta hd
  have hreal : (⌊t₀ + d / 10 ^ 6⌋ : ℝ) + 1 < ⌊t₀⌋ + delta d := by
    calc (⌊t₀ + d / 10 ^ 6⌋ : ℝ) + 1 ≤ t₀ + d / 10 ^ 6 + 1 := by gcongr; exact Int.floor_le _
      _ < ⌊t₀⌋ + 1 + d / 10 ^ 6 + 1 := by gcongr; exact Int.lt_floor_add_one t₀
      _ ≤ ⌊t₀⌋ + delta d := by linarith
  exact_mod_cast hreal

/-- The condition on a timer that is due in time. -/
def ShortDelay (t₀ : ℝ) (d : ℕ) : Prop := d ≤ 1 ∨ d = 2 ∧ ⌊t₀⌋ < ⌊t₀ + 2 / 10 ^ 6⌋

/-- A timer expires by the second behind the one its delay ends in exactly when the delay is
short. -/
lemma floor_delta_le_iff : ⌊t₀⌋ + delta d ≤ ⌊t₀ + d / 10 ^ 6⌋ + 1 ↔ ShortDelay t₀ d := by
  rcases Nat.lt_or_ge d 4 with hd | hd
  · -- a delay this short ends in the second it starts in, or in the next
    have hlower : ⌊t₀⌋ ≤ ⌊t₀ + d / 10 ^ 6⌋ := by
      apply Int.floor_le_floor
      have : (0 : ℝ) ≤ d / 10 ^ 6 := by positivity
      linarith
    have hupper : ⌊t₀ + d / 10 ^ 6⌋ ≤ ⌊t₀⌋ + 1 := by
      rw [← Int.floor_add_one]
      apply Int.floor_le_floor
      have : (d : ℝ) < 4 := by exact_mod_cast hd
      linarith
    rw [delta_of_le d (by omega), ShortDelay]
    obtain hd | rfl | rfl : d ≤ 1 ∨ d = 2 ∨ d = 3 := by omega
    · exact iff_of_true (by omega) (Or.inl hd)
    · simp only [Nat.cast_ofNat, true_and] at hlower hupper ⊢
      omega
    · omega
  · apply iff_of_false (not_due_from hd)
    rw [ShortDelay]
    omega

/-- When `timerfd_` fires for a timer, at the end of the time it was armed for, the timer is not
due. -/
lemma not_due_at_wakeup (hd : 4 ≤ d)
    (hw : w = t₀ + (howMuchTimeFromNow (expirationAfter t₀ d) (.now (time t₀))).seconds) :
    ¬ expirationAfter t₀ d ≤ .now (time w) := by
  have hdelta : (2 : ℤ) < delta d := by
    have := add_two_le_delta hd
    omega
  have harmed : (howMuchTimeFromNow (expirationAfter t₀ d) (.now (time t₀))).seconds =
      (max 100 (delta d) : ℤ) / 10 ^ 6 := by
    rw [seconds_howMuchTimeFromNow, expirationAfter_eq, Timestamp.now, time, add_sub_cancel_left]
  have hshort : ((max 100 (delta d) : ℤ) : ℝ) / 10 ^ 6 + 1 ≤ delta d := by
    have hint : max 100 (delta d) + 10 ^ 6 ≤ delta d * 10 ^ 6 := by omega
    have hreal : ((max 100 (delta d) : ℤ) : ℝ) + 10 ^ 6 ≤ delta d * 10 ^ 6 := by
      exact_mod_cast hint
    linarith
  rw [expirationAfter_le_now, not_le]
  have hreal : (⌊w⌋ : ℝ) < ⌊t₀⌋ + delta d := by
    calc (⌊w⌋ : ℝ) ≤ t₀ + (max 100 (delta d) : ℤ) / 10 ^ 6 := by
          rw [hw, harmed]
          exact Int.floor_le _
      _ < ⌊t₀⌋ + 1 + (max 100 (delta d) : ℤ) / 10 ^ 6 := by
          gcongr
          exact Int.lt_floor_add_one t₀
      _ ≤ ⌊t₀⌋ + delta d := by linarith
  exact_mod_cast hreal

end due

/-! ## Timers of a queue -/

namespace TimerQueue

/-- `getExpired` returns the timer. -/
def Returns (q : TimerQueue) (now : Timestamp) (it : Entry) : Prop :=
  ∃ expired q', q.getExpired now = some (expired, q') ∧ it ∈ expired

/-- A timer of the queue that was set at `t₀` for `d` microseconds is returned a second after that
is over and later, and not before one second is left. -/
structure OnTime (q : TimerQueue) (a : Address) (t₀ : ℝ) (d : ℕ) : Prop where
  fires : ∀ w : ℝ, t₀ + d / 10 ^ 6 + 1 ≤ w →
    q.Returns (.now (time w)) (.mk (expirationAfter t₀ d) a)
  early : ∀ w : ℝ, w < t₀ + d / 10 ^ 6 - 1 →
    ¬ q.Returns (.now (time w)) (.mk (expirationAfter t₀ d) a)

variable {q : TimerQueue} {a : Address} {e now : Timestamp} {t₀ : ℝ} {d : ℕ}

/-- A timer of the queue is returned when it is due. -/
lemma Sound.returns_iff (h : q.Sound) (hbatch : q.batch = none) (hmem : Entry.mk e a ∈ q.timers) :
    q.Returns now (.mk e a) ↔ e ≤ now := by
  obtain ⟨S, hcore⟩ := h.core
  rw [taken, hbatch] at hcore
  obtain ⟨active, heq, -⟩ := hcore.getExpired now
  rw [← and_iff_right (a := Entry.mk e a ∈ q.timers) (b := e ≤ now) hmem, ← hcore.mem_expired]
  constructor
  · rintro ⟨expired, q', heq', hit⟩
    rw [heq, Option.some.injEq, Prod.mk.injEq] at heq'
    obtain ⟨rfl, -⟩ := heq'
    exact hit
  · intro hit
    exact ⟨_, _, heq, hit⟩

/-- Every run ends in a sound queue. -/
lemma sound_last {p : List (Event × TimerQueue)} (hp : Path Step {} p) : (last {} p).Sound :=
  (hp.throughout (fun _ _ _ h hst => h.step hst) sound_empty).last

/-- **When timers are on time**: when they are set for at most one microsecond, or for two that end
in the next second. -/
theorem onTime_iff {p : List (Event × TimerQueue)} (hp : Path Step {} p)
    (hbatch : (last {} p).batch = none)
    (hmem : Entry.mk (expirationAfter t₀ d) a ∈ (last {} p).timers) :
    (last {} p).OnTime a t₀ d ↔ ShortDelay t₀ d := by
  have hsound := sound_last hp
  rw [← floor_delta_le_iff, ← due_from_iff]
  constructor
  · intro h w hw
    exact (hsound.returns_iff hbatch hmem).mp (h.fires w hw)
  · intro h
    refine ⟨fun w hw => (hsound.returns_iff hbatch hmem).mpr (h w hw), fun w hw => ?_⟩
    rw [hsound.returns_iff hbatch hmem]
    exact not_due_before hw

/-- A timer that is set at the epoch expires as `addTime` says. -/
lemma expirationAfter_zero (d : ℕ) : expirationAfter 0 d = ⟨delta d⟩ := by
  rw [expirationAfter_eq, Int.floor_zero, zero_add]

/-- The run that adds one timer. -/
def addOne (e : Timestamp) : List (Event × TimerQueue) :=
  trace step {} [.newTimer 16 ⟨e, 0, 1⟩, .addTimerInLoop 16]

/-- The run that adds one timer is a run. -/
lemma path_addOne (e : Timestamp) : Path Step {} (addOne e) := path_trace step _ _

/-- A timer that is set for one microsecond is on time. -/
theorem onTime_iff_one : (last {} (addOne ⟨1⟩)).OnTime 16 0 1 := by
  refine (onTime_iff (path_addOne _) (by decide +kernel) ?_).mpr (.inl le_rfl)
  rw [expirationAfter_zero, delta_of_le 1 (by norm_num)]
  decide +kernel

/-- A timer for one second is not returned two seconds later. -/
theorem not_onTime_one_second : ¬ ∀ (p : List (Event × TimerQueue)) (t₀ : ℝ) (d : ℕ) (a : Address),
    Path Step {} p → (last {} p).batch = none →
      Entry.mk (expirationAfter t₀ d) a ∈ (last {} p).timers → (last {} p).OnTime a t₀ d := by
  intro h
  have hdelta : expirationAfter 0 1000000 = ⟨1000000⟩ := by
    rw [expirationAfter_zero]
    decide +kernel
  have hontime := h (addOne ⟨1000000⟩) 0 1000000 16 (path_addOne _) (by decide +kernel)
    (by rw [hdelta]; decide +kernel)
  have hfires := hontime.fires 2 (by norm_num)
  rw [hdelta, time, show (2 : ℝ) = ((2 : ℤ) : ℝ) by norm_num, Int.floor_intCast,
    (sound_last (path_addOne _)).returns_iff (by decide +kernel) (by decide +kernel)] at hfires
  exact absurd hfires (by decide)

end TimerQueue

end SwiftNetCore
