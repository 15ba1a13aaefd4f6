import SwiftNetCore.TimerRuns

/-!
# The timers that one `handleRead` runs

`handleRead` cuts the timers that are due out of the queue, invokes their callbacks, and puts back
those that repeat and were not cancelled. The callbacks add and cancel timers while it is at it.

* `Handles`: a call of `handleRead` in its steps, with the events that its callbacks make.
* `Fires`: what such a call comes to. The timers that are due run once each, in order of expiration.
  Of these, the ones that repeat and were not cancelled are back with a new expiration, the others
  are gone. The later ones that were not cancelled are as they were.
* `Handles.fires`: every call does that, where a timer counts as cancelled when `cancelInLoop` was
  called with its address and its own sequence number.
* `fires_iff`: a `TimerId` holds that number as an `int`. Every call does that for the timers whose
  `TimerId` was cancelled exactly when the number of each of them fits (`not_fires_truncated`).
-/

namespace SwiftNetCore

open Paths (Path last trace path_trace path_append path_cons last_append)

namespace TimerQueue

variable {q s s' : TimerQueue} {now : Timestamp} {a b : Address} {t u : Timer} {n : ℤ}
  {event : Event} {events : List Event} {run p : List (Event × TimerQueue)}

/-! ## What a call of `handleRead` does -/

/-- A call of `handleRead` at `now`, in which the events `events` happen before its end. A `TimerId`
holds an `int`. -/
structure Handles (q : TimerQueue) (now : Timestamp) (events : List Event)
    (run : List (Event × TimerQueue)) : Prop where
  path : Path Step q run
  labels : run.map Prod.fst = .handleRead now :: (events ++ [.finish])
  inside : .finish ∉ events
  ints : ∀ timerId, .cancelInLoop timerId ∈ events → toInt timerId.sequence = timerId.sequence

/-- The timer at an address is in the queue and due. -/
def Due (q : TimerQueue) (now : Timestamp) (a : Address) (t : Timer) : Prop :=
  q.heap a = some t ∧ Entry.mk t.expiration a ∈ q.timers ∧ t.expiration ≤ now

/-- The timer at an address is in the queue and not due. -/
def Later (q : TimerQueue) (now : Timestamp) (a : Address) (t : Timer) : Prop :=
  q.heap a = some t ∧ Entry.mk t.expiration a ∈ q.timers ∧ now < t.expiration

/-- The timer was deleted, and so is in no set of the queue: none that is left has its number. -/
def Gone (q : TimerQueue) (t : Timer) : Prop := ∀ a u, q.heap a = some u → u.sequence ≠ t.sequence

/-- A callback has cancelled the timer by its `TimerId`. -/
def Cancelled (events : List Event) (a : Address) (t : Timer) : Prop :=
  .cancelInLoop (.of a t.sequence) ∈ events

/-- A callback has called `cancelInLoop` with the timer's address and sequence number. -/
def Hit (events : List Event) (a : Address) (t : Timer) : Prop :=
  .cancelInLoop ⟨a, t.sequence⟩ ∈ events

/-- What a call of `handleRead` comes to, from `q` to `q'`. -/
structure Fires (q : TimerQueue) (now : Timestamp) (events : List Event)
    (cancelled : Address → Timer → Prop) (q' : TimerQueue) : Prop where
  /-- the timers that are due run, once each and in order of expiration, and no other -/
  invoked : ∃ batch : List (Address × Timer), (∀ a t, (a, t) ∈ batch ↔ q.Due now a t) ∧
    (batch.map fun x => x.2.sequence).Nodup ∧
    batch.Pairwise (fun x y => x.2.expiration ≤ y.2.expiration) ∧
    q'.fired = q.fired ++ batch.map fun x => x.2.sequence
  /-- a timer that is created meanwhile is not one of them, nor is one that is added -/
  created : ∀ a t, .newTimer a t ∈ events → ∀ b u, q.Due now b u → u.sequence ≠ t.sequence
  added : ∀ a, .addTimerInLoop a ∈ events → ∀ t, ¬ q.Due now a t
  /-- those that do not repeat are gone, and those that were cancelled -/
  spent : ∀ a t, q.Due now a t → ¬ t.Repeats → q'.Gone t
  revoked : ∀ a t, q.Due now a t ∨ q.Later now a t → cancelled a t → q'.Gone t
  /-- the others are back -/
  back : ∀ a t, q.Due now a t → t.Repeats → ¬ cancelled a t →
    q'.heap a = some { t with expiration := addTime now t.interval } ∧
      Entry.mk (addTime now t.interval) a ∈ q'.timers
  /-- and later timers are as they were -/
  kept : ∀ a t, q.Later now a t → ¬ cancelled a t →
    q'.heap a = some t ∧ Entry.mk t.expiration a ∈ q'.timers

/-! ## The batch -/

/-- The timers that entries are for. -/
def timersOf (q : TimerQueue) (its : List Entry) : List (Address × Timer) :=
  its.filterMap fun it => (q.heap it.address).map (it.address, ·)

/-- The timers of entries and more are those of the ones and those of the others. -/
lemma timersOf_append {its its' : List Entry} :
    q.timersOf (its ++ its') = q.timersOf its ++ q.timersOf its' := by
  simp [timersOf]

/-- An entry is for the timer at its address. -/
lemma timersOf_singleton {it : Entry} (ht : q.heap it.address = some t) :
    q.timersOf [it] = [(it.address, t)] := by
  simp [timersOf, ht]

/-- The timers that entries are for are those at their addresses. -/
lemma mem_timersOf {its : List Entry} :
    (a, t) ∈ q.timersOf its ↔ q.heap a = some t ∧ a ∈ its.map Entry.address := by
  simp only [timersOf, List.mem_filterMap, Option.map_eq_some_iff, Prod.mk.injEq, List.mem_map]
  constructor
  · rintro ⟨it, hit, u, hu, rfl, rfl⟩
    exact ⟨hu, it, hit, rfl⟩
  · rintro ⟨ht, it, hit, rfl⟩
    exact ⟨it, hit, t, ht, rfl, rfl⟩

/-- The timers that are due are those of the entries that `getExpired` takes. -/
lemma Sound.mem_due (h : q.Sound) (ht : q.heap a = some t) :
    a ∈ (q.due now).map Entry.address ↔ q.Due now a t := by
  obtain ⟨S, hcore⟩ := h.core
  rw [List.mem_map]
  constructor
  · rintro ⟨it, hit, rfl⟩
    rw [← Entry.mk_eta it] at hit
    obtain ⟨hmem, hle⟩ := hcore.mem_expired.mp hit
    obtain ⟨u, hu, he⟩ := h.consistent.expiration _ _ hmem
    obtain rfl : u = t := Option.some.inj (hu.symm.trans ht)
    rw [← he] at hmem hle
    exact ⟨hu, hmem, hle⟩
  · rintro ⟨-, hmem, hle⟩
    exact ⟨.mk t.expiration a, hcore.mem_expired.mpr ⟨hmem, hle⟩, rfl⟩

/-- The timers of the batch are those that are due. -/
lemma Sound.mem_timersOf_due (h : q.Sound) :
    (a, t) ∈ q.timersOf (q.due now) ↔ q.Due now a t := by
  rw [mem_timersOf]
  constructor
  · rintro ⟨ht, hmem⟩
    exact (h.mem_due ht).mp hmem
  · intro hdue
    exact ⟨hdue.1, (h.mem_due hdue.1).mpr hdue⟩

/-- The timers that are due have different numbers. -/
lemma Sound.nodup_timersOf_due (h : q.Sound) :
    ((q.timersOf (q.due now)).map fun x => x.2.sequence).Nodup := by
  obtain ⟨S, hcore⟩ := h.core
  have hnodup : (q.timersOf (q.due now)).Nodup := by
    refine List.pairwise_filterMap.mpr ((List.pairwise_map.mp (hcore.due_nodup now)).imp ?_)
    intro it it' hne x hx x' hx' heq
    obtain ⟨t, -, rfl⟩ := Option.map_eq_some_iff.mp hx
    obtain ⟨t', -, rfl⟩ := Option.map_eq_some_iff.mp hx'
    exact hne (congrArg Prod.fst heq)
  apply hnodup.map_on
  rintro ⟨a, t⟩ hx ⟨a', t'⟩ hx' heq
  have ht := (mem_timersOf.mp hx).1
  have ht' := (mem_timersOf.mp hx').1
  obtain rfl := hcore.books.injective a a' t t' ht ht' heq
  rw [Option.some.inj (ht.symm.trans ht')]

/-- The timers that are due are in order of expiration, by which `timers_` is sorted. -/
lemma Sound.pairwise_timersOf_due (h : q.Sound) :
    (q.timersOf (q.due now)).Pairwise (fun x y => x.2.expiration ≤ y.2.expiration) := by
  have hexpiration : ∀ it ∈ q.due now, ∀ x, (q.heap it.address).map (it.address, ·) = some x →
      x.2.expiration = it.expiration := by
    intro it hit x hx
    obtain ⟨t, ht, rfl⟩ := Option.map_eq_some_iff.mp hx
    obtain ⟨u, hu, he⟩ :=
      h.consistent.expiration it.expiration it.address (OrdSet.mem_before.mp hit).1
    rw [← he, Option.some.inj (ht.symm.trans hu)]
  refine List.pairwise_filterMap.mpr ((OrdSet.pairwise_before _ _).imp_of_mem ?_)
  intro it it' hit hit' hlt x hx x' hx'
  rw [hexpiration it hit x hx, hexpiration it' hit' x' hx']
  exact Entry.expiration_le_of_le hlt.le

/-! ## While the callbacks run -/

/-- The invariant of a call of `handleRead`: what its timers are when the events `events` have
happened. -/
structure During (q : TimerQueue) (now : Timestamp) (events : List Event) (s : TimerQueue) :
    Prop where
  entered : q.Sound
  sound : s.Sound
  batch : ∃ done todo running, q.due now = done ++ todo ∧
    s.batch = some ⟨now, q.due now, todo, running⟩ ∧
    s.fired = q.fired ++ (q.timersOf done).map fun x => x.2.sequence
  /-- the timers of the batch stay where they are, -/
  heap : ∀ a ∈ (q.due now).map Entry.address, s.heap a = q.heap a
  /-- and their cancellations are remembered -/
  canceling : ∀ a ∈ (q.due now).map Entry.address, ∀ n,
    ActiveTimer.mk a n ∈ s.cancelingTimers ↔ .cancelInLoop ⟨a, n⟩ ∈ events
  kept : ∀ a t, q.Later now a t → ¬ Hit events a t →
    s.heap a = some t ∧ Entry.mk t.expiration a ∈ s.timers
  gone : ∀ a t, q.Later now a t → Hit events a t → s.Gone t
  grown : ∀ n ∈ q.created, n ∈ s.created
  created : ∀ a t, .newTimer a t ∈ events → t.sequence ∉ q.created
  added : ∀ a, .addTimerInLoop a ∈ events → a ∉ (q.due now).map Entry.address

/-- During the call, the timers taken are those that were due. -/
lemma During.taken (h : During q now events s) : s.taken = (q.due now).map Entry.address := by
  obtain ⟨done, todo, running, -, hbatch, -⟩ := h.batch
  exact taken_of_batch hbatch

/-- A timer is hit by one event more when it was before, or the event cancels it. -/
lemma hit_append : Hit (events ++ [event]) a t ↔
    Hit events a t ∨ event = .cancelInLoop ⟨a, t.sequence⟩ := by
  rw [Hit, Hit, List.mem_append, List.mem_singleton, eq_comm (a := event)]

/-- The call begins with the batch, none of whose callbacks has run. -/
lemma Sound.during (h : q.Sound) (hst : Step q (.handleRead now) s) : During q now [] s := by
  have hsound := h.step hst
  cases h.effect hst with
  | expired _ active hbatch =>
      refine ⟨h, hsound, ⟨[], q.due now, none, rfl, rfl, by simp [timersOf]⟩, fun a _ => rfl,
        ?_, ?_, nofun, fun n hn => hn, nofun, nofun⟩
      · intro a _ n
        simp
      · rintro a t ⟨ht, hmem, hlt⟩ -
        refine ⟨ht, OrdSet.mem_startingAt.mpr ⟨hmem, ?_⟩⟩
        -- it is not before the sentry
        rw [sentry]
        exact (Entry.mk_lt_mk.mpr (Or.inl hlt)).le

/-- Events that cancel nothing, and leave the batch, keep the invariant of the call. -/
lemma During.keep (h : During q now events s) (hsound : s'.Sound)
    (hevent : ∀ timerId, event ≠ .cancelInLoop timerId)
    (hbatch : ∃ done todo running, q.due now = done ++ todo ∧
      s'.batch = some ⟨now, q.due now, todo, running⟩ ∧
      s'.fired = q.fired ++ (q.timersOf done).map fun x => x.2.sequence)
    (hheap : ∀ a t, s.heap a = some t → s'.heap a = some t)
    (hback : ∀ a u, s'.heap a = some u → s.heap a = some u ∨ u.sequence ∉ s.created)
    (htimers : ∀ it ∈ s.timers, it ∈ s'.timers)
    (hcanceling : s'.cancelingTimers = s.cancelingTimers)
    (hgrown : ∀ n ∈ s.created, n ∈ s'.created)
    (hcreated : ∀ a t, event = .newTimer a t → t.sequence ∉ s.created)
    (hadded : ∀ a, event = .addTimerInLoop a → a ∉ s.taken) :
    During q now (events ++ [event]) s' := by
  have hhit : ∀ a t, Hit (events ++ [event]) a t → Hit events a t :=
    fun a t hhit => (hit_append.mp hhit).resolve_right (hevent _)
  refine ⟨h.entered, hsound, hbatch, ?_, ?_, ?_, ?_, fun n hn => hgrown n (h.grown n hn), ?_, ?_⟩
  · intro a ha
    obtain ⟨S, hcore⟩ := h.sound.core
    obtain ⟨t, ht⟩ := hcore.placed.live (Or.inr (Or.inr (h.taken ▸ ha)))
    rw [hheap a t ht, ← h.heap a ha, ht]
  · intro a ha n
    rw [hcanceling, h.canceling a ha n, List.mem_append, List.mem_singleton]
    exact ⟨Or.inl, fun hmem => hmem.resolve_right (hevent _).symm⟩
  · intro a t hlater hnot
    obtain ⟨ht, hmem⟩ := h.kept a t hlater fun hhit => hnot (hit_append.mpr (Or.inl hhit))
    exact ⟨hheap a t ht, htimers _ hmem⟩
  · intro a t hlater hmem b u hu
    rcases hback b u hu with hu | hfresh
    · exact h.gone a t hlater (hhit a t hmem) b u hu
    · -- its number was given before
      obtain ⟨S, hcore⟩ := h.entered.core
      have hn := h.grown _ (hcore.books.live_created a t hlater.1)
      exact fun heq => hfresh (heq ▸ hn)
  · intro a t hmem
    rcases List.mem_append.mp hmem with hmem | hmem
    · exact h.created a t hmem
    · exact fun hn => hcreated a t (List.mem_singleton.mp hmem).symm (h.grown _ hn)
  · intro a hmem
    rcases List.mem_append.mp hmem with hmem | hmem
    · exact h.added a hmem
    · rw [← h.taken]
      exact hadded a (List.mem_singleton.mp hmem).symm

/-- A cancellation deletes a later timer, and is remembered for one of the batch. -/
lemma During.cancel {timerId : TimerId} (h : During q now events s)
    (hst : Step s (.cancelInLoop timerId) s') :
    During q now (events ++ [.cancelInLoop timerId]) s' := by
  have hsound := h.sound.step hst
  have hmem_iff : ∀ a n, Event.cancelInLoop ⟨a, n⟩ ∈ events ++ [.cancelInLoop timerId] ↔
      .cancelInLoop ⟨a, n⟩ ∈ events ∨ a = timerId.timer ∧ n = timerId.sequence := by
    intro a n
    obtain ⟨b, m⟩ := timerId
    simp
  have hcreated : ∀ a t, .newTimer a t ∈ events ++ [.cancelInLoop timerId] →
      t.sequence ∉ q.created :=
    fun a t hmem => h.created a t ((List.mem_append.mp hmem).resolve_right (by simp))
  have hadded : ∀ a, .addTimerInLoop a ∈ events ++ [.cancelInLoop timerId] →
      a ∉ (q.due now).map Entry.address :=
    fun a hmem => h.added a ((List.mem_append.mp hmem).resolve_right (by simp))
  cases h.sound.effect hst with
  | cancelled _ t₁ ht₁ hseq hmem₁ =>
      obtain ⟨S, hcore⟩ := h.sound.core
      have hnot : ∀ a ∈ (q.due now).map Entry.address, a ≠ timerId.timer := by
        rintro a ha rfl
        exact h.sound.consistent.apart _ (h.taken ▸ ha) _ hmem₁
      refine ⟨h.entered, hsound, h.batch, ?_, ?_, ?_, ?_, h.grown, hcreated, hadded⟩
      · intro a ha
        exact (Function.update_of_ne (hnot a ha) _ _).trans (h.heap a ha)
      · intro a ha n
        rw [hmem_iff, h.canceling a ha n]
        exact ⟨Or.inl, fun hmem => hmem.resolve_right fun heq => hnot a ha heq.1⟩
      · intro a t hlater hhit
        rw [Hit, hmem_iff, not_or] at hhit
        obtain ⟨ht, hmem⟩ := h.kept a t hlater hhit.1
        have hne : a ≠ timerId.timer := by
          rintro rfl
          rw [Option.some.inj (ht.symm.trans ht₁)] at hhit
          exact hhit.2 ⟨rfl, hseq⟩
        refine ⟨(Function.update_of_ne hne _ _).trans ht, OrdSet.mem_erase.mpr ⟨hmem, ?_⟩⟩
        exact fun heq => hne (Entry.mk_inj.mp heq).2
      · intro a t hlater hhit b u hu heq
        obtain ⟨hne, hu⟩ := heap_of_update_none hu
        by_cases hbefore : Hit events a t
        · exact h.gone a t hlater hbefore b u hu heq
        · -- it is the timer that is deleted
          obtain ⟨ht, -⟩ := h.kept a t hlater hbefore
          obtain ⟨rfl, -⟩ := ((hmem_iff _ _).mp hhit).resolve_left hbefore
          exact hne (hcore.books.injective b _ u t hu ht heq)
  | noted _ hnot =>
      have hcalling : s.callingExpiredTimers = true := by
        obtain ⟨done, todo, running, -, hbatch, -⟩ := h.batch
        rw [h.sound.calling, hbatch]
        rfl
      refine ⟨h.entered, hsound, h.batch, h.heap, ?_, ?_, ?_, h.grown, hcreated, hadded⟩
      · intro a ha n
        rw [hmem_iff, ← h.canceling a ha n, hcalling, if_pos rfl, OrdSet.mem_insert,
          ActiveTimer.mk_inj, or_comm]
      · intro a t hlater hhit
        rw [Hit, hmem_iff, not_or] at hhit
        exact h.kept a t hlater hhit.1
      · intro a t hlater hhit
        by_cases hbefore : Hit events a t
        · exact h.gone a t hlater hbefore
        · -- it would have been found
          obtain ⟨ht, hmem⟩ := h.kept a t hlater hbefore
          obtain ⟨rfl, hn⟩ := ((hmem_iff _ _).mp hhit).resolve_left hbefore
          exact absurd ((h.sound.consistent.active _ _).mpr ⟨_, t, hmem, ht, hn⟩) hnot

/-- Each step of the call before the last keeps its invariant. -/
lemma During.step (h : During q now events s) (hst : Step s event s')
    (hevent : event ≠ .finish) : During q now (events ++ [event]) s' := by
  have hsound := h.sound.step hst
  obtain ⟨done, todo, running, hdue, hbatch, hfired⟩ := h.batch
  cases h.sound.effect hst with
  | newTimer a t hen =>
      obtain ⟨hfree, -, -, hfresh⟩ := hen
      refine h.keep hsound nofun ⟨done, todo, running, hdue, hbatch, hfired⟩
        (fun b u hu => heap_update_of_free hfree hu) ?_ (fun _ hmem => hmem) rfl
        (fun n hn => List.mem_append_left _ hn) ?_ nofun
      · intro b u hu
        rcases heap_of_update_some hu with ⟨-, rfl⟩ | ⟨-, hu⟩
        · exact Or.inr hfresh
        · exact Or.inl hu
      · intro b u heq
        obtain ⟨-, rfl⟩ := Event.newTimer.inj heq
        exact hfresh
  | added a t hpending ha =>
      refine h.keep hsound nofun ⟨done, todo, running, hdue, hbatch, hfired⟩ (fun _ _ ht => ht)
        (fun _ _ hu => Or.inl hu) (fun _ hmem => OrdSet.mem_insert.mpr (Or.inr hmem)) rfl
        (fun _ hn => hn) nofun ?_
      intro b heq
      obtain rfl := Event.addTimerInLoop.inj heq
      obtain ⟨S, hcore⟩ := h.sound.core
      exact hcore.placed.pending_busy _ hpending
  | cancelled timerId => exact h.cancel hst
  | noted timerId => exact h.cancel hst
  | expired now' active hnone =>
      rw [hbatch] at hnone
      exact absurd hnone nofun
  | ran batch it todo' t hbatch' htodo ht =>
      obtain rfl := Option.some.inj (hbatch.symm.trans hbatch')
      obtain rfl : todo = it :: todo' := htodo
      have hit : it.address ∈ (q.due now).map Entry.address := by
        rw [hdue]
        exact List.mem_map_of_mem (List.mem_append_right _ List.mem_cons_self)
      have ht' : q.heap it.address = some t := (h.heap _ hit).symm.trans ht
      refine h.keep hsound nofun ⟨done ++ [it], todo', some it.address, ?_, rfl, ?_⟩
        (fun _ _ ht => ht) (fun _ _ hu => Or.inl hu) (fun _ hmem => hmem) rfl (fun _ hn => hn)
        nofun nofun
      · rw [hdue, List.append_assoc, List.singleton_append]
      · rw [hfired, timersOf_append, timersOf_singleton ht', List.map_append, List.append_assoc]
        rfl
  | returned batch hbatch' =>
      obtain rfl := Option.some.inj (hbatch.symm.trans hbatch')
      exact h.keep hsound nofun ⟨done, todo, none, hdue, rfl, hfired⟩ (fun _ _ ht => ht)
        (fun _ _ hu => Or.inl hu) (fun _ hmem => hmem) rfl (fun _ hn => hn) nofun nofun
  | finished => exact absurd rfl hevent

/-- All steps of the call before the last keep its invariant. -/
lemma During.path (h : During q now events s) (hp : Path Step s p)
    (hinside : .finish ∉ p.map Prod.fst) :
    During q now (events ++ p.map Prod.fst) (last s p) := by
  induction p generalizing s events with
  | nil => simpa [last] using h
  | cons x p ih =>
      obtain ⟨event, s'⟩ := x
      rw [path_cons] at hp
      simp only [List.map_cons, List.mem_cons, not_or] at hinside
      rw [List.map_cons, List.append_cons, last]
      exact ih (h.step hp.1 (Ne.symm hinside.1)) hp.2 hinside.2

/-! ## The end of the call -/

/-- A timer that is there behind `reset` was there before, and it goes back if it is one of the
batch. -/
lemma Sound.before_finish {batch : Batch} (h : s.Sound) (hbatch : s.batch = some batch)
    (heq : s.finish batch = some s') (hu : s'.heap b = some u) :
    ∃ v, s.heap b = some v ∧ v.sequence = u.sequence ∧ (b ∈ s.taken → s.GoesBack b v) := by
  obtain ⟨hheap, -⟩ := h.finish_spec hbatch heq
  rw [hheap b] at hu
  split at hu
  · obtain ⟨v, hv, hback, rfl⟩ := afterReset_eq_some.mp hu
    exact ⟨v, hv, rfl, fun _ => hback⟩
  · next hnot => exact ⟨u, hu, rfl, fun hmem => absurd hmem hnot⟩

/-- `restart` sets a timer that repeats an interval later. -/
lemma restart_of_repeats (ht : t.Repeats) :
    t.restart now = { t with expiration := addTime now t.interval } := by
  rw [Timer.restart, if_pos ht]

/-- A timer of the batch goes back when it repeats and no callback has cancelled it. -/
lemma During.goesBack_iff (h : During q now events s) (ha : a ∈ (q.due now).map Entry.address) :
    s.GoesBack a t ↔ t.Repeats ∧ ¬ Hit events a t := by
  rw [GoesBack, h.canceling a ha, Hit]

/-- Behind its last step the call has done what it should. -/
lemma During.finish (h : During q now events s) (hst : Step s .finish s') :
    Fires q now events (Hit events) s' := by
  obtain ⟨batch, hbatch, -, htodo, heq⟩ := hst.finish
  obtain ⟨done, todo, running, hdue, hbatch', hfired⟩ := h.batch
  obtain rfl := Option.some.inj (hbatch'.symm.trans hbatch)
  obtain rfl : todo = [] := htodo
  rw [List.append_nil] at hdue
  obtain ⟨hheap, htimers, ⟨-, -, hfired'⟩, -⟩ := h.sound.finish_spec hbatch heq
  obtain ⟨S, hcore⟩ := h.sound.core
  have hmem : ∀ a t, q.Due now a t → a ∈ (q.due now).map Entry.address :=
    fun a t hd => (h.entered.mem_due hd.1).mpr hd
  have hlive : ∀ a t, q.Due now a t → s.heap a = some t :=
    fun a t hd => (h.heap a (hmem a t hd)).trans hd.1
  -- a timer of the batch that does not go back is gone
  have hspent : ∀ a t, q.Due now a t → ¬ s.GoesBack a t → s'.Gone t := by
    intro a t hd hnot b u hu hseq
    obtain ⟨v, hv, hvu, hback⟩ := h.sound.before_finish hbatch heq hu
    obtain rfl := hcore.books.injective b a v t hv (hlive a t hd) (hvu.trans hseq)
    obtain rfl := Option.some.inj (hv.symm.trans (hlive b t hd))
    exact hnot (hback (h.taken ▸ hmem b v hd))
  refine ⟨⟨q.timersOf (q.due now), ?_, ?_, ?_, ?_⟩, ?_, ?_, ?_, ?_, ?_, ?_⟩
  · exact fun a t => h.entered.mem_timersOf_due
  · exact h.entered.nodup_timersOf_due
  · exact h.entered.pairwise_timersOf_due
  · rw [hfired', hfired, hdue]
  · intro a t hnew b u hd hseq
    obtain ⟨S₀, hcore₀⟩ := h.entered.core
    exact h.created a t hnew (hseq ▸ hcore₀.books.live_created b u hd.1)
  · exact fun a hadd t hd => h.added a hadd (hmem a t hd)
  · intro a t hd hnot
    apply hspent a t hd
    rw [h.goesBack_iff (hmem a t hd)]
    exact fun hback => hnot hback.1
  · rintro a t (hd | hlater) hhit
    · apply hspent a t hd
      rw [h.goesBack_iff (hmem a t hd)]
      exact fun hback => hback.2 hhit
    · intro b u hu hseq
      obtain ⟨v, hv, hvu, -⟩ := h.sound.before_finish hbatch heq hu
      exact h.gone a t hlater hhit b v hv (hvu.trans hseq)
  · intro a t hd hrepeats hnot
    have hback : s.GoesBack a t := (h.goesBack_iff (hmem a t hd)).mpr ⟨hrepeats, hnot⟩
    have htaken : a ∈ s.taken := h.taken ▸ hmem a t hd
    have hafter : s.afterReset now a = some { t with expiration := addTime now t.interval } :=
      afterReset_eq_some.mpr ⟨t, hlive a t hd, hback, restart_of_repeats hrepeats⟩
    constructor
    · rw [hheap a, if_pos htaken, hafter]
    · exact (htimers _).mpr (Or.inr ⟨htaken, _, hafter, rfl⟩)
  · intro a t hlater hnot
    obtain ⟨ht, hin⟩ := h.kept a t hlater hnot
    constructor
    · have htaken : a ∉ s.taken := fun hmem => h.sound.consistent.apart a hmem _ hin
      rw [hheap a, if_neg htaken, ht]
    · exact (htimers _).mpr (Or.inl hin)

/-- Every call does what it should, where a timer counts as cancelled under its own number. -/
theorem Handles.fires (h : Handles q now events run) (hsound : q.Sound) :
    Fires q now events (Hit events) (last q run) := by
  obtain ⟨x, p, rfl, hx, hp⟩ := List.map_eq_cons_iff.mp h.labels
  obtain ⟨body, fin, rfl, rfl, hfin⟩ := List.map_eq_append_iff.mp hp
  obtain ⟨y, rest, rfl, hy, hrest⟩ := List.map_eq_cons_iff.mp hfin
  obtain rfl := List.map_eq_nil_iff.mp hrest
  obtain ⟨_, q₁⟩ := x
  obtain ⟨_, q'⟩ := y
  obtain rfl : _ = Event.handleRead now := hx
  obtain rfl : _ = Event.finish := hy
  obtain ⟨hstart, hpath⟩ := path_cons.mp h.path
  obtain ⟨hbody, hfinish⟩ := path_append.mp hpath
  have hduring := (hsound.during hstart).path hbody h.inside
  have hend := hduring.finish (path_cons.mp hfinish).1
  rw [List.nil_append] at hend
  rw [last, last_append]
  exact hend

/-! ## `TimerId`s -/

/-- What has the number of a timer as an `int`, has it when it fits. -/
lemma Handles.hit_iff (h : Handles q now events run) :
    Hit events a t ↔ Cancelled events a t ∧ toInt t.sequence = t.sequence := by
  rw [Hit, Cancelled, TimerId.of]
  constructor
  · intro hmem
    have hint : toInt t.sequence = t.sequence := h.ints _ hmem
    exact ⟨by rwa [hint], hint⟩
  · rintro ⟨hmem, hint⟩
    rwa [hint] at hmem

/-- **Timer firing.** From every state that a queue can reach, a call of `handleRead` runs the
timers that are due, puts back those that repeat and were not cancelled, and leaves the later ones
alone, whatever its callbacks add and cancel, exactly when the number of every timer that they
cancel is an `int`, those apart that do not go back in any case. -/
theorem fires_iff {p₀ : List (Event × TimerQueue)} (hp₀ : Path Step {} p₀) (hq : q = last {} p₀)
    (h : Handles q now events run) :
    Fires q now events (Cancelled events) (last q run) ↔
      ∀ a t, q.Due now a t ∧ t.Repeats ∨ q.Later now a t → Cancelled events a t →
        toInt t.sequence = t.sequence := by
  have hsound : q.Sound := by
    rw [hq]
    exact (hp₀.throughout (fun q event q' h hst => h.step hst) sound_empty).last
  have hfires := h.fires hsound
  have hcancelled : ∀ a t, Hit events a t → Cancelled events a t := fun a t hhit =>
    (h.hit_iff.mp hhit).1
  constructor
  · intro hall a t hin hmem
    by_contra hint
    have hnot : ¬ Hit events a t := fun hhit => hint (h.hit_iff.mp hhit).2
    rcases hin with ⟨hd, hrepeats⟩ | hlater
    · exact hall.revoked a t (Or.inl hd) hmem a _ (hfires.back a t hd hrepeats hnot).1 rfl
    · exact hall.revoked a t (Or.inr hlater) hmem a _ (hfires.kept a t hlater hnot).1 rfl
  · intro hints
    refine ⟨hfires.invoked, hfires.created, hfires.added, hfires.spent, ?_, ?_, ?_⟩
    · rintro a t (hd | hlater) hmem
      · by_cases hrepeats : t.Repeats
        · have hint := hints a t (Or.inl ⟨hd, hrepeats⟩) hmem
          exact hfires.revoked a t (Or.inl hd) (h.hit_iff.mpr ⟨hmem, hint⟩)
        · exact hfires.spent a t hd hrepeats
      · have hint := hints a t (Or.inr hlater) hmem
        exact hfires.revoked a t (Or.inr hlater) (h.hit_iff.mpr ⟨hmem, hint⟩)
    · exact fun a t hd hrepeats hnot =>
        hfires.back a t hd hrepeats fun hhit => hnot (hcancelled a t hhit)
    · exact fun a t hlater hnot => hfires.kept a t hlater fun hhit => hnot (hcancelled a t hhit)

/-- Three timers: the first repeats and is due, the second is due, the third is not. -/
def threeTimers : TimerQueue :=
  last {} (trace step {}
    [.newTimer 16 ⟨⟨5⟩, 1, 1⟩, .addTimerInLoop 16, .newTimer 32 ⟨⟨5⟩, 0, 2⟩, .addTimerInLoop 32,
      .newTimer 48 ⟨⟨9⟩, 1, 3⟩, .addTimerInLoop 48])

/-- The first cancels itself and adds a timer that is due long since, the second cancels the
third. -/
def threeCallbacks : List Event :=
  [.run, .cancelInLoop (.of 16 1), .newTimer 64 ⟨⟨1⟩, 0, 4⟩, .addTimerInLoop 64, .ret, .run,
    .cancelInLoop (.of 48 3), .ret]

/-- With three timers and their callbacks, the call does what it should. -/
theorem fires_iff_three : Fires threeTimers ⟨7⟩ threeCallbacks (Cancelled threeCallbacks)
    (last threeTimers
      (trace step threeTimers (.handleRead ⟨7⟩ :: (threeCallbacks ++ [.finish])))) := by
  have hhandles : Handles threeTimers ⟨7⟩ threeCallbacks
      (trace step threeTimers (.handleRead ⟨7⟩ :: (threeCallbacks ++ [.finish]))) := by
    refine ⟨path_trace step _ _, by decide +kernel, by decide +kernel, ?_⟩
    intro timerId hmem
    simp only [threeCallbacks, List.mem_cons, reduceCtorEq, Event.cancelInLoop.injEq,
      List.not_mem_nil, false_or, or_false] at hmem
    rcases hmem with rfl | rfl
    · decide
    · decide
  apply (fires_iff (path_trace step _ _) rfl hhandles).mpr
  intro a t hin hmem
  have ht : threeTimers.heap a = some t := by
    rcases hin with ⟨hd, -⟩ | hlater
    · exact hd.1
    · exact hlater.1
  simp only [Cancelled, TimerId.of, threeCallbacks, List.mem_cons, reduceCtorEq,
    Event.cancelInLoop.injEq, TimerId.mk.injEq, List.not_mem_nil, false_or, or_false] at hmem
  rcases hmem with ⟨rfl, -⟩ | ⟨rfl, -⟩
  · obtain rfl : ⟨⟨5⟩, 1, 1⟩ = t := Option.some.inj ht
    decide
  · obtain rfl : ⟨⟨9⟩, 1, 3⟩ = t := Option.some.inj ht
    decide

/-- A repeating timer whose number is no `int`. -/
def beyondInt : TimerQueue :=
  last {} (trace step {} [.newTimer 16 ⟨⟨5⟩, 1, 2 ^ 31⟩, .addTimerInLoop 16])

/-- A timer whose number exceeds an `int`, and which its callback cancels, is back. -/
theorem not_fires_truncated :
    ¬ ∀ (p₀ : List (Event × TimerQueue)) (q : TimerQueue) (now : Timestamp) (events : List Event)
      (run : List (Event × TimerQueue)), Path Step {} p₀ → q = last {} p₀ →
        Handles q now events run → Fires q now events (Cancelled events) (last q run) := by
  intro h
  have hhandles : Handles beyondInt ⟨7⟩ [.run, .cancelInLoop (.of 16 (2 ^ 31)), .ret]
      (trace step beyondInt
        [.handleRead ⟨7⟩, .run, .cancelInLoop (.of 16 (2 ^ 31)), .ret, .finish]) := by
    refine ⟨path_trace step _ _, by decide +kernel, by decide +kernel, ?_⟩
    intro timerId hmem
    simp only [List.mem_cons, reduceCtorEq, Event.cancelInLoop.injEq, List.not_mem_nil, false_or,
      or_false] at hmem
    subst hmem
    decide
  have hfires := h _ beyondInt ⟨7⟩ _ _ (path_trace step _ _) rfl hhandles
  have hdue : beyondInt.Due ⟨7⟩ 16 ⟨⟨5⟩, 1, 2 ^ 31⟩ :=
    ⟨by decide +kernel, by decide +kernel, by decide +kernel⟩
  have hback : (last beyondInt (trace step beyondInt
      [.handleRead ⟨7⟩, .run, .cancelInLoop (.of 16 (2 ^ 31)), .ret, .finish])).heap 16 =
        some ⟨⟨1000007⟩, 1, 2 ^ 31⟩ := by
    decide +kernel
  exact hfires.revoked 16 _ (Or.inl hdue) (by simp [Cancelled]) 16 _ hback rfl

end TimerQueue

end SwiftNetCore
