import SwiftNetCore.TimerHistory

/-!
# Who deletes a timer

`TimerQueue` owns its timers through raw pointers: `new Timer` in `addTimer`, `delete` in
`cancelInLoop`, in `reset` and in the destructor.

* `Tracked`: a timer that was created lives, or was deleted. Every step keeps it, and so does the
  destructor.
* `accounted_throughout`: over every run, in every state, each timer was created once and lives at
  one address or was deleted once; one that does not repeat is deleted when the batch in which it
  ran is over; and the destructor deletes, once, all but those that `addTimerInLoop` has not seen
  and those of a batch under way, which nobody deletes.
-/

namespace SwiftNetCore

open Paths (Path Throughout trace path_trace)

namespace TimerQueue

/-- The loop of the destructor. Source: TimerQueue.cc 85-88 -/
def deleteAll : List Entry → TimerQueue → Option TimerQueue
  | [], q => some q
  | it :: its, q => (q.delete it.address).bind (deleteAll its)

/-- What `~TimerQueue` does with the timers. Source: TimerQueue.cc 79-89 -/
def destroy (q : TimerQueue) : Option TimerQueue := q.deleteAll q.timers.toList

/-- The timer with a number is on the heap. -/
def Lives (q : TimerQueue) (n : ℤ) : Prop := ∃ a t, q.heap a = some t ∧ t.sequence = n

/-- A timer that was created lives, or was deleted. -/
structure Tracked (q : TimerQueue) : Prop where
  nodup : q.created.Nodup
  created : ∀ n ∈ q.created, n ∈ q.deleted ∨ q.Lives n

variable {q q' : TimerQueue} {event : Event} {a : Address} {t u : Timer} {n : ℤ} {now : Timestamp}

/-! ## What keeps it -/

/-- Where no timer is created, and each that lived or was deleted still is, none is lost track
of. -/
lemma Tracked.of_imp (h : q.Tracked) (hcreated : q'.created = q.created)
    (himp : ∀ n, n ∈ q.deleted ∨ q.Lives n → n ∈ q'.deleted ∨ q'.Lives n) : q'.Tracked where
  nodup := by rw [hcreated]; exact h.nodup
  created := by
    rw [hcreated]
    exact fun n hn => himp n (h.created n hn)

/-- The timer at an address is deleted. -/
lemma Tracked.delete (h : q.Tracked) (ha : q.heap a = some t) (hcreated : q'.created = q.created)
    (hdeleted : q'.deleted = q.deleted ++ [t.sequence])
    (hheap : q'.heap = Function.update q.heap a none) : q'.Tracked := by
  apply h.of_imp hcreated
  rintro n (hn | ⟨b, u, hu, rfl⟩)
  · exact Or.inl (hdeleted ▸ List.mem_append_left _ hn)
  · by_cases hba : b = a
    · subst hba
      obtain rfl := Option.some.inj (ha.symm.trans hu)
      exact Or.inl (hdeleted ▸ List.mem_append_right _ (List.mem_singleton.mpr rfl))
    · exact Or.inr ⟨b, u, by rw [hheap, Function.update_of_ne hba, hu], rfl⟩

/-- The timer at an address gets another expiration. -/
lemma Tracked.restart (h : q.Tracked) (ha : q.heap a = some t) (hcreated : q'.created = q.created)
    (hdeleted : q'.deleted = q.deleted)
    (hheap : q'.heap = Function.update q.heap a (some (t.restart now))) : q'.Tracked := by
  apply h.of_imp hcreated
  rintro n (hn | ⟨b, u, hu, rfl⟩)
  · exact Or.inl (hdeleted ▸ hn)
  · by_cases hba : b = a
    · subst hba
      obtain rfl := Option.some.inj (ha.symm.trans hu)
      exact Or.inr ⟨b, t.restart now, by rw [hheap, Function.update_self], rfl⟩
    · exact Or.inr ⟨b, u, by rw [hheap, Function.update_of_ne hba, hu], rfl⟩

/-- A timer of the batch goes back or is deleted, so none is lost track of. -/
lemma Tracked.resetOne (h : q.Tracked) (heq : q.resetOne now a = some q') : q'.Tracked := by
  rcases ha : q.heap a with _ | t
  · simp [TimerQueue.resetOne, ha] at heq
  · by_cases hback : q.GoesBack a t
    · rw [resetOne_of_goesBack ha hback, Option.some.injEq] at heq
      subst heq
      exact h.restart ha rfl rfl rfl
    · rw [resetOne_of_not_goesBack ha hback, Option.some.injEq] at heq
      subst heq
      exact h.delete ha rfl rfl rfl

/-- The loop of `reset` loses track of no timer. -/
lemma Tracked.resetAll {expired : List Entry} (h : q.Tracked)
    (heq : q.resetAll now expired = some q') : q'.Tracked := by
  induction expired generalizing q with
  | nil => exact Option.some.inj heq ▸ h
  | cons it expired ih =>
      obtain ⟨q₁, hone, hrest⟩ := Option.bind_eq_some_iff.mp heq
      exact ih (h.resetOne hone) hrest

/-- The end of a batch loses track of no timer. -/
lemma Tracked.finish {batch : Batch} (h : q.Tracked) (heq : q.finish batch = some q') :
    q'.Tracked := by
  obtain ⟨q₁, hall, hrearm⟩ := Option.bind_eq_some_iff.mp heq
  have hidle : Tracked { q with callingExpiredTimers := false, batch := none } :=
    ⟨h.nodup, h.created⟩
  have hq₁ := hidle.resetAll hall
  rcases rearm_cases hrearm with ⟨rfl, -⟩ | ⟨it, t, -, -, -, rfl⟩
  · exact hq₁
  · exact ⟨hq₁.nodup, hq₁.created⟩

/-- No event loses track of a timer. -/
lemma Tracked.effect (h : q.Tracked) (heffect : Effect q event q') : q'.Tracked := by
  cases heffect with
  | newTimer a t hen =>
      obtain ⟨hfree, -, -, hfresh⟩ := hen
      constructor
      · exact List.nodup_append.mpr ⟨h.nodup, List.nodup_singleton _, by
          intro x hx y hy heq
          rw [List.mem_singleton.mp hy] at heq
          exact hfresh (heq ▸ hx)⟩
      · intro n hn
        rcases List.mem_append.mp hn with hn | hn
        · rcases h.created n hn with hdel | ⟨b, u, hu, rfl⟩
          · exact Or.inl hdel
          · exact Or.inr ⟨b, u, heap_update_of_free hfree hu, rfl⟩
        · rw [List.mem_singleton.mp hn]
          exact Or.inr ⟨a, t, Function.update_self _ _ _, rfl⟩
  | cancelled timerId t ha hseq hmem => exact h.delete ha rfl rfl rfl
  | finished batch q' hbatch htodo heq => exact h.finish heq
  | added | noted | expired | ran | returned => exact ⟨h.nodup, h.created⟩

/-! ## The destructor -/

/-- The destructor finds the timers that it deletes, and deletes no others. -/
lemma deleteAll_spec {its : List Entry} (hnodup : (its.map Entry.address).Nodup)
    (hlive : ∀ it ∈ its, ∃ t, q.heap it.address = some t)
    (hbooks : Books q.heap q.created q.deleted) (h : q.Tracked) :
    ∃ q', q.deleteAll its = some q' ∧ Books q'.heap q'.created q'.deleted ∧ q'.Tracked ∧
      q'.created = q.created ∧
      ∀ b, q'.heap b = if b ∈ its.map Entry.address then none else q.heap b := by
  induction its generalizing q with
  | nil => exact ⟨q, rfl, hbooks, h, rfl, by simp⟩
  | cons it its ih =>
      obtain ⟨hnot, hnodup⟩ := List.nodup_cons.mp hnodup
      obtain ⟨t, ht⟩ := hlive it List.mem_cons_self
      have hone : q.delete it.address = some
          { q with
            heap := Function.update q.heap it.address none
            deleted := q.deleted ++ [t.sequence] } := by
        simp [TimerQueue.delete, ht]
      have hlive' : ∀ it' ∈ its, ∃ u,
          Function.update q.heap it.address none it'.address = some u := by
        intro it' hit'
        have hne : it'.address ≠ it.address := fun heq => hnot (heq ▸ List.mem_map_of_mem hit')
        rw [Function.update_of_ne hne]
        exact hlive it' (List.mem_cons_of_mem _ hit')
      obtain ⟨q', heq, hbooks', htracked, hcreated, hheap⟩ :=
        ih (q := { q with
            heap := Function.update q.heap it.address none
            deleted := q.deleted ++ [t.sequence] })
          hnodup hlive' (hbooks.delete ht) (h.delete ht rfl rfl rfl)
      refine ⟨q', by rw [deleteAll, hone, Option.bind_some, heq], hbooks', htracked, hcreated, ?_⟩
      intro b
      rw [hheap b, List.map_cons]
      by_cases hb : b = it.address
      · subst hb
        simp
      · exact if_congr (by simp [hb]) rfl (Function.update_of_ne hb _ _)

/-- What holds of the timers that were created. -/
structure Accounted (q : TimerQueue) : Prop where
  created_once : q.created.Nodup
  deleted_once : q.deleted.Nodup
  /-- each lives or was deleted, -/
  iff : ∀ n, n ∈ q.created ↔ (n ∈ q.deleted ∨ q.Lives n)
  /-- not both, -/
  apart : ∀ n ∈ q.deleted, ¬ q.Lives n
  /-- and lives at one address -/
  unique : ∀ a b t u, q.heap a = some t → q.heap b = some u → t.sequence = u.sequence → a = b
  /-- the destructor leaves those that were not added, and those of a batch -/
  destroyed : ∃ q', q.destroy = some q' ∧ q'.deleted.Nodup ∧
    ∀ n ∈ q.created, n ∉ q'.deleted ↔
      ∃ a t, q.heap a = some t ∧ t.sequence = n ∧ (a ∈ q.pending ∨ a ∈ q.taken)

/-- The timers of a sound queue that tracks them are accounted for. -/
lemma Tracked.accounted (h : q.Tracked) (hsound : q.Sound) : q.Accounted := by
  obtain ⟨S, hcore⟩ := hsound.core
  have hbooks := hcore.books
  refine ⟨h.nodup, hbooks.deleted_nodup, fun n => ⟨h.created n, ?_⟩, ?_, hbooks.injective, ?_⟩
  · rintro (hn | ⟨a, t, ht, rfl⟩)
    · exact hbooks.deleted_created n hn
    · exact hbooks.live_created a t ht
  · rintro n hn ⟨a, t, ht, rfl⟩
    exact hbooks.live_not_deleted a t ht hn
  · have hentries : ∀ it ∈ q.timers.toList, it.address ∈ S ∧ ∃ t, q.heap it.address = some t := by
      intro it hit
      obtain ⟨hS, t, ht, -⟩ := (hcore.indexed.mem_timers it.expiration it.address).mp hit
      exact ⟨hS, t, ht⟩
    have hnodup : (q.timers.toList.map Entry.address).Nodup := by
      refine List.Nodup.map_on ?_ (q.timers.sorted.imp fun hlt => hlt.ne)
      exact fun it hit it' hit' heq => hcore.entry_unique hit hit' heq
    obtain ⟨q', heq, hbooks', htracked, hcreated, hheap⟩ :=
      deleteAll_spec hnodup (fun it hit => (hentries it hit).2) hbooks h
    refine ⟨q', heq, hbooks'.deleted_nodup, ?_⟩
    -- the addresses of the entries are those of the queue
    have hmem : ∀ a, a ∈ q.timers.toList.map Entry.address ↔ a ∈ S := by
      intro a
      constructor
      · intro ha
        obtain ⟨it, hit, rfl⟩ := List.mem_map.mp ha
        exact (hentries it hit).1
      · intro hS
        obtain ⟨t, ht⟩ := hcore.placed.live (Or.inr (Or.inl hS))
        exact List.mem_map.mpr ⟨_, hcore.indexed.mem_timers_of hS ht, rfl⟩
    intro n hn
    constructor
    · intro hnot
      obtain ⟨a, t, ht, rfl⟩ := (htracked.created n (hcreated ▸ hn)).resolve_left hnot
      rw [hheap a] at ht
      split at ht
      · exact absurd ht nofun
      · next hout =>
          rw [hmem] at hout
          refine ⟨a, t, ht, rfl, ?_⟩
          rcases (hcore.placed.live_iff a).mp (by rw [ht]; exact nofun) with hp | hS | hb
          · exact Or.inl hp
          · exact absurd hS hout
          · exact Or.inr hb
    · rintro ⟨a, t, ht, rfl, hplace⟩
      have hout : a ∉ S := by
        rcases hplace with hp | hb
        · exact hcore.placed.pending_queue a hp
        · exact hcore.placed.busy_queue a hb
      apply hbooks'.live_not_deleted a t
      rw [hheap a, if_neg (mt (hmem a).mp hout), ht]

end TimerQueue

namespace TimerHistory

open TimerQueue (Event)

variable {s s' : TimerHistory} {event : Event}

/-- The timers that were created are accounted for, and those that are done are gone. -/
structure Owned (s : TimerHistory) : Prop where
  accounted : s.queue.Accounted
  created : s.queue.created = s.timers.map Timer.sequence
  /-- a timer that does not repeat is deleted behind the batch in which it ran -/
  spent : s.queue.batch = none → ∀ t ∈ s.timers, ¬ t.Repeats → s.times t.sequence ≠ [] →
    t.sequence ∈ s.queue.deleted

/-- A record on time, of a queue that tracks its timers, owns them. -/
lemma Timed.owned (h : s.Timed) (htracked : s.queue.Tracked) : s.Owned where
  accounted := htracked.accounted h.sound
  created := h.created
  spent := by
    intro hbatch t ht hrepeats hran
    have hn : t.sequence ∈ s.queue.created := by
      rw [h.created]
      exact List.mem_map_of_mem ht
    rcases htracked.created _ hn with hdel | ⟨a, u, hu, hseq⟩
    · exact hdel
    · have hfree : a ∈ s.queue.taken → a ∈ s.queue.waiting := by
        rw [TimerQueue.taken_eq_nil hbatch]
        exact fun ha => absurd ha List.not_mem_nil
      exact absurd ((h.continues a u hu t ht hseq.symm).fresh hfree hrepeats) hran

/-- **Every timer has one owner**: over every run, with any callbacks and any cancellations, each
timer created lives at one address or was deleted once, those that are done are deleted, and the
destructor deletes all but those that were not added and those of a batch under way. -/
theorem accounted_throughout {p : List (Event × TimerHistory)} (hp : Path Step {} p) :
    Throughout Owned {} p := by
  have hinv : Throughout (fun s => s.Timed ∧ s.queue.Tracked) {} p :=
    hp.throughout
      (fun _ _ _ h hst => ⟨h.1.step hst, h.2.effect (h.1.sound.effect hst.cases.1)⟩)
      ⟨timed_empty, .nil, fun n hn => absurd hn List.not_mem_nil⟩
  exact hinv.mono fun _ h => h.1.owned h.2

/-- A timer that is not added, one that is cancelled, one that runs and one that repeats. -/
theorem accounted_throughout_four : Throughout Owned {}
    (trace step {}
      [.newTimer 16 ⟨⟨5⟩, 1, 1⟩, .addTimerInLoop 16, .newTimer 32 ⟨⟨6⟩, 0, 2⟩, .addTimerInLoop 32,
        .newTimer 48 ⟨⟨9⟩, 0, 3⟩, .addTimerInLoop 48, .newTimer 64 ⟨⟨9⟩, 0, 4⟩, .handleRead ⟨7⟩,
        .run, .cancelInLoop (.of 48 3), .ret, .run, .ret, .finish]) :=
  accounted_throughout (path_trace step _ _)

end TimerHistory

end SwiftNetCore
