import SwiftNetCore.TimerQueue

/-!
# The two sets of a timer queue

`timers_` and `activeTimers_` hold the same timers under different keys. Both are read off a set of
addresses and the heap (`Indexed`), and every function of the queue moves one address into or out of
that set. The other timers were created and not added yet, or are in the batch that is being run
(`Placed`); every one has its own sequence number, and is deleted once (`Books`).

* `Core`: the three together.
* `Core.addTimerInLoop`, `Core.cancelInLoop`, `Core.getExpired`, `Core.resetAll`, ..: each function
  finds the timers that it reads, and keeps the three.
-/

namespace SwiftNetCore

namespace TimerQueue

variable {q q' : TimerQueue} {S : Set Address} {busy pending : List Address} {a b : Address}
  {t : Timer} {n : ℤ} {e now : Timestamp}

/-! ## The sets are read off addresses and heap -/

/-- The two sets hold the timers at the addresses `S`, each under its key. -/
structure Indexed (timers : OrdSet Entry) (active : OrdSet ActiveTimer)
    (heap : Address → Option Timer) (S : Set Address) : Prop where
  mem_timers : ∀ e a, Entry.mk e a ∈ timers ↔ a ∈ S ∧ ∃ t, heap a = some t ∧ t.expiration = e
  mem_active : ∀ a n, ActiveTimer.mk a n ∈ active ↔ a ∈ S ∧ ∃ t, heap a = some t ∧ t.sequence = n

section indexed

variable {timers : OrdSet Entry} {active : OrdSet ActiveTimer} {heap : Address → Option Timer}

/-- A timer of the queue is in `timers_` under its expiration. -/
lemma Indexed.mem_timers_of (h : Indexed timers active heap S) (hS : a ∈ S)
    (ha : heap a = some t) : Entry.mk t.expiration a ∈ timers :=
  (h.mem_timers _ _).mpr ⟨hS, t, ha, rfl⟩

/-- A timer goes in, under both keys. -/
lemma Indexed.insert (h : Indexed timers active heap S) (ha : heap a = some t) :
    Indexed (timers.insert (.mk t.expiration a)) (active.insert (.mk a t.sequence)) heap
      (Insert.insert a S) where
  mem_timers := by
    intro e b
    rw [OrdSet.mem_insert, Entry.mk_inj, h.mem_timers, Set.mem_insert_iff]
    constructor
    · rintro (⟨rfl, rfl⟩ | ⟨hb, hex⟩)
      · exact ⟨Or.inl rfl, t, ha, rfl⟩
      · exact ⟨Or.inr hb, hex⟩
    · rintro ⟨rfl | hb, u, hu, rfl⟩
      · rw [ha, Option.some.injEq] at hu
        exact Or.inl ⟨by rw [hu], rfl⟩
      · exact Or.inr ⟨hb, u, hu, rfl⟩
  mem_active := by
    intro b n
    rw [OrdSet.mem_insert, ActiveTimer.mk_inj, h.mem_active, Set.mem_insert_iff]
    constructor
    · rintro (⟨rfl, rfl⟩ | ⟨hb, hex⟩)
      · exact ⟨Or.inl rfl, t, ha, rfl⟩
      · exact ⟨Or.inr hb, hex⟩
    · rintro ⟨rfl | hb, u, hu, rfl⟩
      · rw [ha, Option.some.injEq] at hu
        exact Or.inl ⟨rfl, by rw [hu]⟩
      · exact Or.inr ⟨hb, u, hu, rfl⟩

/-- A timer goes out, under both keys. -/
lemma Indexed.erase (h : Indexed timers active heap S) (ha : heap a = some t) :
    Indexed (timers.erase (.mk t.expiration a)) (active.erase (.mk a t.sequence)) heap
      (S \ {a}) where
  mem_timers := by
    intro e b
    rw [OrdSet.mem_erase, h.mem_timers, ne_eq, Entry.mk_inj, Set.mem_sdiff, Set.mem_singleton_iff]
    constructor
    · rintro ⟨⟨hb, u, hu, rfl⟩, hne⟩
      refine ⟨⟨hb, ?_⟩, u, hu, rfl⟩
      rintro rfl
      rw [ha, Option.some.injEq] at hu
      exact hne ⟨by rw [hu], rfl⟩
    · rintro ⟨⟨hb, hba⟩, hex⟩
      exact ⟨⟨hb, hex⟩, fun heq => hba heq.2⟩
  mem_active := by
    intro b n
    rw [OrdSet.mem_erase, h.mem_active, ne_eq, ActiveTimer.mk_inj, Set.mem_sdiff,
      Set.mem_singleton_iff]
    constructor
    · rintro ⟨⟨hb, u, hu, rfl⟩, hne⟩
      refine ⟨⟨hb, ?_⟩, u, hu, rfl⟩
      rintro rfl
      rw [ha, Option.some.injEq] at hu
      exact hne ⟨rfl, by rw [hu]⟩
    · rintro ⟨⟨hb, hba⟩, hex⟩
      exact ⟨⟨hb, hex⟩, fun heq => hba heq.1⟩

/-- What happens to a timer outside of the sets does not matter to them. -/
lemma Indexed.update (h : Indexed timers active heap S) (ha : a ∉ S) (x : Option Timer) :
    Indexed timers active (Function.update heap a x) S := by
  have hsame : ∀ b ∈ S, Function.update heap a x b = heap b := by
    intro b hb
    apply Function.update_of_ne
    rintro rfl
    exact ha hb
  refine ⟨fun e b => ?_, fun b n => ?_⟩
  · rw [h.mem_timers]
    exact and_congr_right fun hb => by rw [hsame b hb]
  · rw [h.mem_active]
    exact and_congr_right fun hb => by rw [hsame b hb]

end indexed

/-! ## Where the timers are -/

/-- A timer on the heap was created and not added yet, is in the queue, or is in the batch. -/
structure Placed (heap : Address → Option Timer) (pending : List Address) (S : Set Address)
    (busy : List Address) : Prop where
  live_iff : ∀ a, heap a ≠ none ↔ a ∈ pending ∨ a ∈ S ∨ a ∈ busy
  pending_queue : ∀ a ∈ pending, a ∉ S
  pending_busy : ∀ a ∈ pending, a ∉ busy
  busy_queue : ∀ a ∈ busy, a ∉ S
  pending_nodup : pending.Nodup
  busy_nodup : busy.Nodup
  bounded : ∀ a, heap a ≠ none → 0 < a ∧ a < UINTPTR_MAX

/-- Every timer has its own sequence number, and is deleted once. -/
structure Books (heap : Address → Option Timer) (created deleted : List ℤ) : Prop where
  injective : ∀ a b t u, heap a = some t → heap b = some u → t.sequence = u.sequence → a = b
  live_created : ∀ a t, heap a = some t → t.sequence ∈ created
  live_not_deleted : ∀ a t, heap a = some t → t.sequence ∉ deleted
  deleted_created : ∀ n ∈ deleted, n ∈ created
  deleted_nodup : deleted.Nodup

section places

variable {heap : Address → Option Timer} {created deleted : List ℤ}

/-- A timer that has a place is on the heap. -/
lemma Placed.live (h : Placed heap pending S busy) (ha : a ∈ pending ∨ a ∈ S ∨ a ∈ busy) :
    ∃ t, heap a = some t :=
  Option.ne_none_iff_exists'.mp ((h.live_iff a).mpr ha)

/-- A new timer waits to be added. -/
lemma Placed.create (h : Placed heap pending S busy) (ha : heap a = none) (hpos : 0 < a)
    (hlt : a < UINTPTR_MAX) (t : Timer) :
    Placed (Function.update heap a (some t)) (pending ++ [a]) S busy := by
  have hnone : ¬ (a ∈ pending ∨ a ∈ S ∨ a ∈ busy) := fun hin => (h.live_iff a).mpr hin ha
  simp only [not_or] at hnone
  obtain ⟨hp, hS, hb⟩ := hnone
  constructor
  · intro b
    by_cases hba : b = a
    · simp [hba]
    · rw [Function.update_of_ne hba, h.live_iff]
      simp [hba]
  · intro b hmem
    rcases List.mem_append.mp hmem with hmem | hmem
    · exact h.pending_queue b hmem
    · rwa [List.mem_singleton.mp hmem]
  · intro b hmem
    rcases List.mem_append.mp hmem with hmem | hmem
    · exact h.pending_busy b hmem
    · rwa [List.mem_singleton.mp hmem]
  · exact h.busy_queue
  · exact List.nodup_append.mpr ⟨h.pending_nodup, List.nodup_singleton a, by
      intro x hx y hy heq
      rw [List.mem_singleton.mp hy] at heq
      exact hp (heq ▸ hx)⟩
  · exact h.busy_nodup
  · intro b hb'
    by_cases hba : b = a
    · exact hba ▸ ⟨hpos, hlt⟩
    · rw [Function.update_of_ne hba] at hb'
      exact h.bounded b hb'

/-- A timer with a new number goes into the books. -/
lemma Books.create (h : Books heap created deleted) (ha : heap a = none)
    (hfresh : t.sequence ∉ created) :
    Books (Function.update heap a (some t)) (created ++ [t.sequence]) deleted := by
  constructor
  · intro b c u v hb hc heq
    rcases heap_of_update_some hb with ⟨hba, hut⟩ | ⟨-, hu⟩ <;>
      rcases heap_of_update_some hc with ⟨hca, hvt⟩ | ⟨-, hv⟩
    · rw [hba, hca]
    · exact absurd (hut ▸ heq ▸ h.live_created c v hv) hfresh
    · exact absurd (hvt ▸ heq ▸ h.live_created b u hu) hfresh
    · exact h.injective b c u v hu hv heq
  · intro b u hb
    rcases heap_of_update_some hb with ⟨rfl, rfl⟩ | ⟨-, hb⟩
    · simp
    · simp [h.live_created b u hb]
  · intro b u hb
    rcases heap_of_update_some hb with ⟨rfl, rfl⟩ | ⟨-, hb⟩
    · exact fun hdel => hfresh (h.deleted_created _ hdel)
    · exact h.live_not_deleted b u hb
  · intro n hn
    simp [h.deleted_created n hn]
  · exact h.deleted_nodup

/-- A timer that lives is deleted once. -/
lemma Books.delete (h : Books heap created deleted) (ha : heap a = some t) :
    Books (Function.update heap a none) created (deleted ++ [t.sequence]) := by
  constructor
  · intro b c u v hb hc heq
    exact h.injective b c u v (heap_of_update_none hb).2 (heap_of_update_none hc).2 heq
  · intro b u hb
    exact h.live_created b u (heap_of_update_none hb).2
  · intro b u hb
    obtain ⟨hba, hb⟩ := heap_of_update_none hb
    rw [List.mem_append, List.mem_singleton, not_or]
    exact ⟨h.live_not_deleted b u hb, fun heq => hba (h.injective b a u t hb ha heq)⟩
  · intro n hn
    rcases List.mem_append.mp hn with hn | hn
    · exact h.deleted_created n hn
    · rw [List.mem_singleton.mp hn]
      exact h.live_created a t ha
  · exact List.nodup_append.mpr ⟨h.deleted_nodup, List.nodup_singleton _, by
      intro x hx y hy heq
      rw [List.mem_singleton.mp hy] at heq
      exact h.live_not_deleted a t ha (heq ▸ hx)⟩

/-- A timer may get another expiration. -/
lemma Books.restart (h : Books heap created deleted) (ha : heap a = some t) (now : Timestamp) :
    Books (Function.update heap a (some (t.restart now))) created deleted := by
  have hcases : ∀ b u, Function.update heap a (some (t.restart now)) b = some u →
      ∃ v, heap b = some v ∧ v.sequence = u.sequence := by
    intro b u hb
    rcases heap_of_update_some hb with ⟨rfl, rfl⟩ | ⟨-, hb⟩
    · exact ⟨t, ha, rfl⟩
    · exact ⟨u, hb, rfl⟩
  constructor
  · intro b c u v hb hc heq
    obtain ⟨u', hu', hseq⟩ := hcases b u hb
    obtain ⟨v', hv', hseq'⟩ := hcases c v hc
    exact h.injective b c u' v' hu' hv' (by rw [hseq, heq, hseq'])
  · intro b u hb
    obtain ⟨u', hu', hseq⟩ := hcases b u hb
    exact hseq ▸ h.live_created b u' hu'
  · intro b u hb
    obtain ⟨u', hu', hseq⟩ := hcases b u hb
    exact hseq ▸ h.live_not_deleted b u' hu'
  · exact h.deleted_created
  · exact h.deleted_nodup

/-- A timer that was created goes into the queue. -/
lemma Placed.add (h : Placed heap pending S busy) (ha : a ∈ pending) :
    Placed heap (pending.erase a) (Insert.insert a S) busy where
  live_iff := by
    intro b
    rw [h.live_iff, h.pending_nodup.mem_erase_iff, Set.mem_insert_iff]
    by_cases hba : b = a
    · simp [hba, ha]
    · simp [hba]
  pending_queue := by
    intro b hb hS
    rw [h.pending_nodup.mem_erase_iff] at hb
    rcases hS with hba | hS
    · exact hb.1 hba
    · exact h.pending_queue b hb.2 hS
  pending_busy := fun b hb => h.pending_busy b (List.mem_of_mem_erase hb)
  busy_queue := by
    intro b hb hS
    rcases hS with rfl | hS
    · exact h.pending_busy b ha hb
    · exact h.busy_queue b hb hS
  pending_nodup := h.pending_nodup.erase a
  busy_nodup := h.busy_nodup
  bounded := h.bounded

/-- A timer of the queue is deleted. -/
lemma Placed.cancel (h : Placed heap pending S busy) (ha : a ∈ S) :
    Placed (Function.update heap a none) pending (S \ {a}) busy where
  live_iff := by
    intro b
    by_cases hba : b = a
    · subst hba
      have hp : b ∉ pending := fun hb => h.pending_queue b hb ha
      have hb : b ∉ busy := fun hb => h.busy_queue b hb ha
      simp [hp, hb]
    · rw [Function.update_of_ne hba, h.live_iff]
      simp [hba]
  pending_queue := fun b hb hS => h.pending_queue b hb hS.1
  pending_busy := h.pending_busy
  busy_queue := fun b hb hS => h.busy_queue b hb hS.1
  pending_nodup := h.pending_nodup
  busy_nodup := h.busy_nodup
  bounded := by
    intro b hb
    by_cases hba : b = a
    · simp [hba] at hb
    · rw [Function.update_of_ne hba] at hb
      exact h.bounded b hb

/-- A timer of the batch is deleted. -/
lemma Placed.drop (h : Placed heap pending S (a :: busy)) :
    Placed (Function.update heap a none) pending S busy where
  live_iff := by
    intro b
    by_cases hba : b = a
    · subst hba
      have hp : b ∉ pending := fun hb => h.pending_busy b hb List.mem_cons_self
      have hS : b ∉ S := h.busy_queue b List.mem_cons_self
      have hb : b ∉ busy := (List.nodup_cons.mp h.busy_nodup).1
      simp [hp, hS, hb]
    · rw [Function.update_of_ne hba, h.live_iff]
      simp [hba]
  pending_queue := h.pending_queue
  pending_busy := fun b hb hbusy => h.pending_busy b hb (List.mem_cons_of_mem _ hbusy)
  busy_queue := fun b hb => h.busy_queue b (List.mem_cons_of_mem _ hb)
  pending_nodup := h.pending_nodup
  busy_nodup := (List.nodup_cons.mp h.busy_nodup).2
  bounded := by
    intro b hb
    by_cases hba : b = a
    · simp [hba] at hb
    · rw [Function.update_of_ne hba] at hb
      exact h.bounded b hb

/-- A timer of the batch goes back into the queue. -/
lemma Placed.goBack (h : Placed heap pending S (a :: busy)) (t : Timer) :
    Placed (Function.update heap a (some t)) pending (Insert.insert a S) busy where
  live_iff := by
    intro b
    by_cases hba : b = a
    · simp [hba]
    · rw [Function.update_of_ne hba, h.live_iff]
      simp [hba]
  pending_queue := by
    intro b hb hS
    rcases hS with rfl | hS
    · exact h.pending_busy b hb List.mem_cons_self
    · exact h.pending_queue b hb hS
  pending_busy := fun b hb hbusy => h.pending_busy b hb (List.mem_cons_of_mem _ hbusy)
  busy_queue := by
    intro b hb hS
    rcases hS with rfl | hS
    · exact (List.nodup_cons.mp h.busy_nodup).1 hb
    · exact h.busy_queue b (List.mem_cons_of_mem _ hb) hS
  pending_nodup := h.pending_nodup
  busy_nodup := (List.nodup_cons.mp h.busy_nodup).2
  bounded := by
    intro b hb
    by_cases hba : b = a
    · exact hba ▸ h.bounded a ((h.live_iff a).mpr (Or.inr (Or.inr List.mem_cons_self)))
    · rw [Function.update_of_ne hba] at hb
      exact h.bounded b hb

/-- Timers of the queue become a batch. -/
lemma Placed.expire (h : Placed heap pending S []) (hbusy : ∀ a ∈ busy, a ∈ S)
    (hnodup : busy.Nodup) : Placed heap pending (S \ {a | a ∈ busy}) busy where
  live_iff := by
    intro b
    rw [h.live_iff]
    by_cases hb : b ∈ busy
    · simp [hb, hbusy b hb]
    · simp [hb]
  pending_queue := fun b hb hS => h.pending_queue b hb hS.1
  pending_busy := fun b hb hb' => h.pending_queue b hb (hbusy b hb')
  busy_queue := fun b hb hS => hS.2 hb
  pending_nodup := h.pending_nodup
  busy_nodup := hnodup
  bounded := h.bounded

end places

/-! ## The functions of the queue -/

/-- The invariant, with the addresses in the queue and those in the batch. -/
structure Core (q : TimerQueue) (S : Set Address) (busy : List Address) : Prop where
  indexed : Indexed q.timers q.activeTimers q.heap S
  placed : Placed q.heap q.pending S busy
  books : Books q.heap q.created q.deleted

/-- The constructor of a timer keeps the invariant. -/
lemma Core.newTimer (h : Core q S busy) (hen : q.Enabled (.newTimer a t)) :
    Core (q.newTimer a t) S busy := by
  obtain ⟨hfree, hpos, hlt, hfresh⟩ := hen
  have ha : a ∉ S := fun hS => (h.placed.live_iff a).mpr (Or.inr (Or.inl hS)) hfree
  exact ⟨h.indexed.update ha _, h.placed.create hfree hpos hlt t, h.books.create hfree hfresh⟩

/-- `addTimerInLoop` finds its timer, and puts it into the queue. -/
lemma Core.addTimerInLoop (h : Core q S busy) (ha : a ∈ q.pending) :
    ∃ t q', q.heap a = some t ∧ q.addTimerInLoop a = some q' ∧ Core q' (Insert.insert a S) busy := by
  obtain ⟨t, ht⟩ := h.placed.live (Or.inl ha)
  exact ⟨t, _, ht, addTimerInLoop_eq ht, h.indexed.insert ht, h.placed.add ha, h.books⟩

/-- `cancelInLoop` has a result for every `TimerId`, and keeps the batch. -/
lemma Core.cancelInLoop (h : Core q S busy) (timerId : TimerId) :
    ∃ q' S', q.cancelInLoop timerId = some q' ∧ Core q' S' busy ∧ q'.batch = q.batch ∧
      q'.callingExpiredTimers = q.callingExpiredTimers := by
  by_cases hmem : ActiveTimer.mk timerId.timer timerId.sequence ∈ q.activeTimers
  · obtain ⟨hS, t, ht, hseq⟩ := (h.indexed.mem_active _ _).mp hmem
    refine ⟨_, S \ {timerId.timer}, cancelInLoop_of_mem ht hmem,
      ⟨?_, h.placed.cancel hS, h.books.delete ht⟩, rfl, rfl⟩
    rw [← hseq]
    exact (h.indexed.erase ht).update (by simp) none
  · exact ⟨_, S, cancelInLoop_of_not_mem hmem, ⟨h.indexed, h.placed, h.books⟩, rfl, rfl⟩

/-- The entries before the sentry are those that are due. -/
lemma Core.mem_expired (h : Core q S busy) :
    Entry.mk e a ∈ q.timers.before (sentry now) ↔ Entry.mk e a ∈ q.timers ∧ e ≤ now := by
  rw [OrdSet.mem_before, sentry, Entry.mk_lt_mk, le_iff_lt_or_eq]
  refine and_congr_right fun hmem => or_congr_right (and_iff_left_of_imp fun _ => ?_)
  obtain ⟨hS, t, ht, -⟩ := (h.indexed.mem_timers e a).mp hmem
  exact (h.placed.bounded a (by rw [ht]; exact nofun)).2

/-- A timer has one entry. -/
lemma Core.entry_unique (h : Core q S busy) {it it' : Entry} (hit : it ∈ q.timers)
    (hit' : it' ∈ q.timers) (heq : it.address = it'.address) : it = it' := by
  obtain ⟨-, t, ht, he⟩ := (h.indexed.mem_timers it.expiration it.address).mp hit
  obtain ⟨-, t', ht', he'⟩ := (h.indexed.mem_timers it'.expiration it'.address).mp hit'
  rw [heq, ht', Option.some.injEq] at ht
  rw [← Entry.mk_eta it, ← Entry.mk_eta it', Entry.mk_inj, ← he, ← he', ht]
  exact ⟨rfl, heq⟩

/-- The timers that are due. -/
def due (now : Timestamp) (q : TimerQueue) : List Entry := q.timers.before (sentry now)

/-- What is due is in the queue. -/
lemma Core.mem_queue_of_due (h : Core q S busy) (ha : a ∈ (q.due now).map Entry.address) :
    a ∈ S := by
  obtain ⟨it, hit, rfl⟩ := List.mem_map.mp ha
  exact ((h.indexed.mem_timers it.expiration it.address).mp (OrdSet.mem_before.mp hit).1).1

/-- What is due is due once. -/
lemma Core.due_nodup (h : Core q S busy) (now : Timestamp) :
    ((q.due now).map Entry.address).Nodup := by
  refine List.Nodup.map_on ?_ ((OrdSet.pairwise_before _ _).imp fun hlt => hlt.ne)
  intro it hit it' hit' heq
  exact h.entry_unique (OrdSet.mem_before.mp hit).1 (OrdSet.mem_before.mp hit').1 heq

/-- `getExpired` takes out the timers that are due. -/
lemma Core.getExpired (h : Core q S []) (now : Timestamp) :
    ∃ active, q.getExpired now = some (q.due now,
        { q with timers := q.timers.startingAt (sentry now), activeTimers := active }) ∧
      Core { q with timers := q.timers.startingAt (sentry now), activeTimers := active }
        (S \ {a | a ∈ (q.due now).map Entry.address}) ((q.due now).map Entry.address) := by
  have hlive : ∀ it ∈ q.due now, q.heap it.address ≠ none := by
    intro it hit
    exact (h.placed.live_iff _).mpr
      (Or.inr (Or.inl (h.mem_queue_of_due (List.mem_map_of_mem hit))))
  obtain ⟨active, heq, hactive⟩ :=
    eraseActive_eq (q := { q with timers := q.timers.startingAt (sentry now) }) hlive
  refine ⟨active, ?_, ⟨?_, ?_⟩, ?_, h.books⟩
  · unfold TimerQueue.getExpired
    show (eraseActive (q.due now) _).map _ = _
    rw [heq]
    rfl
  · intro e a
    rw [OrdSet.mem_startingAt, h.indexed.mem_timers, Set.mem_sdiff]
    constructor
    · rintro ⟨⟨hS, t, ht, rfl⟩, hle⟩
      refine ⟨⟨hS, ?_⟩, t, ht, rfl⟩
      intro hdue
      obtain ⟨it, hit, hadd⟩ := List.mem_map.mp hdue
      have hit' := OrdSet.mem_before.mp hit
      rw [h.entry_unique (h.indexed.mem_timers_of hS ht) hit'.1 hadd.symm] at hle
      exact not_lt.mpr hle hit'.2
    · rintro ⟨⟨hS, hnot⟩, t, ht, rfl⟩
      refine ⟨⟨hS, t, ht, rfl⟩, ?_⟩
      by_contra hlt
      apply hnot
      exact List.mem_map.mpr ⟨.mk t.expiration a,
        OrdSet.mem_before.mpr ⟨h.indexed.mem_timers_of hS ht, not_le.mp hlt⟩, rfl⟩
  · intro a n
    rw [hactive, h.indexed.mem_active, Set.mem_sdiff]
    constructor
    · rintro ⟨⟨hS, t, ht, rfl⟩, hnot⟩
      refine ⟨⟨hS, ?_⟩, t, ht, rfl⟩
      intro hdue
      obtain ⟨it, hit, hadd⟩ := List.mem_map.mp hdue
      exact hnot ⟨it, hit, hadd, t, ht, rfl⟩
    · rintro ⟨⟨hS, hnot⟩, t, ht, rfl⟩
      refine ⟨⟨hS, t, ht, rfl⟩, ?_⟩
      rintro ⟨it, hit, hadd, -⟩
      exact hnot (List.mem_map.mpr ⟨it, hit, hadd⟩)
  · exact h.placed.expire (fun a ha => h.mem_queue_of_due ha) (h.due_nodup now)

/-- One timer of the batch goes back into the queue, or is gone. -/
lemma Core.resetOne (h : Core q S (a :: busy)) (now : Timestamp) :
    ∃ t q', q.heap a = some t ∧ q.resetOne now a = some q' ∧
      Core q' (if q.GoesBack a t then Insert.insert a S else S) busy := by
  obtain ⟨t, ht⟩ := h.placed.live (Or.inr (Or.inr List.mem_cons_self))
  have hS : a ∉ S := h.placed.busy_queue a List.mem_cons_self
  by_cases hback : q.GoesBack a t
  · refine ⟨t, _, ht, resetOne_of_goesBack ht hback, ?_⟩
    rw [if_pos hback]
    refine ⟨?_, h.placed.goBack _, h.books.restart ht now⟩
    exact (h.indexed.update hS _).insert (Function.update_self _ _ _)
  · refine ⟨t, _, ht, resetOne_of_not_goesBack ht hback, ?_⟩
    rw [if_neg hback]
    exact ⟨h.indexed.update hS none, h.placed.drop, h.books.delete ht⟩

/-- What `reset` leaves alone. -/
structure SameRest (q q' : TimerQueue) : Prop where
  callingExpiredTimers : q'.callingExpiredTimers = q.callingExpiredTimers
  cancelingTimers : q'.cancelingTimers = q.cancelingTimers
  timerfd : q'.timerfd = q.timerfd
  pending : q'.pending = q.pending
  batch : q'.batch = q.batch
  created : q'.created = q.created
  fired : q'.fired = q.fired

/-- What two steps leave alone, both leave alone. -/
lemma SameRest.trans {q₁ q₂ q₃ : TimerQueue} (h : SameRest q₁ q₂) (h' : SameRest q₂ q₃) :
    SameRest q₁ q₃ where
  callingExpiredTimers := h'.callingExpiredTimers.trans h.callingExpiredTimers
  cancelingTimers := h'.cancelingTimers.trans h.cancelingTimers
  timerfd := h'.timerfd.trans h.timerfd
  pending := h'.pending.trans h.pending
  batch := h'.batch.trans h.batch
  created := h'.created.trans h.created
  fired := h'.fired.trans h.fired

/-- One step of the loop of `reset` leaves all but the sets and the timer alone. -/
lemma sameRest_resetOne (h : q.resetOne now a = some q') : SameRest q q' := by
  rcases ha : q.heap a with _ | t
  · simp [TimerQueue.resetOne, ha] at h
  · by_cases hback : q.GoesBack a t
    · rw [resetOne_of_goesBack ha hback, Option.some.injEq] at h
      subst h
      exact ⟨rfl, rfl, rfl, rfl, rfl, rfl, rfl⟩
    · rw [resetOne_of_not_goesBack ha hback, Option.some.injEq] at h
      subst h
      exact ⟨rfl, rfl, rfl, rfl, rfl, rfl, rfl⟩

/-- The loop of `reset` leaves all but the sets and the timers alone. -/
lemma sameRest_resetAll {expired : List Entry} (h : q.resetAll now expired = some q') :
    SameRest q q' := by
  induction expired generalizing q with
  | nil =>
      obtain rfl := Option.some.inj h
      exact ⟨rfl, rfl, rfl, rfl, rfl, rfl, rfl⟩
  | cons it expired ih =>
      obtain ⟨q₁, heq, h⟩ := Option.bind_eq_some_iff.mp h
      exact (sameRest_resetOne heq).trans (ih h)

/-- The loop of `reset` empties the batch. -/
lemma Core.resetAll {expired : List Entry} (h : Core q S (expired.map Entry.address))
    (now : Timestamp) : ∃ q' S', q.resetAll now expired = some q' ∧ Core q' S' [] := by
  induction expired generalizing q S with
  | nil => exact ⟨q, S, rfl, h⟩
  | cons it expired ih =>
      obtain ⟨t, q₁, -, heq, hcore⟩ := h.resetOne now
      obtain ⟨q', S', heq', hcore'⟩ := ih hcore
      refine ⟨q', S', ?_, hcore'⟩
      rw [TimerQueue.resetAll, heq, Option.bind_some]
      exact heq'

/-- The end of `reset` only arms the timer. -/
lemma Core.rearm (h : Core q S []) : ∃ q', q.rearm = some q' ∧ Core q' S [] ∧
    q'.batch = q.batch ∧ q'.callingExpiredTimers = q.callingExpiredTimers := by
  unfold TimerQueue.rearm
  rcases hfirst : q.timers.first? with _ | it
  · exact ⟨q, rfl, h, rfl, rfl⟩
  · have hit := (OrdSet.first?_eq_some_iff.mp hfirst).1
    obtain ⟨-, t, ht, -⟩ := (h.indexed.mem_timers it.expiration it.address).mp hit
    by_cases hvalid : t.expiration.Valid
    · exact ⟨q.resetTimerfd t.expiration, by simp [ht, hvalid], ⟨h.indexed, h.placed, h.books⟩,
        rfl, rfl⟩
    · exact ⟨q, by simp [ht, hvalid], h, rfl, rfl⟩

end TimerQueue

end SwiftNetCore
