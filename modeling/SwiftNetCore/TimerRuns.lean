import SwiftNetCore.TimerSets

/-!
# Runs of a timer queue

Between the start of a batch and its end the queue is in the middle of `handleRead`, and callbacks
add and cancel timers. What holds throughout is that the sets, the heap and the batch agree
(`Core`), that the callbacks to come are the end of the batch, and that the one that runs is in it.

* `Sound`: the invariant of a timer queue.
* `Sound.handleRead`, `Sound.run`, `Sound.ret`, `Sound.finish`: each step of a batch has a result
  from a sound queue, and it is sound.
* `sound_throughout`: over every run, in every state, the sets agree, the batch is apart from them,
  no timer is deleted twice or read when it is gone.
* `Effect`: all that a step of a sound queue can do, for what else is proved about runs.
-/

namespace SwiftNetCore

open Paths (Path Throughout trace path_trace)

namespace TimerQueue

variable {q q' : TimerQueue} {S : Set Address} {a : Address}

/-! ## The invariant -/

/-- The timers of the batch that is being run. -/
def taken (q : TimerQueue) : List Address :=
  match q.batch with
  | none => []
  | some batch => batch.expired.map Entry.address

/-- The invariant of a timer queue. -/
structure Sound (q : TimerQueue) : Prop where
  core : ∃ S, Core q S q.taken
  calling : q.callingExpiredTimers = q.batch.isSome
  todo : ∀ batch ∈ q.batch, batch.todo <:+ batch.expired
  running : ∀ batch ∈ q.batch, ∀ a ∈ batch.running, a ∈ batch.expired.map Entry.address

/-- The two sets agree, the batch is apart from them, and every timer is deleted once. -/
structure Consistent (q : TimerQueue) : Prop where
  /-- `activeTimers_` has the timers of `timers_`, by address and sequence number -/
  active : ∀ a n, ActiveTimer.mk a n ∈ q.activeTimers ↔
    ∃ e t, Entry.mk e a ∈ q.timers ∧ q.heap a = some t ∧ t.sequence = n
  /-- a timer is in `timers_` under its expiration -/
  expiration : ∀ e a, Entry.mk e a ∈ q.timers → ∃ t, q.heap a = some t ∧ t.expiration = e
  /-- no timer of the batch is in `timers_` -/
  apart : ∀ a ∈ q.taken, ∀ e, Entry.mk e a ∉ q.timers
  /-- no timer is deleted twice -/
  once : q.deleted.Nodup
  /-- a timer that was deleted is gone -/
  gone : ∀ a t, q.heap a = some t → t.sequence ∉ q.deleted
  /-- a timer that was added and not deleted is in `timers_` or in the batch -/
  held : ∀ a t, q.heap a = some t → a ∉ q.pending →
    (∃ e, Entry.mk e a ∈ q.timers) ∨ a ∈ q.taken

/-- No function reads or deletes a timer that is gone: every event that can come has a result. -/
def Responds (q : TimerQueue) : Prop := ∀ event, q.Enabled event → (q.apply event).isSome

/-- The sets of a sound queue agree, and each of its timers is deleted once. -/
lemma Sound.consistent (h : q.Sound) : q.Consistent := by
  obtain ⟨S, hcore⟩ := h.core
  refine ⟨?_, ?_, ?_, hcore.books.deleted_nodup, hcore.books.live_not_deleted, ?_⟩
  · intro a n
    rw [hcore.indexed.mem_active]
    constructor
    · rintro ⟨hS, t, ht, hn⟩
      exact ⟨t.expiration, t, hcore.indexed.mem_timers_of hS ht, ht, hn⟩
    · rintro ⟨e, t, hmem, ht, hn⟩
      exact ⟨((hcore.indexed.mem_timers e a).mp hmem).1, t, ht, hn⟩
  · intro e a hmem
    exact ((hcore.indexed.mem_timers e a).mp hmem).2
  · intro a ha e hmem
    exact hcore.placed.busy_queue a ha ((hcore.indexed.mem_timers e a).mp hmem).1
  · intro a t ht hpending
    have hlive : q.heap a ≠ none := by
      rw [ht]
      exact nofun
    rcases (hcore.placed.live_iff a).mp hlive with hp | hS | hb
    · exact absurd hp hpending
    · exact Or.inl ⟨t.expiration, hcore.indexed.mem_timers_of hS ht⟩
    · exact Or.inr hb

/-- What keeps the batch keeps a queue sound. -/
lemma Sound.of_core (h : q.Sound) (hcore : Core q' S q.taken) (hbatch : q'.batch = q.batch)
    (hcalling : q'.callingExpiredTimers = q.callingExpiredTimers) : q'.Sound where
  core := ⟨S, by rwa [taken, hbatch]⟩
  calling := by rw [hcalling, hbatch, h.calling]
  todo := by
    rw [hbatch]
    exact h.todo
  running := by
    rw [hbatch]
    exact h.running

/-- A batch starts with all its callbacks to come. -/
lemma Sound.handleRead (h : q.Sound) (hbatch : q.batch = none) (now : Timestamp) :
    ∃ q', q.handleRead now = some q' ∧ q'.Sound := by
  obtain ⟨S, hcore⟩ := h.core
  rw [taken, hbatch] at hcore
  obtain ⟨active, heq, hcore'⟩ :=
    Core.getExpired (q := { q with timerfd := none }) ⟨hcore.indexed, hcore.placed, hcore.books⟩ now
  refine ⟨_, by rw [TimerQueue.handleRead, heq, Option.map_some], ?_⟩
  refine ⟨⟨_, hcore'.indexed, hcore'.placed, hcore'.books⟩, rfl, ?_, ?_⟩
  · rintro batch ⟨⟩
    exact List.suffix_rfl
  · rintro batch ⟨⟩ a ha
    exact absurd ha nofun

/-- The timers taken are those of the batch that is being run. -/
lemma taken_of_batch {batch : Batch} (hbatch : q.batch = some batch) :
    q.taken = batch.expired.map Entry.address := by
  rw [taken, hbatch]

/-- In a sound queue, the next callback of a batch can be invoked. -/
lemma Sound.run {batch : Batch} {it : Entry} {todo : List Entry} (h : q.Sound)
    (hbatch : q.batch = some batch) (htodo : batch.todo = it :: todo) :
    ∃ q', q.run batch it todo = some q' ∧ q'.Sound := by
  have hsuffix := h.todo batch hbatch
  rw [htodo] at hsuffix
  have hit : it.address ∈ batch.expired.map Entry.address :=
    List.mem_map_of_mem (hsuffix.subset List.mem_cons_self)
  obtain ⟨S, hcore⟩ := h.core
  rw [taken_of_batch hbatch] at hcore
  obtain ⟨t, ht⟩ := hcore.placed.live (Or.inr (Or.inr hit))
  refine ⟨_, run_eq ht, ⟨S, hcore.indexed, hcore.placed, hcore.books⟩, ?_, ?_, ?_⟩
  · rw [h.calling, hbatch]
    rfl
  · rintro _ ⟨⟩
    exact (List.suffix_cons it todo).trans hsuffix
  · rintro _ ⟨⟩ a ha
    obtain rfl := Option.some.inj ha
    exact hit

/-- In a sound queue, a callback can return. -/
lemma Sound.ret {batch : Batch} (h : q.Sound) (hbatch : q.batch = some batch)
    (hrunning : batch.running = some a) : ∃ q', q.ret batch a = some q' ∧ q'.Sound := by
  have ha := h.running batch hbatch a hrunning
  obtain ⟨S, hcore⟩ := h.core
  rw [taken_of_batch hbatch] at hcore
  obtain ⟨t, ht⟩ := hcore.placed.live (Or.inr (Or.inr ha))
  refine ⟨_, ret_eq ht, ⟨S, hcore.indexed, hcore.placed, hcore.books⟩, ?_, ?_, ?_⟩
  · rw [h.calling, hbatch]
    rfl
  · rintro _ ⟨⟩
    exact h.todo batch hbatch
  · rintro _ ⟨⟩ a ha
    exact absurd ha nofun

/-- At the end of a batch its timers are back in the queue or deleted. -/
lemma Sound.finish {batch : Batch} (h : q.Sound) (hbatch : q.batch = some batch) :
    ∃ q', q.finish batch = some q' ∧ q'.Sound := by
  obtain ⟨S, hcore⟩ := h.core
  rw [taken_of_batch hbatch] at hcore
  obtain ⟨q₁, S₁, heq₁, hcore₁⟩ :=
    Core.resetAll (q := { q with callingExpiredTimers := false, batch := none })
      ⟨hcore.indexed, hcore.placed, hcore.books⟩ batch.now
  obtain ⟨q₂, heq₂, hcore₂, hbatch₂, hcalling₂⟩ := hcore₁.rearm
  have hrest := sameRest_resetAll heq₁
  have hnone : q₂.batch = none := hbatch₂.trans hrest.batch
  refine ⟨q₂, ?_, ⟨S₁, ?_⟩, ?_, ?_, ?_⟩
  · rw [TimerQueue.finish, reset, heq₁, Option.bind_some, heq₂]
  · rwa [taken, hnone]
  · rw [hcalling₂, hrest.callingExpiredTimers, hnone]
    rfl
  · rw [hnone]
    exact nofun
  · rw [hnone]
    exact nofun

/-- Behind `finish` the timers of the batch that go back are in the queue, with a new expiration;
all others are as they were. -/
lemma Sound.finish_spec {batch : Batch} (h : q.Sound) (hbatch : q.batch = some batch)
    (heq : q.finish batch = some q') :
    (∀ b, q'.heap b = if b ∈ q.taken then q.afterReset batch.now b else q.heap b) ∧
      (∀ it, it ∈ q'.timers ↔ it ∈ q.timers ∨ it.address ∈ q.taken ∧
        ∃ u, q.afterReset batch.now it.address = some u ∧ u.expiration = it.expiration) ∧
      (q'.pending = q.pending ∧ q'.created = q.created ∧ q'.fired = q.fired) ∧
      q'.batch = none := by
  obtain ⟨S, hcore⟩ := h.core
  rw [taken_of_batch hbatch] at hcore ⊢
  obtain ⟨q₁, heq₁, heq₂⟩ := Option.bind_eq_some_iff.mp heq
  obtain ⟨hheap, htimers⟩ := resetAll_spec hcore.placed.busy_nodup heq₁
  have hrest := sameRest_resetAll heq₁
  obtain ⟨fd, rfl⟩ : ∃ fd, q' = { q₁ with timerfd := fd } := by
    rcases rearm_cases heq₂ with ⟨rfl, -⟩ | ⟨it, t, -, -, -, rfl⟩
    · exact ⟨_, rfl⟩
    · exact ⟨_, rfl⟩
  exact ⟨hheap, htimers, ⟨hrest.pending, hrest.created, hrest.fired⟩, hrest.batch⟩

/-- From a sound queue every event that can come has a result, and it is sound. -/
lemma Sound.apply (h : q.Sound) {event : Event} (hen : q.Enabled event) :
    ∃ q', q.apply event = some q' ∧ q'.Sound := by
  obtain ⟨S, hcore⟩ := h.core
  cases event with
  | newTimer a t => exact ⟨_, rfl, ⟨S, hcore.newTimer hen⟩, h.calling, h.todo, h.running⟩
  | addTimerInLoop a =>
      obtain ⟨t, q', ht, heq, hcore'⟩ := hcore.addTimerInLoop hen.1
      refine ⟨q', heq, ?_⟩
      rw [addTimerInLoop_eq ht, Option.some.injEq] at heq
      subst heq
      exact ⟨⟨_, hcore'⟩, h.calling, h.todo, h.running⟩
  | cancelInLoop timerId =>
      obtain ⟨q', S', heq, hcore', hbatch, hcalling⟩ := hcore.cancelInLoop timerId
      exact ⟨q', heq, h.of_core hcore' hbatch hcalling⟩
  | handleRead now => exact h.handleRead hen now
  | run =>
      obtain ⟨batch, hbatch, -, hne⟩ := hen
      obtain ⟨it, todo, htodo⟩ := List.exists_cons_of_ne_nil hne
      obtain ⟨q', heq, hsound⟩ := h.run hbatch htodo
      refine ⟨q', ?_, hsound⟩
      simp only [TimerQueue.apply, Option.mem_def.mp hbatch, htodo, heq]
  | ret =>
      obtain ⟨batch, hbatch, hne⟩ := hen
      obtain ⟨a, hrunning⟩ := Option.ne_none_iff_exists'.mp hne
      obtain ⟨q', heq, hsound⟩ := h.ret hbatch hrunning
      refine ⟨q', ?_, hsound⟩
      simp only [TimerQueue.apply, Option.mem_def.mp hbatch, hrunning, heq]
  | finish =>
      obtain ⟨batch, hbatch, -⟩ := hen
      obtain ⟨q', heq, hsound⟩ := h.finish hbatch
      refine ⟨q', ?_, hsound⟩
      simp only [TimerQueue.apply, Option.mem_def.mp hbatch, heq]

/-- In a sound queue, every event that can come has a result. -/
lemma Sound.responds (h : q.Sound) : q.Responds := by
  intro event hen
  obtain ⟨q', heq, -⟩ := h.apply hen
  rw [heq]
  rfl

/-- Every step keeps a queue sound. -/
lemma Sound.step (h : q.Sound) {event : Event} (hst : Step q event q') : q'.Sound := by
  obtain ⟨hen, heq⟩ := hst.apply_eq
  obtain ⟨q₁, heq₁, hsound⟩ := h.apply hen
  rw [heq, Option.some.injEq] at heq₁
  rwa [heq₁]

/-- All that the steps of a sound queue can do. -/
inductive Effect (q : TimerQueue) : Event → TimerQueue → Prop
  | newTimer (a : Address) (t : Timer) (hen : q.Enabled (.newTimer a t)) :
      Effect q (.newTimer a t) (q.newTimer a t)
  | added (a : Address) (t : Timer) (hpending : a ∈ q.pending) (ha : q.heap a = some t) :
      Effect q (.addTimerInLoop a)
        { q with
          pending := q.pending.erase a
          timers := q.timers.insert (.mk t.expiration a)
          activeTimers := q.activeTimers.insert (.mk a t.sequence)
          timerfd := if q.EarliestChanged t.expiration then some t.expiration else q.timerfd }
  | cancelled (timerId : TimerId) (t : Timer) (ha : q.heap timerId.timer = some t)
      (hseq : t.sequence = timerId.sequence)
      (hmem : Entry.mk t.expiration timerId.timer ∈ q.timers) :
      Effect q (.cancelInLoop timerId)
        { q with
          timers := q.timers.erase (.mk t.expiration timerId.timer)
          activeTimers := q.activeTimers.erase (.mk timerId.timer timerId.sequence)
          heap := Function.update q.heap timerId.timer none
          deleted := q.deleted ++ [t.sequence] }
  | noted (timerId : TimerId)
      (hnot : ActiveTimer.mk timerId.timer timerId.sequence ∉ q.activeTimers) :
      Effect q (.cancelInLoop timerId)
        { q with cancelingTimers :=
            if q.callingExpiredTimers then
              q.cancelingTimers.insert (.mk timerId.timer timerId.sequence)
            else q.cancelingTimers }
  | expired (now : Timestamp) (active : OrdSet ActiveTimer) (hbatch : q.batch = none) :
      Effect q (.handleRead now)
        { q with
          timers := q.timers.startingAt (sentry now)
          activeTimers := active
          callingExpiredTimers := true
          cancelingTimers := .empty
          timerfd := none
          batch := some ⟨now, q.due now, q.due now, none⟩ }
  | ran (batch : Batch) (it : Entry) (todo : List Entry) (t : Timer)
      (hbatch : q.batch = some batch) (htodo : batch.todo = it :: todo)
      (ha : q.heap it.address = some t) :
      Effect q .run
        { q with
          batch := some { batch with todo := todo, running := some it.address }
          fired := q.fired ++ [t.sequence] }
  | returned (batch : Batch) (hbatch : q.batch = some batch) :
      Effect q .ret { q with batch := some { batch with running := none } }
  | finished (batch : Batch) (q' : TimerQueue) (hbatch : q.batch = some batch)
      (htodo : batch.todo = []) (heq : q.finish batch = some q') :
      Effect q .finish q'

/-- A step of a sound queue does what `Effect` lists. -/
lemma Sound.effect (h : q.Sound) {event : Event} (hst : Step q event q') : Effect q event q' := by
  obtain ⟨hen, heq⟩ := hst.apply_eq
  cases event with
  | newTimer a t =>
      obtain rfl := Option.some.inj heq
      exact .newTimer a t hen
  | addTimerInLoop a =>
      obtain ⟨S, hcore⟩ := h.core
      obtain ⟨t, ht⟩ := hcore.placed.live (Or.inl hen.1)
      rw [TimerQueue.apply, addTimerInLoop_eq ht, Option.some.injEq] at heq
      exact heq ▸ .added a t hen.1 ht
  | cancelInLoop timerId =>
      by_cases hmem : ActiveTimer.mk timerId.timer timerId.sequence ∈ q.activeTimers
      · obtain ⟨S, hcore⟩ := h.core
        obtain ⟨hS, t, ht, hseq⟩ := (hcore.indexed.mem_active _ _).mp hmem
        rw [TimerQueue.apply, cancelInLoop_of_mem ht hmem, Option.some.injEq] at heq
        exact heq ▸ .cancelled timerId t ht hseq (hcore.indexed.mem_timers_of hS ht)
      · rw [TimerQueue.apply, cancelInLoop_of_not_mem hmem, Option.some.injEq] at heq
        exact heq ▸ .noted timerId hmem
  | handleRead now =>
      obtain ⟨active, rfl⟩ := handleRead_frame heq
      exact .expired now active hen
  | run =>
      obtain ⟨batch, it, todo, t, hbatch, -, htodo, ht, rfl⟩ := hst.run
      exact .ran batch it todo t hbatch htodo ht
  | ret =>
      obtain ⟨batch, a, hbatch, -, rfl⟩ := hst.ret
      exact .returned batch hbatch
  | finish =>
      obtain ⟨batch, hbatch, -, htodo, heq⟩ := hst.finish
      exact .finished batch q' hbatch htodo heq

/-- The addresses of the timers of the batch that are still to run. -/
def waiting (q : TimerQueue) : List Address :=
  match q.batch with
  | none => []
  | some batch => batch.todo.map Entry.address

/-- Only `run` invokes a callback, and it is one that waits. -/
lemma Effect.fired {event : Event} (h : Effect q event q') (hsound : q.Sound) :
    q'.fired = q.fired ∨
      ∃ a t, q.heap a = some t ∧ a ∈ q.waiting ∧ q'.fired = q.fired ++ [t.sequence] := by
  cases h with
  | ran batch it todo t hbatch htodo ha =>
      refine Or.inr ⟨it.address, t, ha, ?_, rfl⟩
      simp [waiting, hbatch, htodo]
  | finished batch q' hbatch htodo heq =>
      obtain ⟨-, -, ⟨-, -, hfired⟩, -⟩ := hsound.finish_spec hbatch heq
      exact Or.inl hfired
  | _ => exact Or.inl rfl

/-- An empty queue is sound. -/
lemma sound_empty : Sound {} where
  core := by
    refine ⟨∅, ⟨?_, ?_⟩, ⟨?_, nofun, nofun, nofun, .nil, .nil, ?_⟩, ⟨nofun, nofun, nofun, nofun, .nil⟩⟩
    · simp
    · simp
    · simp [taken]
    · simp
  calling := rfl
  todo := nofun
  running := nofun

/-- **The representation invariant** of a timer queue. Over every run, with callbacks that add and
cancel what they like, the two sets agree, the batch is apart from them, and no timer is read or
deleted when it is gone. -/
theorem sound_throughout {p : List (Event × TimerQueue)} (hp : Path Step {} p) :
    Throughout (fun q => q.Consistent ∧ q.Responds) {} p := by
  have hsound : Throughout Sound {} p := hp.throughout (fun q event q' h hst => h.step hst)
    sound_empty
  apply hsound.mono
  intro q h
  exact ⟨h.consistent, h.responds⟩

/-- A repeating timer whose callback cancels it, beside one that is cancelled out of the queue. -/
theorem sound_throughout_cancels :
    Throughout (fun q => q.Consistent ∧ q.Responds) {}
      (trace step {}
        [.newTimer 16 ⟨⟨5⟩, 1, 1⟩, .addTimerInLoop 16, .newTimer 32 ⟨⟨9⟩, 0, 2⟩, .addTimerInLoop 32,
          .handleRead ⟨7⟩, .run, .cancelInLoop (.of 16 1), .cancelInLoop (.of 32 2), .ret, .finish]) :=
  sound_throughout (path_trace step _ _)

end TimerQueue

end SwiftNetCore
