import SwiftNetCore.EventLoop

/-!
# Queued functors

A functor waits in `pendingFunctors_` until the loop takes all of them over, and then in the local
vector until its turn comes. Whoever queues one has to see to it that the loop does not sleep in
`poll` meanwhile: another thread always writes to `wakeupFd_`, the loop's own thread does when it is
at its functors, and need not when it is at its channels, as the functors come next. It does not
either where it should: outside of `loop`, and in the destructors of the functors of a batch, which
run behind `callingPendingFunctors_ = false`.

* `ordered_throughout`: over every run, the functors started, those of the batch that were not, and
  those that wait are all that were queued, in order, and each runs in a batch that was taken after
  it was queued.
* `Awake`: while the loop's thread is in `poll`, `wakeupFd_` can be read or is about to be written
  for each functor that waits.
* `awake_of_woken`: it is, in every run in which the loop's thread queues nothing outside of `loop`,
  and nothing in those destructors, with the counter at zero. Where it does, `sleeps_of_not_woken`.
-/

namespace SwiftNetCore

open Paths (Path Throughout MeetsAll last trace path_trace)

namespace EventLoop

variable {s s' : EventLoop} {event : Event} {f b : ℕ}

/-! ## Order -/

/-- The functors run exactly once and in order. -/
structure Ordered (s : EventLoop) : Prop where
  /-- those started, the rest of the batch and those that wait are those that were queued -/
  order : s.started.map Prod.fst ++ s.functors ++ s.pendingFunctors = List.range s.queued.length
  /-- each was started in a batch later than those that had been taken when it was queued -/
  later : ∀ x ∈ s.started, ∀ b, s.queued[x.1]? = some b → b < x.2

/-- What every step keeps. -/
structure Batched (s : EventLoop) : Prop extends Ordered s where
  /-- the local vector is empty when `doPendingFunctors` does not run -/
  alone : s.point ≠ .running → s.functors = []
  batch : ∀ f ∈ s.functors, ∀ b, s.queued[f]? = some b → b < s.batches
  taken : ∀ b ∈ s.queued, b ≤ s.batches

/-- A step that changes nothing that counts for the order keeps it. -/
lemma Batched.congr (h : s.Batched) (hstarted : s'.started = s.started)
    (hfunctors : s'.functors = s.functors) (hpending : s'.pendingFunctors = s.pendingFunctors)
    (hqueued : s'.queued = s.queued) (hbatches : s'.batches = s.batches)
    (halone : s'.point ≠ .running → s.functors = []) : s'.Batched where
  order := by rw [hstarted, hfunctors, hpending, hqueued, h.order]
  later := by rw [hstarted, hqueued]; exact h.later
  alone := by rw [hfunctors]; exact halone
  batch := by rw [hfunctors, hqueued, hbatches]; exact h.batch
  taken := by rw [hqueued, hbatches]; exact h.taken

/-- A functor that was queued is one of those that are known. -/
lemma Batched.lt (h : s.Batched) (hf : f ∈ s.started.map Prod.fst ++ s.functors) :
    f < s.queued.length := by
  have hmem : f ∈ List.range s.queued.length := by
    rw [← h.order]
    exact List.mem_append_left _ hf
  exact List.mem_range.mp hmem

/-- Another call is noted, and its functor queued. -/
lemma Batched.push (h : s.Batched) : (s.noteQueued.pushFunctor s.queued.length).Batched where
  order := by
    simp only [pushFunctor, noteQueued, List.length_append, List.length_singleton, List.range_succ]
    rw [← h.order, List.append_assoc _ s.pendingFunctors]
  later := by
    intro x hx b hb
    have hlt := h.lt (List.mem_append_left _ (List.mem_map_of_mem hx))
    simp only [pushFunctor, noteQueued, List.getElem?_append_left hlt] at hb
    exact h.later x hx b hb
  alone := h.alone
  batch := by
    intro f hf b hb
    have hlt := h.lt (List.mem_append_right _ hf)
    simp only [pushFunctor, noteQueued, List.getElem?_append_left hlt] at hb
    exact h.batch f hf b hb
  taken := by
    intro b hb
    rcases List.mem_append.mp hb with hb | hb
    · exact h.taken b hb
    · exact (List.mem_singleton.mp hb).le

/-- Taking over the functors starts a batch, of those queued before it. -/
lemma Batched.swap (h : s.Batched) (hpoint : s.point = .calling) :
    Batched { s with
      functors := s.pendingFunctors
      pendingFunctors := []
      batches := s.batches + 1
      point := .running } where
  order := by
    have horder := h.order
    rw [h.alone (by simp [hpoint]), List.append_nil] at horder
    simp only [List.append_nil]
    exact horder
  later := h.later
  alone := fun hne => absurd rfl hne
  batch := fun f _ b hb => Nat.lt_succ_of_le (h.taken b (List.mem_of_getElem? hb))
  taken := fun b hb => (h.taken b hb).trans (Nat.le_succ _)

/-- Starting the next functor keeps the order. -/
lemma Batched.start (h : s.Batched) (hpoint : s.point = .running) {functors : List ℕ}
    (hfunctors : s.functors = f :: functors) :
    Batched { s with functors := functors, started := s.started ++ [(f, s.batches)] } where
  order := by
    have horder := h.order
    rw [hfunctors] at horder
    simpa using horder
  later := by
    intro x hx b hb
    rcases List.mem_append.mp hx with hx | hx
    · exact h.later x hx b hb
    · rw [List.mem_singleton.mp hx] at hb ⊢
      exact h.batch f (by simp [hfunctors]) b hb
  alone := fun hne => absurd hpoint hne
  batch := fun f' hf' => h.batch f' (by simp [hfunctors, hf'])
  taken := h.taken

/-- Every step keeps the functors in order and the batch apart from what waits. -/
lemma Batched.step (h : s.Batched) (hst : Step s event s') : s'.Batched := by
  cases hst.effect with
  | swap hpoint => exact h.swap hpoint
  | functor f functors hpoint hfunctors => exact h.start hpoint hfunctors
  | queueInLoop =>
      unfold queueFunctor
      dsimp only
      split_ifs
      · exact h.push.congr rfl rfl rfl rfl rfl h.alone
      · exact h.push
  | push => exact h.push.congr rfl rfl rfl rfl rfl h.alone
  | finish _ hfunctors => exact h.congr rfl rfl rfl rfl rfl fun _ => hfunctors
  | wakeup | quit | setQuit | wakeupQuit => exact h.congr rfl rfl rfl rfl rfl h.alone
  | loop hpoint | clearQuit hpoint | leave hpoint | goOn hpoint | poll _ hpoint
  | handleRead hpoint | doPendingFunctors hpoint | release hpoint =>
      exact h.congr rfl rfl rfl rfl rfl fun _ => h.alone (by simp [hpoint])

/-- **Queued functors run exactly once and in order**, over every run: in every order of the calls
of `queueInLoop` of all threads, those of functors included, with the steps of the loop. -/
theorem ordered_throughout {path : List (Event × EventLoop)} (hp : Path Step {} path) :
    Throughout Ordered {} path := by
  have hbatched : Throughout Batched {} path :=
    hp.throughout (fun s event s' h hst => h.step hst)
      ⟨⟨rfl, by simp⟩, fun _ => rfl, by simp, by simp⟩
  exact hbatched.mono fun s h => h.toOrdered

/-- Functors from outside of `loop`, from another thread, from a functor and from a destructor. -/
theorem ordered_throughout_reentrant :
    Throughout Ordered {} (trace step {}
      [.queueInLoop, .loop, .push, .clearQuit, .test, .wakeup 1, .poll true, .handleRead,
        .doPendingFunctors, .swap, .functor, .queueInLoop, .push, .functor, .finish, .queueInLoop,
        .release, .test, .poll true, .handleRead, .wakeup 3, .doPendingFunctors, .swap, .functor,
        .functor, .functor]) :=
  ordered_throughout (path_trace step _ _)

/-! ## Sleep -/

/-- While the loop's thread is in `poll`, the counter is positive or the call that queued a functor
is in front of its `wakeup`, for each functor that waits. -/
def Awake (s : EventLoop) : Prop :=
  s.point = .polling → ∀ f ∈ s.pendingFunctors, 0 < s.wakeupFd ∨ f ∈ s.waking

instance : DecidablePred Awake := fun _ => inferInstanceAs (Decidable (_ → _))

/-- The loop's thread queues no functor outside of `loop`, and none in the destructor of a functor,
while the counter is zero. -/
def Woken (s : EventLoop) : Event → Prop
  | .queueInLoop => s.point = .outside ∨ s.point = .releasing → 0 < s.wakeupFd
  | _ => True

instance (s : EventLoop) : DecidablePred s.Woken := by
  intro event
  unfold Woken
  split <;> infer_instance

/-- What every step keeps. -/
structure Phased (s : EventLoop) : Prop where
  calling : s.callingPendingFunctors = true ↔ s.point = .calling ∨ s.point = .running
  waking : ∀ f ∈ s.waking, f < s.queued.length

/-- A call of `queueInLoop` keeps what the flags say of the part of the round. -/
lemma Phased.queueFunctor (h : s.Phased) :
    (s.noteQueued.queueFunctor s.queued.length).Phased := by
  have hlt : ∀ f ∈ s.waking, f < (s.queued ++ [s.batches]).length := by
    intro f hf
    rw [List.length_append]
    exact (h.waking f hf).trans_le (Nat.le_add_right _ _)
  unfold EventLoop.queueFunctor
  dsimp only
  split_ifs
  · exact ⟨h.calling, hlt⟩
  · exact ⟨h.calling, hlt⟩

/-- Every step keeps what the flags say of the part of the round. -/
lemma Phased.step (h : s.Phased) (hst : Step s event s') : s'.Phased := by
  have hcalling := h.calling
  cases hst.effect with
  | loop hpoint | clearQuit hpoint | leave hpoint | goOn hpoint | poll _ hpoint | handleRead hpoint
  | swap hpoint | release hpoint => exact ⟨by simpa [hpoint] using hcalling, h.waking⟩
  | doPendingFunctors => exact ⟨by simp, h.waking⟩
  | finish => exact ⟨by simp, h.waking⟩
  | functor | quit | setQuit | wakeupQuit => exact ⟨hcalling, h.waking⟩
  | queueInLoop => exact h.queueFunctor
  | push =>
      refine ⟨hcalling, fun f hf => ?_⟩
      simp only [pushFunctor, noteQueued, List.length_append, List.length_singleton]
      rcases List.mem_append.mp hf with hf | hf
      · exact (h.waking f hf).trans (Nat.lt_succ_self _)
      · exact (List.mem_singleton.mp hf) ▸ Nat.lt_succ_self _
  | wakeup f => exact ⟨hcalling, fun f' hf' => h.waking f' (List.mem_of_mem_erase hf')⟩

/-- But for the way from `poll` to the critical section of `doPendingFunctors`, the loop will not
sleep. -/
def Alert (s : EventLoop) : Prop :=
  (∀ wakeup, s.point ≠ .dispatching wakeup) → s.point ≠ .calling →
    ∀ f ∈ s.pendingFunctors, 0 < s.wakeupFd ∨ f ∈ s.waking

/-- A loop that will not sleep is awake. -/
lemma Alert.awake (h : s.Alert) : s.Awake :=
  fun hpoint => h (by simp [hpoint]) (by simp [hpoint])

/-- The loop's thread writes to `wakeupFd_` from a functor, and need not from a channel. -/
lemma Alert.queueFunctor (hphased : s.Phased) (huser : s.InUserCode)
    (hwoken : s.point = .outside ∨ s.point = .releasing → 0 < s.wakeupFd) :
    (s.noteQueued.queueFunctor s.queued.length).Alert := by
  unfold EventLoop.queueFunctor
  dsimp only
  split_ifs with hrunning
  · exact fun _ _ _ _ => .inl (Nat.succ_pos _)
  · intro hdispatching _ _ _
    left
    unfold InUserCode at huser
    split at huser
    · next houtside => exact hwoken (.inl houtside)
    · next wakeup hdispatch => exact absurd hdispatch (hdispatching wakeup)
    · next hrun => exact absurd (hphased.calling.mpr (.inr hrun)) hrunning
    · next hrelease => exact hwoken (.inr hrelease)
    · exact huser.elim

/-- A step that meets the condition leaves the loop such that it will not sleep. -/
lemma Alert.step (h : s.Alert) (hphased : s.Phased) (hst : Step s event s')
    (hwoken : s.Woken event) : s'.Alert := by
  cases hst.effect with
  | loop hpoint | clearQuit hpoint | leave hpoint | goOn hpoint | finish hpoint | release hpoint =>
      exact fun _ _ => h (by simp [hpoint]) (by simp [hpoint])
  | poll wakeup => exact fun hnot => absurd rfl (hnot wakeup)
  | handleRead => exact fun hnot => absurd rfl (hnot false)
  | doPendingFunctors => exact fun _ hnot => absurd rfl hnot
  | swap => exact fun _ _ _ hf => absurd hf List.not_mem_nil
  | functor | quit | setQuit => exact h
  | queueInLoop huser => exact Alert.queueFunctor hphased huser hwoken
  | push =>
      intro hdispatching hnot f hf
      rcases List.mem_append.mp hf with hf | hf
      · rcases h hdispatching hnot f hf with hpos | hmem
        · exact .inl hpos
        · exact .inr (List.mem_append_left _ hmem)
      · exact .inr (List.mem_append_right _ hf)
  | wakeup | wakeupQuit => exact fun _ _ _ _ => .inl (Nat.succ_pos _)

/-- **No functor sleeps**, in every run in which the loop's thread queues none outside of `loop`,
and none in the destructor of a functor, with the counter at zero: while it is in `poll`, the
counter is positive or the thread that queued a functor is about to write, for each functor that
waits. -/
theorem awake_of_woken {path : List (Event × EventLoop)} (hp : Path Step {} path)
    (hwoken : MeetsAll Woken {} path) : Throughout Awake {} path := by
  have halert : Throughout (fun s => s.Phased ∧ s.Alert) {} path := by
    refine hp.throughout_of_meetsAll (fun s event s' h hst hg => ?_) hwoken ?_
    · exact ⟨h.1.step hst, h.2.step h.1 hst hg⟩
    · exact ⟨⟨by simp, by simp⟩, fun _ _ => by simp⟩
  exact halert.mono fun s h => h.2.awake

/-- A functor that is queued in front of `loop` sleeps, and so does one that is queued by the
destructor of another one. -/
theorem not_awake :
    ¬ Throughout Awake {} (trace step {} [.queueInLoop, .loop, .clearQuit, .test]) ∧
      ¬ Throughout Awake {} (trace step {}
        [.loop, .clearQuit, .test, .push, .wakeup 0, .poll true, .handleRead, .doPendingFunctors,
          .swap, .functor, .finish, .queueInLoop, .release, .test]) := by decide

/-- Functors from another thread in front of `loop` and in `poll`, with the loop's thread queueing
behind the first, from a channel, from a functor, and from a destructor behind that. -/
theorem awake_of_woken_all :
    Throughout Awake {} (trace step {}
      [.push, .wakeup 0, .queueInLoop, .loop, .clearQuit, .test, .push, .poll true, .queueInLoop,
        .wakeup 2, .handleRead, .doPendingFunctors, .swap, .functor, .queueInLoop, .functor, .functor,
        .functor, .finish, .queueInLoop, .release, .test]) :=
  awake_of_woken (path_trace step _ _) (by decide)

/-- The loop comes to `poll`, and nobody does anything about its functors. -/
structure GoesToPoll (s t : EventLoop) : Prop where
  point : t.point = .polling
  pendingFunctors : t.pendingFunctors = s.pendingFunctors
  wakeupFd : t.wakeupFd = s.wakeupFd
  waking : t.waking = s.waking

/-- From outside of `loop` it may come there in three steps. -/
lemma exists_goesToPoll_of_outside (hpoint : s.point = .outside) :
    ∃ path, Path Step s path ∧ GoesToPoll s (last s path) := by
  let s₁ : EventLoop := { s with looping := true, point := .entered }
  let s₂ : EventLoop := { s₁ with quit := false, point := .testing }
  let s₃ : EventLoop := { s₂ with point := .polling }
  have hloop : Step s .loop s₁ := if_pos hpoint
  exact ⟨[(.loop, s₁), (.clearQuit, s₂), (.test, s₃)], ⟨hloop, rfl, rfl, trivial⟩,
    ⟨rfl, rfl, rfl, rfl⟩⟩

/-- From the end of `doPendingFunctors` the thread comes to `poll`, by way of the outside where
`quit_` is set. -/
lemma exists_goesToPoll_of_releasing (hpoint : s.point = .releasing) :
    ∃ path, Path Step s path ∧ GoesToPoll s (last s path) := by
  let s₁ : EventLoop := { s with point := .testing }
  have hrelease : Step s .release s₁ := if_pos hpoint
  rcases hquit : s.quit with _ | _
  · let s₂ : EventLoop := { s₁ with point := .polling }
    have htest : Step s₁ .test s₂ := by
      simp [Step, EventLoop.step, s₁, s₂, hquit]
    exact ⟨[(.release, s₁), (.test, s₂)], ⟨hrelease, htest, trivial⟩, ⟨rfl, rfl, rfl, rfl⟩⟩
  · let s₂ : EventLoop := { s₁ with looping := false, point := .outside, requested := false }
    have htest : Step s₁ .test s₂ := by
      simp [Step, EventLoop.step, s₁, s₂, hquit]
    obtain ⟨path, hpath, hpoll⟩ := exists_goesToPoll_of_outside (s := s₂) rfl
    exact ⟨(.release, s₁) :: (.test, s₂) :: path, ⟨hrelease, htest, hpath⟩,
      ⟨hpoll.point, hpoll.pendingFunctors, hpoll.wakeupFd, hpoll.waking⟩⟩

/-- **The condition leaves out no more than it must**: wherever the loop's thread queues a functor
outside of `loop`, or in the destructor of a functor, with the counter at zero, the loop goes to
sleep on it if nothing else happens. -/
theorem sleeps_of_not_woken (h : s.Phased) (hst : Step s event s') (hnot : ¬ s.Woken event) :
    ∃ path, Path Step s' path ∧ ¬ (last s' path).Awake := by
  cases hst.effect with
  | queueInLoop =>
      simp only [Woken, Classical.not_imp, Nat.pos_iff_ne_zero, not_not] at hnot
      obtain ⟨hpoint, hzero⟩ := hnot
      set t := s.noteQueued.pushFunctor s.queued.length with ht
      have hcalling : ¬ t.callingPendingFunctors = true := by
        rw [show t.callingPendingFunctors = s.callingPendingFunctors from rfl, h.calling]
        rcases hpoint with hpoint | hpoint <;> simp [hpoint]
      have hqueue : s.noteQueued.queueFunctor s.queued.length = t := if_neg hcalling
      rw [hqueue]
      obtain ⟨path, hpath, hpoll⟩ : ∃ path, Path Step t path ∧ GoesToPoll t (last t path) := by
        rcases hpoint with hpoint | hpoint
        · exact exists_goesToPoll_of_outside hpoint
        · exact exists_goesToPoll_of_releasing hpoint
      refine ⟨path, hpath, fun hawake => ?_⟩
      have hmem : s.queued.length ∈ (last t path).pendingFunctors := by
        rw [hpoll.pendingFunctors]
        exact List.mem_append_right _ (List.mem_singleton_self _)
      rcases hawake hpoll.point _ hmem with hpos | hwaking
      · rw [hpoll.wakeupFd, show t.wakeupFd = s.wakeupFd from rfl, hzero] at hpos
        exact absurd hpos (lt_irrefl 0)
      · rw [hpoll.waking] at hwaking
        exact absurd (h.waking _ hwaking) (lt_irrefl _)
  | _ => exact absurd trivial hnot

end EventLoop

end SwiftNetCore
