import SwiftNetCore.ConnectorSockets

/-!
# What becomes of the connector's sockets

A connector that is started while it is connecting, or restarted, can lose a socket
(`SwiftNetCore.ConnectorSockets`). This module is about what it does in no run, also in those: it
closes no descriptor twice and none that it has handed over, which by then may be another's, and no
registered channel has such a descriptor.

* `Disposal`: the sockets that were closed or handed over are distinct, those that a channel waits
  for are not among them, and every delay is between the two bounds.
* `Disposal.remove`, `Disposal.retry`, `Disposal.settle`: how an attempt ends.
* `disposal_throughout`: over every run. An event of a channel that was destroyed while it was
  registered, which is undefined in the source, is no step of it.
-/

namespace SwiftNetCore

open Paths (Path Throughout trace path_trace)

namespace Connector

variable {c c' : Connector} {event : Event} {attempt : Attempt} {s delay : ℕ}

/-- A delay between the first one and the longest one. -/
def InBounds (delay : ℕ) : Prop := kInitRetryDelayMs ≤ delay ∧ delay ≤ kMaxRetryDelayMs

instance : DecidablePred InBounds := fun _ => inferInstanceAs (Decidable (_ ∧ _))

/-- Doubling a delay as `retry` does leaves it between the two bounds. -/
lemma InBounds.double (h : InBounds delay) : InBounds (min (delay * 2) kMaxRetryDelayMs) := by
  unfold InBounds kInitRetryDelayMs kMaxRetryDelayMs at h ⊢
  omega

/-- The first delay is between the two bounds. -/
lemma inBounds_kInitRetryDelayMs : InBounds kInitRetryDelayMs := by decide

/-- Every socket is disposed of once. -/
structure Disposal (c : Connector) : Prop where
  created : ∀ s ∈ c.closed ++ c.handed, s < c.created
  /-- no socket is closed twice, or handed over twice, or closed and handed over -/
  once : (c.closed ++ c.handed).Nodup
  /-- a channel that the poller knows waits for a socket that is neither closed nor handed over -/
  registered : ∀ channel ∈ c.poller, channel.fd ∈ c.outstanding
  /-- so does `channel_` while `state_` is `kConnecting` -/
  connecting : c.state = .kConnecting → ∀ channel ∈ c.channel, channel.fd ∈ c.outstanding
  /-- `retryDelayMs_` is within its bounds, and so is the delay of every timer -/
  delay : InBounds c.retryDelayMs
  timers : ∀ delay ∈ c.timers, InBounds delay

/-- The books are right for the sockets that are outstanding. -/
lemma Disposal.books (h : c.Disposal) : Books c c.outstanding := ⟨rfl, h.created, h.once⟩

/-- A socket that is outstanding is closed or handed over, and no channel waits for it any more. -/
lemma Disposal.settle (h : c.Disposal) (hs : s ∈ c.outstanding) (hcreated : c'.created = c.created)
    (hperm : (c'.closed ++ c'.handed).Perm (s :: (c.closed ++ c.handed)))
    (hpoller : ∀ channel ∈ c'.poller, channel ∈ c.poller ∧ channel.fd ≠ s)
    (hchannel : c'.state = .kConnecting →
      ∀ channel ∈ c'.channel, channel.fd ∈ c.outstanding ∧ channel.fd ≠ s)
    (hdelay : InBounds c'.retryDelayMs) (htimers : ∀ delay ∈ c'.timers, InBounds delay) :
    c'.Disposal := by
  have hbooks := h.books.settle hs hcreated hperm
  have hout : ∀ t ∈ c.outstanding, t ≠ s → t ∈ c'.outstanding := by
    intro t ht hne
    rw [hbooks.outstanding_eq]
    exact List.mem_filter.mpr ⟨ht, by simpa using hne⟩
  refine ⟨hbooks.created, hbooks.nodup, ?_, ?_, hdelay, htimers⟩
  · intro channel hmem
    obtain ⟨hold, hne⟩ := hpoller channel hmem
    exact hout _ (h.registered channel hold) hne
  · intro hstate channel hmem
    obtain ⟨hold, hne⟩ := hchannel hstate channel hmem
    exact hout _ hold hne

/-- A new socket is outstanding, and is none of those before. -/
lemma Disposal.create (h : c.Disposal) :
    c.createNonblockingOrDie.Disposal ∧ c.created ∈ c.createNonblockingOrDie.outstanding ∧
      ∀ t ∈ c.outstanding, t ∈ c.createNonblockingOrDie.outstanding ∧ t ≠ c.created := by
  have hbooks := h.books.create
  have hout : ∀ t ∈ c.outstanding, t ∈ c.createNonblockingOrDie.outstanding := by
    intro t ht
    rw [hbooks.outstanding_eq]
    exact List.mem_append_left _ ht
  refine ⟨⟨hbooks.created, hbooks.nodup, ?_, ?_, h.delay, h.timers⟩, ?_,
    fun t ht => ⟨hout t ht, ?_⟩⟩
  · exact fun channel hmem => hout _ (h.registered channel hmem)
  · exact fun hstate channel hmem => hout _ (h.connecting hstate channel hmem)
  · rw [hbooks.outstanding_eq]
    exact List.mem_append_right _ (List.mem_singleton_self _)
  · exact (List.mem_range.mp (List.mem_filter.mp ht).1).ne

/-- `retry` with a socket that no channel waits for disposes of it. -/
lemma Disposal.retry (h : c.Disposal) (hs : s ∈ c.outstanding)
    (hpoller : ∀ channel ∈ c.poller, channel.fd ≠ s) (hc : c.retry s = some c') : c'.Disposal := by
  obtain ⟨hstate, -, hpoller', hcreated, hclosed, hhanded⟩ := retry_spec hc
  have hpaced : InBounds c'.retryDelayMs ∧ ∀ delay ∈ c'.timers, InBounds delay := by
    by_cases hconnect : c.connect_ = true
    · rw [retry_eq hconnect] at hc
      split_ifs at hc
      obtain rfl := Option.some.inj hc
      refine ⟨h.delay.double, fun delay hdelay => ?_⟩
      rcases List.mem_append.mp hdelay with hold | hnew
      · exact h.timers delay hold
      · exact List.mem_singleton.mp hnew ▸ h.delay
    · rw [retry_of_not_connect hconnect] at hc
      obtain rfl := Option.some.inj hc
      exact ⟨h.delay, h.timers⟩
  refine h.settle hs hcreated ?_ ?_ ?_ hpaced.1 hpaced.2
  · rw [hclosed, hhanded, List.append_assoc]
    exact List.perm_middle
  · rw [hpoller']
    exact fun channel hmem => ⟨hmem, hpoller channel hmem⟩
  · exact fun hconnecting => absurd hconnecting (by simp [hstate])

/-- `removeAndResetChannel` gives up the socket that `channel_` waits for. -/
lemma Disposal.remove {c₁ : Connector} (h : c.Disposal)
    (hchannel : ∀ channel ∈ c.channel, channel.fd ∈ c.outstanding)
    (hc : c.removeAndResetChannel = some (c₁, s)) :
    c₁.Disposal ∧ s ∈ c₁.outstanding ∧ ∀ channel ∈ c₁.poller, channel.fd ≠ s := by
  obtain ⟨channel, hmem, heq⟩ := Option.map_eq_some_iff.mp hc
  obtain ⟨rfl, rfl⟩ := Prod.mk.inj heq
  refine ⟨⟨h.created, h.once, ?_, h.connecting, h.delay, h.timers⟩, hchannel channel hmem, ?_⟩
  · exact fun other hother => h.registered other (List.mem_of_mem_filter hother)
  · intro other hother hfd
    have hne : other ≠ channel := by simpa using (List.mem_filter.mp hother).2
    obtain ⟨fd⟩ := other
    obtain ⟨fd'⟩ := channel
    exact hne (congrArg Channel.mk hfd)

/-! ## The functions of the loop thread -/

/-- Behind `connect`, every socket is still disposed of once. -/
lemma Disposal.connect (h : c.Disposal) (hc : c.connect attempt = some c') : c'.Disposal := by
  rcases attempt with _ | savedErrno
  · obtain rfl := Option.some.inj hc
    exact h
  · obtain ⟨hcreate, hnew, hold⟩ := h.create
    unfold Connector.connect at hc
    rcases hbranch : branch savedErrno <;> simp only [hbranch] at hc
    · obtain rfl := Option.some.inj hc
      refine ⟨hcreate.created, hcreate.once, fun channel hmem => ?_, fun _ channel hmem => ?_,
        h.delay, h.timers⟩
      · rcases List.mem_append.mp hmem with hmem | hmem
        · exact hcreate.registered channel hmem
        · rw [List.mem_singleton.mp hmem]
          exact hnew
      · obtain rfl := Option.some.inj hmem
        exact hnew
    · exact hcreate.retry hnew (fun channel hmem => (hold _ (h.registered channel hmem)).2) hc
    · obtain rfl := Option.some.inj hc
      refine hcreate.settle hnew rfl ?_ ?_ ?_ h.delay h.timers
      · simp only [Connector.close, List.append_assoc]
        exact List.perm_middle
      · exact fun channel hmem => ⟨hmem, (hold _ (h.registered channel hmem)).2⟩
      · exact fun hstate channel hmem => hold _ (h.connecting hstate channel hmem)

/-- Behind `startInLoop`, every socket is still disposed of once. -/
lemma Disposal.startInLoop (h : c.Disposal) (hc : c.startInLoop attempt = some c') :
    c'.Disposal := by
  unfold Connector.startInLoop at hc
  split_ifs at hc
  · exact h.connect hc
  · obtain rfl := Option.some.inj hc
    exact h

/-- `state_` is no longer `kConnecting`. -/
lemma Disposal.disconnect (h : c.Disposal) : Disposal { c with state := .kDisconnected } :=
  ⟨h.created, h.once, h.registered, by simp, h.delay, h.timers⟩

/-- Behind `stopInLoop`, every socket is still disposed of once. -/
lemma Disposal.stopInLoop (h : c.Disposal) (hc : c.stopInLoop = some c') : c'.Disposal := by
  unfold Connector.stopInLoop at hc
  split_ifs at hc with hstate
  · obtain ⟨⟨c₁, s⟩, hremove, hretry⟩ := Option.bind_eq_some_iff.mp hc
    obtain ⟨h₁, hs, hpoller⟩ := h.disconnect.remove (h.connecting hstate) hremove
    exact h₁.retry hs hpoller hretry
  · obtain rfl := Option.some.inj hc
    exact h

/-- Behind `handleError`, every socket is still disposed of once. -/
lemma Disposal.handleError (h : c.Disposal) (hc : c.handleError = some c') : c'.Disposal := by
  unfold Connector.handleError at hc
  split_ifs at hc with hstate
  · obtain ⟨⟨c₁, s⟩, hremove, hretry⟩ := Option.bind_eq_some_iff.mp hc
    obtain ⟨h₁, hs, hpoller⟩ := h.remove (h.connecting hstate) hremove
    exact h₁.retry hs hpoller hretry
  · obtain rfl := Option.some.inj hc
    exact h

/-- Behind `handleWrite`, every socket is still disposed of once. -/
lemma Disposal.handleWrite {err selfConnect : Bool} (h : c.Disposal)
    (hc : c.handleWrite err selfConnect = some c') : c'.Disposal := by
  unfold Connector.handleWrite at hc
  by_cases hstate : c.state = .kConnecting
  · rw [if_pos hstate] at hc
    obtain ⟨⟨c₁, s⟩, hremove, hrest⟩ := Option.bind_eq_some_iff.mp hc
    obtain ⟨h₁, hs, hpoller⟩ := h.remove (h.connecting hstate) hremove
    dsimp only at hrest
    split_ifs at hrest
    · exact h₁.retry hs hpoller hrest
    · exact h₁.retry hs hpoller hrest
    · obtain rfl := Option.some.inj hrest
      refine h₁.settle hs rfl ?_ (fun channel hmem => ⟨hmem, hpoller channel hmem⟩) (by simp)
        h₁.delay h₁.timers
      simp only [← List.append_assoc]
      exact List.perm_append_singleton _ _
    · obtain rfl := Option.some.inj hrest
      refine h₁.settle hs rfl ?_ (fun channel hmem => ⟨hmem, hpoller channel hmem⟩)
        (by simp [Connector.close]) h₁.delay h₁.timers
      simp only [Connector.close, List.append_assoc]
      exact List.perm_middle
  · rw [if_neg hstate] at hc
    obtain rfl := Option.some.inj hc
    exact h

/-- Behind a functor of the loop, every socket is still disposed of once. -/
lemma Disposal.runFunctor {functor : PendingFunctor} (h : c.Disposal)
    (hc : c.runFunctor attempt functor = some c') : c'.Disposal := by
  cases functor with
  | startInLoop => exact h.startInLoop hc
  | stopInLoop => exact h.stopInLoop hc
  | resetChannel =>
      obtain rfl := Option.some.inj hc
      refine ⟨h.created, h.once, h.registered, fun _ channel hmem => ?_, h.delay, h.timers⟩
      exact absurd hmem (Option.not_mem_none _)

/-! ## Every step -/

/-- Behind every step, every socket is still disposed of once. -/
lemma Disposal.step (h : c.Disposal) (hc : Step c event c') : c'.Disposal := by
  cases event with
  | call call =>
      obtain rfl := Option.some.inj hc
      exact ⟨h.created, h.once, h.registered, h.connecting, h.delay, h.timers⟩
  | enqueue i =>
      obtain ⟨call, -, rfl⟩ := Option.map_eq_some_iff.mp hc
      exact ⟨h.created, h.once, h.registered, h.connecting, h.delay, h.timers⟩
  | callInLoop call =>
      simp only [Step, Connector.step] at hc
      split_ifs at hc
      obtain rfl := Option.some.inj hc
      exact ⟨h.created, h.once, h.registered, h.connecting, h.delay, h.timers⟩
  | restart =>
      simp only [Step, Connector.step] at hc
      split_ifs at hc
      obtain rfl := Option.some.inj hc
      exact ⟨h.created, h.once, h.registered, by simp, inBounds_kInitRetryDelayMs, h.timers⟩
  | goOn attempt =>
      have hidle : Disposal { c with point := .idle } :=
        ⟨h.created, h.once, h.registered, h.connecting, h.delay, h.timers⟩
      simp only [Step, Connector.step] at hc
      rcases hp : c.point <;> simp only [hp, reduceCtorEq] at hc
      · exact hidle.startInLoop hc
      · obtain rfl := Option.some.inj hc
        exact ⟨h.created, h.once, h.registered, h.connecting, h.delay, h.timers⟩
  | functor attempt =>
      simp only [Step, Connector.step] at hc
      rcases hp : c.point <;> simp only [hp, reduceCtorEq] at hc
      rcases hf : c.pendingFunctors with _ | ⟨functor, functors⟩ <;>
        simp only [hf, reduceCtorEq] at hc
      have hpopped : Disposal { c with point := .idle, pendingFunctors := functors } :=
        ⟨h.created, h.once, h.registered, h.connecting, h.delay, h.timers⟩
      exact hpopped.runFunctor hc
  | timer i attempt =>
      have hexpired : Disposal { c with timers := c.timers.eraseIdx i } :=
        ⟨h.created, h.once, h.registered, h.connecting, h.delay,
          fun delay hmem => h.timers delay (List.mem_of_mem_eraseIdx hmem)⟩
      simp only [Step, Connector.step] at hc
      split_ifs at hc
      exact hexpired.startInLoop hc
  | write err selfConnect =>
      simp only [Step, Connector.step] at hc
      split_ifs at hc
      exact h.handleWrite hc
  | error =>
      simp only [Step, Connector.step] at hc
      split_ifs at hc
      exact h.handleError hc

/-- **No socket is disposed of twice.** Over every run of a connector, in every order of the calls
of all threads, events, timers and functors, and with every answer of the system, also where it is
started or restarted while it is connecting. -/
theorem disposal_throughout {timerQueue : Bool} {path : List (Event × Connector)}
    (hp : Path Step { timerQueue := timerQueue } path) :
    Throughout Disposal { timerQueue := timerQueue } path := by
  refine hp.throughout (fun c event c' h hc => h.step hc) ?_
  exact ⟨by simp, .nil, by simp, by simp, inBounds_kInitRetryDelayMs, by simp⟩

/-- A second `start` and a `restart` while the connector is connecting: of the three sockets the
last is handed over, and the others are lost. -/
theorem disposal_throughout_lost :
    Throughout Disposal { timerQueue := true } (trace step { timerQueue := true }
      [.callInLoop .start, .goOn (.socket (some .EINPROGRESS)), .callInLoop .start,
        .goOn (.socket (some .EINPROGRESS)), .restart, .goOn (.socket none), .write false false,
        .functor .noSocket]) :=
  disposal_throughout (path_trace step _ _)

end Connector

end SwiftNetCore
