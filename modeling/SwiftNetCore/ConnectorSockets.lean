import SwiftNetCore.Connector
import SwiftNetCore.Lib.Path

/-!
# Who owns the connector's sockets

A socket that `connect` creates should stay with `channel_`, registered with the poller, until it
is closed or handed over, and `state_` should say `kConnecting` just as long (`Owned`). What
`start` and `restart` lead to does not look at `state_`, and a `resetChannel` that one attempt has
queued runs whether or not a later attempt has a new channel by then.

* `Free`, `Busy`: the two kinds of states a connector should be in, as the proofs need them.
* `connect_of_free`, `connect_of_busy`, `stopInLoop_of_wired`, `handleWrite_of_wired`,
  `handleError_of_wired`: what each function of the loop thread makes of them.
* `owned_iff_undisturbed`: over every run, the sockets are owned exactly when no attempt, no
  `restart` and no `resetChannel` comes while the connector is connecting.
-/

namespace SwiftNetCore

open Paths (Path Throughout MeetsAll)

namespace Connector

variable {c c' : Connector} {event : Event} {attempt : Attempt} {sockets : List ℕ} {s fd : ℕ}

/-! ## The property -/

/-- The sockets created that are neither closed nor handed over. -/
def outstanding (c : Connector) : List ℕ :=
  (List.range c.created).filter fun s => s ∉ c.closed ++ c.handed

/-- `channel_` is the registered channel of the socket `s`. -/
def Watches (c : Connector) (s : ℕ) : Prop := c.channel = some ⟨s⟩ ∧ ⟨s⟩ ∈ c.poller

instance : Decidable (Watches c s) := inferInstanceAs (Decidable (_ ∧ _))

/-- The connector owns its sockets. -/
structure Owned (c : Connector) : Prop where
  /-- at most one socket is outstanding -/
  one : c.outstanding.length ≤ 1
  /-- it is the one that `channel_` waits for -/
  kept : ∀ s ∈ c.outstanding, c.Watches s
  /-- every other was closed or handed over, once -/
  once : ∀ s < c.created, s ∉ c.outstanding → (c.closed ++ c.handed).count s = 1
  /-- `state_` is `kConnecting` exactly when `channel_` waits for the outstanding socket -/
  connecting : c.state = .kConnecting ↔ ∃ s ∈ c.outstanding, c.Watches s
  /-- `channel_` was not reset or replaced while it was registered -/
  registered : ∀ channel ∈ c.poller, c.channel = some channel

instance (c : Connector) : Decidable (Owned c) :=
  decidable_of_iff (c.outstanding.length ≤ 1 ∧ (∀ s ∈ c.outstanding, c.Watches s) ∧
      (∀ s < c.created, s ∉ c.outstanding → (c.closed ++ c.handed).count s = 1) ∧
      (c.state = .kConnecting ↔ ∃ s ∈ c.outstanding, c.Watches s) ∧
      ∀ channel ∈ c.poller, c.channel = some channel)
    ⟨fun ⟨h₁, h₂, h₃, h₄, h₅⟩ => ⟨h₁, h₂, h₃, h₄, h₅⟩,
      fun h => ⟨h.one, h.kept, h.once, h.connecting, h.registered⟩⟩

/-- The system gives a socket that `connect` goes on with, or retries with. -/
def Attempt.TakesOver : Attempt → Prop
  | .noSocket => False
  | .socket savedErrno => branch savedErrno ≠ .close

instance : DecidablePred Attempt.TakesOver
  | .noSocket => inferInstanceAs (Decidable False)
  | .socket _ => inferInstanceAs (Decidable (_ ≠ _))

/-- `startInLoop` does not take over while the connector is connecting. -/
def StartsFree (c : Connector) (attempt : Attempt) : Prop :=
  c.connect_ = true → attempt.TakesOver → c.state ≠ .kConnecting

instance : Decidable (c.StartsFree attempt) := inferInstanceAs (Decidable (_ → _))

/-- What a step needs to find: no attempt takes over, no `restart` is called and no `resetChannel`
runs while the connector is connecting. -/
def Undisturbed (c : Connector) : Event → Prop
  | .restart => c.state ≠ .kConnecting
  | .goOn attempt => c.point = .starting → c.StartsFree attempt
  | .timer _ attempt => c.StartsFree attempt
  | .functor attempt =>
    (c.pendingFunctors.head? = some .startInLoop → c.StartsFree attempt) ∧
      (c.pendingFunctors.head? = some .resetChannel → c.state ≠ .kConnecting)
  | _ => True

instance (c : Connector) : DecidablePred (Undisturbed c)
  | .restart => inferInstanceAs (Decidable (_ ≠ _))
  | .goOn _ => inferInstanceAs (Decidable (_ → _))
  | .timer _ _ => inferInstanceAs (Decidable (StartsFree _ _))
  | .functor _ => inferInstanceAs (Decidable (_ ∧ _))
  | .call _ | .enqueue _ | .callInLoop _ | .write _ _ | .error => inferInstanceAs (Decidable True)

/-! ## The books -/

/-- The outstanding sockets are `sockets`; all others are settled once. -/
structure Books (c : Connector) (sockets : List ℕ) : Prop where
  outstanding_eq : c.outstanding = sockets
  created : ∀ s ∈ c.closed ++ c.handed, s < c.created
  nodup : (c.closed ++ c.handed).Nodup

/-- The books are about the sockets created, closed and handed over. -/
lemma Books.congr (h : Books c sockets) (h₁ : c'.created = c.created) (h₂ : c'.closed = c.closed)
    (h₃ : c'.handed = c.handed) : Books c' sockets := by
  obtain ⟨h₄, h₅, h₆⟩ := h
  refine ⟨?_, ?_, ?_⟩
  · rw [← h₄, outstanding, outstanding, h₁, h₂, h₃]
  · rwa [h₁, h₂, h₃]
  · rwa [h₂, h₃]

/-- A new socket is outstanding. -/
lemma Books.create (h : Books c sockets) :
    Books c.createNonblockingOrDie (sockets ++ [c.created]) := by
  obtain ⟨h₁, h₂, h₃⟩ := h
  have hnew : c.created ∉ c.closed ++ c.handed := fun hmem => lt_irrefl _ (h₂ _ hmem)
  refine ⟨?_, fun s hs => Nat.lt_succ_of_lt (h₂ s hs), h₃⟩
  rw [← h₁, outstanding, outstanding, createNonblockingOrDie, List.range_succ, List.filter_append]
  simp only [List.filter_singleton, hnew]
  rfl

/-- A socket that is closed or handed over is settled, and no longer outstanding. -/
lemma Books.settle (h : Books c sockets) (hs : s ∈ sockets) (hc : c'.created = c.created)
    (hperm : (c'.closed ++ c'.handed).Perm (s :: (c.closed ++ c.handed))) :
    Books c' (sockets.filter (· ≠ s)) := by
  obtain ⟨rfl, h₂, h₃⟩ := h
  obtain ⟨hrange, hout⟩ := List.mem_filter.mp hs
  have hnew : s ∉ c.closed ++ c.handed := of_decide_eq_true hout
  refine ⟨?_, fun t ht => ?_, hperm.nodup_iff.mpr (List.nodup_cons.mpr ⟨hnew, h₃⟩)⟩
  · rw [outstanding, outstanding, List.filter_filter, hc]
    apply List.filter_congr
    intro t _
    simp only [hperm.mem_iff, List.mem_cons, not_or, Bool.decide_and]
  · rw [hc]
    rcases List.mem_cons.mp (hperm.mem_iff.mp ht) with rfl | ht
    · exact List.mem_range.mp hrange
    · exact h₂ t ht

/-- Closing an outstanding socket settles it. -/
lemma Books.close (h : Books c sockets) (hs : s ∈ sockets) :
    Books (c.close s) (sockets.filter (· ≠ s)) := by
  refine h.settle hs rfl ?_
  simp only [Connector.close, List.append_assoc]
  exact List.perm_middle

/-- Handing an outstanding socket over settles it. -/
lemma Books.handOver (h : Books c sockets) (hs : s ∈ sockets) :
    Books { c with handed := c.handed ++ [s] } (sockets.filter (· ≠ s)) := by
  refine h.settle hs rfl ?_
  simp only [← List.append_assoc]
  exact List.perm_append_singleton _ _

/-- A socket created and closed at once leaves the books as they are. -/
lemma Books.create_close (h : Books c sockets) :
    Books (c.createNonblockingOrDie.close c.created) sockets := by
  have hnew : c.created ∉ sockets := by
    rw [← h.outstanding_eq]
    intro hmem
    exact List.not_mem_range_self (List.mem_filter.mp hmem).1
  have hfilter : (sockets ++ [c.created]).filter (· ≠ c.created) = sockets := by
    rw [List.filter_append, List.filter_eq_self.mpr]
    · simp
    · intro t ht
      simpa using ne_of_mem_of_not_mem ht hnew
  have hbooks := h.create.close (List.mem_append_right sockets (List.mem_singleton_self c.created))
  rwa [hfilter] at hbooks

/-- A socket that is not outstanding is settled once. -/
lemma Books.once (h : Books c sockets) (hs : s < c.created) (hout : s ∉ c.outstanding) :
    (c.closed ++ c.handed).count s = 1 := by
  apply List.count_eq_one_of_mem h.nodup
  by_contra hmem
  exact hout (List.mem_filter.mpr ⟨List.mem_range.mpr hs, by simpa using hmem⟩)

/-! ## The two kinds of states -/

/-- No attempt: nothing is registered, and no socket is outstanding. -/
structure Free (c : Connector) : Prop where
  state : c.state ≠ .kConnecting
  poller : c.poller = []
  books : Books c []

/-- An attempt: its channel is registered, and its socket alone is outstanding. -/
structure Busy (c : Connector) (fd : ℕ) : Prop where
  state : c.state = .kConnecting
  channel : c.channel = some ⟨fd⟩
  poller : c.poller = [⟨fd⟩]
  books : Books c [fd]

/-- The connector is in a state of one of the two kinds. -/
def Wired (c : Connector) : Prop := Free c ∨ ∃ fd, Busy c fd

/-- A connector without an attempt owns its sockets. -/
lemma Free.owned (h : Free c) : Owned c := by
  obtain ⟨hstate, hpoller, hbooks⟩ := h
  have hout := hbooks.outstanding_eq
  exact ⟨by simp [hout], by simp [hout], fun s hs => hbooks.once hs, by simp [hout, hstate],
    by simp [hpoller]⟩

/-- A connector with an attempt owns its sockets. -/
lemma Busy.owned (h : Busy c fd) : Owned c := by
  obtain ⟨hstate, hchannel, hpoller, hbooks⟩ := h
  have hout := hbooks.outstanding_eq
  have hwatches : c.Watches fd := ⟨hchannel, by simp [hpoller]⟩
  exact ⟨by simp [hout], by simpa [hout] using hwatches, fun s hs => hbooks.once hs,
    by simp [hout, hstate, hwatches], by simp [hpoller, hchannel]⟩

/-- In both kinds of states the connector owns its sockets. -/
lemma Wired.owned (h : Wired c) : Owned c := by
  rcases h with hfree | ⟨fd, hbusy⟩
  · exact hfree.owned
  · exact hbusy.owned

/-- While it owns its sockets, the connector is connecting where `channel_` waits for one. -/
lemma Owned.state_eq (h : Owned c) (hchannel : c.channel = some ⟨fd⟩) (hpoller : ⟨fd⟩ ∈ c.poller)
    (hout : fd ∈ c.outstanding) : c.state = .kConnecting :=
  h.connecting.mpr ⟨fd, hout, hchannel, hpoller⟩

/-- All that counts for the sockets is the same. -/
def SameSockets (c c' : Connector) : Prop :=
  c'.state = c.state ∧ c'.channel = c.channel ∧ c'.poller = c.poller ∧ c'.created = c.created ∧
    c'.closed = c.closed ∧ c'.handed = c.handed

/-- A connector with the same sockets is in a state of the same kind. -/
lemma Wired.congr (hw : Wired c) (h : SameSockets c c') : Wired c' := by
  obtain ⟨h₁, h₂, h₃, h₄, h₅, h₆⟩ := h
  rcases hw with hfree | ⟨fd, hbusy⟩
  · exact .inl ⟨by rw [h₁]; exact hfree.state, by rw [h₃]; exact hfree.poller,
      hfree.books.congr h₄ h₅ h₆⟩
  · exact .inr ⟨fd, by rw [h₁]; exact hbusy.state, by rw [h₂]; exact hbusy.channel,
      by rw [h₃]; exact hbusy.poller, hbusy.books.congr h₄ h₅ h₆⟩

/-! ## The functions of the loop thread -/

/-- What `retry` does to the sockets. -/
lemma retry_spec (h : c.retry s = some c') :
    c'.state = .kDisconnected ∧ c'.channel = c.channel ∧ c'.poller = c.poller ∧
      c'.created = c.created ∧ c'.closed = c.closed ++ [s] ∧ c'.handed = c.handed := by
  by_cases hconnect : c.connect_ = true
  · rw [retry_eq hconnect] at h
    split_ifs at h
    obtain rfl := Option.some.inj h
    exact ⟨rfl, rfl, rfl, rfl, rfl, rfl⟩
  · rw [retry_of_not_connect hconnect] at h
    obtain rfl := Option.some.inj h
    exact ⟨rfl, rfl, rfl, rfl, rfl, rfl⟩

/-- `retry` with the last outstanding socket, which no channel watches any more, leaves no
attempt. -/
lemma free_of_retry (hpoller : c.poller = []) (hbooks : Books c [s]) (h : c.retry s = some c') :
    Free c' := by
  obtain ⟨h₁, -, h₂, h₃, h₄, h₅⟩ := retry_spec h
  refine ⟨by simp [h₁], h₂.trans hpoller, ?_⟩
  have hclosed : Books (c.close s) [] := by simpa using hbooks.close (List.mem_singleton_self s)
  exact hclosed.congr h₃ h₄ h₅

/-- `removeAndResetChannel` of an attempt gives its socket, and leaves no channel registered. -/
lemma removeAndResetChannel_spec (hchannel : c.channel = some ⟨fd⟩) (hpoller : c.poller = [⟨fd⟩])
    (hbooks : Books c [fd]) :
    ∃ c', c.removeAndResetChannel = some (c', fd) ∧ c'.poller = [] ∧ Books c' [fd] := by
  refine ⟨{ c with poller := c.poller.filter (· ≠ Channel.mk fd) }.queueInLoop .resetChannel,
    ?_, ?_, ?_⟩
  · rw [removeAndResetChannel, hchannel]
    rfl
  · simp [queueInLoop, hpoller]
  · exact hbooks.congr rfl rfl rfl

/-- A free connector can make an attempt. -/
lemma connect_of_free (h : Free c) (hc : c.connect attempt = some c') : Wired c' := by
  obtain ⟨hstate, hpoller, hbooks⟩ := h
  rcases attempt with _ | savedErrno
  · obtain rfl := Option.some.inj hc
    exact .inl ⟨hstate, hpoller, hbooks⟩
  · unfold connect at hc
    rcases hbranch : branch savedErrno <;> simp only [hbranch] at hc
    · obtain rfl := Option.some.inj hc
      exact .inr ⟨c.created, rfl, rfl, by simp [connecting, hpoller],
        hbooks.create.congr rfl rfl rfl⟩
    · exact .inl (free_of_retry (by simpa using hpoller) hbooks.create hc)
    · obtain rfl := Option.some.inj hc
      exact .inl ⟨hstate, hpoller, hbooks.create_close⟩

/-- An attempt while the connector is connecting: no harm if it does not take over, and otherwise
there is a second socket, or `state_` does not say `kConnecting` any more. -/
lemma connect_of_busy (h : Busy c fd) (hc : c.connect attempt = some c') :
    (attempt.TakesOver → ¬ Owned c') ∧ (¬ attempt.TakesOver → Busy c' fd) := by
  obtain ⟨hstate, hchannel, hpoller, hbooks⟩ := h
  rcases attempt with _ | savedErrno
  · obtain rfl := Option.some.inj hc
    exact ⟨False.elim, fun _ => ⟨hstate, hchannel, hpoller, hbooks⟩⟩
  · unfold connect at hc
    rcases hbranch : branch savedErrno <;> simp only [hbranch] at hc <;>
      simp only [Attempt.TakesOver, hbranch, ne_eq, reduceCtorEq, not_true_eq_false,
        not_false_eq_true, true_implies, false_implies, true_and, and_true]
    · obtain rfl := Option.some.inj hc
      intro howned
      have hbooks' : Books (c.createNonblockingOrDie.connecting c.created) [fd, c.created] :=
        hbooks.create.congr rfl rfl rfl
      have := howned.one
      rw [hbooks'.outstanding_eq] at this
      simp at this
    · obtain ⟨h₁, h₂, h₃, h₄, h₅, h₆⟩ := retry_spec hc
      have hbooks' : Books c' [fd] := hbooks.create_close.congr h₄ h₅ h₆
      intro howned
      have := howned.state_eq (h₂.trans hchannel) (by simp [h₃, hpoller])
        (by simp [hbooks'.outstanding_eq])
      simp [h₁] at this
    · obtain rfl := Option.some.inj hc
      exact ⟨hstate, hchannel, hpoller, hbooks.create_close⟩

/-- `startInLoop` keeps the connector wired exactly when it does not take over while the connector
is connecting. -/
lemma startInLoop_of_wired (h : Wired c) (hc : c.startInLoop attempt = some c') :
    (c.StartsFree attempt → Wired c') ∧ (Owned c' → c.StartsFree attempt) := by
  unfold startInLoop at hc
  by_cases hconnect : c.connect_ = true
  · rw [if_pos hconnect] at hc
    rcases h with hfree | ⟨fd, hbusy⟩
    · exact ⟨fun _ => connect_of_free hfree hc, fun _ _ _ => hfree.state⟩
    · obtain ⟨h₁, h₂⟩ := connect_of_busy hbusy hc
      refine ⟨fun hstarts => ?_, fun howned _ htakes => absurd howned (h₁ htakes)⟩
      exact .inr ⟨fd, h₂ fun htakes => hstarts hconnect htakes hbusy.state⟩
  · rw [if_neg hconnect] at hc
    obtain rfl := Option.some.inj hc
    exact ⟨fun _ => h, fun _ hc => absurd hc hconnect⟩

/-- `stopInLoop` leaves no attempt, in either kind of states. -/
lemma stopInLoop_of_wired (h : Wired c) (hc : c.stopInLoop = some c') : Wired c' := by
  unfold stopInLoop at hc
  rcases h with hfree | ⟨fd, hbusy⟩
  · rw [if_neg hfree.state] at hc
    obtain rfl := Option.some.inj hc
    exact .inl hfree
  · rw [if_pos hbusy.state] at hc
    obtain ⟨c₁, hremove, hpoller, hbooks⟩ :=
      @removeAndResetChannel_spec { c with state := .kDisconnected } fd hbusy.channel hbusy.poller
        (hbusy.books.congr rfl rfl rfl)
    rw [hremove] at hc
    exact .inl (free_of_retry hpoller hbooks hc)

/-- `handleError` ends an attempt. -/
lemma handleError_of_wired (h : Wired c) (hc : c.handleError = some c') : Wired c' := by
  unfold handleError at hc
  rcases h with hfree | ⟨fd, hbusy⟩
  · rw [if_neg hfree.state] at hc
    obtain rfl := Option.some.inj hc
    exact .inl hfree
  · rw [if_pos hbusy.state] at hc
    obtain ⟨c₁, hremove, hpoller, hbooks⟩ :=
      removeAndResetChannel_spec hbusy.channel hbusy.poller hbusy.books
    rw [hremove] at hc
    exact .inl (free_of_retry hpoller hbooks hc)

/-- `handleWrite` ends an attempt: its socket is closed or handed over. -/
lemma handleWrite_of_wired {err selfConnect : Bool} (h : Wired c)
    (hc : c.handleWrite err selfConnect = some c') : Wired c' := by
  unfold handleWrite at hc
  rcases h with hfree | ⟨fd, hbusy⟩
  · rw [if_neg hfree.state] at hc
    obtain rfl := Option.some.inj hc
    exact .inl hfree
  · rw [if_pos hbusy.state] at hc
    obtain ⟨c₁, hremove, hpoller, hbooks⟩ :=
      removeAndResetChannel_spec hbusy.channel hbusy.poller hbusy.books
    simp only [hremove, Option.bind_some] at hc
    left
    have hfd : fd ∈ [fd] := List.mem_singleton_self fd
    split at hc
    · exact free_of_retry hpoller hbooks hc
    · split at hc
      · exact free_of_retry hpoller hbooks hc
      · split at hc
        · obtain rfl := Option.some.inj hc
          have hhanded : Books { c₁ with handed := c₁.handed ++ [fd] } [] := by
            simpa using hbooks.handOver hfd
          exact ⟨by simp, hpoller, hhanded.congr rfl rfl rfl⟩
        · obtain rfl := Option.some.inj hc
          have hclosed : Books (c₁.close fd) [] := by simpa using hbooks.close hfd
          exact ⟨by simp [close], hpoller, hclosed.congr rfl rfl rfl⟩

/-- `resetChannel` keeps the connector wired exactly when it is not connecting. -/
lemma resetChannel_of_wired (h : Wired c) :
    (c.state ≠ .kConnecting → Wired c.resetChannel) ∧
      (Owned c.resetChannel → c.state ≠ .kConnecting) := by
  constructor
  · intro hstate
    rcases h with hfree | ⟨fd, hbusy⟩
    · exact .inl ⟨hfree.state, hfree.poller, hfree.books.congr rfl rfl rfl⟩
    · exact absurd hbusy.state hstate
  · intro howned hstate
    obtain ⟨s, -, hchannel, -⟩ := howned.connecting.mp hstate
    cases hchannel

/-- What `restart` does keeps the connector wired exactly when it is not connecting. -/
lemma restart_of_wired (h : Wired c) (hsame : SameSockets { c with state := .kDisconnected } c') :
    (c.state ≠ .kConnecting → Wired c') ∧ (Owned c' → c.state ≠ .kConnecting) := by
  obtain ⟨hstate, hchannel, hpoller, hcreated, hclosed, hhanded⟩ := hsame
  rcases h with hfree | ⟨fd, hbusy⟩
  · have hfree' : Free c' := ⟨by simp [hstate], hpoller.trans hfree.poller,
      hfree.books.congr hcreated hclosed hhanded⟩
    exact ⟨fun _ => .inl hfree', fun _ => hfree.state⟩
  · refine ⟨fun hne => absurd hbusy.state hne, fun howned => ?_⟩
    -- the channel still waits for the socket
    have hbooks : Books c' [fd] := hbusy.books.congr hcreated hclosed hhanded
    have := howned.state_eq (hchannel.trans hbusy.channel) (by simp [hpoller, hbusy.poller])
      (by simp [hbooks.outstanding_eq])
    simp [hstate] at this

/-! ## Every step -/

/-- What a step does to a wired connector: it keeps it wired if it is undisturbed, and the
sockets are no longer owned if it is not. -/
lemma Step.wired (h : Wired c) (hc : Step c event c') :
    (Undisturbed c event → Wired c') ∧ (Owned c' → Undisturbed c event) := by
  cases event with
  | call call =>
      obtain rfl := Option.some.inj hc
      exact ⟨fun _ => h.congr ⟨rfl, rfl, rfl, rfl, rfl, rfl⟩, fun _ => trivial⟩
  | enqueue i =>
      obtain ⟨call, -, rfl⟩ := Option.map_eq_some_iff.mp hc
      exact ⟨fun _ => h.congr ⟨rfl, rfl, rfl, rfl, rfl, rfl⟩, fun _ => trivial⟩
  | callInLoop call =>
      simp only [Step, step] at hc
      split at hc
      · obtain rfl := Option.some.inj hc
        exact ⟨fun _ => h.congr ⟨rfl, rfl, rfl, rfl, rfl, rfl⟩, fun _ => trivial⟩
      · cases hc
  | restart =>
      simp only [Step, step] at hc
      split at hc
      · obtain rfl := Option.some.inj hc
        exact restart_of_wired h ⟨rfl, rfl, rfl, rfl, rfl, rfl⟩
      · cases hc
  | goOn attempt =>
      simp only [Step, step] at hc
      rcases hp : c.point <;> simp only [hp, reduceCtorEq] at hc
      · have hsame : SameSockets c { c with point := .idle } := ⟨rfl, rfl, rfl, rfl, rfl, rfl⟩
        obtain ⟨h₁, h₂⟩ := startInLoop_of_wired (h.congr hsame) hc
        exact ⟨fun hg => h₁ (hg hp), fun howned _ => h₂ howned⟩
      · obtain rfl := Option.some.inj hc
        exact ⟨fun _ => h.congr ⟨rfl, rfl, rfl, rfl, rfl, rfl⟩,
          fun _ hstarting => by simp [hp] at hstarting⟩
  | functor attempt =>
      simp only [Step, step] at hc
      rcases hp : c.point <;> simp only [hp, reduceCtorEq] at hc
      rcases hf : c.pendingFunctors with _ | ⟨functor, functors⟩ <;>
        simp only [hf, reduceCtorEq] at hc
      have hsame : SameSockets c { c with point := .idle, pendingFunctors := functors } :=
        ⟨rfl, rfl, rfl, rfl, rfl, rfl⟩
      have hw := h.congr hsame
      cases functor with
      | startInLoop =>
          obtain ⟨h₁, h₂⟩ := startInLoop_of_wired hw hc
          exact ⟨fun hg => h₁ (hg.1 (by rw [hf]; rfl)),
            fun howned => ⟨fun _ => h₂ howned, fun hhead => by simp [hf] at hhead⟩⟩
      | stopInLoop =>
          exact ⟨fun _ => stopInLoop_of_wired hw hc,
            fun _ => ⟨fun hhead => by simp [hf] at hhead, fun hhead => by simp [hf] at hhead⟩⟩
      | resetChannel =>
          obtain rfl := Option.some.inj hc
          obtain ⟨h₁, h₂⟩ := resetChannel_of_wired hw
          exact ⟨fun hg => h₁ (hg.2 (by rw [hf]; rfl)),
            fun howned => ⟨fun hhead => by simp [hf] at hhead, fun _ => h₂ howned⟩⟩
  | timer i attempt =>
      simp only [Step, step] at hc
      split at hc
      · have hsame : SameSockets c { c with timers := c.timers.eraseIdx i } :=
          ⟨rfl, rfl, rfl, rfl, rfl, rfl⟩
        have hstart := startInLoop_of_wired (h.congr hsame) hc
        exact hstart
      · cases hc
  | write err selfConnect =>
      simp only [Step, step] at hc
      split at hc
      · exact ⟨fun _ => handleWrite_of_wired h hc, fun _ => trivial⟩
      · cases hc
  | error =>
      simp only [Step, step] at hc
      split at hc
      · exact ⟨fun _ => handleError_of_wired h hc, fun _ => trivial⟩
      · cases hc

/-- **When the connector owns its sockets.** Over every run of a connector, in every order of the
calls of all threads, events, timers and functors, and with every answer of the system: in all
states at most one socket is outstanding, every other was closed or handed over once, `state_` is
`kConnecting` exactly when `channel_` is the registered channel of the outstanding socket, and no
registered channel was reset or replaced, exactly when no attempt takes over, no `restart` is
called and no `resetChannel` runs while the connector is connecting. -/
theorem owned_iff_undisturbed (timerQueue : Bool) (run : List (Event × Connector))
    (hrun : Path Step { timerQueue := timerQueue } run) :
    Throughout Owned { timerQueue := timerQueue } run ↔
      MeetsAll Undisturbed { timerQueue := timerQueue } run :=
  hrun.throughout_iff_meetsAll_of_invariant (fun _ h => h.owned)
    (fun _ _ _ h hc => (hc.wired h).1) (fun _ _ _ h hc => (hc.wired h).2)
    (.inl ⟨by simp, rfl, rfl, by simp, .nil⟩)

/-- A refused attempt, the timer that starts the next one, a connection handed over, and another
after it: the sockets are owned throughout. -/
theorem owned_two_connections :
    Throughout Owned { timerQueue := true } (Paths.trace step { timerQueue := true }
      [.call .start, .enqueue 0, .functor (.socket (some .ECONNREFUSED)),
        .timer 0 (.socket (some .EINPROGRESS)), .write false false, .functor .noSocket, .restart,
        .goOn (.socket (some .EINPROGRESS)), .write false false]) :=
  (owned_iff_undisturbed true _ (Paths.path_trace step _ _)).mpr (by decide)

/-- Two calls of `start` make two sockets, of which the first is never closed. A call of `start`
in the callback for the new connection makes a channel that the `resetChannel` of the first
attempt destroys while it is registered. -/
theorem not_owned_after_start_twice :
    (¬ Throughout Owned {} (Paths.trace step {}
      [.call .start, .enqueue 0, .call .start, .enqueue 0,
        .functor (.socket (some .EINPROGRESS)), .functor (.socket (some .EINPROGRESS))])) ∧
    ¬ Throughout Owned {} (Paths.trace step {}
      [.callInLoop .start, .goOn (.socket (some .EINPROGRESS)), .write false false,
        .callInLoop .start, .goOn (.socket (some .EINPROGRESS)), .functor .noSocket]) :=
  ⟨by decide, by decide⟩

end Connector

end SwiftNetCore
