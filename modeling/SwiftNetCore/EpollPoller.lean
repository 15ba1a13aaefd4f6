import SwiftNetCore.Base
import SwiftNetCore.Lib.Cells
import SwiftNetCore.Lib.Path

/-!
# `EpollPoller`: three records of one fact

Which channels are polled is written down three times: in the epoll instance, in the `index_` of
each channel and in `channels_`. `updateChannel` and `removeChannel` keep them in step. The epoll
instance is a map from descriptors to masks and pointers, of which `ADD` needs an absent entry and
`MOD` and `DEL` one that is there.

* `updateChannel`, `removeChannel`, `update`: the functions of the source; `Interest`: the five
  functions of `Channel` that lead to `updateChannel`.
* `Mirrors`: no call of `epoll_ctl` has failed, and the three records agree.
* `Kept`: what all steps keep besides. `Kept.of_replaced`: a step that replaces one channel and its
  entries keeps it.
* `mirrors_iff`: over every run, `Mirrors` holds in every state exactly when no channel is removed
  while another one stands under its descriptor. `removeChannel` erases what is there, where
  `Poller::hasChannel` looks whether it is the channel that is meant.
-/

namespace SwiftNetCore

open Cells (getElem?_concat_iff getElem?_set_iff)
open Paths (Path Throughout MeetsAll trace path_trace)

/-! ## Channels -/

/-- Where a channel stands with the poller. Source: EpollPoller.cpp 9-14 -/
inductive ChannelIndex where
  | kNew
  | kAdded
  | kDeleted
  deriving DecidableEq, Repr

/-- `Channel`, as far as the poller uses it. Source: Channel.h 87-90, Channel.cpp 12-15 -/
structure PolledChannel where
  /-- `fd_` -/
  fd : ℕ
  /-- `events_` -/
  events : BitVec 32 := 0
  /-- `index_` -/
  index : ChannelIndex := .kNew
  /-- whether `remove()` was called, with no other call behind it -/
  removed : Bool := false
  deriving DecidableEq, Repr

namespace PolledChannel

/-- `kNoneEvent`. Source: Channel.cpp 7 -/
def kNoneEvent : BitVec 32 := 0

/-- `kReadEvent`, which is `EPOLLIN || EPOLLPRI`: the value of a condition. Source: Channel.cpp 8 -/
def kReadEvent : BitVec 32 := 1

/-- `kWriteEvent`, which is `EPOLLOUT`. Source: Channel.cpp 9 -/
def kWriteEvent : BitVec 32 := 4

/-- `isNoneEvent()`. Source: Channel.h 68 -/
def isNoneEvent (c : PolledChannel) : Prop := c.events = kNoneEvent

instance : DecidablePred isNoneEvent := fun _ => inferInstanceAs (Decidable (_ = _))

end PolledChannel

/-- The functions of `Channel` that change `events_` and call `update()`. -/
inductive Interest where
  | enableReading
  | disableReading
  | enableWriting
  | disableWriting
  | disableAll
  deriving DecidableEq, Repr

/-- `events_` behind the call. Source: Channel.h 41-65 -/
def Interest.apply (events : BitVec 32) : Interest → BitVec 32
  | enableReading => events ||| PolledChannel.kReadEvent
  | disableReading => events &&& ~~~PolledChannel.kReadEvent
  | enableWriting => events ||| PolledChannel.kWriteEvent
  | disableWriting => events &&& ~~~PolledChannel.kWriteEvent
  | disableAll => PolledChannel.kNoneEvent

/-! ## The epoll instance -/

/-- The operations of `epoll_ctl`. -/
inductive EpollOp where
  | EPOLL_CTL_ADD
  | EPOLL_CTL_MOD
  | EPOLL_CTL_DEL
  deriving DecidableEq, Repr

/-- What the kernel keeps for each descriptor: a mask and a pointer, the number of a channel. -/
abbrev Interests := ℕ → Option (BitVec 32 × ℕ)

/-- `epoll_ctl`; `none` is an error. -/
def epoll_ctl (op : EpollOp) (fd : ℕ) (event : BitVec 32 × ℕ) (kernel : Interests) :
    Option Interests :=
  match op, kernel fd with
  | .EPOLL_CTL_ADD, none => some (Function.update kernel fd (some event))
  | .EPOLL_CTL_MOD, some _ => some (Function.update kernel fd (some event))
  | .EPOLL_CTL_DEL, some _ => some (Function.update kernel fd none)
  | _, _ => none

/-! ## The poller -/

/-- The poller of a loop with all channels there have been, by their number. -/
structure EpollPoller where
  /-- the channels -/
  channels : List PolledChannel := []
  /-- `channels_`: the channel that stands under a descriptor -/
  channelMap : ℕ → Option ℕ := fun _ => none
  /-- the epoll instance -/
  kernel : Interests := fun _ => none
  /-- whether a call of `epoll_ctl` has failed -/
  failed : Bool := false
  /-- whether `LOG_FATAL` has ended the process -/
  exited : Bool := false

/-- What happens to a poller. -/
inductive PollerEvent where
  /-- a new channel for the descriptor -/
  | create (fd : ℕ)
  /-- `enableReading()` and so on, of a channel -/
  | update (k : ℕ) (interest : Interest)
  /-- `remove()` of a channel -/
  | remove (k : ℕ)
  deriving DecidableEq, Repr

namespace EpollPoller

variable (s : EpollPoller)

/-- The channel with number `k` becomes `c`. -/
def setChannel (k : ℕ) (c : PolledChannel) : EpollPoller :=
  { s with channels := s.channels.set k c }

/-- `update(operation, channel)`: an error of `ADD` or `MOD` ends the process.
Source: EpollPoller.cpp 125-146 -/
def update (op : EpollOp) (k : ℕ) (c : PolledChannel) : EpollPoller :=
  match epoll_ctl op c.fd (c.events, k) s.kernel with
  | some kernel => { s with kernel := kernel }
  | none => { s with failed := true, exited := s.exited || op != .EPOLL_CTL_DEL }

/-- `updateChannel(channel)`. Source: EpollPoller.cpp 68-96 -/
def updateChannel (k : ℕ) (c : PolledChannel) : EpollPoller :=
  if c.index = .kNew ∨ c.index = .kDeleted then
    let s := if c.index = .kNew then
      { s with channelMap := Function.update s.channelMap c.fd (some k) } else s
    (s.setChannel k { c with index := .kAdded }).update .EPOLL_CTL_ADD k c
  else if c.isNoneEvent then
    (s.update .EPOLL_CTL_DEL k c).setChannel k { c with index := .kDeleted }
  else s.update .EPOLL_CTL_MOD k c

/-- `removeChannel(channel)`. Source: EpollPoller.cpp 99-112 -/
def removeChannel (k : ℕ) (c : PolledChannel) : EpollPoller :=
  let s := { s with channelMap := Function.update s.channelMap c.fd none }
  let s := if c.index = .kAdded then s.update .EPOLL_CTL_DEL k c else s
  s.setChannel k { c with index := .kNew }

/-- All channels for the descriptor, but possibly the one with number `k`, have been removed. -/
def OthersRemoved (fd k : ℕ) : Prop :=
  ∀ j < s.channels.length, j ≠ k → ∀ c ∈ s.channels[j]?, c.fd = fd → c.removed = true

instance (fd k : ℕ) : Decidable (s.OthersRemoved fd k) :=
  inferInstanceAs (Decidable (∀ j < s.channels.length, _))

/-- One step. A channel is created for a descriptor, or updated, only while no other channel of
that descriptor is there that has not been removed. -/
def step : PollerEvent → Option EpollPoller
  | .create fd =>
    if s.exited = false ∧ s.OthersRemoved fd s.channels.length then
      some { s with channels := s.channels ++ [{ fd := fd }] }
    else none
  | .update k interest =>
    match s.channels[k]? with
    | some c =>
      if s.exited = false ∧ s.OthersRemoved c.fd k then
        let c := { c with events := interest.apply c.events, removed := false }
        some ((s.setChannel k c).updateChannel k c)
      else none
    | none => none
  | .remove k =>
    match s.channels[k]? with
    | some c =>
      if s.exited = false then
        let c := { c with removed := true }
        some ((s.setChannel k c).removeChannel k c)
      else none
    | none => none

/-- The steps, as a relation. -/
def Step (event : PollerEvent) (t : EpollPoller) : Prop := s.step event = some t

/-! ## The property -/

/-- The records agree. -/
structure Mirrors : Prop where
  /-- no call of `epoll_ctl` has failed -/
  failed : s.failed = false
  /-- the process runs -/
  exited : s.exited = false
  /-- the kernel has exactly the channels with index `kAdded`, with their events -/
  kernel : ∀ fd mask k, s.kernel fd = some (mask, k) ↔
    ∃ c, s.channels[k]? = some c ∧ c.fd = fd ∧ c.index = .kAdded ∧ c.events = mask
  /-- `channels_` has exactly the channels with another index than `kNew` -/
  channelMap : ∀ fd k, s.channelMap fd = some k ↔
    ∃ c, s.channels[k]? = some c ∧ c.fd = fd ∧ c.index ≠ .kNew
  /-- no entry of the kernel refers to a channel that was removed -/
  removed : ∀ k c, s.channels[k]? = some c → c.removed = true →
    ∀ fd mask, s.kernel fd ≠ some (mask, k)

/-- The condition: a channel is removed only when no other one stands under its descriptor. -/
def RemovesOwn : PollerEvent → Prop
  | .remove k => ∀ c ∈ s.channels[k]?, ∀ j ∈ s.channelMap c.fd, j = k
  | _ => True

instance : DecidablePred s.RemovesOwn
  | .remove k => inferInstanceAs (Decidable (∀ c ∈ s.channels[k]?, _))
  | .create _ | .update _ _ => inferInstanceAs (Decidable True)

/-! ## What is kept besides -/

variable {s}

/-- What all states of a run have as long as the property holds. -/
structure Kept (s : EpollPoller) : Prop extends s.Mirrors where
  /-- a channel that was removed is new again -/
  new_of_removed : ∀ (k : ℕ) (c : PolledChannel), s.channels[k]? = some c → c.removed = true →
    c.index = .kNew
  /-- at most one channel of a descriptor has not been removed -/
  unique : ∀ (j k : ℕ) (c d : PolledChannel), s.channels[j]? = some c →
    s.channels[k]? = some d → c.fd = d.fd → c.removed = false → d.removed = false → j = k

/-- A poller without channels satisfies the invariant. -/
lemma kept_empty : Kept {} where
  failed := rfl
  exited := rfl
  kernel := by simp
  channelMap := by simp
  removed := by simp
  new_of_removed := by simp
  unique := by simp

section replaced

variable {k : ℕ} {c : PolledChannel} (hk : s.channels[k]? = some c)
  (hothers : ∀ j d, j ≠ k → s.channels[j]? = some d → d.fd = c.fd → d.index = .kNew)

include hk hothers

/-- The kernel's entry under the descriptor is that of the channel. -/
lemma Mirrors.kernel_eq (h : s.Mirrors) :
    s.kernel c.fd = if c.index = .kAdded then some (c.events, k) else none := by
  split_ifs with hadded
  · exact (h.kernel c.fd c.events k).mpr ⟨c, hk, rfl, hadded, rfl⟩
  · rcases hentry : s.kernel c.fd with _ | ⟨mask, j⟩
    · rfl
    · exfalso
      obtain ⟨d, hd, hfd, hindex, -⟩ := (h.kernel c.fd mask j).mp hentry
      by_cases hj : j = k
      · subst hj
        exact hadded (Option.some.inj (hk.symm.trans hd) ▸ hindex)
      · rw [hothers j d hj hd hfd] at hindex
        exact absurd hindex nofun

/-- What stands under the descriptor is the channel. -/
lemma Mirrors.channelMap_eq (h : s.Mirrors) :
    s.channelMap c.fd = if c.index = .kNew then none else some k := by
  split_ifs with hnew
  · rcases hentry : s.channelMap c.fd with _ | j
    · rfl
    · exfalso
      obtain ⟨d, hd, hfd, hindex⟩ := (h.channelMap c.fd j).mp hentry
      by_cases hj : j = k
      · subst hj
        exact hindex (Option.some.inj (hk.symm.trans hd) ▸ hnew)
      · exact hindex (hothers j d hj hd hfd)
  · exact (h.channelMap c.fd k).mpr ⟨c, hk, rfl, hnew⟩

/-- The registered channels of a descriptor when the channel becomes `c'`. -/
lemma exists_replaced_iff {c' : PolledChannel} (hfd : c'.fd = c.fd) {Q : PolledChannel → Prop}
    (hQ : ∀ d, Q d → d.index ≠ .kNew) (fd j : ℕ) :
    (∃ d, (s.channels.set k c')[j]? = some d ∧ d.fd = fd ∧ Q d) ↔
      if fd = c.fd then j = k ∧ Q c'
      else ∃ d, s.channels[j]? = some d ∧ d.fd = fd ∧ Q d := by
  simp only [getElem?_set_iff hk]
  split_ifs with heq
  · constructor
    · rintro ⟨d, ⟨hj, hd⟩ | ⟨hj, rfl⟩, hdfd, hq⟩
      · -- the others of the descriptor are not registered
        exact absurd (hothers j d hj hd (hdfd.trans heq)) (hQ d hq)
      · exact ⟨hj, hq⟩
    · rintro ⟨hj, hq⟩
      exact ⟨c', .inr ⟨hj, rfl⟩, hfd.trans heq.symm, hq⟩
  · -- neither the old channel nor the new one has this descriptor
    constructor
    · rintro ⟨d, ⟨-, hd⟩ | ⟨-, rfl⟩, hdfd, hq⟩
      · exact ⟨d, hd, hdfd, hq⟩
      · exact absurd (hdfd.symm.trans hfd) heq
    · rintro ⟨d, hd, hdfd, hq⟩
      refine ⟨d, .inl ⟨?_, hd⟩, hdfd, hq⟩
      rintro rfl
      rw [Option.some.inj (hk.symm.trans hd)] at heq
      exact heq hdfd.symm

/-- **A step that replaces one channel** and its two entries keeps everything. -/
lemma Kept.of_replaced (h : s.Kept) (c' : PolledChannel) (hfd : c'.fd = c.fd)
    (hnew : c'.removed = true → c'.index = .kNew)
    (hunique : c'.removed = true ∨ s.OthersRemoved c.fd k) {t : EpollPoller}
    (ht : t = { s with
      channels := s.channels.set k c'
      channelMap := Function.update s.channelMap c.fd (if c'.index = .kNew then none else some k)
      kernel := Function.update s.kernel c.fd
        (if c'.index = .kAdded then some (c'.events, k) else none) }) : t.Kept := by
  subst ht
  have hkernel : ∀ fd mask j, Function.update s.kernel c.fd
      (if c'.index = .kAdded then some (c'.events, k) else none) fd = some (mask, j) ↔
      ∃ d, (s.channels.set k c')[j]? = some d ∧ d.fd = fd ∧ d.index = .kAdded ∧
        d.events = mask := by
    intro fd mask j
    rw [exists_replaced_iff (Q := fun d => d.index = .kAdded ∧ d.events = mask) hk hothers hfd
      (fun d hd => by simp [hd.1])]
    by_cases heq : fd = c.fd
    · subst heq
      rw [Function.update_self, if_pos rfl]
      split_ifs with hadded
      · simp [hadded, eq_comm, and_comm]
      · simp [hadded]
    · rw [Function.update_of_ne heq, if_neg heq]
      exact h.kernel fd mask j
  have hnewOf : ∀ (j : ℕ) (d : PolledChannel), (s.channels.set k c')[j]? = some d →
      d.removed = true → d.index = .kNew := by
    intro j d hd hremoved
    rcases (getElem?_set_iff hk).mp hd with ⟨-, hd⟩ | ⟨-, rfl⟩
    · exact h.new_of_removed j d hd hremoved
    · exact hnew hremoved
  refine ⟨⟨h.failed, h.exited, hkernel, ?_, ?_⟩, hnewOf, ?_⟩
  · intro fd j
    rw [exists_replaced_iff (Q := fun d => d.index ≠ .kNew) hk hothers hfd fun d hd => hd]
    by_cases heq : fd = c.fd
    · subst heq
      simp only [Function.update_self, if_true]
      split_ifs with hnew'
      · simp [hnew']
      · simp [hnew', eq_comm]
    · simp only [Function.update_of_ne heq, if_neg heq]
      exact h.channelMap fd j
  · intro j d hd hremoved fd mask hentry
    obtain ⟨d', hd', -, hadded, -⟩ := (hkernel fd mask j).mp hentry
    obtain rfl := Option.some.inj (hd.symm.trans hd')
    rw [hnewOf j d hd hremoved] at hadded
    exact absurd hadded nofun
  · -- a channel that is not removed has only removed ones beside it
    have hbeside : ∀ (j : ℕ) (d : PolledChannel), j ≠ k → s.channels[j]? = some d →
        d.fd = c.fd → c'.removed = false → d.removed = true := by
      intro j d hj hd hdfd hc'
      rcases hunique with hremoved | hremoved
      · exact absurd (hremoved.symm.trans hc') nofun
      · exact hremoved j (List.getElem?_eq_some_iff.mp hd).1 hj d hd hdfd
    intro i j d e hd he hde hdr her
    rcases (getElem?_set_iff hk).mp hd with ⟨hi, hid⟩ | ⟨hi, rfl⟩ <;>
      rcases (getElem?_set_iff hk).mp he with ⟨hj, hje⟩ | ⟨hj, rfl⟩
    · exact h.unique i j d e hid hje hde hdr her
    · rw [hbeside i d hi hid (hde.trans hfd) her] at hdr
      exact absurd hdr nofun
    · rw [hbeside j e hj hje (hde.symm.trans hfd) hdr] at her
      exact absurd her nofun
    · rw [hi, hj]

end replaced

/-! ## What the two functions do -/

section functions

variable {k : ℕ} {c : PolledChannel}

/-- `ADD` of an absent descriptor succeeds. -/
lemma update_add (h : s.kernel c.fd = none) :
    s.update .EPOLL_CTL_ADD k c =
      { s with kernel := Function.update s.kernel c.fd (some (c.events, k)) } := by
  simp [update, epoll_ctl, h]

/-- `MOD` of a descriptor that is there succeeds. -/
lemma update_mod (h : s.kernel c.fd ≠ none) :
    s.update .EPOLL_CTL_MOD k c =
      { s with kernel := Function.update s.kernel c.fd (some (c.events, k)) } := by
  obtain ⟨entry, h⟩ := Option.ne_none_iff_exists'.mp h
  simp [update, epoll_ctl, h]

/-- `DEL` of a descriptor that is there succeeds. -/
lemma update_del (h : s.kernel c.fd ≠ none) :
    s.update .EPOLL_CTL_DEL k c = { s with kernel := Function.update s.kernel c.fd none } := by
  obtain ⟨entry, h⟩ := Option.ne_none_iff_exists'.mp h
  simp [update, epoll_ctl, h]

/-- Whatever `epoll_ctl` returns, `update` changes no channel and not `channels_`. -/
lemma update_frame (op : EpollOp) :
    (s.update op k c).channels = s.channels ∧ (s.update op k c).channelMap = s.channelMap := by
  unfold update
  split <;> exact ⟨rfl, rfl⟩

/-- Whatever `epoll_ctl` returns, `removeChannel` marks its channel new and takes it out of
`channels_`. -/
lemma removeChannel_frame :
    (s.removeChannel k c).channels = s.channels.set k { c with index := .kNew } ∧
      (s.removeChannel k c).channelMap = Function.update s.channelMap c.fd none := by
  unfold removeChannel
  simp only [setChannel]
  split
  · rw [(update_frame _).1, (update_frame _).2]
    exact ⟨rfl, rfl⟩
  · exact ⟨rfl, rfl⟩

/-- The index that `updateChannel` leaves. -/
def indexAfter (c : PolledChannel) : ChannelIndex :=
  if c.index = .kAdded ∧ c.isNoneEvent then .kDeleted else .kAdded

/-- **`updateChannel`**, where the records agree about the channel, has no error, and all three are
about its new index. -/
lemma updateChannel_eq (hkernel : s.kernel c.fd ≠ none ↔ c.index = .kAdded)
    (hmap : c.index ≠ .kNew → s.channelMap c.fd = some k) :
    (s.setChannel k c).updateChannel k c = { s with
      channels := s.channels.set k { c with index := indexAfter c }
      channelMap := Function.update s.channelMap c.fd (some k)
      kernel := Function.update s.kernel c.fd
        (if indexAfter c = .kAdded then some (c.events, k) else none) } := by
  have hkeep : c.index ≠ .kNew → Function.update s.channelMap c.fd (some k) = s.channelMap := by
    intro hnew
    rw [← hmap hnew, Function.update_eq_self]
  rcases hindex : c.index with _ | _ | _
  · have habsent : s.kernel c.fd = none := by
      by_contra h
      exact absurd (hindex.symm.trans (hkernel.mp h)) nofun
    simp [updateChannel, indexAfter, hindex, setChannel, update_add, habsent]
  · have hpresent : s.kernel c.fd ≠ none := hkernel.mpr hindex
    rw [hkeep (by simp [hindex])]
    by_cases hnone : c.isNoneEvent
    · simp [updateChannel, indexAfter, hindex, hnone, setChannel, update_del, hpresent]
    · have hc : { c with index := .kAdded } = c := by rw [← hindex]
      simp [updateChannel, indexAfter, hindex, hnone, setChannel, update_mod, hpresent, hc]
  · have habsent : s.kernel c.fd = none := by
      by_contra h
      exact absurd (hindex.symm.trans (hkernel.mp h)) nofun
    rw [hkeep (by simp [hindex])]
    simp [updateChannel, indexAfter, hindex, setChannel, update_add, habsent]

/-- **`removeChannel`**, where the records agree about the channel, has no error, and all three are
rid of it. -/
lemma removeChannel_eq (hkernel : s.kernel c.fd ≠ none ↔ c.index = .kAdded) :
    (s.setChannel k c).removeChannel k c = { s with
      channels := s.channels.set k { c with index := .kNew }
      channelMap := Function.update s.channelMap c.fd none
      kernel := Function.update s.kernel c.fd none } := by
  by_cases hindex : c.index = .kAdded
  · simp [removeChannel, hindex, setChannel, update_del, hkernel.mpr hindex]
  · have habsent : s.kernel c.fd = none := not_not.mp (mt hkernel.mp hindex)
    have hkeep : Function.update s.kernel c.fd none = s.kernel := by
      rw [← habsent, Function.update_eq_self]
    simp [removeChannel, hindex, setChannel, hkeep]

end functions

/-! ## Steps -/

/-- The others of a descriptor are new, where at most they have been removed. -/
lemma Kept.others_new (h : s.Kept) {fd k : ℕ} (ho : s.OthersRemoved fd k) :
    ∀ j d, j ≠ k → s.channels[j]? = some d → d.fd = fd → d.index = .kNew := by
  intro j d hj hd hfd
  exact h.new_of_removed j d hd (ho j (List.getElem?_eq_some_iff.mp hd).1 hj d hd hfd)

/-- A new channel keeps the invariant when the others of its descriptor were removed. -/
lemma Kept.create (h : s.Kept) {fd : ℕ} (ho : s.OthersRemoved fd s.channels.length) :
    Kept { s with channels := s.channels ++ [{ fd := fd }] } := by
  -- the new channel is in none of the records
  have hsame : ∀ (j : ℕ) (Q : PolledChannel → Prop), (∀ d, Q d → d.index ≠ .kNew) →
      ((∃ d, (s.channels ++ [{ fd := fd }])[j]? = some d ∧ Q d) ↔
        ∃ d, s.channels[j]? = some d ∧ Q d) := by
    intro j Q hQ
    constructor
    · rintro ⟨d, hd, hq⟩
      rcases getElem?_concat_iff.mp hd with hd | ⟨-, rfl⟩
      · exact ⟨d, hd, hq⟩
      · exact absurd rfl (hQ _ hq)
    · rintro ⟨d, hd, hq⟩
      exact ⟨d, getElem?_concat_iff.mpr (.inl hd), hq⟩
  refine ⟨⟨h.failed, h.exited, ?_, ?_, ?_⟩, ?_, ?_⟩
  · intro fd' mask j
    rw [hsame j (fun d => d.fd = fd' ∧ d.index = .kAdded ∧ d.events = mask)
      (fun d hd => by simp [hd.2.1])]
    exact h.kernel fd' mask j
  · intro fd' j
    rw [hsame j (fun d => d.fd = fd' ∧ d.index ≠ .kNew) (fun d hd => hd.2)]
    exact h.channelMap fd' j
  · intro j d hd hremoved
    rcases getElem?_concat_iff.mp hd with hd | ⟨-, rfl⟩
    · exact h.removed j d hd hremoved
    · exact absurd hremoved nofun
  · intro j d hd hremoved
    rcases getElem?_concat_iff.mp hd with hd | ⟨-, rfl⟩
    · exact h.new_of_removed j d hd hremoved
    · rfl
  · have hbeside : ∀ (j : ℕ) (d : PolledChannel), s.channels[j]? = some d → d.fd = fd →
        d.removed = true := by
      intro j d hd hfd
      have hj := (List.getElem?_eq_some_iff.mp hd).1
      exact ho j hj hj.ne d hd hfd
    intro i j d e hd he hde hdr her
    rcases getElem?_concat_iff.mp hd with hd | ⟨hi, rfl⟩ <;>
      rcases getElem?_concat_iff.mp he with he | ⟨hj, rfl⟩
    · exact h.unique i j d e hd he hde hdr her
    · rw [hbeside i d hd hde] at hdr
      exact absurd hdr nofun
    · rw [hbeside j e he hde.symm] at her
      exact absurd her nofun
    · rw [hi, hj]

/-- A change of `events_` keeps the invariant when the others of the descriptor were removed. -/
lemma Kept.update (h : s.Kept) {k : ℕ} {c : PolledChannel} (hk : s.channels[k]? = some c)
    (ho : s.OthersRemoved c.fd k) (events : BitVec 32) :
    let c' := { c with events := events, removed := false }
    ((s.setChannel k c').updateChannel k c').Kept := by
  intro c'
  have hothers := h.others_new ho
  have hkernel := h.kernel_eq hk hothers
  have hmap := h.channelMap_eq hk hothers
  have hpresent : s.kernel c'.fd ≠ none ↔ c'.index = .kAdded := by
    simp [c', hkernel]
  have hstands : c'.index ≠ .kNew → s.channelMap c'.fd = some k :=
    fun hnew => hmap.trans (if_neg hnew)
  have hnew : indexAfter c' ≠ .kNew := by
    unfold indexAfter
    split <;> nofun
  apply h.of_replaced hk hothers { c' with index := indexAfter c' } rfl nofun (.inr ho)
  rw [updateChannel_eq hpresent hstands]
  simp [hnew, c']

/-- A removal of a channel that stands under its descriptor alone keeps the invariant. -/
lemma Kept.remove (h : s.Kept) {k : ℕ} {c : PolledChannel} (hk : s.channels[k]? = some c)
    (hown : ∀ j ∈ s.channelMap c.fd, j = k) :
    let c' := { c with removed := true }
    ((s.setChannel k c').removeChannel k c').Kept := by
  intro c'
  have hothers : ∀ j d, j ≠ k → s.channels[j]? = some d → d.fd = c.fd → d.index = .kNew := by
    intro j d hj hd hfd
    by_contra hindex
    exact hj (hown j ((h.channelMap c.fd j).mpr ⟨d, hd, hfd, hindex⟩))
  have hkernel := h.kernel_eq hk hothers
  have hpresent : s.kernel c'.fd ≠ none ↔ c'.index = .kAdded := by
    simp [c', hkernel]
  apply h.of_replaced hk hothers { c' with index := .kNew } rfl (fun _ => rfl) (.inl rfl)
  rw [removeChannel_eq hpresent]
  simp [c']

/-- **A removal of a channel while another one stands under its descriptor** leaves that one
polled, and in no entry of `channels_`. -/
lemma Mirrors.removesOwn (h : s.Mirrors) {k : ℕ} {c : PolledChannel}
    (ht : let c' := { c with removed := true }
      ((s.setChannel k c').removeChannel k c').Mirrors) :
    ∀ j ∈ s.channelMap c.fd, j = k := by
  intro j hj
  by_contra hne
  obtain ⟨d, hd, hfd, hindex⟩ := (h.channelMap c.fd j).mp hj
  obtain ⟨hchannels, hmap⟩ :=
    removeChannel_frame (s := s.setChannel k { c with removed := true }) (k := k)
      (c := { c with removed := true })
  have hd' : ((s.setChannel k { c with removed := true }).removeChannel k
      { c with removed := true }).channels[j]? = some d := by
    rw [hchannels, setChannel, List.getElem?_set_ne (Ne.symm hne),
      List.getElem?_set_ne (Ne.symm hne), hd]
  have hentry := (ht.channelMap c.fd j).mpr ⟨d, hd', hfd, hindex⟩
  rw [hmap, Function.update_self] at hentry
  exact absurd hentry nofun

/-! ## Runs -/

/-- **When the poller mirrors the kernel.** Take any run of calls on any channels, of which at
most one for each descriptor has not been removed. In every state no call of `epoll_ctl` has
failed and the three records agree, exactly when no channel is removed while another one stands
under its descriptor. -/
theorem mirrors_iff {p : List (PollerEvent × EpollPoller)} (hp : Path Step {} p) :
    Throughout Mirrors {} p ↔ MeetsAll RemovesOwn {} p := by
  apply hp.throughout_iff_meetsAll_of_invariant (fun (s : EpollPoller) (h : s.Kept) => h.toMirrors)
  · intro s event t h hst hown
    cases event with
    | create fd =>
        simp only [Step, step, Option.ite_none_right_eq_some, Option.some.injEq] at hst
        obtain ⟨⟨-, ho⟩, rfl⟩ := hst
        exact h.create ho
    | update k interest =>
        rcases hk : s.channels[k]? with _ | c <;> simp only [Step, step, hk] at hst
        · exact absurd hst nofun
        · simp only [Option.ite_none_right_eq_some, Option.some.injEq] at hst
          obtain ⟨⟨-, ho⟩, rfl⟩ := hst
          exact h.update hk ho _
    | remove k =>
        rcases hk : s.channels[k]? with _ | c <;> simp only [Step, step, hk] at hst
        · exact absurd hst nofun
        · simp only [Option.ite_none_right_eq_some, Option.some.injEq] at hst
          obtain ⟨-, rfl⟩ := hst
          exact h.remove hk (hown c hk)
  · intro s event t h hst ht
    cases event with
    | remove k =>
        rcases hk : s.channels[k]? with _ | c <;> simp only [Step, step, hk] at hst
        · exact absurd hst nofun
        · simp only [Option.ite_none_right_eq_some, Option.some.injEq] at hst
          obtain ⟨-, rfl⟩ := hst
          intro c' hc'
          obtain rfl := Option.some.inj (hk.symm.trans hc')
          exact h.toMirrors.removesOwn ht
    | _ => trivial
  · exact kept_empty

/-- A connector hands its descriptor over: its channel is removed before the one of the connection
is there, and removing it once more would change nothing before that. -/
theorem mirrors_iff_handed_over :
    Throughout Mirrors {} (trace step {}
      [.create 5, .update 0 .enableWriting, .update 0 .disableAll, .remove 0, .remove 0, .create 5,
        .update 1 .enableReading, .update 1 .enableWriting, .update 1 .disableWriting]) :=
  (mirrors_iff (path_trace step _ _)).mpr (by decide +kernel)

/-- **A channel that is removed again takes the entry of its successor.** The second channel of
the descriptor is polled and has index `kAdded`, and `channels_` does not have it. -/
theorem not_mirrors_removed_again :
    let p := trace step {}
      [.create 5, .update 0 .enableReading, .remove 0, .create 5, .update 1 .enableReading,
        .remove 0]
    ¬ Throughout Mirrors {} p ∧
      (Paths.last {} p).channels[1]? = some { fd := 5, events := 1, index := .kAdded } ∧
      (Paths.last {} p).kernel 5 = some (1, 1) ∧ (Paths.last {} p).channelMap 5 = none := by
  intro p
  have hchannel : (Paths.last {} p).channels[1]? =
      some { fd := 5, events := 1, index := .kAdded } := by
    decide +kernel
  have hmap : (Paths.last {} p).channelMap 5 = none := by
    decide +kernel
  refine ⟨fun h => ?_, hchannel, by decide +kernel, hmap⟩
  have hentry := (h.last.channelMap 5 1).mpr ⟨_, hchannel, rfl, nofun⟩
  exact absurd (hmap.symm.trans hentry) nofun

end EpollPoller

end SwiftNetCore
