import SwiftNetCore.TcpConnection
import SwiftNetCore.Lib.Path

/-!
# Shutting a connection down

`send` and `shutdown` may be called on any thread. In the loop thread they act at once; elsewhere
they look at `state_`, and what they decide on runs later from `pendingFunctors_`. Between the look
and the functor other threads go on, so `SharedConnection` takes such a call in its separate steps.

A socket is shut down when the channel does not wait for `EPOLLOUT`, that is, when `outputBuffer_`
is empty. Messages that were accepted and have not come to `sendInLoop` are not looked at.

* `Account`: every accepted message was handed to `sendInLoop` or waits, in the batch of functors
  that runs, in `pendingFunctors_` or with its caller.
* `shutdowns_step`: when a step shuts the socket down, and what was written by then.
* `graceful_iff`: over every run, whenever the socket is shut down everything accepted was written,
  exactly when no step shuts it down while an accepted message with bytes in it waits.
-/

namespace SwiftNetCore

open Paths (Path Throughout MeetsAll trace path_trace)

/-- A connection whose loop runs functors and whose callers are on several threads. -/
structure SharedConnection where
  conn : TcpConnection := {}
  /-- the functors that `doPendingFunctors` took over and has not run yet -/
  batch : List LoopFunctor := []
  /-- the messages of calls of `send` on other threads that found `kConnected` and have not queued
  their functor yet -/
  sending : List Bytes := []
  /-- how many calls of `shutdown` on other threads found `kConnected` and have not set the state -/
  leaving : ℕ := 0
  /-- how many of them have set the state and not queued their functor yet -/
  left : ℕ := 0

/-- What happens to a shared connection. The result is that of `::write`, for the case that it is
called. -/
inductive SharedEvent where
  /-- `send` in the loop thread -/
  | send (message : Bytes) (result : WriteResult)
  /-- `shutdown` in the loop thread -/
  | shutdown
  /-- the poller reports `EPOLLOUT` -/
  | writable (result : WriteResult)
  /-- `doPendingFunctors` takes the queue over -/
  | doPendingFunctors
  /-- it runs the next functor -/
  | runFunctor (result : WriteResult)
  /-- `send` on another thread looks at `state_` -/
  | sendElsewhere (message : Bytes)
  /-- one of these calls queues its functor -/
  | queueSend (i : ℕ)
  /-- `shutdown` on another thread looks at `state_` -/
  | shutdownElsewhere
  /-- one of these calls sets `state_` -/
  | setDisconnecting
  /-- one of these calls queues its functor -/
  | queueShutdown
  deriving DecidableEq, Repr

namespace SharedConnection

open TcpConnection (Settled Advances)

/-- What a functor does when it runs. What a callback of the user does is an event of its own.
Source: EventLoop.cpp 173-176 -/
def runFunctor (c : TcpConnection) (functor : LoopFunctor) (result : WriteResult) :
    TcpConnection :=
  match functor with
  | .sendInLoop message => c.sendInLoop message result
  | .shutdownInLoop => c.shutdownInLoop
  | .writeCompleteCallback => c
  | .highWaterMarkCallback _ => c

/-- `::write` takes no more than it is given, and fails with neither `EPIPE` nor `ECONNRESET`. -/
def Clean (len : ℕ) (result : WriteResult) : Prop := result.Within len ∧ result.isFault = false

instance (len : ℕ) : DecidablePred (Clean len) :=
  fun result => inferInstanceAs (Decidable (result.Within len ∧ _))

/-- The number of bytes that a functor gives to `::write`. -/
def given : LoopFunctor → ℕ
  | .sendInLoop message => message.length
  | _ => 0

/-- One event. -/
def step (s : SharedConnection) : SharedEvent → Option SharedConnection
  | .send message result =>
    if Clean message.length result then
      some { s with conn := (s.conn.noteSent message).send message result }
    else none
  | .shutdown => some { s with conn := s.conn.shutdown }
  | .writable result =>
    -- the loop handles its events and runs its functors by turns
    if s.batch = [] ∧ Clean s.conn.outputBuffer.readable.length result then
      some { s with conn := s.conn.handleWrite result }
    else none
  | .doPendingFunctors =>
    if s.batch = [] then
      some { s with batch := s.conn.pendingFunctors, conn := { s.conn with pendingFunctors := [] } }
    else none
  | .runFunctor result =>
    match s.batch with
    | [] => none
    | functor :: batch =>
      if Clean (given functor) result then
        some { s with batch := batch, conn := runFunctor s.conn functor result }
      else none
  | .sendElsewhere message =>
    if s.conn.state = .kConnected then
      some { s with
        conn := { s.conn with sent := s.conn.sent ++ [message] }
        sending := s.sending ++ [message] }
    else some s
  | .queueSend i =>
    match s.sending[i]? with
    | some message =>
      some { s with
        conn := s.conn.queueInLoop (.sendInLoop message)
        sending := s.sending.eraseIdx i }
    | none => none
  | .shutdownElsewhere =>
    if s.conn.state = .kConnected then some { s with leaving := s.leaving + 1 } else some s
  | .setDisconnecting =>
    if 0 < s.leaving then
      some { s with
        conn := { s.conn with state := .kDisconnecting }
        leaving := s.leaving - 1
        left := s.left + 1 }
    else none
  | .queueShutdown =>
    if 0 < s.left then
      some { s with conn := s.conn.queueInLoop .shutdownInLoop, left := s.left - 1 }
    else none

/-- The steps of a shared connection. -/
def Step (s : SharedConnection) (event : SharedEvent) (t : SharedConnection) : Prop :=
  s.step event = some t

/-! ## The property and the condition -/

/-- The messages that were accepted and have not come to `sendInLoop`. -/
def waiting (s : SharedConnection) : List Bytes :=
  s.batch.filterMap LoopFunctor.message? ++ s.conn.queuedSends ++ s.sending

/-- At a moment, all that had been sent was written, message by message in some order. -/
def AllWritten (m : Moment) : Prop := ∃ l : List Bytes, l.Perm m.sent ∧ m.written = l.flatten

/-- Whenever the socket was shut down, everything accepted by then was written. -/
def Graceful (s : SharedConnection) : Prop := ∀ m ∈ s.conn.shutdowns, AllWritten m

/-- The event executes `Socket::shutdownWrite`. -/
def ShutsDown (s : SharedConnection) : SharedEvent → Prop
  | .shutdown => s.conn.state = .kConnected ∧ s.conn.isWriting = false
  | .writable result => s.conn.Drains result ∧ s.conn.state = .kDisconnecting
  | .runFunctor _ => s.batch.head? = some .shutdownInLoop ∧ s.conn.isWriting = false
  | _ => False

instance (s : SharedConnection) : DecidablePred s.ShutsDown
  | .shutdown | .writable _ | .runFunctor _ => inferInstanceAs (Decidable (_ ∧ _))
  | .send _ _ | .doPendingFunctors | .sendElsewhere _ | .queueSend _ | .shutdownElsewhere
  | .setDisconnecting | .queueShutdown => inferInstanceAs (Decidable False)

/-- The socket is not shut down while a message with bytes in it waits. -/
def Patient (s : SharedConnection) (event : SharedEvent) : Prop :=
  s.ShutsDown event → ∀ message ∈ s.waiting, message = []

instance (s : SharedConnection) : DecidablePred s.Patient :=
  fun _ => inferInstanceAs (Decidable (_ → _))

/-- The books of a shared connection. -/
structure Account (s : SharedConnection) : Prop where
  settled : s.conn.Settled
  /-- the stream is made of the messages that came to `sendInLoop` -/
  stream_eq : s.conn.stream = s.conn.handed.flatten
  /-- an accepted message came to `sendInLoop` or waits -/
  accounted : s.conn.sent.Perm (s.conn.handed ++ s.waiting)
  /-- the connection was not closed -/
  opened : s.conn.state ≠ .kDisconnected

variable {s t : SharedConnection} {event : SharedEvent} {sent done todo : List Bytes}

/-- Of the messages sent, those done are all exactly when the others have no bytes. -/
lemma allWritten_iff (h : sent.Perm (done ++ todo)) :
    AllWritten ⟨done.flatten, sent⟩ ↔ ∀ message ∈ todo, message = [] := by
  constructor
  · rintro ⟨l, hperm, hflat⟩ message hm
    have hlen : (done.flatten).length = (done.flatten).length + (todo.flatten).length := by
      calc (done.flatten).length = l.flatten.length := congrArg List.length hflat
        _ = (done ++ todo).flatten.length := (hperm.trans h).flatten.length_eq
        _ = (done.flatten).length + (todo.flatten).length := by simp
    have hnil : todo.flatten = [] := List.length_eq_zero_iff.mp (by omega)
    exact List.flatten_eq_nil_iff.mp hnil message hm
  · intro hnil
    refine ⟨done ++ todo, h.symm, ?_⟩
    rw [List.flatten_append, List.flatten_eq_nil_iff.mpr hnil, List.append_nil]

/-! ## What a step does to the books -/

/-- Messages that come to `sendInLoop` lengthen the stream and leave the ones that wait. -/
lemma Account.advance {c : TcpConnection} {came : List Bytes} (h : s.Account)
    (hadv : Advances came.flatten c t.conn) (hc : c.stream = s.conn.stream)
    (hhanded : t.conn.handed = s.conn.handed ++ came)
    (hsent : c.sent.Perm (s.conn.handed ++ came ++ t.waiting)) (hopen : c.state ≠ .kDisconnected) :
    t.Account where
  settled := hadv.settled
  stream_eq := by rw [hadv.stream_eq, hc, h.stream_eq, hhanded, List.flatten_append]
  accounted := by rwa [hadv.sent_eq, hhanded]
  opened := by rwa [hadv.state_eq]

/-- The moment at which the socket is shut down: all that came to `sendInLoop` is written. -/
def present (s : SharedConnection) : Moment := ⟨s.conn.handed.flatten, s.conn.sent⟩

/-- `shutdownInLoop` shuts the socket down at such a moment when the channel does not write. -/
lemma Account.shutdownInLoop_shutdowns (h : s.Account) {c : TcpConnection}
    (hc : c.stream = s.conn.stream) (hset : c.Settled) (hsent : c.sent = s.conn.sent) :
    c.shutdownInLoop.shutdowns =
      if c.isWriting = false then c.shutdowns ++ [s.present] else c.shutdowns := by
  unfold TcpConnection.shutdownInLoop
  by_cases hw : c.isWriting = true
  · simp [hw]
  · rw [Bool.not_eq_true] at hw
    simp [hw, TcpConnection.shutdownWrite, present, ← h.stream_eq, ← hc, hset.stream_eq hw, hsent]

/-- One more message that is done at once leaves as many to do. -/
lemma perm_done {message : Bytes} (h : sent.Perm (done ++ todo)) :
    (sent ++ [message]).Perm (done ++ [message] ++ todo) := by
  rw [List.perm_iff_count] at h ⊢
  intro m
  have := h m
  simp only [List.count_append] at this ⊢
  omega

/-- `send` keeps the books, and does not shut the socket down. -/
lemma Account.send {message : Bytes} {result : WriteResult} (h : s.Account)
    (hclean : Clean message.length result) :
    ({ s with conn := (s.conn.noteSent message).send message result } :
        SharedConnection).Account ∧
      ((s.conn.noteSent message).send message result).shutdowns = s.conn.shutdowns := by
  rw [TcpConnection.send_noteSent]
  by_cases hconn : s.conn.state = .kConnected
  · rw [if_pos hconn]
    have hadv : Advances [message].flatten { s.conn with sent := s.conn.sent ++ [message] }
        ({ s.conn with sent := s.conn.sent ++ [message] }.sendInLoop message result) := by
      rw [List.flatten_singleton]
      exact TcpConnection.advances_sendInLoop h.settled h.opened hclean.1 hclean.2
    refine ⟨h.advance hadv rfl (TcpConnection.sendInLoop_handed _ _ _ h.opened) ?_ h.opened,
      TcpConnection.sendInLoop_shutdowns _ _ _⟩
    have hwaiting : waiting { s with
        conn := { s.conn with sent := s.conn.sent ++ [message] }.sendInLoop message result } =
        s.waiting := by
      simp only [waiting, hadv.queuedSends_eq]
      rfl
    rw [hwaiting]
    exact perm_done h.accounted
  · rw [if_neg hconn]
    exact ⟨h, rfl⟩

/-- `shutdown` keeps the books, and shuts the socket down at once when the channel does not wait for
`EPOLLOUT`. -/
lemma Account.shutdown (h : s.Account) :
    ({ s with conn := s.conn.shutdown } : SharedConnection).Account ∧
      s.conn.shutdown.shutdowns =
        if s.conn.state = .kConnected ∧ s.conn.isWriting = false then
          s.conn.shutdowns ++ [s.present]
        else s.conn.shutdowns := by
  unfold TcpConnection.shutdown
  by_cases hconn : s.conn.state = .kConnected
  · have hadv : Advances ([] : List Bytes).flatten { s.conn with state := .kDisconnecting }
        { s.conn with state := .kDisconnecting }.shutdownInLoop :=
      TcpConnection.advances_shutdownInLoop h.settled
    have hdown := h.shutdownInLoop_shutdowns (c := { s.conn with state := .kDisconnecting })
      rfl h.settled rfl
    rw [if_pos hconn, hdown]
    simp only [hconn, true_and]
    refine ⟨h.advance hadv rfl ?_ ?_ nofun, trivial⟩
    · unfold TcpConnection.shutdownInLoop
      split <;> simp [TcpConnection.shutdownWrite]
    · have hwaiting : waiting { s with
          conn := { s.conn with state := .kDisconnecting }.shutdownInLoop } = s.waiting := by
        simp only [waiting, hadv.queuedSends_eq]
        rfl
      rw [hwaiting, List.append_nil]
      exact h.accounted
  · rw [if_neg hconn]
    simp [hconn, h]

/-- `handleWrite` keeps the books, and shuts the socket down when it drains the buffer of a
connection that is `kDisconnecting`. -/
lemma Account.handleWrite (h : s.Account) (result : WriteResult) :
    ({ s with conn := s.conn.handleWrite result } : SharedConnection).Account ∧
      (s.conn.handleWrite result).shutdowns =
        if s.conn.Drains result ∧ s.conn.state = .kDisconnecting then
          s.conn.shutdowns ++ [s.present]
        else s.conn.shutdowns := by
  have hadv : Advances ([] : List Bytes).flatten s.conn (s.conn.handleWrite result) :=
    TcpConnection.advances_handleWrite h.settled
  constructor
  · refine h.advance hadv rfl ?_ ?_ h.opened
    · rw [TcpConnection.handleWrite_handed, List.append_nil]
    · have hwaiting : waiting { s with conn := s.conn.handleWrite result } = s.waiting := by
        simp only [waiting, hadv.queuedSends_eq]
      rw [hwaiting, List.append_nil]
      exact h.accounted
  · rw [TcpConnection.handleWrite_shutdowns, h.stream_eq]
    rfl

/-- The functor at the front of the batch runs. -/
lemma Account.runFunctor {functor : LoopFunctor} {batch : List LoopFunctor} {result : WriteResult}
    (h : s.Account) (hbatch : s.batch = functor :: batch) (hclean : Clean (given functor) result) :
    ({ s with batch := batch, conn := runFunctor s.conn functor result } :
        SharedConnection).Account ∧
      (runFunctor s.conn functor result).shutdowns =
        if functor = .shutdownInLoop ∧ s.conn.isWriting = false then
          s.conn.shutdowns ++ [s.present]
        else s.conn.shutdowns := by
  have hacc := h.accounted
  unfold waiting at hacc
  rw [hbatch] at hacc
  cases functor with
  | sendInLoop message =>
      have hadv : Advances [message].flatten s.conn (s.conn.sendInLoop message result) := by
        rw [List.flatten_singleton]
        exact TcpConnection.advances_sendInLoop h.settled h.opened hclean.1 hclean.2
      refine ⟨h.advance hadv rfl (TcpConnection.sendInLoop_handed _ _ _ h.opened) ?_ h.opened, ?_⟩
      · have hwaiting : waiting { s with
            batch := batch, conn := s.conn.sendInLoop message result } =
            batch.filterMap LoopFunctor.message? ++ s.conn.queuedSends ++ s.sending := by
          simp only [waiting, hadv.queuedSends_eq]
        rw [SharedConnection.runFunctor, hwaiting]
        simpa [LoopFunctor.message?] using hacc
      · simpa [SharedConnection.runFunctor] using
          TcpConnection.sendInLoop_shutdowns s.conn message result
  | shutdownInLoop =>
      have hadv : Advances ([] : List Bytes).flatten s.conn s.conn.shutdownInLoop :=
        TcpConnection.advances_shutdownInLoop h.settled
      refine ⟨h.advance hadv rfl ?_ ?_ h.opened, ?_⟩
      · show s.conn.shutdownInLoop.handed = _
        unfold TcpConnection.shutdownInLoop
        split <;> simp [TcpConnection.shutdownWrite]
      · have hwaiting : waiting { s with batch := batch, conn := s.conn.shutdownInLoop } =
            batch.filterMap LoopFunctor.message? ++ s.conn.queuedSends ++ s.sending := by
          simp only [waiting, hadv.queuedSends_eq]
        rw [SharedConnection.runFunctor, hwaiting, List.append_nil]
        exact hacc
      · simpa [SharedConnection.runFunctor] using h.shutdownInLoop_shutdowns rfl h.settled rfl
  | writeCompleteCallback =>
      exact ⟨⟨h.settled, h.stream_eq, hacc, h.opened⟩, by simp [SharedConnection.runFunctor]⟩
  | highWaterMarkCallback size =>
      exact ⟨⟨h.settled, h.stream_eq, hacc, h.opened⟩, by simp [SharedConnection.runFunctor]⟩

/-- A caller that queues its message keeps the books. -/
lemma Account.queueSend {message : Bytes} {i : ℕ} (h : s.Account)
    (hi : s.sending[i]? = some message) :
    ({ s with
      conn := s.conn.queueInLoop (.sendInLoop message)
      sending := s.sending.eraseIdx i } : SharedConnection).Account := by
  refine ⟨h.settled, h.stream_eq, ?_, h.opened⟩
  have hlt : i < s.sending.length := (List.getElem?_eq_some_iff.mp hi).1
  have hperm : (message :: s.sending.eraseIdx i).Perm s.sending := by
    rw [← (List.getElem?_eq_some_iff.mp hi).2]
    exact List.getElem_cons_eraseIdx_perm hlt
  apply h.accounted.trans
  rw [List.perm_iff_count]
  intro m
  have := hperm.count_eq m
  simp only [waiting, TcpConnection.queuedSends, TcpConnection.queueInLoop, List.filterMap_append,
    List.count_append, List.filterMap_cons, List.filterMap_nil, LoopFunctor.message?,
    List.count_cons, List.count_nil] at this ⊢
  omega

/-- A step keeps the books, and shuts the socket down where it is said to. -/
lemma Account.step (h : s.Account) (hst : Step s event t) :
    t.Account ∧ t.conn.shutdowns =
      if s.ShutsDown event then s.conn.shutdowns ++ [s.present] else s.conn.shutdowns := by
  unfold Step at hst
  cases event with
  | send message result =>
      simp only [SharedConnection.step, Option.ite_none_right_eq_some, Option.some.injEq] at hst
      obtain ⟨hclean, rfl⟩ := hst
      simpa [ShutsDown] using h.send hclean
  | shutdown =>
      simp only [SharedConnection.step, Option.some.injEq] at hst
      subst hst
      exact h.shutdown
  | writable result =>
      simp only [SharedConnection.step, Option.ite_none_right_eq_some, Option.some.injEq] at hst
      obtain ⟨-, rfl⟩ := hst
      exact h.handleWrite result
  | doPendingFunctors =>
      simp only [SharedConnection.step, Option.ite_none_right_eq_some, Option.some.injEq] at hst
      obtain ⟨hbatch, rfl⟩ := hst
      have hacc := h.accounted
      unfold waiting at hacc
      rw [hbatch] at hacc
      refine ⟨⟨h.settled, h.stream_eq, ?_, h.opened⟩, by simp [ShutsDown]⟩
      simpa [waiting, TcpConnection.queuedSends] using hacc
  | runFunctor result =>
      simp only [SharedConnection.step] at hst
      rcases hbatch : s.batch with _ | ⟨functor, batch⟩
      · simp [hbatch] at hst
      · simp only [hbatch, Option.ite_none_right_eq_some, Option.some.injEq] at hst
        obtain ⟨hclean, rfl⟩ := hst
        simpa [ShutsDown, hbatch] using h.runFunctor hbatch hclean
  | sendElsewhere message =>
      simp only [SharedConnection.step] at hst
      split at hst
      · rw [← Option.some.inj hst]
        refine ⟨⟨h.settled, h.stream_eq, ?_, h.opened⟩, by simp [ShutsDown]⟩
        simpa [waiting, TcpConnection.queuedSends] using h.accounted.append_right [message]
      · rw [← Option.some.inj hst]
        simpa [ShutsDown] using h
  | queueSend i =>
      simp only [SharedConnection.step] at hst
      split at hst
      · rename_i message hi
        rw [← Option.some.inj hst]
        exact ⟨h.queueSend hi, by simp [ShutsDown, TcpConnection.queueInLoop]⟩
      · exact absurd hst (by simp)
  | shutdownElsewhere =>
      simp only [SharedConnection.step] at hst
      split at hst <;> rw [← Option.some.inj hst] <;> simpa [ShutsDown] using
        ⟨h.settled, h.stream_eq, h.accounted, h.opened⟩
  | setDisconnecting =>
      simp only [SharedConnection.step, Option.ite_none_right_eq_some, Option.some.injEq] at hst
      obtain ⟨-, rfl⟩ := hst
      exact ⟨⟨h.settled, h.stream_eq, h.accounted, by simp⟩, by simp [ShutsDown]⟩
  | queueShutdown =>
      simp only [SharedConnection.step, Option.ite_none_right_eq_some, Option.some.injEq] at hst
      obtain ⟨-, rfl⟩ := hst
      refine ⟨⟨h.settled, h.stream_eq, ?_, h.opened⟩, by simp [ShutsDown, TcpConnection.queueInLoop]⟩
      have hwaiting : waiting { s with
          conn := s.conn.queueInLoop .shutdownInLoop, left := s.left - 1 } = s.waiting := by
        simp [waiting, TcpConnection.queuedSends, TcpConnection.queueInLoop,
          List.filterMap_cons, LoopFunctor.message?]
      rw [hwaiting]
      exact h.accounted

/-! ## Runs -/

/-- A connection that nobody has used yet. -/
def start (highWaterMark : ℕ) (writeComplete highWater : Bool) : SharedConnection where
  conn := .established highWaterMark writeComplete highWater

/-- The books of a connection behind `connectEstablished` are right. -/
lemma account_start (highWaterMark : ℕ) (writeComplete highWater : Bool) :
    (start highWaterMark writeComplete highWater).Account where
  settled := by simp [Settled, start, TcpConnection.established, Buffer.readable, Buffer.new]
  stream_eq := by
    simp [TcpConnection.stream, start, TcpConnection.established, Buffer.readable, Buffer.new]
  accounted := .nil
  opened := nofun

/-- **When a shutdown is graceful.** Over every run, everything accepted is written whenever the
socket is shut down, exactly when no step shuts it down while an accepted message waits. -/
theorem graceful_iff {highWaterMark : ℕ} {writeComplete highWater : Bool}
    {p : List (SharedEvent × SharedConnection)}
    (hp : Path Step (start highWaterMark writeComplete highWater) p) :
    Throughout Graceful (start highWaterMark writeComplete highWater) p ↔
      MeetsAll Patient (start highWaterMark writeComplete highWater) p := by
  have hstep : ∀ s event t, (s.Account ∧ s.Graceful) → Step s event t →
      t.Account ∧ (t.Graceful ↔ s.Patient event) := by
    rintro s event t ⟨hacc, hgood⟩ hst
    obtain ⟨hacc', hdown⟩ := hacc.step hst
    refine ⟨hacc', ?_⟩
    unfold Graceful Patient
    rw [hdown]
    by_cases hevent : s.ShutsDown event
    · rw [if_pos hevent]
      simp only [hevent, true_imp_iff, List.mem_append, List.mem_singleton]
      rw [← allWritten_iff hacc.accounted]
      constructor
      · intro h
        exact h _ (Or.inr rfl)
      · rintro h m (hm | rfl)
        · exact hgood m hm
        · exact h
    · rw [if_neg hevent]
      simp only [hevent, false_imp_iff, iff_true]
      exact hgood
  apply hp.throughout_iff_meetsAll_of_invariant 
    (fun (s : SharedConnection) (h : s.Account ∧ s.Graceful) => h.2)
  · intro s event t hs hst hpatient
    obtain ⟨hacc, hiff⟩ := hstep s event t hs hst
    exact ⟨hacc, hiff.mpr hpatient⟩
  · intro s event t hs hst hgood
    exact (hstep s event t hs hst).2.mp hgood
  · exact ⟨account_start _ _ _, nofun⟩

/-- A message from another thread, of which a part has to wait, and then a shutdown. -/
theorem graceful_iff_patient_run :
    Throughout Graceful (start 64 true true)
      (trace step (start 64 true true)
        [.sendElsewhere [1, 2], .queueSend 0, .doPendingFunctors, .runFunctor (.wrote 1), .shutdown,
          .writable (.wrote 1)]) :=
  (graceful_iff (path_trace step _ _)).mpr (by decide +kernel)

/-- **A message that was accepted is cut off.** Another thread has queued its message when the loop
thread calls `shutdown`: nothing waits in `outputBuffer_`, and the socket is shut down before the
message comes to `sendInLoop`. -/
theorem not_graceful_queued_message :
    ¬ Throughout Graceful (start 64 false false)
      (trace step (start 64 false false) [.sendElsewhere [1], .queueSend 0, .shutdown]) := by
  intro h
  have hlast := h.last
  have hdown : ⟨[], [[1]]⟩ ∈ (Paths.last (start 64 false false)
      (trace step (start 64 false false)
        [.sendElsewhere [1], .queueSend 0, .shutdown])).conn.shutdowns := by
    decide
  obtain ⟨l, hperm, hflat⟩ := hlast _ hdown
  rw [List.perm_singleton.mp hperm] at hflat
  exact absurd hflat nofun

end SharedConnection

end SwiftNetCore
