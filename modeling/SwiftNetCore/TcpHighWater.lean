import SwiftNetCore.TcpConnection
import SwiftNetCore.Lib.Path

/-!
# The high-water mark

`sendInLoop` queues `highWaterMarkCallback_` when the bytes it appends carry `outputBuffer_` over
`highWaterMark_`. It asks for `oldLen < highWaterMark_` where a crossing begins at
`highWaterMark_` too, so a buffer that stands exactly at the mark gets over it unnoticed.

* `Buffers`: the call leaves bytes that wait. `sendInLoop_of_buffers`, `sendInLoop_of_not_buffers`:
  what becomes of the buffer and of the queue in either case.
* `Watermark`: a connection, the sizes that the callback was queued with, and the sizes to which
  calls of `sendInLoop` took the buffer over the mark.
* `queued_eq_crossed_iff`: over every run, the two lists are the same exactly when no call that
  leaves bytes finds the buffer at the mark.
-/

namespace SwiftNetCore

open Paths (Path Throughout MeetsAll trace path_trace)

/-- The size that a queued `highWaterMarkCallback_` is called with. -/
def LoopFunctor.size? : LoopFunctor → Option ℕ
  | highWaterMarkCallback size => some size
  | _ => none

/-- A call of `::write` with this result leaves bytes of the message to be sent later: it took
fewer, or failed with an error on which `sendInLoop` does not give up. -/
def WriteResult.Leaves (message : Bytes) : WriteResult → Prop
  | wrote n => n < message.length
  | failed errno => (failed errno).isFault = false ∧ message ≠ []

instance (message : Bytes) : DecidablePred (WriteResult.Leaves message)
  | .wrote n => inferInstanceAs (Decidable (n < message.length))
  | .failed errno =>
    inferInstanceAs (Decidable ((WriteResult.failed errno).isFault = false ∧ message ≠ []))

namespace TcpConnection

/-! ## One call -/

/-- The sizes that `highWaterMarkCallback_` was queued with between `c` and `c'`. -/
def markCallbacks (c c' : TcpConnection) : List ℕ :=
  (c'.pendingFunctors.drop c.pendingFunctors.length).filterMap LoopFunctor.size?

/-- `sendInLoop` calls `::write`. Source: TcpConnection.cpp 196 -/
def WritesAtOnce (c : TcpConnection) : Prop :=
  c.isWriting = false ∧ c.outputBuffer.readableBytes = 0

instance (c : TcpConnection) : Decidable c.WritesAtOnce := inferInstanceAs (Decidable (_ ∧ _))

/-- The call has bytes that must wait: the connection is not down, and `::write` leaves some, or
is not called at all. -/
def Buffers (message : Bytes) (result : WriteResult) (c : TcpConnection) : Prop :=
  c.state ≠ .kDisconnected ∧
    if c.WritesAtOnce then result.Leaves message else message ≠ []

instance (message : Bytes) (result : WriteResult) (c : TcpConnection) :
    Decidable (Buffers message result c) :=
  inferInstanceAs (Decidable (_ ∧ _))

variable {c c' : TcpConnection} {message rest : Bytes} {result : WriteResult}

/-- What is queued behind the functors of before counts. -/
lemma markCallbacks_of_append (fs : List LoopFunctor)
    (h : c'.pendingFunctors = c.pendingFunctors ++ fs) :
    markCallbacks c c' = fs.filterMap LoopFunctor.size? := by
  rw [markCallbacks, h, List.drop_left]

/-- A step that queues no functor does not queue `highWaterMarkCallback_`. -/
lemma markCallbacks_eq_nil (h : c'.pendingFunctors = c.pendingFunctors) :
    markCallbacks c c' = [] :=
  markCallbacks_of_append [] (by rw [h, List.append_nil])

/-- `writeCompleteCallback_` is another one. -/
lemma markCallbacks_queueWriteComplete (h : c'.pendingFunctors = c.pendingFunctors) :
    markCallbacks c c'.queueWriteComplete = [] := by
  unfold queueWriteComplete
  split
  · apply markCallbacks_of_append [.writeCompleteCallback]
    simp [queueInLoop, h]
  · exact markCallbacks_eq_nil h

/-- `append` makes as many more bytes readable as it is given. -/
lemma readableBytes_append (b : Buffer) (data : Bytes) :
    (b.append data).readableBytes = b.readableBytes + data.length := by
  have h := congrArg List.length (Buffer.readable_append data b)
  rw [List.length_append, Buffer.length_readable, Buffer.length_readable] at h
  exact h

/-- What the sending branch leaves: a longer buffer, and the callback queued where the test of the
source says so. -/
lemma sendLater_spec (h : c'.pendingFunctors = c.pendingFunctors)
    (hb : c'.outputBuffer = c.outputBuffer) (hm : c'.highWaterMark = c.highWaterMark)
    (hc : c'.highWaterMarkCallback = c.highWaterMarkCallback) (rest : Bytes) :
    (c'.sendLater rest).outputBuffer.readableBytes = c.outputBuffer.readableBytes + rest.length ∧
      markCallbacks c (c'.sendLater rest) =
        if c.outputBuffer.readableBytes + rest.length > c.highWaterMark ∧
            c.outputBuffer.readableBytes < c.highWaterMark ∧ c.highWaterMarkCallback = true then
          [c.outputBuffer.readableBytes + rest.length] else [] := by
  refine ⟨?_, ?_⟩
  · rw [sendLater_eq, ← hb]
    exact readableBytes_append _ _
  · unfold sendLater queueHighWaterMark
    rw [hb, hm, hc]
    split
    · apply markCallbacks_of_append
        [.highWaterMarkCallback (c.outputBuffer.readableBytes + rest.length)]
      simp [queueInLoop, h]
    · exact markCallbacks_eq_nil h

/-- The call when `::write` is not called. -/
lemma sendInLoop_of_not_writesAtOnce (hs : c.state ≠ .kDisconnected) (hw : ¬ c.WritesAtOnce) :
    c.sendInLoop message result =
      let c := { c with handed := c.handed ++ [message] }
      if message = [] then c else c.sendLater message := by
  unfold sendInLoop writeAtOnce
  rw [if_neg hs]
  simp only [if_neg (show ¬ (c.isWriting = false ∧ c.outputBuffer.readableBytes = 0) from hw)]
  by_cases hm : message = []
  · simp [hm]
  · simp [hm, List.length_pos_iff.mpr hm]

/-- The call when `::write` fails. -/
lemma sendInLoop_of_failed {errno : WriteErrno} (hs : c.state ≠ .kDisconnected)
    (hw : c.WritesAtOnce) :
    c.sendInLoop message (.failed errno) =
      let c := { c with handed := c.handed ++ [message] }
      if (WriteResult.failed errno).isFault = false ∧ message ≠ [] then c.sendLater message
      else c := by
  unfold sendInLoop writeAtOnce
  rw [if_neg hs]
  simp only [if_pos (show c.isWriting = false ∧ c.outputBuffer.readableBytes = 0 from hw)]
  simp [List.length_pos_iff]

/-- **A call that leaves bytes** puts them behind those that wait already. -/
lemma sendInLoop_of_buffers (h : c.Buffers message result) :
    ∃ rest, rest ≠ [] ∧ ∃ c₁ : TcpConnection, c.sendInLoop message result = c₁.sendLater rest ∧
      c₁.pendingFunctors = c.pendingFunctors ∧ c₁.outputBuffer = c.outputBuffer ∧
      c₁.highWaterMark = c.highWaterMark ∧
      c₁.highWaterMarkCallback = c.highWaterMarkCallback := by
  obtain ⟨hs, hleaves⟩ := h
  split_ifs at hleaves with hw
  · cases result with
    | wrote n =>
        have hn : n < message.length := hleaves
        have heq : c.sendInLoop message (.wrote n) = _ :=
          sendInLoop_of_wrote hs hw.1 ((readableBytes_eq_zero_iff _).mp hw.2)
        exact ⟨message.drop n, by simpa using hn, _, heq.trans (if_neg (by omega)), rfl, rfl, rfl,
          rfl⟩
    | failed errno =>
        have heq : c.sendInLoop message (.failed errno) = _ := sendInLoop_of_failed hs hw
        exact ⟨message, hleaves.2, _, heq.trans (if_pos hleaves), rfl, rfl, rfl, rfl⟩
  · have heq : c.sendInLoop message result = _ := sendInLoop_of_not_writesAtOnce hs hw
    exact ⟨message, hleaves, _, heq.trans (if_neg hleaves), rfl, rfl, rfl, rfl⟩

/-- **A call that leaves none** does nothing to those that wait. -/
lemma sendInLoop_of_not_buffers (h : ¬ c.Buffers message result) :
    (c.sendInLoop message result).outputBuffer = c.outputBuffer ∧
      markCallbacks c (c.sendInLoop message result) = [] := by
  by_cases hs : c.state = .kDisconnected
  · rw [sendInLoop, if_pos hs]
    exact ⟨rfl, markCallbacks_eq_nil rfl⟩
  have hleaves : ¬ if c.WritesAtOnce then result.Leaves message else message ≠ [] :=
    fun hl => h ⟨hs, hl⟩
  split_ifs at hleaves with hw
  · cases result with
    | wrote n =>
        have hn : message.length - n = 0 := by
          have : ¬ n < message.length := hleaves
          omega
        rw [sendInLoop_of_wrote hs hw.1 ((readableBytes_eq_zero_iff _).mp hw.2)]
        simp only [hn, if_true]
        exact ⟨by simp, markCallbacks_queueWriteComplete rfl⟩
    | failed errno =>
        have hnot : ¬ ((WriteResult.failed errno).isFault = false ∧ message ≠ []) := hleaves
        rw [sendInLoop_of_failed hs hw]
        simp only
        rw [if_neg hnot]
        exact ⟨rfl, markCallbacks_eq_nil rfl⟩
  · rw [sendInLoop_of_not_writesAtOnce hs hw]
    simp only [not_not.mp hleaves, if_true]
    exact ⟨trivial, markCallbacks_eq_nil rfl⟩

/-- `handleWrite` queues no `highWaterMarkCallback_`. -/
lemma markCallbacks_handleWrite (c : TcpConnection) (result : WriteResult) :
    markCallbacks c (c.handleWrite result) = [] := by
  by_cases h : c.Drains result
  · have hcomplete : markCallbacks c c.emptied.queueWriteComplete = [] :=
      markCallbacks_queueWriteComplete rfl
    rw [handleWrite_of_drains h]
    split
    · exact hcomplete
    · exact hcomplete
  · obtain ⟨n, -, heq⟩ := handleWrite_of_not_drains h
    rw [heq]
    exact markCallbacks_eq_nil rfl

section callback

variable (c : TcpConnection)

/-- Queueing `writeCompleteCallback_` leaves `highWaterMarkCallback_` as it is. -/
lemma queueWriteComplete_callback :
    c.queueWriteComplete.highWaterMarkCallback = c.highWaterMarkCallback := by
  unfold queueWriteComplete
  split <;> rfl

/-- `sendInLoop` does not touch the callback itself. -/
lemma sendInLoop_callback (message : Bytes) (result : WriteResult) :
    (c.sendInLoop message result).highWaterMarkCallback = c.highWaterMarkCallback := by
  have hwrite : ∀ c' : TcpConnection,
      (c'.writeAtOnce message result).2.2.highWaterMarkCallback = c'.highWaterMarkCallback := by
    intro c'
    unfold writeAtOnce
    split
    · cases result with
      | wrote n =>
          simp only
          split <;> simp [queueWriteComplete_callback]
      | failed errno => rfl
    · rfl
  unfold sendInLoop
  split
  · rfl
  · simp only
    split
    · rw [sendLater_eq]
      exact hwrite _
    · exact hwrite _

/-- `handleWrite` does not touch the callback itself. -/
lemma handleWrite_callback (result : WriteResult) :
    (c.handleWrite result).highWaterMarkCallback = c.highWaterMarkCallback := by
  by_cases h : c.Drains result
  · rw [handleWrite_of_drains h]
    split <;> exact queueWriteComplete_callback _
  · obtain ⟨n, -, heq⟩ := handleWrite_of_not_drains h
    rw [heq]

end callback

end TcpConnection

/-! ## Runs -/

open TcpConnection (markCallbacks Buffers)

/-- A connection with what its user can see of the mark. -/
structure Watermark where
  conn : TcpConnection := {}
  /-- the sizes that `highWaterMarkCallback_` was queued with -/
  queued : List ℕ := []
  /-- the sizes to which a call of `sendInLoop` took the buffer, from at most the mark to more -/
  crossed : List ℕ := []

/-- What happens to a connection. -/
inductive WatermarkEvent where
  /-- `sendInLoop`; the result is what `::write` returns if it is called -/
  | sendInLoop (message : Bytes) (result : WriteResult)
  /-- `handleWrite`, with the result of its `writeFd` -/
  | handleWrite (result : WriteResult)
  /-- `setHighWaterMarkCallback(cb, mark)` -/
  | setHighWaterMarkCallback (mark : ℕ)
  /-- anything that leaves the output buffer, the mark and its callback alone: a change of
  `state_`, of the channel, of `pendingFunctors_` -/
  | elsewhere (conn : TcpConnection)

namespace Watermark

/-- The number of bytes in `outputBuffer_`. -/
def level (c : TcpConnection) : ℕ := c.outputBuffer.readableBytes

/-- The sizes to which a call that turns `c` into `c'` takes the buffer over the mark: none, or
the new one. -/
def crossing (c c' : TcpConnection) : List ℕ :=
  if level c ≤ c.highWaterMark ∧ c.highWaterMark < level c' then [level c'] else []

/-- One step; `::write` takes no more than it is given. -/
def step (s : Watermark) : WatermarkEvent → Option Watermark
  | .sendInLoop message result =>
    if result.Within message.length then
      let conn := s.conn.sendInLoop message result
      some
        { conn := conn
          queued := s.queued ++ markCallbacks s.conn conn
          crossed := s.crossed ++ crossing s.conn conn }
    else none
  | .handleWrite result =>
    if result.Within (level s.conn) then
      let conn := s.conn.handleWrite result
      some { s with conn := conn, queued := s.queued ++ markCallbacks s.conn conn }
    else none
  | .setHighWaterMarkCallback mark =>
    some { s with conn := { s.conn with highWaterMark := mark, highWaterMarkCallback := true } }
  | .elsewhere conn =>
    some { s with conn := { conn with
      outputBuffer := s.conn.outputBuffer
      highWaterMark := s.conn.highWaterMark
      highWaterMarkCallback := s.conn.highWaterMarkCallback } }

/-- The steps, as a relation. -/
def Step (s : Watermark) (event : WatermarkEvent) (t : Watermark) : Prop :=
  s.step event = some t

/-- Every crossing was announced, with the size it led to, and nothing else was. -/
def Announced (s : Watermark) : Prop := s.queued = s.crossed

instance : DecidablePred Announced := fun _ => inferInstanceAs (Decidable (_ = _))

/-- The condition: no call that leaves bytes finds the buffer exactly at the mark. -/
def NotAtMark (s : Watermark) : WatermarkEvent → Prop
  | .sendInLoop message result =>
    ¬ (level s.conn = s.conn.highWaterMark ∧ s.conn.Buffers message result)
  | _ => True

instance (s : Watermark) : DecidablePred s.NotAtMark
  | .sendInLoop _ _ => inferInstanceAs (Decidable (¬ _))
  | .handleWrite _ | .setHighWaterMarkCallback _ | .elsewhere _ => inferInstanceAs (Decidable True)

/-- **One call of `sendInLoop`** announces what it should exactly when it meets the condition. -/
lemma markCallbacks_eq_crossing_iff {c : TcpConnection} (hc : c.highWaterMarkCallback = true)
    (message : Bytes) (result : WriteResult) :
    markCallbacks c (c.sendInLoop message result) = crossing c (c.sendInLoop message result) ↔
      ¬ (level c = c.highWaterMark ∧ c.Buffers message result) := by
  unfold crossing level
  by_cases hb : c.Buffers message result
  · obtain ⟨rest, hrest, c₁, heq, h₁, h₂, h₃, h₄⟩ := TcpConnection.sendInLoop_of_buffers hb
    obtain ⟨hlevel, hqueued⟩ := TcpConnection.sendLater_spec h₁ h₂ h₃ h₄ rest
    have hpos : 0 < rest.length := List.length_pos_iff.mpr hrest
    rw [heq, hlevel, hqueued]
    simp only [hc, hb, and_true]
    -- both tests ask whether the new size is over the mark; they differ where the old one is at it
    split_ifs with h₁ h₂ h₂
    · exact iff_of_true rfl (by omega)
    · omega
    · exact iff_of_false (by simp) (by omega)
    · exact iff_of_true rfl (by omega)
  · obtain ⟨hlevel, hqueued⟩ := TcpConnection.sendInLoop_of_not_buffers hb
    rw [hqueued, hlevel, if_neg (by omega)]
    simp [hb]

/-- What every state of a run has as long as the property holds. -/
def Watched (s : Watermark) : Prop := s.conn.highWaterMarkCallback = true ∧ s.Announced

/-- No step takes the callback away. -/
lemma callback_of_step {s t : Watermark} {event : WatermarkEvent}
    (h : s.conn.highWaterMarkCallback = true) (hst : Step s event t) :
    t.conn.highWaterMarkCallback = true := by
  cases event with
  | sendInLoop message result =>
      simp only [Step, step, Option.ite_none_right_eq_some, Option.some.injEq] at hst
      obtain ⟨-, rfl⟩ := hst
      rw [TcpConnection.sendInLoop_callback, h]
  | handleWrite result =>
      simp only [Step, step, Option.ite_none_right_eq_some, Option.some.injEq] at hst
      obtain ⟨-, rfl⟩ := hst
      rw [TcpConnection.handleWrite_callback, h]
  | setHighWaterMarkCallback mark =>
      obtain rfl := Option.some.inj hst
      rfl
  | elsewhere conn =>
      obtain rfl := Option.some.inj hst
      exact h

/-- **One step** keeps the property exactly when it meets the condition. -/
lemma announced_iff_notAtMark {s t : Watermark} {event : WatermarkEvent} (h : s.Watched)
    (hst : Step s event t) : t.Announced ↔ s.NotAtMark event := by
  obtain ⟨hc, hs⟩ := h
  unfold Announced at hs
  cases event with
  | sendInLoop message result =>
      simp only [Step, step, Option.ite_none_right_eq_some, Option.some.injEq] at hst
      obtain ⟨-, rfl⟩ := hst
      apply Iff.trans _ (markCallbacks_eq_crossing_iff hc message result)
      unfold Announced
      rw [hs]
      exact List.append_right_inj _
  | handleWrite result =>
      simp only [Step, step, Option.ite_none_right_eq_some, Option.some.injEq] at hst
      obtain ⟨-, rfl⟩ := hst
      unfold Announced
      rw [TcpConnection.markCallbacks_handleWrite, List.append_nil]
      exact iff_of_true hs trivial
  | setHighWaterMarkCallback mark =>
      obtain rfl := Option.some.inj hst
      exact iff_of_true hs trivial
  | elsewhere conn =>
      obtain rfl := Option.some.inj hst
      exact iff_of_true hs trivial

/-- **When every crossing is announced.** Let the callback be set, and take any run of sends,
partial writes and drains from any connection. In every state of the run the callback was queued
once for each call of `sendInLoop` that took the buffer over the mark, with the new size, and for
no other, exactly when no call that leaves bytes finds the buffer exactly at the mark. -/
theorem queued_eq_crossed_iff {c : TcpConnection} (hc : c.highWaterMarkCallback = true)
    {p : List (WatermarkEvent × Watermark)} (hp : Path Step { conn := c } p) :
    Throughout Announced { conn := c } p ↔ MeetsAll NotAtMark { conn := c } p := by
  apply hp.throughout_iff_meetsAll_of_invariant (fun (s : Watermark) (h : s.Watched) => h.2)
  · intro s event t h hst hguard
    exact ⟨callback_of_step h.1 hst, (announced_iff_notAtMark h hst).mpr hguard⟩
  · intro s event t h hst hannounced
    exact (announced_iff_notAtMark h hst).mp hannounced
  · exact ⟨hc, rfl⟩

/-- A connection with a mark of four bytes. -/
def marked : TcpConnection := .established 4 false true

/-- The buffer passes the mark twice, with a drain in between, and is announced twice. -/
theorem queued_eq_crossed_iff_twice :
    let p := trace step { conn := marked }
      [.sendInLoop [1, 2, 3] (.wrote 0), .sendInLoop [4, 5] (.wrote 0), .handleWrite (.wrote 5),
        .sendInLoop [6, 7, 8, 9, 10, 11] (.wrote 1)]
    Throughout Announced { conn := marked } p ∧
      (Paths.last { conn := marked } p).queued = [5, 5] :=
  ⟨(queued_eq_crossed_iff rfl (path_trace step _ _)).mpr (by decide +kernel), by decide +kernel⟩

/-- **A crossing from the mark is missed.** The first call fills the buffer up to the mark, the
second one goes over it, and nothing is queued. -/
theorem not_announced_from_mark :
    let p := trace step { conn := marked }
      [.sendInLoop [1, 2, 3, 4] (.wrote 0), .sendInLoop [5] (.wrote 0)]
    ¬ Throughout Announced { conn := marked } p ∧
      (Paths.last { conn := marked } p).crossed = [5] ∧
      (Paths.last { conn := marked } p).queued = [] := by
  decide +kernel

end Watermark

end SwiftNetCore
