import SwiftNetCore.BufferOps
import SwiftNetCore.Endpoint

/-!
# The output side of a connection

What `send`, `shutdown` and a writable event do to a `TcpConnection`, in the loop thread. A message
goes straight to `::write` when nothing waits in `outputBuffer_`; what `::write` does not take is
appended there, and `handleWrite` sends it when the poller reports `EPOLLOUT`.

* `sendInLoop`, `handleWrite`, `shutdownInLoop`, `send`, `shutdown`: the functions of the source.
* `stream`: the bytes that `::write` took, with those that wait behind them.
* `Settled`: the channel waits for `EPOLLOUT` exactly when bytes wait.
* `stream_sendInLoop`, `stream_handleWrite`: the one puts its message at the end of the stream, the
  other changes nothing about it, and both keep `Settled`.

The kernel is a parameter: every call of `::write` comes with its result. The record also keeps what
the properties speak of: what was sent, what was written, and when the two moments that a user can
notice (the write-complete callback and the shutdown of the socket) came.
-/

namespace SwiftNetCore

/-- The `errno` values that `sendInLoop` tells apart. -/
inductive WriteErrno where
  | EWOULDBLOCK
  | EPIPE
  | ECONNRESET
  | other
  deriving DecidableEq, Repr

/-- What a call of `::write` returns: the number of bytes it took, or `-1` and `errno`. -/
inductive WriteResult where
  | wrote (n : ℕ)
  | failed (errno : WriteErrno)
  deriving DecidableEq, Repr

namespace WriteResult

/-- `::write` takes no more bytes than it is given. -/
def Within (len : ℕ) : WriteResult → Prop
  | wrote n => n ≤ len
  | failed _ => True

instance (len : ℕ) : DecidablePred (Within len)
  | wrote n => inferInstanceAs (Decidable (n ≤ len))
  | failed _ => inferInstanceAs (Decidable True)

/-- The errors on which `sendInLoop` gives up. Source: TcpConnection.cpp 215 -/
def isFault : WriteResult → Bool
  | failed .EPIPE | failed .ECONNRESET => true
  | _ => false

end WriteResult

/-- What waits in `pendingFunctors_` on behalf of a connection. -/
inductive LoopFunctor where
  | sendInLoop (message : Bytes)
  | shutdownInLoop
  | writeCompleteCallback
  | highWaterMarkCallback (size : ℕ)
  deriving DecidableEq, Repr

/-- The message of a queued `sendInLoop`. -/
def LoopFunctor.message? : LoopFunctor → Option Bytes
  | sendInLoop message => some message
  | _ => none

/-- What was written and what had been sent at some moment. -/
structure Moment where
  written : Bytes
  sent : List Bytes
  deriving DecidableEq, Repr

/-- A `TcpConnection` with its channel and its socket, as its output side sees them.
Source: TcpConnection.h 115-130 -/
structure TcpConnection where
  /-- `state_`, which `connectEstablished` sets to `kConnected` -/
  state : StateE := .kConnected
  /-- `channel_->isWriting()` -/
  isWriting : Bool := false
  /-- `outputBuffer_` -/
  outputBuffer : Buffer := .new Buffer.kInitialSize
  /-- `highWaterMark_` -/
  highWaterMark : ℕ := 64 * 1024 * 1024
  /-- whether `writeCompleteCallback_` is set -/
  writeCompleteCallback : Bool := false
  /-- whether `highWaterMarkCallback_` is set -/
  highWaterMarkCallback : Bool := false
  /-- `pendingFunctors_` of the loop -/
  pendingFunctors : List LoopFunctor := []
  /-- the bytes that `::write` took -/
  written : Bytes := []
  /-- the messages of the `send` calls that found `kConnected`, in the order they did -/
  sent : List Bytes := []
  /-- the messages that `sendInLoop` took on, in the order it did -/
  handed : List Bytes := []
  /-- when `writeCompleteCallback_` was queued -/
  completions : List Moment := []
  /-- when `Socket::shutdownWrite` was executed -/
  shutdowns : List Moment := []

namespace TcpConnection

/-- A connection behind `connectEstablished`, with the callbacks and the mark its owner has set. -/
def established (highWaterMark : ℕ) (writeComplete highWater : Bool) : TcpConnection where
  highWaterMark := highWaterMark
  writeCompleteCallback := writeComplete
  highWaterMarkCallback := highWater

/-- `loop_->queueInLoop(..)`. Source: EventLoop.cpp 114-127 -/
def queueInLoop (functor : LoopFunctor) (c : TcpConnection) : TcpConnection :=
  { c with pendingFunctors := c.pendingFunctors ++ [functor] }

/-- Queue `writeCompleteCallback_`, if there is one. Source: TcpConnection.cpp 91-96, 203-208 -/
def queueWriteComplete (c : TcpConnection) : TcpConnection :=
  if c.writeCompleteCallback then
    { c.queueInLoop .writeCompleteCallback with
      completions := c.completions ++ [⟨c.written, c.sent⟩] }
  else c

/-- Queue `highWaterMarkCallback_` when `remaining` bytes more carry `outputBuffer_` over the mark.
Source: TcpConnection.cpp 231-236 -/
def queueHighWaterMark (remaining : ℕ) (c : TcpConnection) : TcpConnection :=
  if c.outputBuffer.readableBytes + remaining > c.highWaterMark ∧
      c.outputBuffer.readableBytes < c.highWaterMark ∧ c.highWaterMarkCallback = true then
    c.queueInLoop (.highWaterMarkCallback (c.outputBuffer.readableBytes + remaining))
  else c

/-- `Socket::shutdownWrite`: the end of the stream is sent. -/
def shutdownWrite (c : TcpConnection) : TcpConnection :=
  { c with shutdowns := c.shutdowns ++ [⟨c.written, c.sent⟩] }

/-- The socket is shut down unless the channel waits for `EPOLLOUT`.
Source: TcpConnection.cpp 275-281 -/
def shutdownInLoop (c : TcpConnection) : TcpConnection :=
  if c.isWriting then c else c.shutdownWrite

/-- The attempt of `sendInLoop` to write at once: `nwrote`, `faultError` and the connection behind
it. Source: TcpConnection.cpp 196-221 -/
def writeAtOnce (message : Bytes) (result : WriteResult) (c : TcpConnection) :
    ℕ × Bool × TcpConnection :=
  if c.isWriting = false ∧ c.outputBuffer.readableBytes = 0 then
    match result with
    | .wrote n =>
      let c := { c with written := c.written ++ message.take n }
      (n, false, if message.length - n = 0 then c.queueWriteComplete else c)
    | .failed _ => (0, result.isFault, c)
  else (0, false, c)

/-- The rest of `sendInLoop`: what was not written waits in `outputBuffer_`.
Source: TcpConnection.cpp 229-243 -/
def sendLater (rest : Bytes) (c : TcpConnection) : TcpConnection :=
  { c.queueHighWaterMark rest.length with
    outputBuffer := c.outputBuffer.append rest
    isWriting := true }

/-- `sendInLoop`. `result` is what `::write` returns if it is called.
Source: TcpConnection.cpp 183-244 -/
def sendInLoop (message : Bytes) (result : WriteResult) (c : TcpConnection) : TcpConnection :=
  if c.state = .kDisconnected then c
  else
    let c := { c with handed := c.handed ++ [message] }
    let (nwrote, faultError, c) := c.writeAtOnce message result
    if faultError = false ∧ message.length - nwrote > 0 then c.sendLater (message.drop nwrote)
    else c

/-- `handleWrite`, with the result of its `writeFd`. Source: TcpConnection.cpp 79-112 -/
def handleWrite (result : WriteResult) (c : TcpConnection) : TcpConnection :=
  if c.isWriting then
    match result with
    | .wrote n =>
      if n > 0 then
        let c := { c with
          written := c.written ++ c.outputBuffer.readable.take n
          outputBuffer := c.outputBuffer.retrieve n }
        if c.outputBuffer.readableBytes = 0 then
          let c := { c with isWriting := false }.queueWriteComplete
          if c.state = .kDisconnecting then c.shutdownInLoop else c
        else c
      else c
    | .failed _ => c
  else c

/-- `send`, called in the loop thread. Source: TcpConnection.cpp 141-148, 162-166 -/
def send (message : Bytes) (result : WriteResult) (c : TcpConnection) : TcpConnection :=
  if c.state = .kConnected then c.sendInLoop message result else c

/-- A call of `send` is noted, if it finds `kConnected`. -/
def noteSent (message : Bytes) (c : TcpConnection) : TcpConnection :=
  if c.state = .kConnected then { c with sent := c.sent ++ [message] } else c

/-- `shutdown`, called in the loop thread. Source: TcpConnection.cpp 266-274 -/
def shutdown (c : TcpConnection) : TcpConnection :=
  if c.state = .kConnected then { c with state := .kDisconnecting }.shutdownInLoop else c

/-- The messages that wait in `pendingFunctors_`. -/
def queuedSends (c : TcpConnection) : List Bytes :=
  c.pendingFunctors.filterMap LoopFunctor.message?

/-! ## Queueing a callback changes nothing else -/

section queue

variable (c : TcpConnection)

/-- Queueing `writeCompleteCallback_` leaves the state as it is. -/
@[simp] lemma queueWriteComplete_state : c.queueWriteComplete.state = c.state := by
  unfold queueWriteComplete
  split <;> rfl

/-- Queueing `writeCompleteCallback_` leaves the events of the channel as they are. -/
@[simp] lemma queueWriteComplete_isWriting : c.queueWriteComplete.isWriting = c.isWriting := by
  unfold queueWriteComplete
  split <;> rfl

/-- Queueing `writeCompleteCallback_` leaves `outputBuffer_` as it is. -/
@[simp] lemma queueWriteComplete_outputBuffer :
    c.queueWriteComplete.outputBuffer = c.outputBuffer := by
  unfold queueWriteComplete
  split <;> rfl

/-- Queueing `writeCompleteCallback_` writes nothing. -/
@[simp] lemma queueWriteComplete_written : c.queueWriteComplete.written = c.written := by
  unfold queueWriteComplete
  split <;> rfl

/-- Queueing `writeCompleteCallback_` is no call of `send`. -/
@[simp] lemma queueWriteComplete_sent : c.queueWriteComplete.sent = c.sent := by
  unfold queueWriteComplete
  split <;> rfl

/-- Queueing `writeCompleteCallback_` hands nothing to `sendInLoop`. -/
@[simp] lemma queueWriteComplete_handed : c.queueWriteComplete.handed = c.handed := by
  unfold queueWriteComplete
  split <;> rfl

/-- Queueing `writeCompleteCallback_` does not shut the socket down. -/
@[simp] lemma queueWriteComplete_shutdowns : c.queueWriteComplete.shutdowns = c.shutdowns := by
  unfold queueWriteComplete
  split <;> rfl

/-- Queueing `writeCompleteCallback_` queues no `sendInLoop`. -/
@[simp] lemma queueWriteComplete_queuedSends :
    c.queueWriteComplete.queuedSends = c.queuedSends := by
  unfold queueWriteComplete
  split
  · simp [queuedSends, queueInLoop, LoopFunctor.message?]
  · rfl

/-- The moment at which the callback is queued is the present one. -/
lemma queueWriteComplete_completions : c.queueWriteComplete.completions = c.completions ∨
    c.queueWriteComplete.completions = c.completions ++ [⟨c.written, c.sent⟩] := by
  unfold queueWriteComplete
  split
  · exact Or.inr rfl
  · exact Or.inl rfl

/-- Bytes that have to wait go to the end of `outputBuffer_`, and a callback may be queued. -/
lemma sendLater_eq (rest : Bytes) : c.sendLater rest =
    { c with
      outputBuffer := c.outputBuffer.append rest
      isWriting := true
      pendingFunctors := (c.sendLater rest).pendingFunctors } := by
  unfold sendLater queueHighWaterMark
  split <;> rfl

/-- The rest of `sendInLoop` queues no `sendInLoop`. -/
lemma sendLater_queuedSends (rest : Bytes) : (c.sendLater rest).queuedSends = c.queuedSends := by
  unfold sendLater queueHighWaterMark
  split
  · simp [queuedSends, queueInLoop, LoopFunctor.message?]
  · rfl

end queue

/-- A call of `send` that is noted. -/
lemma send_noteSent (c : TcpConnection) (message : Bytes) (result : WriteResult) :
    (c.noteSent message).send message result =
      if c.state = .kConnected then
        { c with sent := c.sent ++ [message] }.sendInLoop message result
      else c := by
  unfold send noteSent
  by_cases h : c.state = .kConnected
  · simp [h]
  · simp [h]

/-! ## The stream -/

/-- The bytes that `::write` took, and behind them those that wait in `outputBuffer_`. -/
def stream (c : TcpConnection) : Bytes := c.written ++ c.outputBuffer.readable

/-- The channel waits for `EPOLLOUT` exactly when bytes wait in `outputBuffer_`. -/
def Settled (c : TcpConnection) : Prop := c.isWriting = true ↔ c.outputBuffer.readable ≠ []

variable {c : TcpConnection} {message rest : Bytes} {result : WriteResult} {n : ℕ}

/-- A buffer has no readable bytes exactly when what can be read is empty. -/
lemma readableBytes_eq_zero_iff (b : Buffer) : b.readableBytes = 0 ↔ b.readable = [] := by
  rw [← List.length_eq_zero_iff, Buffer.length_readable]
  rfl

/-- While the channel does not wait for `EPOLLOUT`, no bytes wait in `outputBuffer_`. -/
lemma Settled.readable_eq_nil (h : c.Settled) (hw : c.isWriting = false) :
    c.outputBuffer.readable = [] := by
  by_contra hne
  rw [h.mpr hne] at hw
  exact absurd hw nofun

/-- When nothing waits, all of the stream is written. -/
lemma Settled.stream_eq (h : c.Settled) (hw : c.isWriting = false) : c.stream = c.written := by
  rw [stream, h.readable_eq_nil hw, List.append_nil]

/-- What every function of the output side does: the stream gets longer by `added`, and
`writeCompleteCallback_` is queued only when all of it is written, and no message is queued. -/
structure Advances (added : Bytes) (c c' : TcpConnection) : Prop where
  stream_eq : c'.stream = c.stream ++ added
  settled : c'.Settled
  state_eq : c'.state = c.state
  sent_eq : c'.sent = c.sent
  queuedSends_eq : c'.queuedSends = c.queuedSends
  completions : c'.completions = c.completions ∨
    c'.completions = c.completions ++ [⟨c.stream ++ added, c.sent⟩]

/-- What `sendInLoop` comes to when `::write` is called and takes `n` bytes. -/
lemma sendInLoop_of_wrote (hs : c.state ≠ .kDisconnected) (hw : c.isWriting = false)
    (hb : c.outputBuffer.readable = []) :
    c.sendInLoop message (.wrote n) =
      let c := { c with handed := c.handed ++ [message], written := c.written ++ message.take n }
      if message.length - n = 0 then c.queueWriteComplete else c.sendLater (message.drop n) := by
  have hzero := (readableBytes_eq_zero_iff c.outputBuffer).mpr hb
  unfold sendInLoop writeAtOnce
  simp only [hs, hw, hzero, if_false, and_self, if_true, true_and]
  by_cases hn : message.length - n = 0
  · simp [hn]
  · simp [hn, Nat.pos_of_ne_zero hn]

/-- What `sendInLoop` comes to when `::write` is not called, or fails without a fault. -/
lemma sendInLoop_of_waits (hs : c.state ≠ .kDisconnected) (hf : result.isFault = false)
    (hw : (c.isWriting = false ∧ c.outputBuffer.readable = []) → ∃ errno, result = .failed errno) :
    c.sendInLoop message result =
      let c := { c with handed := c.handed ++ [message] }
      if message = [] then c else c.sendLater message := by
  have hone : ∀ c' : TcpConnection, c'.isWriting = c.isWriting → c'.outputBuffer = c.outputBuffer →
      c'.writeAtOnce message result = (0, false, c') := by
    intro c' h₁ h₂
    unfold writeAtOnce
    rw [h₁, h₂]
    by_cases h : c.isWriting = false ∧ c.outputBuffer.readableBytes = 0
    · obtain ⟨errno, rfl⟩ := hw ⟨h.1, (readableBytes_eq_zero_iff _).mp h.2⟩
      rw [if_pos h, hf]
    · rw [if_neg h]
  unfold sendInLoop
  rw [if_neg hs]
  simp only [hone]
  by_cases hm : message = []
  · simp [hm]
  · simp [hm, List.length_pos_iff.mpr hm]

/-- **`sendInLoop` puts its message at the end of the stream**, whichever part of it is written at
once. -/
lemma advances_sendInLoop (hc : c.Settled) (hs : c.state ≠ .kDisconnected)
    (hr : result.Within message.length) (hf : result.isFault = false) :
    Advances message c (c.sendInLoop message result) := by
  by_cases hwrites : ∃ n, result = .wrote n ∧ c.isWriting = false
  · obtain ⟨n, rfl, hw⟩ := hwrites
    have hb := hc.readable_eq_nil hw
    rw [sendInLoop_of_wrote hs hw hb]
    by_cases hn : message.length - n = 0
    · have hall : message.take n = message := List.take_of_length_le (by omega)
      simp only [hn, if_true, hall]
      refine ⟨?_, ?_, by simp, by simp, ?_, ?_⟩
      · simp [stream, hb]
      · simp [Settled, hb, hw]
      · rw [queueWriteComplete_queuedSends]
        rfl
      · convert queueWriteComplete_completions _ using 2
        simp [stream, hb]
    · have hrest : message.drop n ≠ [] := by
        rw [← List.length_pos_iff, List.length_drop]
        omega
      simp only [hn, if_false]
      refine ⟨?_, ?_, ?_, ?_, sendLater_queuedSends _ _, Or.inl ?_⟩ <;> rw [sendLater_eq]
      · simp [stream, hb]
      · simp [Settled, hrest]
  · rw [sendInLoop_of_waits hs hf]
    · by_cases hm : message = []
      · simp only [hm, if_true]
        refine ⟨?_, hc, rfl, rfl, rfl, Or.inl rfl⟩
        simp [stream]
      · simp only [hm, if_false]
        refine ⟨?_, ?_, ?_, ?_, sendLater_queuedSends _ _, Or.inl ?_⟩ <;> rw [sendLater_eq]
        · simp [stream]
        · simp [Settled, hm]
    · rintro ⟨hw, -⟩
      cases result with
      | wrote n => exact absurd ⟨n, rfl, hw⟩ hwrites
      | failed errno => exact ⟨errno, rfl⟩

section frame

variable (c message result)

/-- The attempt to write at once leaves the state, the stream and the shutdowns as they are. -/
lemma writeAtOnce_frame : (c.writeAtOnce message result).2.2.state = c.state ∧
    (c.writeAtOnce message result).2.2.handed = c.handed ∧
    (c.writeAtOnce message result).2.2.shutdowns = c.shutdowns := by
  unfold writeAtOnce
  split
  · cases result with
    | wrote n =>
        simp only
        split <;> simp
    | failed errno => exact ⟨rfl, rfl, rfl⟩
  · exact ⟨rfl, rfl, rfl⟩

/-- `sendInLoop` leaves the state as it is. -/
lemma sendInLoop_state : (c.sendInLoop message result).state = c.state := by
  unfold sendInLoop
  split
  · rfl
  · simp only
    split
    · rw [sendLater_eq]
      exact (writeAtOnce_frame _ _ _).1
    · exact (writeAtOnce_frame _ _ _).1

/-- `sendInLoop` takes its message on, whatever becomes of it. -/
lemma sendInLoop_handed (hs : c.state ≠ .kDisconnected) :
    (c.sendInLoop message result).handed = c.handed ++ [message] := by
  unfold sendInLoop
  rw [if_neg hs]
  simp only
  split
  · rw [sendLater_eq]
    exact (writeAtOnce_frame _ _ _).2.1
  · exact (writeAtOnce_frame _ _ _).2.1

/-- `sendInLoop` does not shut the socket down. -/
lemma sendInLoop_shutdowns : (c.sendInLoop message result).shutdowns = c.shutdowns := by
  unfold sendInLoop
  split
  · rfl
  · simp only
    split
    · rw [sendLater_eq]
      exact (writeAtOnce_frame _ _ _).2.2
    · exact (writeAtOnce_frame _ _ _).2.2

end frame

/-- A writable event that empties `outputBuffer_`. -/
def Drains (c : TcpConnection) : WriteResult → Prop
  | .wrote n => c.isWriting = true ∧ 0 < n ∧ c.outputBuffer.readable.length ≤ n
  | .failed _ => False

instance (c : TcpConnection) : DecidablePred c.Drains
  | .wrote _ => inferInstanceAs (Decidable (_ ∧ _))
  | .failed _ => inferInstanceAs (Decidable False)

/-- The connection behind the write that takes the last bytes that wait. -/
def emptied (c : TcpConnection) : TcpConnection :=
  { c with written := c.stream, outputBuffer := c.outputBuffer.retrieveAll, isWriting := false }

/-- The last bytes that waited are written: the channel stops waiting, and a connection that was
told to shut down does so. -/
lemma handleWrite_of_drains (h : c.Drains result) :
    c.handleWrite result = if c.state = .kDisconnecting then
      c.emptied.queueWriteComplete.shutdownWrite else c.emptied.queueWriteComplete := by
  cases result with
  | failed errno => exact absurd h nofun
  | wrote n =>
      obtain ⟨hw, hn, hlen⟩ := h
      have hretrieve : c.outputBuffer.retrieve n = c.outputBuffer.retrieveAll := by
        rw [Buffer.length_readable] at hlen
        rw [Buffer.retrieve, dif_neg (not_lt.mpr hlen)]
      have hzero : c.outputBuffer.retrieveAll.readableBytes = 0 :=
        (readableBytes_eq_zero_iff _).mpr (Buffer.readable_retrieveAll _)
      unfold handleWrite
      simp only [hw, hn, hretrieve, hzero, if_true, List.take_of_length_le hlen,
        queueWriteComplete_state, shutdownInLoop, queueWriteComplete_isWriting]
      rfl

/-- A writable event that does not drain the buffer moves some of the bytes that wait, or none. -/
lemma handleWrite_of_not_drains (h : ¬ c.Drains result) :
    ∃ n, (n = 0 ∨ n < c.outputBuffer.readable.length ∧ c.isWriting = true) ∧
      c.handleWrite result = { c with
        written := c.written ++ c.outputBuffer.readable.take n
        outputBuffer := if n = 0 then c.outputBuffer else c.outputBuffer.retrieve n } := by
  unfold handleWrite
  by_cases hw : c.isWriting = true
  · cases result with
    | failed errno => exact ⟨0, Or.inl rfl, by simp⟩
    | wrote n =>
        by_cases hn : n = 0
        · exact ⟨0, Or.inl rfl, by simp [hn]⟩
        · have hlt : n < c.outputBuffer.readable.length := by
            by_contra hle
            exact h ⟨hw, Nat.pos_of_ne_zero hn, not_lt.mp hle⟩
          have hleft : (c.outputBuffer.retrieve n).readableBytes ≠ 0 := by
            rw [ne_eq, readableBytes_eq_zero_iff, Buffer.readable_retrieve, List.drop_eq_nil_iff]
            omega
          exact ⟨n, Or.inr ⟨hlt, hw⟩, by simp [hw, hn, Nat.pos_of_ne_zero hn, hleft]⟩
  · refine ⟨0, Or.inl rfl, ?_⟩
    rw [if_neg hw]
    simp

/-- **A writable event changes nothing about the stream.** -/
lemma advances_handleWrite (hc : c.Settled) : Advances [] c (c.handleWrite result) := by
  by_cases h : c.Drains result
  · rw [handleWrite_of_drains h]
    have hcomplete := queueWriteComplete_completions c.emptied
    split
    · refine ⟨?_, ?_, ?_, ?_, queueWriteComplete_queuedSends _, ?_⟩
      · simp [stream, shutdownWrite, emptied]
      · simp [Settled, shutdownWrite, emptied]
      · simp [shutdownWrite, emptied]
      · simp [shutdownWrite, emptied]
      · simpa [shutdownWrite, emptied] using hcomplete
    · refine ⟨?_, ?_, ?_, ?_, queueWriteComplete_queuedSends _, ?_⟩
      · simp [stream, emptied]
      · simp [Settled, emptied]
      · simp [emptied]
      · simp [emptied]
      · simpa [emptied] using hcomplete
  · obtain ⟨n, hn, heq⟩ := handleWrite_of_not_drains h
    rw [heq]
    rcases hn with rfl | ⟨hlt, hw⟩
    · refine ⟨by simp [stream], by simpa [Settled] using hc, rfl, rfl, rfl, Or.inl rfl⟩
    · by_cases hzero : n = 0
      · subst hzero
        refine ⟨by simp [stream], by simpa [Settled] using hc, rfl, rfl, rfl, Or.inl rfl⟩
      · refine ⟨?_, ?_, rfl, rfl, rfl, Or.inl rfl⟩
        · simp [stream, hzero, Buffer.readable_retrieve]
        · simp only [Settled, hw, hzero, if_false, Buffer.readable_retrieve, ne_eq,
            List.drop_eq_nil_iff, true_iff]
          omega

/-- `handleWrite` leaves the state as it is. -/
lemma handleWrite_state : (c.handleWrite result).state = c.state := by
  by_cases h : c.Drains result
  · rw [handleWrite_of_drains h]
    split <;> simp [shutdownWrite, emptied]
  · obtain ⟨n, -, heq⟩ := handleWrite_of_not_drains h
    rw [heq]

/-- `handleWrite` hands nothing to `sendInLoop`. -/
lemma handleWrite_handed : (c.handleWrite result).handed = c.handed := by
  by_cases h : c.Drains result
  · rw [handleWrite_of_drains h]
    split <;> simp [shutdownWrite, emptied]
  · obtain ⟨n, -, heq⟩ := handleWrite_of_not_drains h
    rw [heq]

/-- A writable event shuts the socket down when it empties `outputBuffer_` after `shutdown`. -/
lemma handleWrite_shutdowns : (c.handleWrite result).shutdowns =
    if c.Drains result ∧ c.state = .kDisconnecting then c.shutdowns ++ [⟨c.stream, c.sent⟩]
    else c.shutdowns := by
  by_cases h : c.Drains result
  · rw [handleWrite_of_drains h]
    by_cases hs : c.state = .kDisconnecting <;> simp [h, hs, shutdownWrite, emptied]
  · obtain ⟨n, -, heq⟩ := handleWrite_of_not_drains h
    rw [heq]
    simp [h]

/-- Shutting the socket down changes nothing about the stream. -/
lemma advances_shutdownInLoop (hc : c.Settled) : Advances [] c c.shutdownInLoop := by
  unfold shutdownInLoop
  split
  · exact ⟨by simp, hc, rfl, rfl, rfl, Or.inl rfl⟩
  · exact ⟨by simp [stream, shutdownWrite], hc, rfl, rfl, rfl, Or.inl rfl⟩

end TcpConnection

end SwiftNetCore
