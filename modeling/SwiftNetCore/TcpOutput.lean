import SwiftNetCore.TcpConnection
import SwiftNetCore.Lib.Path

/-!
# The output stream

A connection that is used in its loop thread: `send` and `shutdown` are called, and the poller
reports writable events, in any order and with any results of `::write` but the two errors that end
a connection. `stream_intact` says what holds all the time: what was written and what waits are
together what was sent, in order; the channel waits for `EPOLLOUT` exactly when bytes wait; and the
write-complete callback is queued only when everything sent is written.
-/

namespace SwiftNetCore

open Paths (Path Throughout trace path_trace)

/-- What happens to the output side of a connection in its loop thread. The result is that of
`::write`, for the case that it is called. -/
inductive OutputEvent where
  | send (message : Bytes) (result : WriteResult)
  | shutdown
  | writable (result : WriteResult)
  deriving DecidableEq, Repr

namespace TcpConnection

/-- `::write` takes no more than it is given, and fails with neither `EPIPE` nor `ECONNRESET`. -/
def Possible (c : TcpConnection) : OutputEvent → Prop
  | .send message result => result.Within message.length ∧ result.isFault = false
  | .shutdown => True
  | .writable result => result.Within c.outputBuffer.readable.length ∧ result.isFault = false

instance (c : TcpConnection) : DecidablePred c.Possible
  | .send _ _ => inferInstanceAs (Decidable (_ ∧ _))
  | .shutdown => inferInstanceAs (Decidable True)
  | .writable _ => inferInstanceAs (Decidable (_ ∧ _))

/-- What an event does. The calls of `send` are noted here. -/
def onEvent (c : TcpConnection) : OutputEvent → TcpConnection
  | .send message result => (c.noteSent message).send message result
  | .shutdown => c.shutdown
  | .writable result => c.handleWrite result

/-- One event. -/
def outputStep (c : TcpConnection) (event : OutputEvent) : Option TcpConnection :=
  if c.Possible event then some (c.onEvent event) else none

/-- The steps of the output side. -/
def OutputStep (c : TcpConnection) (event : OutputEvent) (c' : TcpConnection) : Prop :=
  c.outputStep event = some c'

/-- Nothing of what was sent is lost, repeated or out of order. -/
structure Intact (c : TcpConnection) : Prop where
  /-- what was written and what waits are what was sent -/
  stream : c.written ++ c.outputBuffer.readable = c.sent.flatten
  /-- the channel waits for `EPOLLOUT` exactly when bytes wait -/
  writing : c.isWriting = true ↔ c.outputBuffer.readable ≠ []
  /-- when the write-complete callback was queued, everything sent was written -/
  completions : ∀ m ∈ c.completions, m.written = m.sent.flatten

variable {c c' d : TcpConnection} {event : OutputEvent} {added : Bytes}

/-- A function that puts what is sent at the end of the stream keeps the stream intact. -/
lemma Intact.advances (h : c.Intact) (hadv : Advances added d c') (hd : d.stream = c.stream)
    (hcomp : d.completions = c.completions)
    (hsent : d.sent.flatten = c.sent.flatten ++ added) : c'.Intact := by
  have hstream : d.stream ++ added = d.sent.flatten := by
    rw [hd, hsent]
    exact congrArg (· ++ added) h.stream
  refine ⟨?_, hadv.settled, ?_⟩
  · rw [hadv.sent_eq, ← hstream]
    exact hadv.stream_eq
  · intro m hm
    rcases hadv.completions with heq | heq
    · rw [heq, hcomp] at hm
      exact h.completions m hm
    · rw [heq, List.mem_append, List.mem_singleton, hcomp] at hm
      rcases hm with hm | rfl
      · exact h.completions m hm
      · exact hstream

/-- Every event keeps the stream intact. -/
lemma Intact.onEvent (h : c.Intact) (hp : c.Possible event) : (c.onEvent event).Intact := by
  cases event with
  | send message result =>
      show ((c.noteSent message).send message result).Intact
      rw [send_noteSent]
      split
      · rename_i hstate
        have hopen : c.state ≠ .kDisconnected := by
          rw [hstate]
          decide
        have hadv : Advances message { c with sent := c.sent ++ [message] }
            ({ c with sent := c.sent ++ [message] }.sendInLoop message result) :=
          advances_sendInLoop h.writing hopen hp.1 hp.2
        exact h.advances hadv rfl rfl (by simp)
      · exact h
  | shutdown =>
      show c.shutdown.Intact
      unfold shutdown
      split
      · have hadv : Advances [] { c with state := .kDisconnecting }
            { c with state := .kDisconnecting }.shutdownInLoop :=
          advances_shutdownInLoop h.writing
        exact h.advances hadv rfl rfl (List.append_nil _).symm
      · exact h
  | writable result =>
      exact h.advances (advances_handleWrite h.writing) rfl rfl (List.append_nil _).symm

/-- **The output stream is intact**, on every connection, throughout every run. -/
theorem stream_intact {highWaterMark : ℕ} {writeComplete highWater : Bool}
    {p : List (OutputEvent × TcpConnection)}
    (hp : Path OutputStep (established highWaterMark writeComplete highWater) p) :
    Throughout Intact (established highWaterMark writeComplete highWater) p := by
  apply hp.throughout
  · intro c event c' hc hstep
    unfold OutputStep outputStep at hstep
    split at hstep
    · rename_i hpossible
      rw [← Option.some.inj hstep]
      exact hc.onEvent hpossible
    · exact absurd hstep nofun
  · exact ⟨rfl, by simp [established, Buffer.readable, Buffer.new], nofun⟩

/-- Two messages of which the kernel takes a part at a time, with a full socket in between. -/
theorem stream_intact_partial_writes :
    Throughout Intact (established 2 true true)
      (trace outputStep (established 2 true true)
        [.send [1, 2, 3] (.wrote 1), .send [4] (.wrote 0), .writable (.failed .EWOULDBLOCK),
          .writable (.wrote 2), .shutdown, .writable (.wrote 1)]) :=
  stream_intact (path_trace outputStep _ _)

end TcpConnection

end SwiftNetCore
