import SwiftNetCore.Base

/-!
# A `TcpConnection` as the HTTP layer sees it

The HTTP callbacks run in the loop thread of their connection and touch it in four ways: they
read and consume `inputBuffer_`, ask `connected()`, and call `send` and `shutdown`. `Endpoint` is
the part of `TcpConnection` that these calls read and write; what becomes of the bytes that `send`
accepts (a direct `write`, or `outputBuffer_`) is not visible to their caller.
-/

namespace SwiftNetCore

/-- `TcpConnection::StateE`. Source: TcpConnection.h 98-104 -/
inductive StateE where
  | kDisconnected
  | kConnecting
  | kConnected
  | kDisconnecting
  deriving DecidableEq, Repr

/-- The part of a `TcpConnection` that the HTTP callbacks read and write. -/
structure Endpoint where
  /-- `state_`, which `connectEstablished` sets to `kConnected` -/
  state : StateE := .kConnected
  /-- the readable bytes of `inputBuffer_` -/
  inputBuffer : Bytes := []
  /-- what `send` has accepted, one entry for each call -/
  sent : List Bytes := []
  deriving DecidableEq

namespace Endpoint

variable (conn : Endpoint)

/-- `connected()`. Source: TcpConnection.h 35 -/
def connected : Bool := conn.state = .kConnected

/-- `send`: nothing is sent unless the connection is in state `kConnected`.
Source: TcpConnection.cpp 141-180 -/
def send (message : Bytes) : Endpoint :=
  if conn.state = .kConnected then { conn with sent := conn.sent ++ [message] } else conn

/-- `shutdown()`. Source: TcpConnection.cpp 266-274 -/
def shutdown : Endpoint :=
  if conn.state = .kConnected then { conn with state := .kDisconnecting } else conn

/-- `send` does not touch `inputBuffer_`. -/
@[simp] lemma send_inputBuffer (message : Bytes) :
    (conn.send message).inputBuffer = conn.inputBuffer := by
  unfold send
  split <;> rfl

/-- `shutdown` does not touch `inputBuffer_`. -/
@[simp] lemma shutdown_inputBuffer : conn.shutdown.inputBuffer = conn.inputBuffer := by
  unfold shutdown
  split <;> rfl

/-- After `shutdown` the connection is not in state `kConnected`. -/
lemma shutdown_state_ne : conn.shutdown.state ≠ .kConnected := by
  unfold shutdown
  split
  · simp
  · assumption

end Endpoint

end SwiftNetCore
