import Mathlib

/-!
# `Connector`

`start` and `stop` come from any thread: they write `connect_` and then give the loop a functor,
or, in the loop thread, `start` goes on with `startInLoop` at once. Everything else runs in the
loop thread. A step is one such write, one such hand-over to the loop, or one callback, functor or
timer of the loop thread, from beginning to end; none of these reads `connect_` twice, so where
other threads write it in between, the step is where it is read. `handleWrite` does nothing behind
`newConnectionCallback_`, so what that calls is a later step.

Sockets are numbered in the order of their creation, in place of the descriptors, which the
system uses again; the lists of the closed ones and of those handed over are what the calls of
`sockets::close` and `newConnectionCallback_` were given.
-/

namespace SwiftNetCore

/-! ## The state -/

namespace Connector

/-- `Connector::States`. Source: Connector.h 33-38 -/
inductive States where
  | kDisconnected
  | kConnecting
  | kConnected
  deriving DecidableEq, Repr

/-- A `Channel` that `connecting` makes: its callbacks are always `handleWrite` and
`handleError`. -/
structure Channel where
  fd : ℕ
  deriving DecidableEq, Repr

/-- A functor in the loop's queue. -/
inductive PendingFunctor where
  | startInLoop
  | stopInLoop
  | resetChannel
  deriving DecidableEq, Repr

/-- A call from a thread other than the loop's. -/
inductive Call where
  | start
  | stop
  deriving DecidableEq, Repr

/-- Where the loop thread is. -/
inductive Point where
  /-- in no call -/
  | idle
  /-- in `start` or `restart`, in front of `startInLoop` -/
  | starting
  /-- in `stop`, in front of `queueInLoop` -/
  | stopping
  deriving DecidableEq, Repr

/-- The values of `errno` that `connect` tells apart. -/
inductive Errno where
  | EINPROGRESS
  | EINTR
  | EISCONN
  | EAGAIN
  | EADDRINUSE
  | EADDRNOTAVAIL
  | ECONNREFUSED
  | ENETUNREACH
  | EACCES
  | EPERM
  | EAFNOSUPPORT
  | EALREADY
  | EBADF
  | EFAULT
  | ENOTSOCK
  /-- any other -/
  | other
  deriving DecidableEq, Repr

/-- What the system answers to `connect`: no socket, or one and `savedErrno`, `none` for `0`. -/
inductive Attempt where
  | noSocket
  | socket (savedErrno : Option Errno)
  deriving DecidableEq, Repr

/-- `kInitRetryDelayMs`. Source: Connector.h 40 -/
def kInitRetryDelayMs : ℕ := 500

/-- `kMaxRetryDelayMs`. Source: Connector.h 39 -/
def kMaxRetryDelayMs : ℕ := 30 * 1000

end Connector

open Connector in
/-- A `Connector` with the parts of its loop that it uses, and the sockets it has made. -/
structure Connector where
  /-- `connect_` -/
  connect_ : Bool := false
  /-- `state_` -/
  state : States := .kDisconnected
  /-- `channel_` -/
  channel : Option Channel := none
  /-- `retryDelayMs_` -/
  retryDelayMs : ℕ := kInitRetryDelayMs
  /-- the functors in `pendingFunctors_` of the loop, the oldest first -/
  pendingFunctors : List PendingFunctor := []
  /-- the delays of the retry timers that have not expired -/
  timers : List ℕ := []
  /-- whether `timerQueue_` of the loop points to a `TimerQueue` -/
  timerQueue : Bool := false
  /-- the channels registered with the loop's poller -/
  poller : List Channel := []
  /-- the calls of other threads that have written `connect_` and not yet queued their functor -/
  calls : List Call := []
  /-- where the loop thread is -/
  point : Point := .idle
  /-- how many sockets were created -/
  created : ℕ := 0
  /-- the sockets closed -/
  closed : List ℕ := []
  /-- the sockets handed to `newConnectionCallback_` -/
  handed : List ℕ := []
  deriving DecidableEq

namespace Connector

variable (c : Connector)

/-! ## The loop -/

/-- `queueInLoop(cb)`. Source: EventLoop.cpp 114-127 -/
def queueInLoop (functor : PendingFunctor) : Connector :=
  { c with pendingFunctors := c.pendingFunctors ++ [functor] }

/-- `runAfter(delay, cb)`, for a callback that is always `startInLoop`; `none` where `timerQueue_`
is null and is used all the same. Source: EventLoop.cpp 180-189 -/
def runAfter (delay : ℕ) : Option Connector :=
  if c.timerQueue then some { c with timers := c.timers ++ [delay] } else none

/-! ## The functions of the loop thread -/

/-- `sockets::createNonblockingOrDie(family)`, where it succeeds: the new socket is `c.created`.
Source: SocketsOps.cpp 63-81 -/
def createNonblockingOrDie : Connector := { c with created := c.created + 1 }

/-- Creating a socket does not touch the poller. -/
@[simp] lemma createNonblockingOrDie_poller : c.createNonblockingOrDie.poller = c.poller := rfl

/-- `sockets::close(sockfd)`. Source: SocketsOps.cpp 165-171 -/
def close (sockfd : ℕ) : Connector := { c with closed := c.closed ++ [sockfd] }

/-- `retry(sockfd)`. Source: Connector.cpp 199-214 -/
def retry (sockfd : ℕ) : Option Connector :=
  let c := { c.close sockfd with state := .kDisconnected }
  if c.connect_ then
    (c.runAfter c.retryDelayMs).map fun c' =>
      { c' with retryDelayMs := min (c'.retryDelayMs * 2) kMaxRetryDelayMs }
  else some c

/-- With `connect_`, `retry` needs `timerQueue_`. -/
lemma retry_eq {c : Connector} {sockfd : ℕ} (hconnect : c.connect_ = true) :
    c.retry sockfd = if c.timerQueue then
      some { c.close sockfd with
        state := .kDisconnected
        timers := c.timers ++ [c.retryDelayMs]
        retryDelayMs := min (c.retryDelayMs * 2) kMaxRetryDelayMs }
    else none := by
  rcases htq : c.timerQueue <;> simp [retry, runAfter, close, hconnect, htq]

/-- `retry` with `connect_` reset closes the socket and sets no timer. -/
lemma retry_of_not_connect {c : Connector} {sockfd : ℕ} (hconnect : ¬ c.connect_ = true) :
    c.retry sockfd = some { c.close sockfd with state := .kDisconnected } := by
  have hclose : ¬ (c.close sockfd).connect_ = true := hconnect
  simp [retry, hclose]

/-- `connecting(sockfd)`: `enableWriting` registers the new channel, and the old one is destroyed
as it is. Source: Connector.cpp 121-133 -/
def connecting (sockfd : ℕ) : Connector :=
  { c with
    state := .kConnecting
    channel := some ⟨sockfd⟩
    poller := c.poller ++ [⟨sockfd⟩] }

/-- The three branches of the `switch` in `connect`. -/
inductive Branch where
  | connecting
  | retry
  | close
  deriving DecidableEq, Repr

/-- The branch for `savedErrno`. Source: Connector.cpp 77-110 -/
def branch : Option Errno → Branch
  | none | some .EINPROGRESS | some .EINTR | some .EISCONN => .connecting
  | some .EAGAIN | some .EADDRINUSE | some .EADDRNOTAVAIL | some .ECONNREFUSED
  | some .ENETUNREACH => .retry
  | some .EACCES | some .EPERM | some .EAFNOSUPPORT | some .EALREADY | some .EBADF
  | some .EFAULT | some .ENOTSOCK | some .other => .close

/-- `connect()`. Where no socket can be made, `sockets::connect` of `-1` fails with
`EBADF`, and closing `-1` does nothing. Source: Connector.cpp 72-111 -/
def connect : Attempt → Option Connector
  | .noSocket => some c
  | .socket savedErrno =>
    let sockfd := c.created
    let c := c.createNonblockingOrDie
    match branch savedErrno with
    | .connecting => some (c.connecting sockfd)
    | .retry => c.retry sockfd
    | .close => some (c.close sockfd)

/-- `startInLoop()`. Source: Connector.cpp 43-53 -/
def startInLoop (attempt : Attempt) : Option Connector :=
  if c.connect_ then c.connect attempt else some c

/-- `removeAndResetChannel()`, with the socket it returns; `none` where `channel_` is null and is
used all the same. Source: Connector.cpp 135-143 -/
def removeAndResetChannel : Option (Connector × ℕ) :=
  c.channel.map fun channel =>
    ({ c with poller := c.poller.filter (· ≠ channel) }.queueInLoop .resetChannel, channel.fd)

/-- `stopInLoop()`. Source: Connector.cpp 62-70 -/
def stopInLoop : Option Connector :=
  if c.state = .kConnecting then
    ({ c with state := .kDisconnected }.removeAndResetChannel).bind fun (c, sockfd) =>
      c.retry sockfd
  else some c

/-- `resetChannel()`. Source: Connector.cpp 145-148 -/
def resetChannel : Connector := { c with channel := none }

/-- `handleWrite()`, with the answers of `getSocketError`, as to whether it is not `0`, and of
`isSelfConnect`. Source: Connector.cpp 150-185 -/
def handleWrite (err selfConnect : Bool) : Option Connector :=
  if c.state = .kConnecting then
    c.removeAndResetChannel.bind fun (c, sockfd) =>
      if err then c.retry sockfd
      else if selfConnect then c.retry sockfd
      else
        let c := { c with state := .kConnected }
        if c.connect_ then some { c with handed := c.handed ++ [sockfd] }
        else some (c.close sockfd)
  else some c

/-- `handleError()`. Source: Connector.cpp 187-197 -/
def handleError : Option Connector :=
  if c.state = .kConnecting then
    c.removeAndResetChannel.bind fun (c, sockfd) => c.retry sockfd
  else some c

/-- A functor of the queue. Source: EventLoop.cpp 164-178 -/
def runFunctor (attempt : Attempt) : PendingFunctor → Option Connector
  | .startInLoop => c.startInLoop attempt
  | .stopInLoop => c.stopInLoop
  | .resetChannel => some c.resetChannel

/-! ## Steps -/

/-- What `start` and `stop` write. Source: Connector.cpp 39, 57 -/
def Call.connect_ : Call → Bool
  | .start => true
  | .stop => false

/-- The functor that they queue. Source: Connector.cpp 40, 58 -/
def Call.functor : Call → PendingFunctor
  | .start => .startInLoop
  | .stop => .stopInLoop

/-- What a thread does next. Where it may get to `connect`, with the system's answer. -/
inductive Event where
  /-- another thread calls `start` or `stop`, which writes `connect_` -/
  | call (call : Call)
  /-- the call with this index queues its functor -/
  | enqueue (i : ℕ)
  /-- the loop thread calls `start` or `stop`, which writes `connect_` -/
  | callInLoop (call : Call)
  /-- the loop thread calls `restart`, up to `startInLoop` -/
  | restart
  /-- the loop thread goes on with its call -/
  | goOn (attempt : Attempt)
  /-- the oldest functor -/
  | functor (attempt : Attempt)
  /-- the retry timer with this index expires -/
  | timer (i : ℕ) (attempt : Attempt)
  /-- a write event of `channel_` -/
  | write (err selfConnect : Bool)
  /-- an error event of `channel_` -/
  | error
  deriving DecidableEq

/-- `channel_` is registered with the poller. -/
def Registered : Prop := ∃ channel ∈ c.channel, channel ∈ c.poller

instance : Decidable c.Registered := inferInstanceAs (Decidable (∃ channel ∈ c.channel, _))

/-- One step; `none` where the loop thread is not at the point that the step starts from, or there
is no such event, and where a null pointer is used. An event of a channel that was destroyed while
it was registered is no step either. -/
def step : Event → Option Connector
  | .call call => some { c with connect_ := call.connect_, calls := c.calls ++ [call] }
  | .enqueue i =>
    c.calls[i]?.map fun call => { c with calls := c.calls.eraseIdx i }.queueInLoop call.functor
  | .callInLoop call =>
    if c.point = .idle then
      some { c with
        connect_ := call.connect_
        point := match call with
          | .start => .starting
          | .stop => .stopping }
    else none
  | .restart =>
    if c.point = .idle then
      some { c with
        state := .kDisconnected
        retryDelayMs := kInitRetryDelayMs
        connect_ := true
        point := .starting }
    else none
  | .goOn attempt =>
    match c.point with
    | .idle => none
    | .starting => { c with point := .idle }.startInLoop attempt
    | .stopping => some ({ c with point := .idle }.queueInLoop .stopInLoop)
  | .functor attempt =>
    match c.point, c.pendingFunctors with
    | .idle, functor :: functors =>
      { c with pendingFunctors := functors }.runFunctor attempt functor
    | _, _ => none
  | .timer i attempt =>
    if c.point = .idle ∧ i < c.timers.length then
      { c with timers := c.timers.eraseIdx i }.startInLoop attempt
    else none
  | .write err selfConnect =>
    if c.point = .idle ∧ c.Registered then c.handleWrite err selfConnect else none
  | .error => if c.point = .idle ∧ c.Registered then c.handleError else none

/-- The runs of the connector are those of this relation. -/
def Step (event : Event) (c' : Connector) : Prop := c.step event = some c'

instance (event : Event) (c' : Connector) : Decidable (c.Step event c') :=
  inferInstanceAs (Decidable (_ = _))

end Connector

end SwiftNetCore
