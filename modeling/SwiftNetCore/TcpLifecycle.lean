import SwiftNetCore.TcpShutdown

/-!
# The life of a connection

From `connectEstablished` on a `TcpConnection` is called by the poller, by its user, and in the end
by the server that destroys it. The user's callbacks may do anything that a user can do, so a call
that is in a callback is kept on a stack of `Frame`s while other steps are taken.

* `Lifecycle`: the connection with its channel's registration, the calls of the loop's thread and
  those of other threads.
* `Life`: what counts for the law: `state_`, the calls under way, and what the callbacks were told.
  `Step.change` is what a step does to it.
* `Lawful`: once `connectDestroyed` has completed, `connectionCallback_` was told once that the
  connection is up and once that it is down, and it stays down.
* `lawful_iff_orderly`: over every run that is over, the law holds throughout exactly when three
  things do not happen.
-/

namespace SwiftNetCore

open Paths (Path Throughout MeetsAll)

/-! ## The connection and its calls -/

/-- What `revents_` of a channel has. `kReadEvent` is `EPOLLIN || EPOLLPRI`, which is `EPOLLIN`. -/
structure Revents where
  EPOLLHUP : Bool := false
  EPOLLERR : Bool := false
  EPOLLIN : Bool := false
  EPOLLOUT : Bool := false
  deriving DecidableEq, Repr

/-- A call of the loop's thread that is under way; `out` is whether `handleEventWithGuard` has
`EPOLLOUT` still to handle. -/
inductive Frame where
  /-- `connectEstablished`, in front of `connectionCallback_`, -/
  | toEstablish
  /-- and in it -/
  | established
  /-- `handleRead`, in `messageCallback_` -/
  | message (out : Bool)
  /-- `handleClose`, in `connectionCallback_` -/
  | closing (out : Bool)
  /-- `connectDestroyed`, which has found `kConnected`, -/
  | toDestroy
  /-- and in `connectionCallback_` -/
  | destroying
  deriving DecidableEq, Repr

/-- The call is in a callback. -/
def Frame.IsCallback (frame : Frame) : Prop := frame ≠ .toEstablish ∧ frame ≠ .toDestroy

instance : DecidablePred Frame.IsCallback := fun _ => inferInstanceAs (Decidable (_ ∧ _))

/-- The call is `handleClose`, which has `closeCallback_` still to call. -/
def Frame.isClosing : Frame → Bool
  | .closing _ => true
  | _ => false

/-- A `TcpConnection` from `connectEstablished` on. -/
structure Lifecycle where
  conn : TcpConnection
  /-- `channel_->isReading()` -/
  isReading : Bool := true
  /-- `index_` of the channel is `kAdded` -/
  added : Bool := true
  /-- `revents_`, when the channel is in `activateChannels_` of its loop -/
  revents : Option Revents := none
  /-- the calls of the loop's thread under way, the innermost first -/
  frames : List Frame := [.toEstablish]
  /-- the messages of `send` on other threads that found `kConnected` and have not queued their
  functor -/
  sending : List Bytes := []
  /-- how many calls of `shutdown` on other threads found `kConnected` and have not set the state, -/
  leaving : ℕ := 0
  /-- and how many have set it and not queued their functor -/
  left : ℕ := 0
  /-- what `connected()` was, each time that `connectionCallback_` was called -/
  callbacks : List Bool := []
  /-- how often `closeCallback_` was called -/
  closeCalls : ℕ := 0
  /-- whether a call of `connectDestroyed` has completed -/
  destroyed : Bool := false

/-- What happens to a connection. The result is that of `::write` or `writeFd`, for the case that it
is called, and `n` that of `readFd`. -/
inductive LifeEvent where
  /-- `connectEstablished` calls `connectionCallback_` -/
  | connectionCallback
  /-- the innermost callback returns -/
  | ret (result : WriteResult)
  /-- the poller reports the channel -/
  | poll (revents : Revents)
  /-- the channel handles that -/
  | handleEvent (n : ℤ) (result : WriteResult)
  /-- the loop runs the oldest functor of the connection -/
  | runFunctor (result : WriteResult)
  /-- `send` in the loop's thread -/
  | send (message : Bytes) (result : WriteResult)
  /-- `shutdown` in the loop's thread -/
  | shutdown
  /-- `send` on another thread looks at `state_` -/
  | sendElsewhere (message : Bytes)
  /-- one of these calls queues its functor -/
  | queueSend (i : ℕ)
  /-- `shutdown` on another thread looks at `state_` -/
  | shutdownElsewhere
  /-- one of these calls sets `state_` -/
  | setDisconnecting
  /-- one of these calls queues its functor -/
  | queueShutdown
  /-- `connectDestroyed` looks at `state_` -/
  | connectDestroyed
  /-- it goes on, when it has found `kConnected` -/
  | setDisconnected
  deriving DecidableEq, Repr

namespace Lifecycle

variable (s : Lifecycle)

/-- `connectEstablished` has set the state and registered the channel.
Source: TcpConnection.cpp 246-254 -/
def start (highWaterMark : ℕ) (writeComplete highWater : Bool) : Lifecycle where
  conn := .established highWaterMark writeComplete highWater

/-- `connected()` -/
def connected : Bool := s.conn.state = .kConnected

/-- `Channel::update`: a channel that the poller does not have is added, one that it has is
modified, or deleted when it waits for nothing. Source: EpollPoller.cpp 68-96 -/
def update : Lifecycle :=
  { s with added := if s.added then s.isReading || s.conn.isWriting else true }

/-- What the connection does in between comes with an `update` when it waits for `EPOLLOUT` from now
on, or not any more. Source: TcpConnection.cpp 90, 239-242 -/
def io (f : TcpConnection → TcpConnection) : Lifecycle :=
  if (f s.conn).isWriting = s.conn.isWriting then { s with conn := f s.conn }
  else { s with conn := f s.conn }.update

/-- `connectionCallback_` is called, by `frame`. -/
def callConnectionCallback (frame : Frame) : Lifecycle :=
  { s with callbacks := s.callbacks ++ [s.connected], frames := frame :: s.frames }

/-- `setState(kDisconnected)` and `disableAll`. Source: TcpConnection.cpp 117-118, 259-260 -/
def disable : Lifecycle :=
  { s with
    conn := { s.conn with state := .kDisconnected, isWriting := false }
    isReading := false }.update

/-- `handleClose`, up to `connectionCallback_`. Source: TcpConnection.cpp 114-121 -/
def handleClose (out : Bool) : Lifecycle := s.disable.callConnectionCallback (.closing out)

/-- The last part of `handleEventWithGuard`. Source: Channel.cpp 81-85 -/
def handleOut (out : Bool) (result : WriteResult) : Lifecycle :=
  if out then s.io (·.handleWrite result) else s

/-- `handleEventWithGuard`, up to the first callback of the user. `handleError` only writes to the
log. Source: Channel.cpp 59-86, TcpConnection.cpp 59-77 -/
def handleEventWithGuard (revents : Revents) (n : ℤ) (result : WriteResult) : Lifecycle :=
  if revents.EPOLLHUP = true ∧ revents.EPOLLIN = false then s.handleClose revents.EPOLLOUT
  else if revents.EPOLLIN = true then
    if n > 0 then { s with frames := .message revents.EPOLLOUT :: s.frames }
    else if n = 0 then s.handleClose revents.EPOLLOUT
    else s.handleOut revents.EPOLLOUT result
  else s.handleOut revents.EPOLLOUT result

/-- `channel_->remove()`, with which `connectDestroyed` is over. Source: EpollPoller.cpp 99-112 -/
def remove : Lifecycle := { s with added := false, destroyed := true }

/-- What is left of a call when its callback returns; `none` for a call that is not in a callback.
Source: TcpConnection.cpp 122, 263, Channel.cpp 81-85 -/
def returned (result : WriteResult) : Frame → Option Lifecycle
  | .established => some s
  | .message out => some (s.handleOut out result)
  | .closing out => some ({ s with closeCalls := s.closeCalls + 1 }.handleOut out result)
  | .destroying => some s.remove
  | .toEstablish | .toDestroy => none

/-- The loop's thread executes user code: a callback of the connection, or something else. -/
def InUserCode : Prop := ∀ frame ∈ s.frames.head?, frame.IsCallback

instance : Decidable s.InUserCode :=
  inferInstanceAs (Decidable (∀ frame ∈ s.frames.head?, frame.IsCallback))

/-- The loop's thread is in no call of the connection. -/
def Idle : Prop := s.frames = []

instance : Decidable s.Idle := inferInstanceAs (Decidable (_ = _))

/-- The poller has the channel, and reports what it waits for, `EPOLLERR` and `EPOLLHUP`. -/
def CanReport (revents : Revents) : Prop :=
  s.added = true ∧ (revents.EPOLLIN = true → s.isReading = true) ∧
    (revents.EPOLLOUT = true → s.conn.isWriting = true)

instance (revents : Revents) : Decidable (s.CanReport revents) :=
  inferInstanceAs (Decidable (_ ∧ _))

/-- One event. -/
def step : LifeEvent → Option Lifecycle
  | .connectionCallback =>
    match s.frames with
    | .toEstablish :: frames =>
      some ({ s with frames := frames }.callConnectionCallback .established)
    | _ => none
  | .ret result =>
    match s.frames with
    | frame :: frames => { s with frames := frames }.returned result frame
    | [] => none
  | .poll revents =>
    if s.Idle ∧ s.revents = none ∧ s.CanReport revents then some { s with revents := some revents }
    else none
  | .handleEvent n result =>
    match s.frames, s.revents with
    | [], some revents => some ({ s with revents := none }.handleEventWithGuard revents n result)
    | _, _ => none
  | .runFunctor result =>
    -- the channels have handled their events when functors run
    match s.frames, s.revents, s.conn.pendingFunctors with
    | [], none, functor :: functors =>
      some (s.io fun c =>
        SharedConnection.runFunctor { c with pendingFunctors := functors } functor result)
    | _, _, _ => none
  | .send message result => if s.InUserCode then some (s.io (·.send message result)) else none
  | .shutdown => if s.InUserCode then some (s.io (·.shutdown)) else none
  | .sendElsewhere message =>
    if s.conn.state = .kConnected then some { s with sending := s.sending ++ [message] } else some s
  | .queueSend i =>
    s.sending[i]?.map fun message =>
      { s with
        conn := s.conn.queueInLoop (.sendInLoop message)
        sending := s.sending.eraseIdx i }
  | .shutdownElsewhere =>
    if s.conn.state = .kConnected then some { s with leaving := s.leaving + 1 } else some s
  | .setDisconnecting =>
    if 0 < s.leaving then
      some { s with
        conn := { s.conn with state := .kDisconnecting }
        leaving := s.leaving - 1
        left := s.left + 1 }
    else none
  | .queueShutdown =>
    if 0 < s.left then
      some { s with conn := s.conn.queueInLoop .shutdownInLoop, left := s.left - 1 }
    else none
  | .connectDestroyed =>
    if s.InUserCode then
      if s.conn.state = .kConnected then some { s with frames := .toDestroy :: s.frames }
      else some s.remove
    else none
  | .setDisconnected =>
    match s.frames with
    | .toDestroy :: frames =>
      some ({ s with frames := frames }.disable.callConnectionCallback .destroying)
    | _ => none

/-- The steps of a connection's life. -/
def Step (event : LifeEvent) (t : Lifecycle) : Prop := s.step event = some t

/-! ## The law and the condition -/

/-- Behind `connectDestroyed` the connection is down, its user was told so once, after having been
told once that it was up, and its owner at most once. -/
def Lawful : Prop :=
  s.destroyed = true →
    s.conn.state = .kDisconnected ∧ s.callbacks = [true, false] ∧ s.closeCalls ≤ 1

instance : Decidable s.Lawful := inferInstanceAs (Decidable (_ → _))

/-- `handleEventWithGuard` comes to `handleClose`. -/
def Closes (n : ℤ) : Prop :=
  ∃ revents ∈ s.revents, revents.EPOLLHUP = true ∧ revents.EPOLLIN = false ∨
    revents.EPOLLIN = true ∧ n = 0

instance (n : ℤ) : Decidable (s.Closes n) :=
  inferInstanceAs (Decidable (∃ revents ∈ s.revents, _))

/-- The condition: `connectDestroyed` does not find `kDisconnecting`, `handleClose` is not called
when the connection is down, and a call of `shutdown` on another thread does not set the state then,
nor before the user was told that the connection is up. -/
def Orderly : LifeEvent → Prop
  | .connectDestroyed => s.conn.state ≠ .kDisconnecting
  | .handleEvent n _ => s.Closes n → s.conn.state ≠ .kDisconnected
  | .setDisconnecting => s.conn.state ≠ .kDisconnected ∧ s.frames ≠ [.toEstablish]
  | _ => True

instance : DecidablePred s.Orderly
  | .connectDestroyed => inferInstanceAs (Decidable (_ ≠ _))
  | .handleEvent _ _ => inferInstanceAs (Decidable (_ → _))
  | .setDisconnecting => inferInstanceAs (Decidable (_ ∧ _))
  | .connectionCallback | .ret _ | .poll _ | .runFunctor _ | .send _ _ | .shutdown
  | .sendElsewhere _ | .queueSend _ | .shutdownElsewhere | .queueShutdown | .setDisconnected =>
    inferInstanceAs (Decidable True)

end Lifecycle

/-! ## What a step does -/

/-- What counts for the law. -/
structure Life where
  state : StateE
  frames : List Frame
  callbacks : List Bool
  closeCalls : ℕ
  destroyed : Bool
  deriving DecidableEq

namespace Lifecycle

/-- That of a connection. -/
def life (s : Lifecycle) : Life :=
  ⟨s.conn.state, s.frames, s.callbacks, s.closeCalls, s.destroyed⟩

variable {s t : Lifecycle} {event : LifeEvent}

/-- What the events do to it. -/
inductive Change (s : Lifecycle) : LifeEvent → Life → Prop
  /-- the user is told that the connection is up -/
  | up (frames : List Frame) (hframes : s.frames = .toEstablish :: frames) :
      Change s .connectionCallback
        { s.life with
          frames := .established :: frames
          callbacks := s.callbacks ++ [s.connected] }
  /-- a callback returns -/
  | ret (result : WriteResult) (frame : Frame) (frames : List Frame)
      (hframes : s.frames = frame :: frames) (hcallback : frame.IsCallback) :
      Change s (.ret result)
        { s.life with
          frames := frames
          closeCalls := s.closeCalls + if frame.isClosing then 1 else 0
          destroyed := s.destroyed || frame = .destroying }
  /-- a message comes in -/
  | message (n : ℤ) (result : WriteResult) (out : Bool) (hidle : s.Idle) (hcloses : ¬ s.Closes n) :
      Change s (.handleEvent n result) { s.life with frames := [.message out] }
  /-- `handleClose` -/
  | close (n : ℤ) (result : WriteResult) (out : Bool) (hidle : s.Idle) (hcloses : s.Closes n) :
      Change s (.handleEvent n result)
        { s.life with
          state := .kDisconnected
          frames := [.closing out]
          callbacks := s.callbacks ++ [false] }
  /-- `shutdown` -/
  | shutdown (huser : s.InUserCode) (hstate : s.conn.state = .kConnected) :
      Change s .shutdown { s.life with state := .kDisconnecting }
  /-- `shutdown` on another thread -/
  | setDisconnecting : Change s .setDisconnecting { s.life with state := .kDisconnecting }
  /-- `connectDestroyed` finds `kConnected`, -/
  | toDestroy (huser : s.InUserCode) (hstate : s.conn.state = .kConnected) :
      Change s .connectDestroyed { s.life with frames := .toDestroy :: s.frames }
  /-- or something else, -/
  | remove (huser : s.InUserCode) (hstate : s.conn.state ≠ .kConnected) :
      Change s .connectDestroyed { s.life with destroyed := true }
  /-- and goes on -/
  | down (frames : List Frame) (hframes : s.frames = .toDestroy :: frames) :
      Change s .setDisconnected
        { s.life with
          state := .kDisconnected
          frames := .destroying :: frames
          callbacks := s.callbacks ++ [false] }
  /-- all the rest -/
  | keep (event : LifeEvent) (horderly : s.Orderly event) : Change s event s.life

/-- `Channel::update` leaves the life of the connection as it is. -/
@[simp] lemma update_life : s.update.life = s.life := rfl

/-- Input and output do not count. -/
lemma io_life {f : TcpConnection → TcpConnection} (hf : ∀ c, (f c).state = c.state) :
    (s.io f).life = s.life := by
  unfold io
  split <;> simp [life, update, hf]

/-- `handleWrite` leaves the life of the connection as it is. -/
lemma handleOut_life (out : Bool) (result : WriteResult) :
    (s.handleOut out result).life = s.life := by
  unfold handleOut
  split
  · exact io_life fun c => c.handleWrite_state
  · rfl

/-- `handleClose` sets the state to `kDisconnected` and calls `connectionCallback_`, with
`closeCallback_` still to come. -/
lemma handleClose_life (out : Bool) : (s.handleClose out).life =
    { s.life with
      state := .kDisconnected
      frames := .closing out :: s.frames
      callbacks := s.callbacks ++ [false] } := rfl

/-- A functor of the loop leaves the state as it is. -/
lemma runFunctor_state (c : TcpConnection) (functor : LoopFunctor) (result : WriteResult) :
    (SharedConnection.runFunctor c functor result).state = c.state := by
  cases functor with
  | sendInLoop message => exact TcpConnection.sendInLoop_state c message result
  | shutdownInLoop =>
      unfold SharedConnection.runFunctor TcpConnection.shutdownInLoop
      simp only
      split <;> rfl
  | writeCompleteCallback => rfl
  | highWaterMarkCallback size => rfl

/-- `send` leaves the state as it is. -/
lemma send_state (c : TcpConnection) (message : Bytes) (result : WriteResult) :
    (c.send message result).state = c.state := by
  unfold TcpConnection.send
  split
  · exact TcpConnection.sendInLoop_state _ _ _
  · rfl

/-- `shutdown` in the loop's thread makes a connection that is up `kDisconnecting`. -/
lemma shutdown_life : (s.io (·.shutdown)).life =
    if s.conn.state = .kConnected then { s.life with state := .kDisconnecting } else s.life := by
  have hstate : s.conn.shutdown.state =
      if s.conn.state = .kConnected then .kDisconnecting else s.conn.state := by
    unfold TcpConnection.shutdown TcpConnection.shutdownInLoop
    split
    · split <;> rfl
    · rfl
  unfold io
  split <;> simp only [life, update, hstate] <;> split <;> rfl

/-- What handling an event comes to. -/
lemma handleEventWithGuard_life (revents : Revents) (n : ℤ) (result : WriteResult) :
    (s.handleEventWithGuard revents n result).life =
      if revents.EPOLLHUP = true ∧ revents.EPOLLIN = false ∨ revents.EPOLLIN = true ∧ n = 0 then
        (s.handleClose revents.EPOLLOUT).life
      else if revents.EPOLLIN = true ∧ 0 < n then
        { s.life with frames := .message revents.EPOLLOUT :: s.frames }
      else s.life := by
  unfold handleEventWithGuard
  rcases hin : revents.EPOLLIN
  · by_cases hhup : revents.EPOLLHUP = true
    · simp [hhup]
    · simp [hhup, handleOut_life]
  · rcases lt_trichotomy n 0 with hneg | rfl | hpos
    · simp [hneg.ne, hneg.le.not_gt, handleOut_life]
    · simp
    · simp [hpos, hpos.ne']
      rfl

/-- What is left of a call does not count, but for what it calls and that it is over. -/
lemma returned_life {frame : Frame} {result : WriteResult} (h : s.returned result frame = some t) :
    frame.IsCallback ∧ t.life =
      { s.life with
        closeCalls := s.closeCalls + if frame.isClosing then 1 else 0
        destroyed := s.destroyed || frame = .destroying } := by
  cases frame with
  | toEstablish | toDestroy => cases h
  | established =>
      obtain rfl := Option.some.inj h
      exact ⟨by decide, by simp [life, Frame.isClosing]⟩
  | message out =>
      obtain rfl := Option.some.inj h
      refine ⟨by simp [Frame.IsCallback], ?_⟩
      rw [handleOut_life]
      simp [life, Frame.isClosing]
  | closing out =>
      obtain rfl := Option.some.inj h
      refine ⟨by simp [Frame.IsCallback], ?_⟩
      rw [handleOut_life]
      simp [life, Frame.isClosing]
  | destroying =>
      obtain rfl := Option.some.inj h
      exact ⟨by decide, by simp [life, remove, Frame.isClosing]⟩

/-- **Every step makes one of these changes.** -/
lemma Step.change (h : s.Step event t) : s.Change event t.life := by
  unfold Step step at h
  cases event with
  | connectionCallback =>
      dsimp only at h
      split at h
      · next frames hframes =>
          obtain rfl := Option.some.inj h
          exact .up frames hframes
      · cases h
  | ret result =>
      dsimp only at h
      split at h
      · next frame frames hframes =>
          obtain ⟨hcallback, hlife⟩ := returned_life h
          rw [hlife]
          exact .ret result frame frames hframes hcallback
      · cases h
  | poll revents =>
      dsimp only at h
      split_ifs at h
      obtain rfl := Option.some.inj h
      exact .keep _ trivial
  | handleEvent n result =>
      dsimp only at h
      split at h
      · next revents hframes hrevents =>
          obtain rfl := Option.some.inj h
          have hcloses : s.Closes n ↔ revents.EPOLLHUP = true ∧ revents.EPOLLIN = false ∨
              revents.EPOLLIN = true ∧ n = 0 := by simp [Closes, hrevents]
          rw [handleEventWithGuard_life]
          split_ifs with hclose hmessage
          · have := Change.close n result revents.EPOLLOUT hframes (hcloses.mpr hclose)
            rwa [handleClose_life, hframes]
          · have := Change.message n result revents.EPOLLOUT hframes
              (fun hc => hclose (hcloses.mp hc))
            rwa [hframes]
          · exact .keep _ fun hc => absurd (hcloses.mp hc) hclose
      · cases h
  | runFunctor result =>
      dsimp only at h
      split at h
      · next functor functors _ _ _ =>
          obtain rfl := Option.some.inj h
          have hlife : (s.io fun c => SharedConnection.runFunctor
              { c with pendingFunctors := functors } functor result).life = s.life :=
            io_life fun c => runFunctor_state _ functor result
          rw [hlife]
          exact .keep _ trivial
      · cases h
  | send message result =>
      dsimp only at h
      split_ifs at h
      obtain rfl := Option.some.inj h
      rw [io_life fun c => send_state c message result]
      exact .keep _ trivial
  | shutdown =>
      dsimp only at h
      split_ifs at h with huser
      obtain rfl := Option.some.inj h
      rw [shutdown_life]
      split_ifs with hstate
      · exact .shutdown huser hstate
      · exact .keep _ trivial
  | sendElsewhere message | shutdownElsewhere =>
      dsimp only at h
      split_ifs at h <;> obtain rfl := Option.some.inj h <;> exact .keep _ trivial
  | queueSend i =>
      obtain ⟨message, -, rfl⟩ := Option.map_eq_some_iff.mp h
      exact .keep _ trivial
  | setDisconnecting =>
      dsimp only at h
      split_ifs at h
      obtain rfl := Option.some.inj h
      exact .setDisconnecting
  | queueShutdown =>
      dsimp only at h
      split_ifs at h
      obtain rfl := Option.some.inj h
      exact .keep _ trivial
  | connectDestroyed =>
      dsimp only at h
      split_ifs at h with huser hstate
      · obtain rfl := Option.some.inj h
        exact .toDestroy huser hstate
      · obtain rfl := Option.some.inj h
        exact .remove huser hstate
  | setDisconnected =>
      dsimp only at h
      split at h
      · next frames hframes =>
          obtain rfl := Option.some.inj h
          exact .down frames hframes
      · cases h

end Lifecycle

/-! ## The four phases -/

/-- The call comes from when the connection is up. -/
def Frame.IsUp : Frame → Prop
  | .established | .message _ => True
  | _ => False

/-- A call from when the connection is up is in a callback. -/
lemma Frame.IsUp.isCallback {frame : Frame} (h : frame.IsUp) : frame.IsCallback := by
  cases frame <;> first | exact h.elim | simp [IsCallback]

/-- A call from when the connection is up is not `handleClose`. -/
lemma Frame.IsUp.isClosing {frame : Frame} (h : frame.IsUp) : frame.isClosing = false := by
  cases frame <;> first | exact h.elim | rfl

namespace Life

/-- The phases of an orderly life. -/
inductive Sound : Life → Prop
  /-- the user was told nothing, -/
  | fresh : Sound ⟨.kConnected, [.toEstablish], [], 0, false⟩
  /-- knows that the connection is up, -/
  | up (state : StateE) (frames : List Frame)
      (hstate : state = .kConnected ∨ state = .kDisconnecting)
      (hframes : ∀ frame ∈ frames, frame.IsUp) :
      Sound ⟨state, frames, [true], 0, false⟩
  /-- is about to be told that it is down, -/
  | ending (state : StateE) (frames : List Frame)
      (hstate : state = .kConnected ∨ state = .kDisconnecting)
      (hframes : ∀ frame ∈ frames, frame.IsUp) :
      Sound ⟨state, .toDestroy :: frames, [true], 0, false⟩
  /-- and knows that it is -/
  | down (frames : List Frame) (closeCalls : ℕ) (destroyed : Bool)
      (hframes : ∀ frame ∈ frames, frame.IsCallback)
      (hcalls : closeCalls + frames.countP Frame.isClosing ≤ 1) :
      Sound ⟨.kDisconnected, frames, [true, false], closeCalls, destroyed⟩

/-- A life that will be found unlawful when it is over: the user was not told first that the
connection is up, or was told something a third time, or the state changed behind that. -/
def Broken (l : Life) : Prop :=
  l.callbacks = [] ∧ l.frames = [.toEstablish] ∧ l.state ≠ .kConnected ∨
    l.callbacks.head? = some false ∨ 2 < l.callbacks.length ∨
      l.callbacks = [true, false] ∧ l.state = .kDisconnecting

end Life

namespace Lifecycle

variable {s t : Lifecycle} {event : LifeEvent} {l : Life}

/-- An orderly life is lawful. -/
lemma lawful_of_sound (h : s.life.Sound) : s.Lawful := by
  intro hdestroyed
  generalize hl : s.life = l at h
  cases h with
  | fresh | up | ending =>
      obtain ⟨-, -, -, -, hnot⟩ := Life.mk.inj hl
      exact absurd (hdestroyed.symm.trans hnot) nofun
  | down frames closeCalls destroyed _ hcalls =>
      obtain ⟨hstate, -, hcallbacks, rfl, -⟩ := Life.mk.inj hl
      exact ⟨hstate, hcallbacks, by omega⟩

/-- What can come before the user was told that the connection is up: that, `shutdown` on another
thread, and what the life does not show. -/
lemma Change.of_toEstablish (h : s.Change event l) (hframes : s.frames = [.toEstablish]) :
    l = { s.life with frames := [.established], callbacks := s.callbacks ++ [s.connected] } ∨
      (event = .setDisconnecting ∧ l = { s.life with state := .kDisconnecting }) ∨
      l = s.life := by
  cases h with
  | up frames hup =>
      obtain ⟨-, rfl⟩ := List.cons.inj (hframes.symm.trans hup)
      exact .inl rfl
  | setDisconnecting => exact .inr (.inl ⟨rfl, rfl⟩)
  | keep => exact .inr (.inr rfl)
  | ret result frame frames hret hcallback =>
      obtain ⟨rfl, -⟩ := List.cons.inj (hframes.symm.trans hret)
      exact absurd rfl hcallback.1
  | message n result out hidle | close n result out hidle =>
      exact absurd (hframes.symm.trans hidle) (by simp)
  | shutdown huser | toDestroy huser | remove huser =>
      exact absurd rfl (huser .toEstablish (by simp [hframes])).1
  | down frames hdown => exact absurd (hframes.symm.trans hdown) (by simp)

/-- **Orderly steps go from phase to phase.** -/
lemma Change.sound (h : s.Change event l) (hs : s.life.Sound) (hg : s.Orderly event) :
    l.Sound := by
  generalize hl : s.life = l₀ at hs
  cases hs with
  | fresh =>
      obtain ⟨hstate, hframes, hcallbacks, hcalls, hdestroyed⟩ := Life.mk.inj hl
      rcases h.of_toEstablish hframes with rfl | ⟨rfl, -⟩ | rfl
      · have hconnected : s.connected = true := by simp [connected, hstate]
        rw [hl, hcallbacks, hconnected]
        exact .up _ _ (.inl rfl) (by simp [Frame.IsUp])
      · exact absurd hframes hg.2
      · exact hl ▸ .fresh
  | up state frames hstate hup =>
      obtain ⟨rfl, rfl, hcallbacks, hcalls, hdestroyed⟩ := Life.mk.inj hl
      cases h with
      | up frames hframes => exact (hup .toEstablish (by simp [hframes])).elim
      | ret result frame frames hframes hcallback =>
          rw [hframes] at hup
          have hframe := hup frame List.mem_cons_self
          have hne : frame ≠ .destroying := by rintro rfl; exact hframe
          rw [hl, hcalls, hdestroyed, hframe.isClosing]
          simp only [hne, decide_false, Bool.or_false]
          exact .up _ _ hstate fun f hf => hup f (List.mem_cons_of_mem _ hf)
      | message n result out hidle =>
          rw [hl]
          exact .up _ _ hstate (by simp [Frame.IsUp])
      | close n result out hidle =>
          rw [hl, hcallbacks]
          exact .down _ _ _ (by simp [Frame.IsCallback]) (by simp [Frame.isClosing])
      | shutdown => exact hl ▸ .up _ _ (.inr rfl) hup
      | setDisconnecting => exact hl ▸ .up _ _ (.inr rfl) hup
      | toDestroy => exact hl ▸ .ending _ _ hstate hup
      | remove huser hne =>
          exact absurd (hstate.resolve_left hne) hg
      | down frames hframes => exact (hup .toDestroy (by simp [hframes])).elim
      | keep => exact hl ▸ .up _ _ hstate hup
  | ending state frames hstate hup =>
      obtain ⟨rfl, hframes, hcallbacks, hcalls, hdestroyed⟩ := Life.mk.inj hl
      cases h with
      | up frames' hframes' => exact absurd (hframes.symm.trans hframes') (by simp)
      | ret result frame frames' hframes' hcallback =>
          obtain ⟨rfl, -⟩ := List.cons.inj (hframes.symm.trans hframes')
          exact absurd rfl hcallback.2
      | message n result out hidle | close n result out hidle =>
          exact absurd (hframes.symm.trans hidle) (by simp)
      | shutdown huser | toDestroy huser | remove huser =>
          exact absurd rfl (huser .toDestroy (by simp [hframes])).2
      | setDisconnecting => exact hl ▸ .ending _ _ (.inr rfl) hup
      | down frames' hframes' =>
          obtain ⟨-, rfl⟩ := List.cons.inj (hframes.symm.trans hframes')
          have hcount : frames.countP Frame.isClosing = 0 :=
            List.countP_eq_zero.mpr fun f hf => by simp [(hup f hf).isClosing]
          rw [hl, hcallbacks]
          refine .down _ _ _ ?_ ?_
          · rintro f (_ | ⟨_, hf⟩)
            · decide
            · exact (hup f hf).isCallback
          · simp [Frame.isClosing, hcount]
      | keep => exact hl ▸ .ending _ _ hstate hup
  | down frames closeCalls destroyed hcallback hcount =>
      obtain ⟨hstate, rfl, hcallbacks, rfl, rfl⟩ := Life.mk.inj hl
      cases h with
      | up frames hframes => exact absurd rfl (hcallback .toEstablish (by simp [hframes])).1
      | ret result frame frames hframes hframe =>
          rw [hframes] at hcallback hcount
          rw [hl]
          refine .down _ _ _ (fun f hf => hcallback f (List.mem_cons_of_mem _ hf)) ?_
          rw [List.countP_cons] at hcount
          omega
      | message n result out hidle =>
          rw [hl]
          have hcalls : s.closeCalls ≤ 1 := by omega
          exact .down _ _ _ (by simp [Frame.IsCallback]) (by simpa [Frame.isClosing] using hcalls)
      | close n result out hidle hcloses => exact absurd hstate (hg hcloses)
      | shutdown huser hconnected | toDestroy huser hconnected =>
          exact absurd (hstate.symm.trans hconnected) (by simp)
      | setDisconnecting => exact absurd hstate hg.1
      | remove => exact hl ▸ .down _ _ _ hcallback hcount
      | down frames hframes => exact absurd rfl (hcallback .toDestroy (by simp [hframes])).2
      | keep => exact hl ▸ .down _ _ _ hcallback hcount

/-- What a phase knows of a connection that is down. -/
lemma callbacks_of_sound (h : s.life.Sound) (hstate : s.conn.state = .kDisconnected) :
    s.callbacks = [true, false] := by
  generalize hl : s.life = l at h
  cases h with
  | fresh => exact absurd (hstate.symm.trans (Life.mk.inj hl).1) nofun
  | up state _ hup | ending state _ hup =>
      obtain ⟨rfl, -⟩ := Life.mk.inj hl
      simp [hstate] at hup
  | down => exact (Life.mk.inj hl).2.2.1

/-- A connection that is half closed was reported once, when it came up. -/
lemma callbacks_of_sound_disconnecting (h : s.life.Sound)
    (hstate : s.conn.state = .kDisconnecting) : s.callbacks = [true] := by
  generalize hl : s.life = l at h
  cases h with
  | fresh | down => exact absurd (hstate.symm.trans (Life.mk.inj hl).1) nofun
  | up | ending => exact (Life.mk.inj hl).2.2.1

/-- **A step that is not orderly** breaks the law, or the life. -/
lemma Change.broken (h : s.Change event t.life) (hs : s.life.Sound) (hg : ¬ s.Orderly event) :
    ¬ t.Lawful ∨ t.life.Broken := by
  generalize hl : t.life = l at h
  cases h with
  | up | ret | shutdown | down => exact absurd trivial hg
  | keep _ horderly => exact absurd horderly hg
  | message n result out _ hcloses => exact absurd (fun hc => absurd hc hcloses) hg
  | toDestroy _ hstate => exact absurd (by simp [Orderly, hstate]) hg
  | close n result out _ hcloses =>
      -- the user is told a third time
      have hstate : s.conn.state = .kDisconnected := by
        by_contra hne
        exact hg fun _ => hne
      right; right; right; left
      simp [callbacks_of_sound hs hstate]
  | setDisconnecting =>
      right
      by_cases hstate : s.conn.state = .kDisconnected
      · -- the state changes behind the end
        right; right; right
        exact ⟨callbacks_of_sound hs hstate, rfl⟩
      · -- the user is not told that the connection is up
        have hframes : s.frames = [.toEstablish] := by
          by_contra hne
          exact hg ⟨hstate, hne⟩
        left
        generalize hl₀ : s.life = l₀ at hs
        obtain ⟨-, hframes₀, -⟩ := Life.mk.inj hl₀
        cases hs with
        | fresh => exact ⟨rfl, rfl, by simp⟩
        | up state frames _ hup =>
            rw [hframes] at hframes₀
            subst hframes₀
            exact (hup .toEstablish (by simp)).elim
        | ending => simp [hframes] at hframes₀
        | down frames _ _ hcallback =>
            rw [hframes] at hframes₀
            subst hframes₀
            exact absurd rfl (hcallback .toEstablish (by simp)).1
  | remove _ hne =>
      -- the user is never told that the connection is down
      have hstate : s.conn.state = .kDisconnecting := by
        by_contra hnot
        exact hg hnot
      obtain ⟨-, -, hcallbacks, -, hdestroyed⟩ := Life.mk.inj hl
      have hup : s.life.callbacks = [true] := callbacks_of_sound_disconnecting hs hstate
      left
      intro hlawful
      have hdown := (hlawful hdestroyed).2.1
      rw [hcallbacks, hup] at hdown
      cases hdown

/-- `connectionCallback_` is called at most once in a step. -/
lemma Change.callbacks_eq (h : s.Change event l) :
    l.callbacks = s.callbacks ∨ ∃ up, l.callbacks = s.callbacks ++ [up] := by
  cases h with
  | up | close | down => exact .inr ⟨_, rfl⟩
  | ret | message | shutdown | setDisconnecting | toDestroy | remove | keep => exact .inl rfl

/-- A step of a broken life leaves it broken. -/
lemma Change.broken_of_broken (h : s.Change event l) (hs : s.life.Broken) : l.Broken := by
  rcases hs with ⟨hcallbacks, hframes, hstate⟩ | hfirst | hthird | ⟨hcallbacks, hstate⟩
  · simp only [life] at hcallbacks hframes hstate
    rcases h.of_toEstablish hframes with rfl | ⟨-, rfl⟩ | rfl
    · right; left
      simp [hcallbacks, connected, hstate]
    · exact .inl ⟨hcallbacks, hframes, by simp⟩
    · exact .inl ⟨hcallbacks, hframes, hstate⟩
  · right; left
    rcases h.callbacks_eq with heq | ⟨up, heq⟩
    · rwa [heq]
    · rw [heq, List.head?_append_of_ne_nil]
      · exact hfirst
      · rintro hnil
        simp [life, hnil] at hfirst
  · right; right; left
    rcases h.callbacks_eq with heq | ⟨up, heq⟩
    · rwa [heq]
    · rw [heq, List.length_append]
      exact Nat.lt_add_right _ hthird
  · simp only [life] at hcallbacks hstate
    right; right
    cases h with
    | up | close | down => exact .inl (by simp [hcallbacks])
    | shutdown _ hconnected => exact absurd (hstate.symm.trans hconnected) nofun
    | setDisconnecting => exact .inr ⟨hcallbacks, rfl⟩
    | ret | message | toDestroy | remove | keep => exact .inr ⟨hcallbacks, hstate⟩

/-- A broken life is unlawful when it is over. -/
lemma not_lawful_of_broken (h : s.life.Broken) (hdestroyed : s.destroyed = true) :
    ¬ s.Lawful := by
  intro hlawful
  obtain ⟨hdown, hcallbacks, -⟩ := hlawful hdestroyed
  rcases h with ⟨hnil, -⟩ | hfirst | hthird | ⟨-, hstate⟩
  · simp [life, hcallbacks] at hnil
  · simp [life, hcallbacks] at hfirst
  · simp [life, hcallbacks] at hthird
  · exact absurd (hdown.symm.trans hstate) nofun

/-! ## Runs -/

/-- **When the life of a connection is lawful.** Over every run from `connectEstablished` on that is
over, with all events, results of the system, calls of the user in any thread and callback, and with
`connectDestroyed` at any moment: the user was told once that the connection is up and then once
that it is down, its owner at most once, and it stays down, exactly when `connectDestroyed` did not
find the connection half closed, `handleClose` was not called when it was down, and no other thread
set the state when it was down or not yet announced. -/
theorem lawful_iff_orderly (highWaterMark : ℕ) (writeComplete highWater : Bool)
    {p : List (LifeEvent × Lifecycle)} (hp : Path Step (start highWaterMark writeComplete highWater) p)
    (hover : (Paths.last (start highWaterMark writeComplete highWater) p).destroyed = true) :
    Throughout Lawful (start highWaterMark writeComplete highWater) p ↔
      MeetsAll Orderly (start highWaterMark writeComplete highWater) p :=
  hp.throughout_iff_meetsAll_of_last (fun _ h => lawful_of_sound h)
    (fun _ _ _ h hst hg => hst.change.sound h hg) (fun _ _ _ h hst hg => hst.change.broken h hg)
    (fun _ _ _ h hst => hst.change.broken_of_broken h) .fresh
    (fun h => not_lawful_of_broken h hover)

/-- A connection whose user answers a message and shuts it down in the callback, and whose peer
closes it then. -/
theorem lawful_iff_orderly_answered :
    Throughout Lawful (start 16 true false) (Paths.trace step (start 16 true false)
      [.connectionCallback, .ret (.wrote 0), .poll { EPOLLIN := true }, .handleEvent 3 (.wrote 0),
        .send [1, 2] (.wrote 2), .shutdown, .ret (.wrote 0), .runFunctor (.wrote 0),
        .poll { EPOLLIN := true, EPOLLHUP := true }, .handleEvent 0 (.wrote 0), .ret (.wrote 0),
        .connectDestroyed]) :=
  (lawful_iff_orderly 16 true false (Paths.path_trace step _ _) (by decide +kernel)).mpr
    (by decide +kernel)

/-- The server is destroyed while the connection is half closed: its user is not told. The server is
destroyed by the callback of another channel, behind which the end of the stream is handled: the
user is told twice. A call of `shutdown` on another thread is slower than the peer: the state
changes again. -/
theorem not_lawful :
    (¬ Throughout Lawful (start 16 false false) (Paths.trace step (start 16 false false)
      [.connectionCallback, .ret (.wrote 0), .shutdown, .connectDestroyed])) ∧
    (¬ Throughout Lawful (start 16 false false) (Paths.trace step (start 16 false false)
      [.connectionCallback, .ret (.wrote 0), .poll { EPOLLIN := true }, .connectDestroyed,
        .setDisconnected, .ret (.wrote 0), .handleEvent 0 (.wrote 0)])) ∧
    ¬ Throughout Lawful (start 16 false false) (Paths.trace step (start 16 false false)
      [.connectionCallback, .ret (.wrote 0), .shutdownElsewhere, .poll { EPOLLIN := true },
        .handleEvent 0 (.wrote 0), .ret (.wrote 0), .connectDestroyed, .setDisconnecting]) :=
  ⟨by decide +kernel, by decide +kernel, by decide +kernel⟩

end Lifecycle

end SwiftNetCore
