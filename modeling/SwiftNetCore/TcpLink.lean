import SwiftNetCore.TcpOutput

/-!
# Two connections and the streams between them

A TCP connection between two processes that both use the library: a `TcpConnection` at either end,
and the bytes that the kernels have taken from one end and not yet given to the other. An end is
used in its loop thread: `send`, `shutdown`, writable events, readable events of any size, and a
message callback that takes any part of `inputBuffer_`. A read that returns 0 closes the end, which
may then be destroyed, and only then the file descriptor is closed. No end is closed or destroyed
otherwise: `connectDestroyed` of a connection that is open or half closed, which `~TcpServer` calls,
is left out, as the kernel may then drop what was not read and reset the link.

* `Carries`: what the receiver has, what is on the way and what waits at the sender is what was
  sent, and how a direction ends.
* `link_conserves`: nothing is lost, repeated or out of order, in either direction, in every state
  of every run; where nothing is on the way and an end that is not closed does not wait to write,
  all that it sent has arrived.
* `eof_complete`: when an end has read the end of the stream, it has received what its peer wrote;
  all that its peer ever sent, unless the peer itself closed on the end of the stream while bytes
  waited in its `outputBuffer_`. That cannot happen to both.

The network loses and resets nothing here: `::write` does not fail with `EPIPE` or `ECONNRESET`, and
`readv` does not fail.
-/

namespace SwiftNetCore

open Paths (Path Throughout trace path_trace)

/-- `setState(kDisconnected)` and `channel_->disableAll()`, as the output side sees them.
Source: `handleClose`, TcpConnection.cpp 114-123 -/
def TcpConnection.handleClose (c : TcpConnection) : TcpConnection :=
  { c with state := .kDisconnected, isWriting := false }

/-- The two ends of a link. -/
inductive Side where
  | client
  | server
  deriving DecidableEq, Repr

namespace Side

/-- The other end. -/
def other : Side → Side
  | client => server
  | server => client

/-- The end on the other side of the other end is the end itself. -/
@[simp] lemma other_other (s : Side) : s.other.other = s := by
  cases s <;> rfl

/-- The other end is another one. -/
lemma other_ne (s : Side) : s.other ≠ s := by
  cases s <;> decide

end Side

/-- One end: the connection, its input side, and what the kernels hold for it. -/
structure LinkEnd where
  conn : TcpConnection := {}
  /-- `inputBuffer_` -/
  inputBuffer : Buffer := .new Buffer.kInitialSize
  /-- the bytes that the message callback took out of `inputBuffer_` -/
  consumed : Bytes := []
  /-- the bytes that the peer has written and this end has not read -/
  incoming : Bytes := []
  /-- the connection is destroyed and its file descriptor closed -/
  gone : Bool := false

/-- What happens at one end. -/
inductive EndEvent where
  /-- `send`, `shutdown` or a writable event -/
  | output (event : OutputEvent)
  /-- a readable event, of which `readv` returns `n > 0` -/
  | read (n : ℕ)
  /-- the message callback calls `retrieve` -/
  | retrieve (n : ℕ)
  /-- a readable event, of which `readv` returns 0 -/
  | eof
  /-- the last `TcpConnectionPtr` to an end that is closed goes, and `~Socket` closes the file
  descriptor -/
  | destroy
  deriving DecidableEq, Repr

namespace LinkEnd

/-- What an end has received: what its callback took, and what waits in `inputBuffer_`. -/
def received (x : LinkEnd) : Bytes := x.consumed ++ x.inputBuffer.readable

/-- Nothing more will come from this end: its socket is shut down, or closed. -/
def ended (x : LinkEnd) : Bool := !x.conn.shutdowns.isEmpty || x.gone

/-- What an event does at an end `x` whose peer is `y`, and to the peer. Source: `handleRead`,
TcpConnection.cpp 59-77; `handleClose`, 114-123; `~Socket`, Socket.cpp 11-14 -/
def onEvent (x y : LinkEnd) : EndEvent → Option (LinkEnd × LinkEnd)
  | .output event =>
    if x.conn.Possible event then
      some ({ x with conn := x.conn.onEvent event },
        { y with
          incoming := y.incoming ++ (x.conn.onEvent event).written.drop x.conn.written.length })
    else none
  | .read n =>
    if x.conn.state ≠ .kDisconnected ∧ 0 < n ∧ n ≤ x.incoming.length ∧
        n ≤ x.inputBuffer.readFdRoom then
      some ({ x with
        inputBuffer := x.inputBuffer.readFd (x.incoming.take n)
        incoming := x.incoming.drop n }, y)
    else none
  | .retrieve n =>
    some ({ x with
      consumed := x.consumed ++ x.inputBuffer.readable.take n
      inputBuffer := x.inputBuffer.retrieve n }, y)
  | .eof =>
    if x.conn.state ≠ .kDisconnected ∧ x.incoming = [] ∧ y.ended = true then
      some ({ x with conn := x.conn.handleClose }, y)
    else none
  | .destroy => if x.conn.state = .kDisconnected then some ({ x with gone := true }, y) else none

end LinkEnd

namespace TcpConnection

variable {c : TcpConnection} {event : OutputEvent} {message : Bytes} {result : WriteResult}

/-! ## What the output side does at its end -/

section frame

variable (c message result)

/-- `sendInLoop` puts what it writes behind what was written. -/
lemma written_sendInLoop : c.written <+: (c.sendInLoop message result).written := by
  have hwrite : ∀ d : TcpConnection, d.written <+: (d.writeAtOnce message result).2.2.written := by
    intro d
    unfold writeAtOnce
    split
    · cases result with
      | wrote n =>
          simp only
          split <;> simp
      | failed errno => exact List.prefix_rfl
    · exact List.prefix_rfl
  unfold sendInLoop
  split
  · exact List.prefix_rfl
  · simp only
    split
    · rw [sendLater_eq]
      exact hwrite { c with handed := c.handed ++ [message] }
    · exact hwrite { c with handed := c.handed ++ [message] }

/-- A writable event puts what it writes behind what was written. -/
lemma written_handleWrite : c.written <+: (c.handleWrite result).written := by
  by_cases h : c.Drains result
  · rw [handleWrite_of_drains h]
    split <;> simp [shutdownWrite, emptied, stream]
  · obtain ⟨n, -, heq⟩ := handleWrite_of_not_drains h
    rw [heq]
    exact List.prefix_append _ _

/-- `shutdownInLoop` writes nothing. -/
lemma shutdownInLoop_written : c.shutdownInLoop.written = c.written := by
  unfold shutdownInLoop
  split <;> rfl

/-- `shutdownInLoop` leaves the state as it is. -/
lemma shutdownInLoop_state : c.shutdownInLoop.state = c.state := by
  unfold shutdownInLoop
  split <;> rfl

/-- Every event puts what it writes behind what was written. -/
lemma written_onEvent (event : OutputEvent) : c.written <+: (c.onEvent event).written := by
  cases event with
  | send message result =>
      show c.written <+: ((c.noteSent message).send message result).written
      rw [send_noteSent]
      split
      · exact written_sendInLoop { c with sent := c.sent ++ [message] } message result
      · exact List.prefix_rfl
  | shutdown =>
      show c.written <+: c.shutdown.written
      unfold shutdown
      split
      · rw [shutdownInLoop_written]
      · exact List.prefix_rfl
  | writable result => exact written_handleWrite c result

/-- A shutdown of the socket is not taken back. -/
lemma shutdowns_onEvent (event : OutputEvent) : c.shutdowns <+: (c.onEvent event).shutdowns := by
  cases event with
  | send message result =>
      show c.shutdowns <+: ((c.noteSent message).send message result).shutdowns
      rw [send_noteSent]
      split
      · rw [sendInLoop_shutdowns]
      · exact List.prefix_rfl
  | shutdown =>
      show c.shutdowns <+: c.shutdown.shutdowns
      unfold shutdown shutdownInLoop
      split
      · split
        · exact List.prefix_rfl
        · exact List.prefix_append _ _
      · exact List.prefix_rfl
  | writable result =>
      show c.shutdowns <+: (c.handleWrite result).shutdowns
      rw [handleWrite_shutdowns]
      split
      · exact List.prefix_append _ _
      · exact List.prefix_rfl

/-- An event leaves the state alone, or it is the call of `shutdown` that a connection obeys. -/
lemma state_onEvent (event : OutputEvent) : (c.onEvent event).state = c.state ∨
    c.state = .kConnected ∧ (c.onEvent event).state = .kDisconnecting := by
  cases event with
  | send message result =>
      left
      show ((c.noteSent message).send message result).state = c.state
      rw [send_noteSent]
      split
      · exact sendInLoop_state _ _ _
      · rfl
  | shutdown =>
      show c.shutdown.state = c.state ∨ c.state = .kConnected ∧ c.shutdown.state = .kDisconnecting
      unfold shutdown
      by_cases hs : c.state = .kConnected
      · rw [if_pos hs, shutdownInLoop_state]
        exact Or.inr ⟨hs, rfl⟩
      · rw [if_neg hs]
        exact Or.inl rfl
  | writable result => exact Or.inl handleWrite_state

end frame

/-- A connection whose channel does not wait ignores a writable event. -/
lemma handleWrite_of_not_writing (hw : c.isWriting = false) : c.handleWrite result = c := by
  unfold handleWrite
  simp [hw]

/-- A closed connection ignores every event. -/
lemma onEvent_of_disconnected (hs : c.state = .kDisconnected) (hw : c.isWriting = false) :
    c.onEvent event = c := by
  have hne : c.state ≠ .kConnected := by
    rw [hs]
    exact nofun
  cases event with
  | send message result => exact (send_noteSent c message result).trans (if_neg hne)
  | shutdown => exact if_neg hne
  | writable result => exact handleWrite_of_not_writing hw

/-- A socket that was shut down has nothing left to write, and takes no more messages. -/
def Final (c : TcpConnection) : Prop :=
  c.shutdowns ≠ [] → c.outputBuffer.readable = [] ∧ c.state ≠ .kConnected

/-- Behind the shutdown nothing changes. -/
lemma Final.onEvent_of_shut (h : c.Final) (hc : c.Intact) (hdown : c.shutdowns ≠ []) :
    c.onEvent event = c := by
  obtain ⟨hempty, hstate⟩ := h hdown
  have hw : c.isWriting = false := by
    rcases hw : c.isWriting with _ | _
    · rfl
    · exact absurd hempty (hc.writing.mp hw)
  cases event with
  | send message result => exact (send_noteSent c message result).trans (if_neg hstate)
  | shutdown => exact if_neg hstate
  | writable result => exact handleWrite_of_not_writing hw

/-- Every event keeps a shutdown final: the socket is shut down only when nothing waits. -/
lemma Final.onEvent (h : c.Final) (hc : c.Intact) : (c.onEvent event).Final := by
  by_cases hdown : c.shutdowns = []
  · -- the event may shut the socket down
    cases event with
    | send message result =>
        intro hne
        refine absurd ?_ hne
        show ((c.noteSent message).send message result).shutdowns = []
        rw [send_noteSent]
        split
        · rw [sendInLoop_shutdowns]
          exact hdown
        · exact hdown
    | shutdown =>
        show c.shutdown.Final
        unfold shutdown
        split
        · intro hne
          by_cases hw : c.isWriting = true
          · refine absurd ?_ hne
            simp [shutdownInLoop, hw, hdown]
          · rw [Bool.not_eq_true] at hw
            have hempty : c.outputBuffer.readable = [] := Settled.readable_eq_nil hc.writing hw
            refine ⟨?_, by rw [shutdownInLoop_state]; simp⟩
            simpa [shutdownInLoop, hw, shutdownWrite] using hempty
        · exact h
    | writable result =>
        show (c.handleWrite result).Final
        intro hne
        rw [handleWrite_shutdowns] at hne
        by_cases hd : c.Drains result ∧ c.state = .kDisconnecting
        · refine ⟨?_, by rw [handleWrite_state, hd.2]; simp⟩
          rw [handleWrite_of_drains hd.1, if_pos hd.2]
          simp [shutdownWrite, emptied]
        · rw [if_neg hd] at hne
          exact absurd hdown hne
  · -- the socket was shut down before, so nothing changes
    rw [h.onEvent_of_shut hc hdown]
    exact h

end TcpConnection

/-- The two ends together. -/
structure Link where
  ends : Side → LinkEnd

namespace Link

/-- Two connections behind `connectEstablished`, each with the callbacks and the mark that its owner
has set. -/
def established (highWaterMark : Side → ℕ) (writeComplete highWater : Side → Bool) : Link where
  ends s := { conn := .established (highWaterMark s) (writeComplete s) (highWater s) }

/-- One event at one end. -/
def step (l : Link) (event : Side × EndEvent) : Option Link :=
  ((l.ends event.1).onEvent (l.ends event.1.other) event.2).map fun r =>
    ⟨fun s => if s = event.1 then r.1 else r.2⟩

/-- The steps of a link. -/
def Step (l : Link) (event : Side × EndEvent) (l' : Link) : Prop := l.step event = some l'

end Link

/-! ## One direction -/

/-- The stream from `x` to `y`. -/
structure Carries (x y : LinkEnd) : Prop where
  /-- what was written is received, or on the way -/
  arrives : y.received ++ y.incoming = x.conn.written
  /-- the output side is in order while the connection is open -/
  intact : x.conn.state ≠ .kDisconnected → x.conn.Intact
  /-- and keeps what it had when it was closed -/
  stream : x.conn.written ++ x.conn.outputBuffer.readable = x.conn.sent.flatten
  /-- a closed connection does not wait for `EPOLLOUT` -/
  idle : x.conn.state = .kDisconnected → x.conn.isWriting = false
  /-- the socket is shut down only when nothing waits -/
  final : x.conn.Final
  /-- only a closed connection is destroyed -/
  destroyed : x.gone = true → x.conn.state = .kDisconnected
  /-- `y` was closed when everything on the way had arrived and no more could come -/
  closed : y.conn.state = .kDisconnected → y.incoming = [] ∧ x.ended = true

namespace LinkEnd

variable {x y x' y' : LinkEnd} {event : EndEvent}

/-- What an event leaves alone: the peer's connection and the shutdowns of its own; and when it
closes an end. -/
lemma onEvent_frame (he : x.onEvent y event = some (x', y')) :
    x.conn.shutdowns <+: x'.conn.shutdowns ∧ y'.conn = y.conn ∧
      (x'.conn.state = .kDisconnected → x.conn.state = .kDisconnected ∨ y.ended = true) := by
  cases event with
  | output output =>
      simp only [onEvent, Option.ite_none_right_eq_some, Option.some.injEq, Prod.mk.injEq] at he
      obtain ⟨-, rfl, rfl⟩ := he
      refine ⟨TcpConnection.shutdowns_onEvent _ _, rfl, fun hs => Or.inl ?_⟩
      rcases TcpConnection.state_onEvent x.conn output with heq | ⟨-, heq⟩
      · exact heq ▸ hs
      · rw [heq] at hs
        cases hs
  | read n =>
      simp only [onEvent, Option.ite_none_right_eq_some, Option.some.injEq, Prod.mk.injEq] at he
      obtain ⟨-, rfl, rfl⟩ := he
      exact ⟨List.prefix_rfl, rfl, Or.inl⟩
  | retrieve n =>
      obtain ⟨rfl, rfl⟩ := Prod.mk.inj (Option.some.inj he)
      exact ⟨List.prefix_rfl, rfl, Or.inl⟩
  | eof =>
      simp only [onEvent, Option.ite_none_right_eq_some, Option.some.injEq, Prod.mk.injEq] at he
      obtain ⟨⟨-, -, hended⟩, rfl, rfl⟩ := he
      exact ⟨List.prefix_rfl, rfl, fun _ => Or.inr hended⟩
  | destroy =>
      simp only [onEvent, Option.ite_none_right_eq_some, Option.some.injEq, Prod.mk.injEq] at he
      obtain ⟨hs, rfl, rfl⟩ := he
      exact ⟨List.prefix_rfl, rfl, Or.inl⟩

end LinkEnd

namespace Carries

variable {x y x' y' : LinkEnd} {event : EndEvent}

/-- An end that has ended writes nothing more. -/
lemma onEvent_of_ended (h : Carries x y) (he : x.ended = true) (output : OutputEvent) :
    x.conn.onEvent output = x.conn := by
  by_cases hs : x.conn.state = .kDisconnected
  · exact TcpConnection.onEvent_of_disconnected hs (h.idle hs)
  · have hdown : x.conn.shutdowns ≠ [] := by
      intro hnil
      have hgone : x.gone = true := by simpa [LinkEnd.ended, hnil] using he
      exact hs (h.destroyed hgone)
    exact h.final.onEvent_of_shut (h.intact hs) hdown

/-- An event at the sender leaves the stream carried. -/
lemma onEvent_sender (h : Carries x y) (he : x.onEvent y event = some (x', y')) :
    Carries x' y' := by
  cases event with
  | output output =>
      simp only [LinkEnd.onEvent, Option.ite_none_right_eq_some, Option.some.injEq,
        Prod.mk.injEq] at he
      obtain ⟨hp, rfl, rfl⟩ := he
      by_cases hs : x.conn.state = .kDisconnected
      · rw [TcpConnection.onEvent_of_disconnected hs (h.idle hs)]
        simpa using h
      · obtain ⟨more, hmore⟩ := TcpConnection.written_onEvent x.conn output
        have hintact := (h.intact hs).onEvent hp
        refine ⟨?_, fun _ => hintact, hintact.stream, ?_, h.final.onEvent (h.intact hs), ?_, ?_⟩
        · show y.received ++ (y.incoming ++ _) = _
          rw [← hmore, List.drop_left, ← List.append_assoc, h.arrives]
        · intro hs'
          rcases TcpConnection.state_onEvent x.conn output with heq | ⟨-, heq⟩
          · exact absurd (heq ▸ hs') hs
          · rw [heq] at hs'
            cases hs'
        · intro hg
          exact absurd (h.destroyed hg) hs
        · intro hy
          obtain ⟨hnil, hended⟩ := h.closed hy
          rw [h.onEvent_of_ended hended]
          exact ⟨by simpa using hnil, hended⟩
  | read n =>
      simp only [LinkEnd.onEvent, Option.ite_none_right_eq_some, Option.some.injEq,
        Prod.mk.injEq] at he
      obtain ⟨-, rfl, rfl⟩ := he
      exact ⟨h.arrives, h.intact, h.stream, h.idle, h.final, h.destroyed, h.closed⟩
  | retrieve n =>
      obtain ⟨rfl, rfl⟩ := Prod.mk.inj (Option.some.inj he)
      exact ⟨h.arrives, h.intact, h.stream, h.idle, h.final, h.destroyed, h.closed⟩
  | eof =>
      simp only [LinkEnd.onEvent, Option.ite_none_right_eq_some, Option.some.injEq,
        Prod.mk.injEq] at he
      obtain ⟨-, rfl, rfl⟩ := he
      refine ⟨h.arrives, fun hne => absurd rfl hne, h.stream, fun _ => rfl, ?_, fun _ => rfl,
        h.closed⟩
      intro hne
      exact ⟨(h.final hne).1, nofun⟩
  | destroy =>
      simp only [LinkEnd.onEvent, Option.ite_none_right_eq_some, Option.some.injEq,
        Prod.mk.injEq] at he
      obtain ⟨hs, rfl, rfl⟩ := he
      refine ⟨h.arrives, h.intact, h.stream, h.idle, h.final, fun _ => hs, fun hy => ?_⟩
      exact ⟨(h.closed hy).1, by simp [LinkEnd.ended]⟩

/-- An event at the receiver leaves the stream carried. -/
lemma onEvent_receiver (h : Carries x y) (he : y.onEvent x event = some (y', x')) :
    Carries x' y' := by
  cases event with
  | output output =>
      simp only [LinkEnd.onEvent, Option.ite_none_right_eq_some, Option.some.injEq,
        Prod.mk.injEq] at he
      obtain ⟨-, rfl, rfl⟩ := he
      refine ⟨h.arrives, h.intact, h.stream, h.idle, h.final, h.destroyed, fun hy => ?_⟩
      rcases TcpConnection.state_onEvent y.conn output with heq | ⟨-, heq⟩
      · exact h.closed (heq ▸ hy)
      · rw [show ({ y with conn := y.conn.onEvent output } : LinkEnd).conn.state = _ from heq] at hy
        cases hy
  | read n =>
      simp only [LinkEnd.onEvent, Option.ite_none_right_eq_some, Option.some.injEq,
        Prod.mk.injEq] at he
      obtain ⟨⟨hopen, -⟩, rfl, rfl⟩ := he
      refine ⟨?_, h.intact, h.stream, h.idle, h.final, h.destroyed, fun hy => absurd hy hopen⟩
      rw [← h.arrives]
      simp [LinkEnd.received]
  | retrieve n =>
      obtain ⟨rfl, rfl⟩ := Prod.mk.inj (Option.some.inj he)
      refine ⟨?_, h.intact, h.stream, h.idle, h.final, h.destroyed, h.closed⟩
      rw [← h.arrives]
      simp [LinkEnd.received, Buffer.readable_retrieve]
  | eof =>
      simp only [LinkEnd.onEvent, Option.ite_none_right_eq_some, Option.some.injEq,
        Prod.mk.injEq] at he
      obtain ⟨⟨-, hnil, hended⟩, rfl, rfl⟩ := he
      exact ⟨h.arrives, h.intact, h.stream, h.idle, h.final, h.destroyed, fun _ => ⟨hnil, hended⟩⟩
  | destroy =>
      simp only [LinkEnd.onEvent, Option.ite_none_right_eq_some, Option.some.injEq,
        Prod.mk.injEq] at he
      obtain ⟨-, rfl, rfl⟩ := he
      exact ⟨h.arrives, h.intact, h.stream, h.idle, h.final, h.destroyed, h.closed⟩

end Carries

namespace Link

/-! ## Both directions -/

/-- Both streams are in order, and an end was closed only behind a shutdown of one of the
sockets. -/
structure Ordered (l : Link) : Prop where
  carries : ∀ s, Carries (l.ends s) (l.ends s.other)
  behind_shutdown : ∀ s, (l.ends s).conn.state = .kDisconnected →
    ∃ r, (l.ends r).conn.shutdowns ≠ []

variable {l l' : Link} {event : Side × EndEvent} {highWaterMark : Side → ℕ}
  {writeComplete highWater : Side → Bool} {p : List ((Side × EndEvent) × Link)}

/-- What one step does to the two ends. -/
lemma step_cases (h : Step l event l') : ∃ x y,
    (l.ends event.1).onEvent (l.ends event.1.other) event.2 = some (x, y) ∧
      l'.ends event.1 = x ∧ l'.ends event.1.other = y := by
  obtain ⟨r, hr, rfl⟩ := Option.map_eq_some_iff.mp h
  exact ⟨r.1, r.2, hr, if_pos rfl, if_neg event.1.other_ne⟩

/-- A property of both ends, told from the one where the event happens. -/
lemma forall_side_iff {P : Side → Prop} (s : Side) : (∀ r, P r) ↔ P s ∧ P s.other := by
  refine ⟨fun h => ⟨h s, h s.other⟩, fun h r => ?_⟩
  cases s <;> cases r <;> first | exact h.1 | exact h.2

/-- Something holds of an end exactly when it holds of one or of the other. -/
lemma exists_side_iff {P : Side → Prop} (s : Side) : (∃ r, P r) ↔ P s ∨ P s.other := by
  constructor
  · rintro ⟨r, h⟩
    cases s <;> cases r <;> first | exact Or.inl h | exact Or.inr h
  · rintro (h | h)
    · exact ⟨s, h⟩
    · exact ⟨s.other, h⟩

/-- Every step keeps a link in order. -/
lemma Ordered.step (h : l.Ordered) (hstep : Step l event l') : l'.Ordered := by
  obtain ⟨s, event⟩ := event
  obtain ⟨x, y, he, hx, hy⟩ := step_cases hstep
  obtain ⟨hdown, hpeer, hclosed⟩ := LinkEnd.onEvent_frame he
  have hback : Carries (l.ends s.other) (l.ends s) := by
    simpa using h.carries s.other
  -- a shutdown of one of the sockets is still there
  have hkeep : (∃ r, (l.ends r).conn.shutdowns ≠ []) → ∃ r, (l'.ends r).conn.shutdowns ≠ [] := by
    rw [exists_side_iff s, exists_side_iff s, hx, hy, hpeer]
    apply Or.imp_left
    intro hne hnil
    exact hne (List.prefix_nil.mp (hnil ▸ hdown))
  constructor
  · rw [forall_side_iff s, Side.other_other, hx, hy]
    exact ⟨(h.carries s).onEvent_sender he, hback.onEvent_receiver he⟩
  · intro r
    revert r
    rw [forall_side_iff s, hx, hy, hpeer]
    refine ⟨fun hs => hkeep ?_, fun hs => hkeep (h.behind_shutdown _ hs)⟩
    rcases hclosed hs with hbefore | hended
    · exact h.behind_shutdown _ hbefore
    · -- the peer's socket was shut down, or it closed before
      by_cases hnil : (l.ends s.other).conn.shutdowns = []
      · apply h.behind_shutdown s.other
        apply hback.destroyed
        simpa [LinkEnd.ended, hnil] using hended
      · exact ⟨_, hnil⟩

/-- Two connections behind `connectEstablished` have streams in order, as both are empty. -/
lemma ordered_established : (established highWaterMark writeComplete highWater).Ordered := by
  have hempty : (Buffer.new Buffer.kInitialSize).readable = [] := by
    simp [Buffer.readable, Buffer.new]
  have hopen : ∀ s, ((established highWaterMark writeComplete highWater).ends s).conn.state ≠
      .kDisconnected := by
    intro s
    simp [established, TcpConnection.established]
  constructor
  · intro s
    refine ⟨?_, fun _ => ⟨hempty, ?_, ?_⟩, hempty, fun hs => absurd hs (hopen s),
      fun hne => absurd rfl hne, ?_, fun hs => absurd hs (hopen s.other)⟩
    · simp [established, LinkEnd.received, TcpConnection.established, hempty]
    · simp [established, TcpConnection.established, hempty]
    · simp [established, TcpConnection.established]
    · simp [established]
  · exact fun s hs => absurd hs (hopen s)

/-- A link is in order in every state of every run. -/
lemma ordered_along (hp : Path Step (established highWaterMark writeComplete highWater) p) :
    Throughout Ordered (established highWaterMark writeComplete highWater) p :=
  hp.throughout (fun _ _ _ h hstep => h.step hstep) ordered_established

/-! ## What arrives -/

/-- What was sent at one end is, in order, received at the other, on the way to it, or waiting in
`outputBuffer_`; all of it has arrived when nothing is on the way, and the sender is not closed and
its channel does not wait. -/
structure Conserves (x y : LinkEnd) : Prop where
  stream : y.received ++ y.incoming ++ x.conn.outputBuffer.readable = x.conn.sent.flatten
  arrived : y.incoming = [] → x.conn.isWriting = false → x.conn.state ≠ .kDisconnected →
    y.received = x.conn.sent.flatten

/-- **Nothing is lost, repeated or out of order between two connections**, in either direction, in
every state of every run. -/
theorem link_conserves (hp : Path Step (established highWaterMark writeComplete highWater) p) :
    Throughout (fun l => ∀ s, Conserves (l.ends s) (l.ends s.other))
      (established highWaterMark writeComplete highWater) p := by
  apply (ordered_along hp).mono
  intro l h s
  have hc := h.carries s
  have hstream : (l.ends s.other).received ++ (l.ends s.other).incoming ++
      (l.ends s).conn.outputBuffer.readable = (l.ends s).conn.sent.flatten := by
    rw [hc.arrives, hc.stream]
  refine ⟨hstream, fun hnil hw hs => ?_⟩
  have hempty : (l.ends s).conn.outputBuffer.readable = [] :=
    TcpConnection.Settled.readable_eq_nil (hc.intact hs).writing hw
  simpa [hnil, hempty] using hstream

/-- Two messages with partial writes and reads, and an answer. -/
theorem link_conserves_partial_reads :
    Throughout (fun l => ∀ s, Conserves (l.ends s) (l.ends s.other))
      (established (fun _ => 4) (fun _ => true) (fun _ => false))
      (trace step (established (fun _ => 4) (fun _ => true) (fun _ => false))
        [(.client, .output (.send [1, 2, 3] (.wrote 2))), (.server, .read 1),
          (.client, .output (.send [4] (.wrote 0))), (.server, .retrieve 1),
          (.client, .output (.writable (.wrote 2))), (.server, .read 3),
          (.server, .output (.send [5] (.wrote 1))), (.client, .read 1)]) :=
  link_conserves (path_trace step _ _)

/-- The end `s` has received all that its peer ever sent. -/
def Complete (l : Link) (s : Side) : Prop :=
  (l.ends s).received = (l.ends s.other).conn.sent.flatten

/-- The end `s` has read the end of the stream and called `handleClose`. -/
def Closed (l : Link) (s : Side) : Prop := (l.ends s).conn.state = .kDisconnected

/-- What an end that has read the end of the stream can rely on. -/
structure EndsWhole (l : Link) : Prop where
  /-- nothing is missing but what still waits in the peer's `outputBuffer_` -/
  missing : ∀ s, l.Closed s →
    (l.ends s).received ++ (l.ends s.other).conn.outputBuffer.readable =
      (l.ends s.other).conn.sent.flatten
  /-- a peer whose socket was shut down has left nothing there -/
  of_shutdown : ∀ s, l.Closed s → (l.ends s.other).conn.shutdowns ≠ [] → l.Complete s
  /-- so it is for the end that closed first, at least -/
  first : (∃ s, l.Closed s) → ∃ s, l.Closed s ∧ l.Complete s

/-- **The end of the stream comes behind the whole stream**, in every state of every run. -/
theorem eof_complete (hp : Path Step (established highWaterMark writeComplete highWater) p) :
    Throughout EndsWhole (established highWaterMark writeComplete highWater) p := by
  apply (ordered_along hp).mono
  intro l h
  have hmissing : ∀ s, l.Closed s →
      (l.ends s).received ++ (l.ends s.other).conn.outputBuffer.readable =
        (l.ends s.other).conn.sent.flatten := by
    intro s hs
    have hc : Carries (l.ends s.other) (l.ends s) := by
      simpa using h.carries s.other
    have harrives := hc.arrives
    rw [(hc.closed hs).1, List.append_nil] at harrives
    rw [harrives, hc.stream]
  have hshut : ∀ s, l.Closed s → (l.ends s.other).conn.shutdowns ≠ [] → l.Complete s := by
    intro s hs hne
    have hempty := ((h.carries s.other).final hne).1
    simpa [hempty, Complete] using hmissing s hs
  refine ⟨hmissing, hshut, ?_⟩
  rintro ⟨s, hs⟩
  by_cases hpeer : (l.ends s.other).conn.shutdowns = []
  · -- the peer was destroyed, so it closed behind the shutdown of this end's socket
    have hc : Carries (l.ends s.other) (l.ends s) := by
      simpa using h.carries s.other
    have hgone : (l.ends s.other).gone = true := by
      simpa [LinkEnd.ended, hpeer] using (hc.closed hs).2
    have hclosed : l.Closed s.other := hc.destroyed hgone
    rcases (exists_side_iff s).mp (h.behind_shutdown s hs) with hdown | hdown
    · refine ⟨s.other, hclosed, hshut s.other hclosed ?_⟩
      rwa [Side.other_other]
    · exact absurd hpeer hdown
  · exact ⟨s, hs, hshut s hs hpeer⟩

/-- The client shuts down, and the server closes while a byte of its answer waits. -/
def halfClosed : List (Side × EndEvent) :=
  [(.client, .output (.send [1, 2] (.wrote 2))), (.client, .output .shutdown), (.server, .read 2),
    (.server, .output (.send [7, 8] (.wrote 1))), (.server, .eof), (.server, .destroy),
    (.client, .read 1), (.client, .eof)]

/-- The end that closed first has everything. -/
theorem eof_complete_half_closed :
    Throughout EndsWhole (established (fun _ => 4) (fun _ => false) (fun _ => false))
      (trace step (established (fun _ => 4) (fun _ => false) (fun _ => false)) halfClosed) :=
  eof_complete (path_trace step _ _)

/-- The other one misses the byte that waited. -/
example : (trace step (established (fun _ => 4) (fun _ => false) (fun _ => false))
    halfClosed).map (fun x => (x.2.ends .client).received) =
      [[], [], [], [], [], [], [7], [7]] := by
  decide +kernel

end Link

end SwiftNetCore
