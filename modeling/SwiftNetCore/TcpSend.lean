import SwiftNetCore.TcpConnection
import SwiftNetCore.Lib.Path

/-!
# Sending a caller's buffer

`send(Buffer *)` hands the readable bytes of a caller's buffer to `sendInLoop`. In the loop thread
it does so at once and empties the buffer. On another thread it queues a functor that holds the
address `peek()` and the length, and leaves the buffer as it is; the bytes are read when the functor
runs, from wherever the address points to by then.

* `Sender`: a connection, a caller's buffer with the block of memory it lies in, and the functors
  that wait.
* `Faithful`: every call hands on what the buffer held when it was made, empties the buffer, and no
  appended byte is handed on twice or left out.
* `faithful_iff`: over every run of `append` and `send`, that is so exactly when no call from
  another thread finds bytes in the buffer.
-/

namespace SwiftNetCore

open Cells (window)
open Paths (Path Throughout MeetsAll trace path_trace)

/-- What the functor of `send(Buffer *)` holds: an address and a length, and for the property what
the buffer held when the call was made. -/
structure CapturedSend where
  held : Bytes
  /-- the block that `peek()` pointed into -/
  block : ℕ
  /-- the offset of `peek()` in that block -/
  offset : ℕ
  /-- `readableBytes()` -/
  len : ℕ
  deriving DecidableEq, Repr

/-- A call that was carried out: what the buffer held when it was made, and what `sendInLoop` was
given. -/
structure SendCall where
  held : Bytes
  given : Bytes
  deriving DecidableEq, Repr

/-- A caller with a buffer, and the connection that it sends it on. -/
structure Sender where
  conn : TcpConnection := {}
  /-- the caller's buffer -/
  buffer : Buffer := .new Buffer.kInitialSize
  /-- the block of memory that its vector has -/
  block : ℕ := 0
  /-- the functors of `send` in `pendingFunctors_` -/
  pending : List CapturedSend := []
  /-- all bytes that were appended to the buffer -/
  appended : Bytes := []
  /-- what the buffer held at each call -/
  held : List Bytes := []
  /-- what it held right after each call -/
  kept : List Bytes := []
  /-- the calls that were carried out -/
  done : List SendCall := []

/-- What happens to a caller's buffer. -/
inductive SendEvent where
  /-- `append`; when the vector has to grow, it may get a new block of memory -/
  | append (data : Bytes) (moved : Bool)
  /-- `send` in the loop thread -/
  | send (result : WriteResult)
  /-- `send` on another thread -/
  | sendElsewhere
  /-- the loop runs the next functor; `stale` is what it reads at an address in a block that the
  vector no longer has -/
  | runFunctor (stale : Bytes) (result : WriteResult)
  deriving DecidableEq, Repr

namespace Sender

/-- `append(data)` makes the vector larger. Source: Buffer.h 72-76, 154-158 -/
def Grows (data : Bytes) (b : Buffer) : Prop :=
  b.writeableBytes < data.length ∧
    b.writeableBytes + b.prependableBytes < data.length + kCheapPrepend

instance (data : Bytes) (b : Buffer) : Decidable (Grows data b) :=
  inferInstanceAs (Decidable (_ ∧ _))

/-- The caller appends to its buffer. -/
def append (data : Bytes) (moved : Bool) (s : Sender) : Sender :=
  { s with
    buffer := s.buffer.append data
    block := if Grows data s.buffer ∧ moved = true then s.block + 1 else s.block }

/-- `send(Buffer *)` in the loop thread. Source: TcpConnection.cpp 160-167 -/
def send (result : WriteResult) (s : Sender) : Sender :=
  if s.conn.state = .kConnected then
    { s with
      conn := s.conn.sendInLoop s.buffer.readable result
      buffer := s.buffer.retrieveAll
      done := s.done ++ [⟨s.buffer.readable, s.buffer.readable⟩] }
  else s

/-- `send(Buffer *)` on another thread. Source: TcpConnection.cpp 168-178 -/
def sendElsewhere (s : Sender) : Sender :=
  if s.conn.state = .kConnected then
    { s with
      pending := s.pending ++
        [⟨s.buffer.readable, s.block, s.buffer.readerIndex, s.buffer.readableBytes⟩] }
  else s

/-- A call of `send` that finds `kConnected` is noted, with what the buffer held before it and what
it holds behind it. -/
def noteCall (before after : Sender) : Sender :=
  if before.conn.state = .kConnected then
    { after with
      held := before.held ++ [before.buffer.readable]
      kept := before.kept ++ [after.buffer.readable] }
  else after

/-- What lies at the address that a functor holds. -/
def read (s : Sender) (captured : CapturedSend) (stale : Bytes) : Bytes :=
  if captured.block = s.block then window captured.offset captured.len s.buffer.buffer
  else stale

/-- The functor at the front runs. -/
def runFunctor (stale : Bytes) (result : WriteResult) (s : Sender) : Option Sender :=
  match s.pending with
  | [] => none
  | captured :: pending =>
    if stale.length = captured.len then
      some { s with
        conn := s.conn.sendInLoop (s.read captured stale) result
        pending := pending
        done := s.done ++ [⟨captured.held, s.read captured stale⟩] }
    else none

/-- One event. What was appended and which calls were made is noted here. -/
def step (s : Sender) : SendEvent → Option Sender
  | .append data moved => some { s.append data moved with appended := s.appended ++ data }
  | .send result => some (s.noteCall (s.send result))
  | .sendElsewhere => some (s.noteCall s.sendElsewhere)
  | .runFunctor stale result => s.runFunctor stale result

/-- The steps of a sender. -/
def Step (s : Sender) (event : SendEvent) (t : Sender) : Prop := s.step event = some t

/-! ## The property and the condition -/

/-- Every call hands on what the buffer held, and every appended byte once. -/
structure Faithful (s : Sender) : Prop where
  /-- every call leaves the buffer empty -/
  empties : ∀ l ∈ s.kept, l = []
  /-- every call that was carried out handed on what the buffer held when it was made -/
  exact : ∀ call ∈ s.done, call.given = call.held
  /-- that is what `sendInLoop` was given, in this order -/
  handed : s.conn.handed = s.done.map SendCall.given
  /-- every call was carried out once, or waits -/
  once : s.held.Perm (s.done.map SendCall.held ++ s.pending.map CapturedSend.held)
  /-- every byte appended was held at one call, or is still in the buffer -/
  accounted : s.held.flatten ++ s.buffer.readable = s.appended

/-- A call from another thread finds the buffer empty. -/
def FindsEmpty (s : Sender) : SendEvent → Prop
  | .sendElsewhere => s.buffer.readable = []
  | _ => True

instance (s : Sender) : DecidablePred s.FindsEmpty
  | .sendElsewhere => inferInstanceAs (Decidable (_ = _))
  | .append _ _ | .send _ | .runFunctor _ _ => inferInstanceAs (Decidable True)

/-- What a run keeps as long as such calls find the buffer empty: the functors that wait hold no
bytes. -/
structure Careful (s : Sender) : Prop extends Faithful s where
  connected : s.conn.state = .kConnected
  idle : ∀ captured ∈ s.pending, captured.held = [] ∧ captured.len = 0

variable {s t : Sender}

/-- A connection whose sender is careful is not closed. -/
lemma Careful.opened (h : s.Careful) : s.conn.state ≠ .kDisconnected := by
  rw [h.connected]
  decide

/-- Appending to the buffer keeps the functors free of bytes. -/
lemma Careful.append (h : s.Careful) (data : Bytes) (moved : Bool) :
    ({ s.append data moved with appended := s.appended ++ data } : Sender).Careful where
  empties := h.empties
  exact := h.exact
  handed := h.handed
  once := h.once
  accounted := by
    show s.held.flatten ++ (s.buffer.append data).readable = s.appended ++ data
    rw [Buffer.readable_append, ← List.append_assoc, h.accounted]
  connected := h.connected
  idle := h.idle

/-- A call on the loop's thread keeps the functors free of bytes. -/
lemma Careful.send (h : s.Careful) (result : WriteResult) :
    (s.noteCall (s.send result)).Careful := by
  unfold Sender.noteCall Sender.send
  rw [if_pos h.connected, if_pos h.connected]
  refine ⟨⟨?_, ?_, ?_, ?_, ?_⟩, ?_, h.idle⟩
  · exact List.forall_mem_append.mpr ⟨h.empties, by simp⟩
  · exact List.forall_mem_append.mpr ⟨h.exact, by simp⟩
  · simp [TcpConnection.sendInLoop_handed _ _ _ h.opened, h.handed]
  · rw [List.perm_iff_count]
    intro l
    have := h.once.count_eq l
    simp only [List.map_append, List.map_cons, List.map_nil, List.count_append] at this ⊢
    omega
  · simpa using h.accounted
  · simpa [TcpConnection.sendInLoop_state] using h.connected

/-- A call on another thread that finds the buffer empty queues a functor without bytes. -/
lemma Careful.sendElsewhere (h : s.Careful) (hempty : s.buffer.readable = []) :
    (s.noteCall s.sendElsewhere).Careful := by
  have hlen : s.buffer.readableBytes = 0 := (TcpConnection.readableBytes_eq_zero_iff _).mpr hempty
  unfold Sender.noteCall Sender.sendElsewhere
  rw [if_pos h.connected, if_pos h.connected]
  refine ⟨⟨?_, h.exact, h.handed, ?_, ?_⟩, h.connected, ?_⟩
  · exact List.forall_mem_append.mpr ⟨h.empties, by simp [hempty]⟩
  · simpa using h.once.append_right [s.buffer.readable]
  · simpa [hempty] using h.accounted
  · exact List.forall_mem_append.mpr ⟨h.idle, by simp [hempty, hlen]⟩

/-- A functor without bytes sends nothing, whatever it finds behind its pointer. -/
lemma Careful.runFunctor {stale : Bytes} {result : WriteResult} (h : s.Careful)
    (hst : s.runFunctor stale result = some t) : t.Careful := by
  unfold Sender.runFunctor at hst
  rcases hpending : s.pending with _ | ⟨captured, pending⟩
  · simp [hpending] at hst
  · simp only [hpending, Option.ite_none_right_eq_some, Option.some.injEq] at hst
    obtain ⟨hstale, rfl⟩ := hst
    have hidle := h.idle
    have honce := h.once
    rw [hpending] at hidle honce
    obtain ⟨hheld, hlen⟩ := hidle captured List.mem_cons_self
    have hread : s.read captured stale = [] := by
      rw [hlen, List.length_eq_zero_iff] at hstale
      unfold read
      split
      · rw [hlen, Cells.window_zero]
      · exact hstale
    simp only [hread, hheld]
    refine ⟨⟨h.empties, ?_, ?_, ?_, h.accounted⟩, ?_, ?_⟩
    · exact List.forall_mem_append.mpr ⟨h.exact, by simp⟩
    · simp [TcpConnection.sendInLoop_handed _ _ _ h.opened, h.handed]
    · simpa [hheld] using honce
    · simpa [TcpConnection.sendInLoop_state] using h.connected
    · intro c hc
      exact hidle c (List.mem_cons_of_mem _ hc)

/-! ## Runs -/

/-- A caller with an empty buffer, and a connection in state `kConnected`. -/
def start (highWaterMark : ℕ) (writeComplete highWater : Bool) : Sender where
  conn := .established highWaterMark writeComplete highWater

/-- At first no functor waits, so none holds bytes. -/
lemma careful_start (highWaterMark : ℕ) (writeComplete highWater : Bool) :
    (start highWaterMark writeComplete highWater).Careful where
  empties := nofun
  exact := nofun
  handed := rfl
  once := .nil
  accounted := by simp [start, Buffer.readable, Buffer.new]
  connected := rfl
  idle := nofun

/-- **When the two paths agree.** Over every run, every call hands on what the buffer held, once,
and leaves the buffer empty, exactly when the calls from other threads find it empty. -/
theorem faithful_iff {highWaterMark : ℕ} {writeComplete highWater : Bool}
    {p : List (SendEvent × Sender)}
    (hp : Path Step (start highWaterMark writeComplete highWater) p) :
    Throughout Faithful (start highWaterMark writeComplete highWater) p ↔
      MeetsAll FindsEmpty (start highWaterMark writeComplete highWater) p := by
  apply hp.throughout_iff_meetsAll_of_invariant
    (fun (s : Sender) (h : s.Careful) => h.toFaithful)
  · intro s event t h hst hempty
    cases event with
    | append data moved =>
        obtain rfl := Option.some.inj hst
        exact h.append data moved
    | send result =>
        obtain rfl := Option.some.inj hst
        exact h.send result
    | sendElsewhere =>
        obtain rfl := Option.some.inj hst
        exact h.sendElsewhere hempty
    | runFunctor stale result => exact h.runFunctor hst
  · intro s event t h hst hfaithful
    cases event with
    | sendElsewhere =>
        obtain rfl := Option.some.inj hst
        apply hfaithful.empties
        simp [noteCall, sendElsewhere, h.connected]
    | _ => trivial
  · exact careful_start _ _ _

/-- Calls in the loop thread, with appends in between, and one call from another thread that finds
nothing to send. -/
theorem faithful_iff_loop_thread :
    Throughout Faithful (start 64 false false)
      (trace step (start 64 false false)
        [.append [1, 2] false, .send (.wrote 1), .sendElsewhere, .append [3] false,
          .runFunctor [] (.wrote 0), .send (.wrote 0)]) :=
  (faithful_iff (path_trace step _ _)).mpr (by decide +kernel)

/-- **A buffer that another thread sends is sent twice.** The first call does not empty the buffer,
so the second hands the same byte on again. -/
theorem not_faithful_elsewhere :
    let p := trace step (start 64 false false)
      [.append [1] false, .sendElsewhere, .sendElsewhere, .runFunctor [0] (.wrote 1),
        .runFunctor [0] (.wrote 1)]
    ¬ Throughout Faithful (start 64 false false) p ∧
      (Paths.last (start 64 false false) p).appended = [1] ∧
      (Paths.last (start 64 false false) p).conn.handed = [[1], [1]] := by
  refine ⟨?_, by decide +kernel, by decide +kernel⟩
  intro h
  have hkept : [1] ∈ (Paths.last (start 64 false false)
      (trace step (start 64 false false)
        [.append [1] false, .sendElsewhere, .sendElsewhere, .runFunctor [0] (.wrote 1),
          .runFunctor [0] (.wrote 1)])).kept := by
    decide +kernel
  exact absurd (h.last.empties _ hkept) nofun

end Sender

end SwiftNetCore
