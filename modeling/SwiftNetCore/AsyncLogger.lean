import SwiftNetCore.Base
import SwiftNetCore.Lib.Path

/-!
# The asynchronous logger

A message goes into `current_buffer_`, from there into `buffers_to_write_` when the next one does
not fit or when the writer thread comes, from there into the writer's batch, and from the batch into
the file. `stop` ends the writer and then writes what it left.

The writer evaluates the condition of its loop without the mutex, part by part. A call of `log` that
finds the buffer full is taken in two steps, as the condition can be evaluated between them. What
the string's `capacity()` becomes is up to the library, within what `reserve` and `+=` promise.

* `pending`: what was logged and is not in the file, in the order of the three places.
* `Kept`: the file and what is pending are all that was logged.
* `faithful_iff_swappable`: over every run, what `stop` leaves in the file is all that was logged,
  in order, exactly when `stop` finds `current_buffer_` or the queue empty, or texts that may be
  swapped.
-/

namespace SwiftNetCore

open Paths (Path Throughout MeetsAll trace path_trace)

/-- Where the writer thread is in `writeLoop`. -/
inductive WriterPoint where
  /-- in front of `running_` in the loop's condition, -/
  | testRunning
  /-- of `buffers_to_write_.empty()`, -/
  | testQueue
  /-- of `current_buffer_.empty()`, -/
  | testCurrent
  /-- of the critical section, -/
  | locking
  /-- at its batch, of which these buffers are not written yet, -/
  | writing (localBuffers : List Bytes)
  /-- and behind the loop -/
  | exited
  deriving DecidableEq, Repr

/-- Where the call of `stop` is. -/
inductive StopPoint where
  | notCalled
  /-- it has set `running_`, -/
  | joining
  /-- joined the writer, -/
  | joined
  /-- and written the rest -/
  | done
  deriving DecidableEq, Repr

/-- An `AsyncLogger` with its writer thread. Source: AsyncLogger.h 140-148 -/
structure AsyncLogger where
  /-- `buffer_size_` -/
  bufferSize : ℕ
  /-- `current_buffer_` -/
  currentBuffer : Bytes := []
  /-- `current_buffer_.capacity()` -/
  capacity : ℕ
  /-- `buffers_to_write_` -/
  buffersToWrite : List Bytes := []
  /-- `running_` -/
  running : Bool := true
  /-- what was written to `log_file_` -/
  logFile : Bytes := []
  writer : WriterPoint := .testRunning
  /-- the entry of a call of `log` that has queued the full buffer and not appended it yet -/
  appending : Option Bytes := none
  stopping : StopPoint := .notCalled
  /-- the messages of the calls of `log`, in the order of their critical sections -/
  logged : List Bytes := []
  /-- those before the final critical section of `stop` -/
  loggedAtStop : Option (List Bytes) := none
  deriving DecidableEq, Repr

/-- What happens to a logger. -/
inductive LoggerEvent where
  /-- a call of `log` takes the mutex, and appends its message or queues the full buffer -/
  | log (message : Bytes)
  /-- in the second case it appends its message behind that -/
  | append (capacity : ℕ)
  /-- the writer evaluates the next part of its condition -/
  | test
  /-- the critical section of the writer -/
  | swap (capacity : ℕ)
  /-- the writer writes the next buffer of its batch -/
  | write
  /-- `stop` sets `running_`, -/
  | stop
  /-- joins the writer, -/
  | join
  /-- and comes to its final critical section -/
  | drain
  deriving DecidableEq, Repr

namespace AsyncLogger

/-- A new logger, whose buffer has the capacity that `reserve` gave it. Source: AsyncLogger.h
20-33 -/
def new (bufferSize capacity : ℕ) : AsyncLogger := { bufferSize := bufferSize, capacity := capacity }

/-- Source: AsyncLogger.h 71 -/
def logEntry (message : Bytes) : Bytes := message ++ [LF]

/-- The text of some messages. -/
def text (messages : List Bytes) : Bytes := messages.flatMap logEntry

/-- A call of `log` in its critical section. Source: AsyncLogger.h 75-84 -/
def log (message : Bytes) (l : AsyncLogger) : AsyncLogger :=
  if l.capacity - l.currentBuffer.length < (logEntry message).length then
    { l with
      buffersToWrite := l.buffersToWrite ++ [l.currentBuffer]
      currentBuffer := []
      appending := some message }
  else
    { l with currentBuffer := l.currentBuffer ++ logEntry message }

/-- The end of such a call, behind a full buffer. Source: AsyncLogger.h 80-84 -/
def append (message : Bytes) (capacity : ℕ) (l : AsyncLogger) : AsyncLogger :=
  { l with
    currentBuffer := l.currentBuffer ++ logEntry message
    capacity := capacity
    appending := none }

/-- The writer's condition, part by part. Source: AsyncLogger.h 93 -/
def test (l : AsyncLogger) : Option AsyncLogger :=
  match l.writer with
  | .testRunning => some { l with writer := if l.running then .locking else .testQueue }
  | .testQueue =>
    some { l with writer := if l.buffersToWrite ≠ [] then .locking else .testCurrent }
  | .testCurrent => some { l with writer := if l.currentBuffer ≠ [] then .locking else .exited }
  | _ => none

/-- `current_buffer_` goes into the queue. Source: AsyncLogger.h 105-110 -/
def queueCurrent (capacity : ℕ) (l : AsyncLogger) : AsyncLogger :=
  if l.currentBuffer ≠ [] then
    { l with
      buffersToWrite := l.buffersToWrite ++ [l.currentBuffer]
      currentBuffer := []
      capacity := capacity }
  else l

/-- The writer's critical section: it waits for a while, or takes a batch.
Source: AsyncLogger.h 95-118 -/
def swap (capacity : ℕ) (l : AsyncLogger) : AsyncLogger :=
  if l.buffersToWrite = [] ∧ l.currentBuffer = [] then { l with writer := .testRunning }
  else
    let l := l.queueCurrent capacity
    { l with
      buffersToWrite := l.buffersToWrite.drop 16
      writer := .writing (l.buffersToWrite.take 16) }

/-- Source: AsyncLogger.h 134-138 -/
def writeToFile (buffer : Bytes) (l : AsyncLogger) : AsyncLogger :=
  { l with logFile := l.logFile ++ buffer }

/-- The writer writes a buffer that is not empty. Source: AsyncLogger.h 121-130 -/
def write (l : AsyncLogger) : Option AsyncLogger :=
  match l.writer with
  | .writing [] => some { l with writer := .testRunning }
  | .writing (buffer :: localBuffers) =>
    let l := if buffer ≠ [] then l.writeToFile buffer else l
    some { l with writer := .writing localBuffers }
  | _ => none

/-- The final critical section of `stop`. Source: AsyncLogger.h 51-64 -/
def drain (l : AsyncLogger) : AsyncLogger :=
  let l := if l.currentBuffer ≠ [] then l.writeToFile l.currentBuffer else l
  { l.buffersToWrite.foldl (fun l buffer => l.writeToFile buffer) l with
    buffersToWrite := []
    stopping := .done }

/-! ## The steps -/

/-- The history of a call of `log`, at the end of its critical section. -/
def noteLogged (message : Bytes) (l : AsyncLogger) : AsyncLogger :=
  if l.appending = none then { l with logged := l.logged ++ [message] } else l

/-- The history of the final critical section of `stop`. -/
def noteStopped (l : AsyncLogger) : AsyncLogger := { l with loggedAtStop := some l.logged }

/-- One event. -/
def step (l : AsyncLogger) : LoggerEvent → Option AsyncLogger
  | .log message =>
    if l.appending = none then some ((l.log message).noteLogged message) else none
  | .append capacity =>
    match l.appending with
    | some message =>
      -- `reserve` and `+=` give at least the room that is asked for
      if max l.bufferSize (logEntry message).length ≤ capacity then
        some ((l.append message capacity).noteLogged message)
      else none
    | none => none
  | .test => l.test
  | .swap capacity =>
    if l.writer = .locking ∧ l.appending = none ∧ l.bufferSize ≤ capacity then
      some (l.swap capacity)
    else none
  | .write => l.write
  | .stop =>
    if l.stopping = .notCalled then some { l with running := false, stopping := .joining }
    else none
  | .join =>
    if l.stopping = .joining ∧ l.writer = .exited then some { l with stopping := .joined }
    else none
  | .drain =>
    if l.stopping = .joined ∧ l.appending = none then some l.drain.noteStopped else none

/-- The steps of a logger. -/
def Step (l : AsyncLogger) (event : LoggerEvent) (l' : AsyncLogger) : Prop := l.step event = some l'

/-! ## The property -/

/-- When `stop` returns, the file has the text of all messages logged before its final critical
section, in order. -/
def Faithful (l : AsyncLogger) : Prop := ∀ messages ∈ l.loggedAtStop, l.logFile = text messages

instance : DecidablePred Faithful :=
  fun l => inferInstanceAs (Decidable (∀ messages ∈ l.loggedAtStop, l.logFile = text messages))

/-- What is in the queue. -/
def queued (l : AsyncLogger) : Bytes := l.buffersToWrite.flatten

/-- `stop` finds texts in `current_buffer_` and in the queue that are the same in either order. -/
def Swappable (l : AsyncLogger) : LoggerEvent → Prop
  | .drain => l.currentBuffer ++ l.queued = l.queued ++ l.currentBuffer
  | _ => True

instance (l : AsyncLogger) : DecidablePred l.Swappable := by
  intro event
  unfold Swappable
  split <;> infer_instance

/-! ## What is not in the file yet -/

/-- The batch of the writer. -/
def localBuffers (l : AsyncLogger) : List Bytes :=
  match l.writer with
  | .writing localBuffers => localBuffers
  | _ => []

/-- What was logged and is not in the file: the batch, the queue and `current_buffer_`. -/
def pending (l : AsyncLogger) : Bytes := l.localBuffers.flatten ++ l.queued ++ l.currentBuffer

/-- What every step keeps: until `stop` has written the rest, nothing is lost and nothing
overtakes. -/
structure Kept (l : AsyncLogger) : Prop where
  all : l.stopping ≠ .done → l.logFile ++ l.pending = text l.logged
  exited : l.stopping = .joined ∨ l.stopping = .done → l.writer = .exited
  open_ : l.stopping ≠ .done → l.loggedAtStop = none
  faithful : l.Faithful

variable {l l' : AsyncLogger} {event : LoggerEvent} {message : Bytes} {messages : List Bytes}

/-- The text of one more message comes behind the text of the messages before it. -/
lemma text_append_singleton : text (messages ++ [message]) = text messages ++ logEntry message := by
  simp [text]

/-- A buffer is written, empty or not. -/
lemma writeToFile_of_ne_nil (buffer : Bytes) :
    (if buffer ≠ [] then l.writeToFile buffer else l) = l.writeToFile buffer := by
  split_ifs with h
  · rfl
  · obtain rfl : buffer = [] := not_not.mp h
    simp [writeToFile]

/-- Writing buffers one after the other writes their concatenation. -/
lemma foldl_writeToFile (buffers : List Bytes) :
    buffers.foldl (fun l buffer => l.writeToFile buffer) l = l.writeToFile buffers.flatten := by
  induction buffers generalizing l with
  | nil => simp [writeToFile]
  | cons buffer buffers ih =>
      rw [List.foldl_cons, ih]
      simp [writeToFile]

/-- `stop` writes `current_buffer_` in front of the queue. -/
lemma drain_eq (l : AsyncLogger) : l.drain.noteStopped =
    { l with
      logFile := l.logFile ++ l.currentBuffer ++ l.queued
      buffersToWrite := []
      stopping := .done
      loggedAtStop := some l.logged } := by
  unfold drain noteStopped
  simp only [writeToFile_of_ne_nil, foldl_writeToFile]
  rfl

/-- What `step` makes of a call of `log`: a full buffer goes into the queue, and the call is not at
its end; or the message goes into `current_buffer_`. -/
lemma noteLogged_log (message : Bytes) (hcalls : l.appending = none) :
    (l.log message).noteLogged message =
      if l.capacity - l.currentBuffer.length < (logEntry message).length then
        { l with
          buffersToWrite := l.buffersToWrite ++ [l.currentBuffer]
          currentBuffer := []
          appending := some message }
      else
        { l with
          currentBuffer := l.currentBuffer ++ logEntry message
          logged := l.logged ++ [message] } := by
  unfold log
  split_ifs
  · rfl
  · rw [noteLogged, if_pos hcalls]

/-- What `step` makes of the end of a call of `log`. -/
lemma noteLogged_append (message : Bytes) (capacity : ℕ) :
    (l.append message capacity).noteLogged message =
      { l with
        currentBuffer := l.currentBuffer ++ logEntry message
        capacity := capacity
        appending := none
        logged := l.logged ++ [message] } := rfl

/-- `current_buffer_` goes to the end of the queue, empty or not. -/
lemma queueCurrent_spec (capacity : ℕ) (l : AsyncLogger) :
    (l.queueCurrent capacity).queued = l.queued ++ l.currentBuffer ∧
      (l.queueCurrent capacity).currentBuffer = [] ∧
      (l.queueCurrent capacity).logFile = l.logFile ∧
      (l.queueCurrent capacity).logged = l.logged ∧
      (l.queueCurrent capacity).stopping = l.stopping ∧
      (l.queueCurrent capacity).loggedAtStop = l.loggedAtStop := by
  unfold queueCurrent
  split_ifs with h
  · simp [queued]
  · obtain hnil : l.currentBuffer = [] := not_not.mp h
    simp [hnil]

/-- While the writer has no batch, what is pending is the queue and `current_buffer_`. -/
lemma pending_of_no_batch (h : l.localBuffers = []) : l.pending = l.queued ++ l.currentBuffer := by
  rw [pending, h, List.flatten_nil, List.nil_append]

/-! ## Every step -/

/-- A step that is none of those of `stop` keeps what it should, if it loses nothing and leaves a
writer that has exited, and what it wrote, alone. -/
lemma Kept.keep (h : l.Kept) (hstopping : l'.stopping = l.stopping)
    (hat : l'.loggedAtStop = l.loggedAtStop)
    (hexited : l.writer = .exited → l'.writer = .exited ∧ l'.logFile = l.logFile)
    (hall : l.logFile ++ l.pending = text l.logged → l'.logFile ++ l'.pending = text l'.logged) :
    l'.Kept where
  all := fun hne => hall (h.all (hstopping ▸ hne))
  exited := fun hstop => (hexited (h.exited (hstopping ▸ hstop))).1
  open_ := fun hne => hat.trans (h.open_ (hstopping ▸ hne))
  faithful := by
    intro messages hmessages
    rw [hat] at hmessages
    have hdone : l.stopping = .done := by
      by_contra hne
      rw [h.open_ hne] at hmessages
      cases hmessages
    rw [(hexited (h.exited (.inr hdone))).2]
    exact h.faithful messages hmessages

/-- A call of `log` loses nothing. -/
lemma Kept.log (h : l.Kept) (message : Bytes) (hcalls : l.appending = none) :
    ((l.log message).noteLogged message).Kept := by
  rw [noteLogged_log message hcalls]
  split_ifs with hfull
  · refine h.keep rfl rfl (fun hexited => ⟨hexited, rfl⟩) fun hall => ?_
    rw [← hall]
    simp [pending, queued, localBuffers]
  · refine h.keep rfl rfl (fun hexited => ⟨hexited, rfl⟩) fun hall => ?_
    rw [text_append_singleton, ← hall]
    simp [pending, queued, localBuffers]

/-- The end of a call of `log` loses nothing. -/
lemma Kept.append (h : l.Kept) (message : Bytes) (capacity : ℕ) :
    ((l.append message capacity).noteLogged message).Kept := by
  rw [noteLogged_append]
  refine h.keep rfl rfl (fun hexited => ⟨hexited, rfl⟩) fun hall => ?_
  rw [text_append_singleton, ← hall]
  simp [pending, queued, localBuffers]

/-- The condition is evaluated between batches, and changes only where the writer is. -/
lemma test_spec (h : l.test = some l') :
    l.localBuffers = [] ∧ l.writer ≠ .exited ∧ l'.localBuffers = [] ∧
      l' = { l with writer := l'.writer } := by
  unfold test at h
  split at h
  · next hwriter =>
      obtain rfl := Option.some.inj h
      refine ⟨by simp [localBuffers, hwriter], by simp [hwriter], ?_, rfl⟩
      rcases l.running <;> rfl
  · next hwriter =>
      obtain rfl := Option.some.inj h
      refine ⟨by simp [localBuffers, hwriter], by simp [hwriter], ?_, rfl⟩
      unfold localBuffers
      split_ifs <;> rfl
  · next hwriter =>
      obtain rfl := Option.some.inj h
      refine ⟨by simp [localBuffers, hwriter], by simp [hwriter], ?_, rfl⟩
      unfold localBuffers
      split_ifs <;> rfl
  · cases h

/-- The test of the writer, or of `stop`, keeps the invariant. -/
lemma Kept.test (h : l.Kept) (htest : l.test = some l') : l'.Kept := by
  obtain ⟨hbatch, hnot, hbatch', hl'⟩ := test_spec htest
  have hqueued : l'.queued = l.queued := by rw [hl']; rfl
  have hcurrent : l'.currentBuffer = l.currentBuffer := by rw [hl']
  refine h.keep (by rw [hl']) (by rw [hl']) (fun hexited => absurd hexited hnot) fun hall => ?_
  rw [pending_of_no_batch hbatch] at hall
  rw [pending_of_no_batch hbatch', hqueued, hcurrent, hl']
  exact hall

/-- The critical section of the writer keeps the invariant: what it takes was in front of all that
will be logged. -/
lemma Kept.swap (h : l.Kept) (hwriter : l.writer = .locking) (capacity : ℕ) :
    (l.swap capacity).Kept := by
  have hnot : l.writer ≠ .exited := by simp [hwriter]
  have hbatch : l.localBuffers = [] := by simp [localBuffers, hwriter]
  unfold AsyncLogger.swap
  split_ifs with hempty
  · refine h.keep rfl rfl (fun hexited => absurd hexited hnot) fun hall => ?_
    rw [← hall, pending_of_no_batch hbatch]
    simp [pending, queued, localBuffers]
  · obtain ⟨hqueued, hcurrent, hfile, hlogged, hstopping, hat⟩ := queueCurrent_spec capacity l
    refine h.keep hstopping hat (fun hexited => absurd hexited hnot) fun hall => ?_
    dsimp only
    rw [hlogged, ← hall, pending_of_no_batch hbatch, hfile, ← hqueued]
    simp only [pending, localBuffers, queued, hcurrent, List.append_nil]
    rw [← List.flatten_append, List.take_append_drop]

/-- Writing the next buffer of the batch keeps the invariant. -/
lemma Kept.write (h : l.Kept) (hwrite : l.write = some l') : l'.Kept := by
  unfold AsyncLogger.write at hwrite
  split at hwrite
  · next hwriter =>
      obtain rfl := Option.some.inj hwrite
      refine h.keep rfl rfl (by simp [hwriter]) fun hall => ?_
      rw [← hall, pending_of_no_batch (l := l) (by simp [localBuffers, hwriter])]
      simp [pending, queued, localBuffers]
  · next buffer localBuffers hwriter =>
      obtain rfl := Option.some.inj hwrite
      rw [writeToFile_of_ne_nil]
      refine h.keep rfl rfl (by simp [hwriter]) fun hall => ?_
      simp only [writeToFile]
      rw [← hall]
      simp [pending, queued, AsyncLogger.localBuffers, hwriter]
  · cases hwrite

/-- What is left is written in order exactly when its parts may be swapped. -/
lemma Kept.drain (h : l.Kept) (hjoined : l.stopping = .joined) :
    (l.currentBuffer ++ l.queued = l.queued ++ l.currentBuffer → l.drain.noteStopped.Kept) ∧
      (l.drain.noteStopped.Faithful → l.currentBuffer ++ l.queued = l.queued ++ l.currentBuffer) := by
  have hall := h.all (by simp [hjoined])
  have hwriter := h.exited (.inl hjoined)
  rw [pending_of_no_batch (by simp [localBuffers, hwriter])] at hall
  rw [drain_eq]
  constructor
  · intro hswap
    refine ⟨fun hne => absurd rfl hne, fun _ => hwriter, fun hne => absurd rfl hne, ?_⟩
    intro messages hmessages
    obtain rfl : l.logged = messages := Option.some.inj hmessages
    rw [← hall, ← hswap, List.append_assoc]
  · intro hfaithful
    have htext : l.logFile ++ l.currentBuffer ++ l.queued = text l.logged := hfaithful _ rfl
    rw [← hall, List.append_assoc] at htext
    exact List.append_cancel_left htext

/-- A step whose end of `stop` is swappable keeps the invariant, and a step to a faithful logger is
such a step. -/
lemma Step.kept (h : l.Kept) (hst : Step l event l') :
    (l.Swappable event → l'.Kept) ∧ (l'.Faithful → l.Swappable event) := by
  cases event with
  | log message =>
      simp only [Step, step] at hst
      split_ifs at hst with hcalls
      obtain rfl := Option.some.inj hst
      exact ⟨fun _ => h.log message hcalls, fun _ => trivial⟩
  | append capacity =>
      simp only [Step, step] at hst
      split at hst
      · split_ifs at hst
        obtain rfl := Option.some.inj hst
        exact ⟨fun _ => h.append _ capacity, fun _ => trivial⟩
      · cases hst
  | test => exact ⟨fun _ => h.test hst, fun _ => trivial⟩
  | swap capacity =>
      simp only [Step, step] at hst
      split_ifs at hst with hlocking
      obtain rfl := Option.some.inj hst
      exact ⟨fun _ => h.swap hlocking.1 capacity, fun _ => trivial⟩
  | write => exact ⟨fun _ => h.write hst, fun _ => trivial⟩
  | stop =>
      simp only [Step, step] at hst
      split_ifs at hst with hstopping
      obtain rfl := Option.some.inj hst
      refine ⟨fun _ => ⟨fun _ => ?_, by simp, fun _ => ?_, h.faithful⟩, fun _ => trivial⟩
      · exact h.all (by simp [hstopping])
      · exact h.open_ (by simp [hstopping])
  | join =>
      simp only [Step, step] at hst
      split_ifs at hst with hjoin
      obtain rfl := Option.some.inj hst
      refine ⟨fun _ => ⟨fun _ => ?_, fun _ => hjoin.2, fun _ => ?_, h.faithful⟩, fun _ => trivial⟩
      · exact h.all (by simp [hjoin.1])
      · exact h.open_ (by simp [hjoin.1])
  | drain =>
      simp only [Step, step] at hst
      split_ifs at hst with hjoined
      obtain rfl := Option.some.inj hst
      exact h.drain hjoined.1

/-- A new logger satisfies the invariant. -/
lemma kept_new (bufferSize capacity : ℕ) : (new bufferSize capacity).Kept :=
  ⟨fun _ => rfl, by simp [new], fun _ => rfl, by simp [Faithful, new]⟩

/-- **What a stopped logger leaves in the file.** Over every run of a logger, in every order of the
calls of `log`, the writer's steps and those of one `stop`, with messages and buffers of every
length: the file has the text of all messages logged before the final critical section of `stop`, in
order, exactly when that finds texts in `current_buffer_` and in the queue that may be swapped. -/
theorem faithful_iff_swappable {bufferSize capacity : ℕ} {path : List (LoggerEvent × AsyncLogger)}
    (hp : Path Step (new bufferSize capacity) path) :
    Throughout Faithful (new bufferSize capacity) path ↔
      MeetsAll Swappable (new bufferSize capacity) path :=
  hp.throughout_iff_meetsAll_of_invariant (fun _ h => h.faithful)
    (fun _ _ _ h hst => (hst.kept h).1) (fun _ _ _ h hst => (hst.kept h).2) (kept_new _ _)

/-- Two messages are logged behind the writer's last look, the second behind a buffer of 15 bytes
that has no room for it: `stop` writes it first. -/
theorem not_faithful :
    ¬ Throughout Faithful (new 2 15) (trace step (new 2 15)
      [.stop, .test, .test, .test, .join, .log (List.replicate 9 97), .log (List.replicate 9 98),
        .append 15, .drain]) := by decide

/-- Messages in all three places, one of them longer than the buffer, and one that `stop` finds. -/
theorem faithful_iff_swappable_three :
    Throughout Faithful (new 2 15) (trace step (new 2 15)
      [.log [97], .log (List.replicate 20 98), .append 30, .test, .swap 15, .log [99], .write,
        .stop, .write, .write, .test, .test, .test, .swap 15, .write, .write, .test, .test, .test,
        .log [100], .join, .drain]) :=
  (faithful_iff_swappable (path_trace step _ _)).mpr (by decide)

end AsyncLogger

end SwiftNetCore
