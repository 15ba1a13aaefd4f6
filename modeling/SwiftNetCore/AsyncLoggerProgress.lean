import SwiftNetCore.AsyncLogger
import SwiftNetCore.Lib.Fair

/-!
# What the logger writes, and that it does

`SwiftNetCore.AsyncLogger` says when the order of the file is that of the calls of `log`. Whatever
the order, a message is never torn, lost or written twice: a buffer takes it as a whole, and is
moved as a whole.

* `Places`, `Holds`: the messages behind the bytes of the file and of the buffers.
* `whole_throughout`: over every run, the file is the text of messages that were logged, each at
  most once; in their order until `stop` writes the rest, and after that all of them.
* `Scheduled`: what the threads need to go on, about a run that goes on for ever. A call of
  `notify_one` is not among it: the writer waits for 100 ms at most.
* `rank`: the buffers in front of the first one that is not empty, and the writer's way to it.
* `logged_in_the_end`: every message that was logged is in the file at some later time.
-/

namespace SwiftNetCore

open Paths (Path Throughout)
open Fair (Endless)

namespace AsyncLogger

variable {l l' : AsyncLogger} {event : LoggerEvent} {message : Bytes} {messages : List Bytes}
  {capacity : ℕ}

/-! ## Messages behind bytes -/

/-- The messages that are in the file, in the writer's batch, in the queue and in
`current_buffer_`. -/
structure Places where
  written : List Bytes := []
  batch : List (List Bytes) := []
  queue : List (List Bytes) := []
  current : List Bytes := []

/-- All of them, in this order. -/
def Places.all (places : Places) : List Bytes :=
  places.written ++ places.batch.flatten ++ places.queue.flatten ++ places.current

/-- The bytes of a logger are the texts of these messages, which are those that were logged. -/
structure Holds (l : AsyncLogger) (places : Places) : Prop where
  logFile : l.logFile = text places.written
  localBuffers : l.localBuffers = places.batch.map text
  buffersToWrite : l.buffersToWrite = places.queue.map text
  currentBuffer : l.currentBuffer = text places.current
  logged : places.all = l.logged

/-- What `stop` has left in the file. -/
structure Stopped (l : AsyncLogger) (written : List Bytes) : Prop where
  logFile : l.logFile = text written
  all : ∃ messages, l.loggedAtStop = some messages ∧ written.Perm messages ∧ messages <+: l.logged

/-- Where the writer can be while `stop` has come so far. -/
structure Phased (l : AsyncLogger) : Prop where
  running : l.running = true ↔ l.stopping = .notCalled
  leaving : l.writer = .testQueue ∨ l.writer = .testCurrent ∨ l.writer = .exited → l.running = false
  exited : l.stopping = .joined ∨ l.stopping = .done → l.writer = .exited

/-- The file has whole messages. -/
structure Whole (l : AsyncLogger) : Prop where
  phased : l.Phased
  open_ : l.stopping ≠ .done → l.loggedAtStop = none
  holds : l.stopping ≠ .done → ∃ places, l.Holds places
  stopped : l.stopping = .done → ∃ written, l.Stopped written

/-- The text of two lists of messages is the text of one behind that of the other. -/
lemma text_append (messages messages' : List Bytes) :
    text (messages ++ messages') = text messages ++ text messages' := List.flatMap_append

/-- The text of groups of messages, one behind the other, is that of the groups. -/
lemma text_flatten (groups : List (List Bytes)) :
    text groups.flatten = (groups.map text).flatten := by
  induction groups with
  | nil => rfl
  | cons group groups ih =>
      rw [List.flatten_cons, text_append, ih, List.map_cons, List.flatten_cons]

/-- What is not in the file is pending. -/
lemma Holds.text_eq {places : Places} (h : l.Holds places) :
    l.logFile ++ l.pending = text l.logged := by
  rw [pending, queued, h.logFile, h.localBuffers, h.buffersToWrite, h.currentBuffer, ← text_flatten,
    ← text_flatten, ← h.logged, Places.all, text_append, text_append, text_append]
  simp only [List.append_assoc]

/-- A step that is not one of `stop` leaves its fields alone, and the writer once it has exited. -/
lemma Phased.keep (h : l.Phased) (hrunning : l'.running = l.running)
    (hstopping : l'.stopping = l.stopping) (hwriter : l'.writer = l.writer) : l'.Phased where
  running := by rw [hrunning, hstopping, h.running]
  leaving := fun hw => hrunning.trans (h.leaving (hwriter ▸ hw))
  exited := fun hs => hwriter.trans (h.exited (hstopping ▸ hs))

/-- A step of the writer keeps the phases when it comes behind its loop only where `running_` is
reset. -/
lemma Phased.keep_writer (h : l.Phased) (hrunning : l'.running = l.running)
    (hstopping : l'.stopping = l.stopping) (hnot : l.writer ≠ .exited)
    (hleaving : l'.writer = .testQueue ∨ l'.writer = .testCurrent ∨ l'.writer = .exited →
      l.running = false) : l'.Phased where
  running := by rw [hrunning, hstopping, h.running]
  leaving := fun hw => hrunning.trans (hleaving hw)
  exited := fun hs => absurd (h.exited (hstopping ▸ hs)) hnot

/-- The queue takes up `current_buffer_`, and the batch the first sixteen of the queue. -/
lemma swap_spec (capacity : ℕ) (hne : ¬ (l.buffersToWrite = [] ∧ l.currentBuffer = [])) :
    (l.swap capacity).writer =
        .writing ((l.queueCurrent capacity).buffersToWrite.take 16) ∧
      (l.swap capacity).buffersToWrite = (l.queueCurrent capacity).buffersToWrite.drop 16 := by
  unfold swap
  rw [if_neg hne]
  exact ⟨rfl, rfl⟩

/-! ## Every step -/

/-- Only no messages have an empty text, as every entry has a prefix. -/
lemma text_eq_nil (h : text messages = []) : messages = [] := by
  rcases messages with _ | ⟨message, messages⟩
  · rfl
  · simp [text, logEntry] at h

/-- A full buffer goes into the queue. -/
lemma Holds.queueFull {places : Places} (h : l.Holds places) :
    { l with
      buffersToWrite := l.buffersToWrite ++ [l.currentBuffer]
      currentBuffer := []
      appending := some message : AsyncLogger }.Holds
      { places with queue := places.queue ++ [places.current], current := [] } where
  logFile := h.logFile
  localBuffers := h.localBuffers
  buffersToWrite := by simp [h.buffersToWrite, h.currentBuffer]
  currentBuffer := rfl
  logged := by simp [Places.all, ← h.logged]

/-- A message goes behind those in `current_buffer_`. -/
lemma Holds.append {places : Places} (h : l.Holds places) (message : Bytes) (capacity : ℕ)
    (appending : Option Bytes) :
    { l with
      currentBuffer := l.currentBuffer ++ logEntry message
      capacity := capacity
      appending := appending
      logged := l.logged ++ [message] : AsyncLogger }.Holds
      { places with current := places.current ++ [message] } where
  logFile := h.logFile
  localBuffers := h.localBuffers
  buffersToWrite := h.buffersToWrite
  currentBuffer := by rw [h.currentBuffer, text_append_singleton]
  logged := by simp [Places.all, ← h.logged]

/-- A step that moves no buffer leaves the messages at their places. -/
lemma Holds.keep {places : Places} (h : l.Holds places) (hfile : l'.logFile = l.logFile)
    (hlocal : l'.localBuffers = l.localBuffers) (hqueue : l'.buffersToWrite = l.buffersToWrite)
    (hcurrent : l'.currentBuffer = l.currentBuffer) (hlogged : l'.logged = l.logged) :
    l'.Holds places :=
  ⟨hfile.trans h.logFile, hlocal.trans h.localBuffers, hqueue.trans h.buffersToWrite,
    hcurrent.trans h.currentBuffer, h.logged.trans hlogged.symm⟩

/-- `current_buffer_` goes into the queue, or stays where it is, empty. -/
lemma Holds.queueCurrent {places : Places} (h : l.Holds places) (capacity : ℕ) :
    ∃ queue current, (l.queueCurrent capacity).Holds
      { places with queue := queue, current := current } := by
  unfold AsyncLogger.queueCurrent
  split_ifs with hne
  · refine ⟨places.queue ++ [places.current], [], h.logFile, h.localBuffers, ?_, rfl, ?_⟩
    · simp [h.buffersToWrite, h.currentBuffer]
    · simp [Places.all, ← h.logged]
  · exact ⟨places.queue, places.current, h⟩

/-- The writer takes a batch, having none. -/
lemma Holds.swap {places : Places} (h : l.Holds places) (hwriter : l.writer = .locking)
    (capacity : ℕ) : ∃ places, (l.swap capacity).Holds places := by
  have hbatch : l.localBuffers = [] := by
    simp [AsyncLogger.localBuffers, hwriter]
  unfold AsyncLogger.swap
  split_ifs with hempty
  · exact ⟨places, h.keep rfl (by rw [hbatch]; rfl) rfl rfl rfl⟩
  · obtain ⟨queue, current, hq⟩ := h.queueCurrent capacity
    have hnil : places.batch = [] := by
      rw [← List.map_eq_nil_iff (f := text), ← h.localBuffers, hbatch]
    refine ⟨{ places with batch := queue.take 16, queue := queue.drop 16, current := current },
      hq.logFile, ?_, ?_, hq.currentBuffer, ?_⟩
    · simp only [AsyncLogger.localBuffers, hq.buffersToWrite, List.map_take]
    · simp only [hq.buffersToWrite, List.map_drop]
    · rw [← hq.logged]
      simp only [Places.all, hnil, List.flatten_nil, List.append_nil]
      rw [List.append_assoc places.written, ← List.flatten_append, List.take_append_drop]

/-- The writer writes the next buffer of its batch. -/
lemma Holds.write {places : Places} (h : l.Holds places) (hwrite : l.write = some l') :
    ∃ places, l'.Holds places := by
  unfold AsyncLogger.write at hwrite
  split at hwrite
  · next hwriter =>
      obtain rfl := Option.some.inj hwrite
      exact ⟨places, h.keep rfl (by simp [AsyncLogger.localBuffers, hwriter]) rfl rfl rfl⟩
  · next buffer localBuffers hwriter =>
      obtain rfl := Option.some.inj hwrite
      rw [writeToFile_of_ne_nil]
      have hbatch : buffer :: localBuffers = places.batch.map text := by
        rw [← h.localBuffers, AsyncLogger.localBuffers, hwriter]
      obtain ⟨group, batch, hgroups, hgroup, hmap⟩ := List.map_eq_cons_iff.mp hbatch.symm
      refine ⟨{ places with written := places.written ++ group, batch := batch }, ?_, hmap.symm,
        h.buffersToWrite, h.currentBuffer, ?_⟩
      · simp only [writeToFile]
        rw [h.logFile, text_append, hgroup]
      · rw [writeToFile, ← h.logged]
        simp [Places.all, hgroups]
  · cases hwrite

/-- What a step of a thread that logs, or of the writer, comes to. -/
structure Ordinary (l l' : AsyncLogger) : Prop where
  stopping : l'.stopping = l.stopping
  loggedAtStop : l'.loggedAtStop = l.loggedAtStop
  logged : l.logged <+: l'.logged
  phased : l.Phased → l'.Phased
  holds : ∀ places, l.Holds places → ∃ places, l'.Holds places
  exited : l.writer = .exited → l'.logFile = l.logFile

/-- An ordinary step leaves whole messages in the file and in the buffers. -/
lemma Ordinary.whole (h : Ordinary l l') (hwhole : l.Whole) : l'.Whole where
  phased := h.phased hwhole.phased
  open_ := fun hne => h.loggedAtStop.trans (hwhole.open_ (h.stopping ▸ hne))
  holds := by
    intro hne
    obtain ⟨places, hplaces⟩ := hwhole.holds (h.stopping ▸ hne)
    exact h.holds places hplaces
  stopped := by
    intro hdone
    rw [h.stopping] at hdone
    obtain ⟨written, hfile, messages, hat, hperm, hle⟩ := hwhole.stopped hdone
    exact ⟨written, (h.exited (hwhole.phased.exited (.inr hdone))).trans hfile, messages,
      h.loggedAtStop.trans hat, hperm, hle.trans h.logged⟩

/-- A call of `log` is one: its message goes behind all others, or waits for its end. -/
lemma ordinary_log (message : Bytes) (hcalls : l.appending = none) :
    Ordinary l ((l.log message).noteLogged message) := by
  rw [noteLogged_log message hcalls]
  split_ifs
  · exact ⟨rfl, rfl, List.prefix_rfl, fun h => h.keep rfl rfl rfl,
      fun places h => ⟨_, h.queueFull⟩, fun _ => rfl⟩
  · exact ⟨rfl, rfl, List.prefix_append _ _, fun h => h.keep rfl rfl rfl,
      fun places h => ⟨_, h.append message l.capacity l.appending⟩, fun _ => rfl⟩

/-- The end of a call of `log` is an ordinary step. -/
lemma ordinary_append (message : Bytes) (capacity : ℕ) :
    Ordinary l ((l.append message capacity).noteLogged message) :=
  ⟨rfl, rfl, List.prefix_append _ _, fun h => h.keep rfl rfl rfl,
    fun _ h => ⟨_, h.append message capacity none⟩, fun _ => rfl⟩

/-- Where the writer's condition leads. -/
lemma test_cases (h : l.test = some l') :
    (l.writer = .testRunning ∧ l'.writer = .locking) ∨
      (l.writer = .testRunning ∧ l.running = false ∧ l'.writer = .testQueue) ∨
      (l.writer = .testQueue ∧ (l'.writer = .locking ∨ l'.writer = .testCurrent)) ∨
      (l.writer = .testCurrent ∧ (l'.writer = .locking ∨ l'.writer = .exited)) := by
  unfold test at h
  split at h
  · next hwriter =>
      obtain rfl := Option.some.inj h
      rcases hrunning : l.running with _ | _ <;> simp [hwriter]
  · next hwriter =>
      obtain rfl := Option.some.inj h
      refine .inr (.inr (.inl ⟨hwriter, ?_⟩))
      dsimp only
      split_ifs <;> simp
  · next hwriter =>
      obtain rfl := Option.some.inj h
      refine .inr (.inr (.inr ⟨hwriter, ?_⟩))
      dsimp only
      split_ifs <;> simp
  · cases h

/-- The writer leaves the first part of its condition for the others only without `running_`. -/
lemma leaving_of_test (h : l.test = some l') (hphased : l.Phased)
    (hw : l'.writer = .testQueue ∨ l'.writer = .testCurrent ∨ l'.writer = .exited) :
    l.running = false := by
  rcases test_cases h with ⟨-, hwriter'⟩ | ⟨-, hrunning, -⟩ | ⟨hwriter, -⟩ | ⟨hwriter, -⟩
  · simp [hwriter'] at hw
  · exact hrunning
  · exact hphased.leaving (.inl hwriter)
  · exact hphased.leaving (.inr (.inl hwriter))

/-- The test of `running_` is an ordinary step. -/
lemma ordinary_test (h : l.test = some l') : Ordinary l l' := by
  obtain ⟨hbatch, hnot, hbatch', hl'⟩ := test_spec h
  refine ⟨by rw [hl'], by rw [hl'], by rw [hl'], fun hphased => ?_, fun places hplaces => ?_,
    fun hexited => absurd hexited hnot⟩
  · exact hphased.keep_writer (by rw [hl']) (by rw [hl']) hnot (leaving_of_test h hphased)
  · exact ⟨places, hplaces.keep (by rw [hl']) (hbatch'.trans hbatch.symm) (by rw [hl'])
      (by rw [hl']) (by rw [hl'])⟩

/-- Queueing `current_buffer_` does not change `running_`. -/
lemma queueCurrent_running : (l.queueCurrent capacity).running = l.running := by
  unfold queueCurrent
  split_ifs <;> rfl

/-- The critical section of the writer is an ordinary step. -/
lemma ordinary_swap (hwriter : l.writer = .locking) (capacity : ℕ) :
    Ordinary l (l.swap capacity) := by
  have hnot : l.writer ≠ .exited := by simp [hwriter]
  obtain ⟨-, -, hfile, hlogged, hstopping, hat⟩ := queueCurrent_spec capacity l
  have hswap : (l.swap capacity).running = l.running ∧ (l.swap capacity).stopping = l.stopping ∧
      (l.swap capacity).loggedAtStop = l.loggedAtStop ∧ (l.swap capacity).logged = l.logged ∧
      ¬ ((l.swap capacity).writer = .testQueue ∨ (l.swap capacity).writer = .testCurrent ∨
        (l.swap capacity).writer = .exited) := by
    unfold swap
    split_ifs
    · simp
    · exact ⟨queueCurrent_running, hstopping, hat, hlogged, by simp⟩
  obtain ⟨hrunning, hstopping', hat', hlogged', hw⟩ := hswap
  exact ⟨hstopping', hat', by rw [hlogged'],
    fun hphased => hphased.keep_writer hrunning hstopping' hnot (fun h => absurd h hw),
    fun _ hplaces => hplaces.swap hwriter capacity, fun hexited => absurd hexited hnot⟩

/-- What writing a buffer needs, what it leaves alone, and where the writer is behind it. -/
lemma write_spec (h : l.write = some l') :
    (∃ batch, l.writer = .writing batch) ∧ l'.running = l.running ∧ l'.stopping = l.stopping ∧
      l'.loggedAtStop = l.loggedAtStop ∧ l'.logged = l.logged ∧
      (l'.writer = .testRunning ∨ ∃ batch, l'.writer = .writing batch) := by
  unfold write at h
  split at h
  · next hwriter =>
      obtain rfl := Option.some.inj h
      exact ⟨⟨_, hwriter⟩, rfl, rfl, rfl, rfl, Or.inl rfl⟩
  · next hwriter =>
      obtain rfl := Option.some.inj h
      rw [writeToFile_of_ne_nil]
      exact ⟨⟨_, hwriter⟩, rfl, rfl, rfl, rfl, Or.inr ⟨_, rfl⟩⟩
  · cases h

/-- Writing a buffer is an ordinary step. -/
lemma ordinary_write (h : l.write = some l') : Ordinary l l' := by
  obtain ⟨⟨batch, hwriter⟩, hrunning, hstopping, hat, hlogged, hw⟩ := write_spec h
  have hnot : l.writer ≠ .exited := by simp [hwriter]
  refine ⟨hstopping, hat, by rw [hlogged], fun hphased => ?_, fun _ hplaces => hplaces.write h,
    fun hexited => absurd hexited hnot⟩
  refine hphased.keep_writer hrunning hstopping hnot fun hleaving => ?_
  rcases hw with hw | ⟨batch', hw⟩ <;> simp [hw] at hleaving

/-- When `stop` resets `running_`, the messages stay whole. -/
lemma Whole.stop (h : l.Whole) (hstopping : l.stopping = .notCalled) :
    { l with running := false, stopping := .joining : AsyncLogger }.Whole := by
  refine ⟨⟨by simp, fun _ => rfl, by simp⟩, fun _ => h.open_ (by simp [hstopping]), fun _ => ?_,
    by simp⟩
  obtain ⟨places, hplaces⟩ := h.holds (by simp [hstopping])
  exact ⟨places, hplaces.keep rfl rfl rfl rfl rfl⟩

/-- When `stop` joins the writer, the messages stay whole. -/
lemma Whole.join (h : l.Whole) (hstopping : l.stopping = .joining) (hwriter : l.writer = .exited) :
    { l with stopping := .joined : AsyncLogger }.Whole := by
  have hrunning : l.running = false := h.phased.leaving (.inr (.inr hwriter))
  refine ⟨⟨by simp [hrunning], h.phased.leaving, fun _ => hwriter⟩,
    fun _ => h.open_ (by simp [hstopping]), fun _ => ?_, by simp⟩
  obtain ⟨places, hplaces⟩ := h.holds (by simp [hstopping])
  exact ⟨places, hplaces.keep rfl rfl rfl rfl rfl⟩

/-- What `stop` writes behind the join, `current_buffer_` first, are whole messages. -/
lemma Whole.drain (h : l.Whole) (hstopping : l.stopping = .joined) :
    l.drain.noteStopped.Whole := by
  have hwriter := h.phased.exited (.inl hstopping)
  have hrunning : l.running = false := h.phased.leaving (.inr (.inr hwriter))
  obtain ⟨places, hplaces⟩ := h.holds (by simp [hstopping])
  have hnil : places.batch = [] := by
    rw [← List.map_eq_nil_iff (f := text), ← hplaces.localBuffers]
    simp [localBuffers, hwriter]
  rw [drain_eq]
  refine ⟨⟨by simp [hrunning], fun _ => hrunning, fun _ => hwriter⟩, by simp, by simp, fun _ => ?_⟩
  refine ⟨places.written ++ places.current ++ places.queue.flatten, ?_, l.logged, rfl, ?_,
    List.prefix_rfl⟩
  · simp only [queued]
    rw [hplaces.logFile, hplaces.currentBuffer, hplaces.buffersToWrite, text_append, text_append,
      text_flatten]
  · rw [← hplaces.logged, Places.all, hnil, List.flatten_nil, List.append_nil, List.append_assoc,
      List.append_assoc]
    exact List.Perm.append_left _ List.perm_append_comm

/-- What is none of the steps of `stop`. -/
lemma Step.ordinary (hst : Step l event l') (hstop : event ≠ .stop) (hjoin : event ≠ .join)
    (hdrain : event ≠ .drain) : Ordinary l l' := by
  cases event with
  | log message =>
      simp only [Step, step] at hst
      split_ifs at hst with hcalls
      obtain rfl := Option.some.inj hst
      exact ordinary_log message hcalls
  | append capacity =>
      simp only [Step, step] at hst
      split at hst
      · split_ifs at hst
        obtain rfl := Option.some.inj hst
        exact ordinary_append _ capacity
      · cases hst
  | test => exact ordinary_test hst
  | swap capacity =>
      simp only [Step, step] at hst
      split_ifs at hst with hlocking
      obtain rfl := Option.some.inj hst
      exact ordinary_swap hlocking.1 capacity
  | write => exact ordinary_write hst
  | stop => exact absurd rfl hstop
  | join => exact absurd rfl hjoin
  | drain => exact absurd rfl hdrain

/-- Every step leaves whole messages in the file and in the buffers. -/
lemma Step.whole (hst : Step l event l') (h : l.Whole) : l'.Whole := by
  cases event with
  | stop =>
      simp only [Step, step] at hst
      split_ifs at hst with hstopping
      obtain rfl := Option.some.inj hst
      exact h.stop hstopping
  | join =>
      simp only [Step, step] at hst
      split_ifs at hst with hjoin
      obtain rfl := Option.some.inj hst
      exact h.join hjoin.1 hjoin.2
  | drain =>
      simp only [Step, step] at hst
      split_ifs at hst with hjoined
      obtain rfl := Option.some.inj hst
      exact h.drain hjoined.1
  | log | append | test | swap | write => exact (hst.ordinary (by simp) (by simp) (by simp)).whole h

/-- A new logger has whole messages, as it has none. -/
lemma whole_new (bufferSize capacity : ℕ) : (new bufferSize capacity).Whole :=
  ⟨⟨by simp [new], by simp [new], by simp [new]⟩, fun _ => rfl,
    fun _ => ⟨{}, rfl, rfl, rfl, rfl, rfl⟩, by simp [new]⟩

/-- What the file says: messages that were logged, each as often at most. Until `stop` has written
the rest, they are the first ones; then they are all that were logged before it did. -/
def FileWhole (l : AsyncLogger) : Prop :=
  ∃ messages, l.logFile = text messages ∧
    (l.stopping ≠ .done → messages <+: l.logged) ∧
    ∀ before ∈ l.loggedAtStop, before <+: l.logged ∧ messages.Perm before

/-- What a logger with whole messages says of its file. -/
lemma Whole.fileWhole (h : l.Whole) : l.FileWhole := by
  by_cases hdone : l.stopping = .done
  · obtain ⟨written, hfile, messages, hat, hperm, hle⟩ := h.stopped hdone
    refine ⟨written, hfile, fun hne => absurd hdone hne, fun before hbefore => ?_⟩
    rw [hat] at hbefore
    obtain rfl := Option.some.inj hbefore
    exact ⟨hle, hperm⟩
  · obtain ⟨places, hplaces⟩ := h.holds hdone
    refine ⟨places.written, hplaces.logFile, fun _ => ?_, by simp [h.open_ hdone]⟩
    rw [← hplaces.logged, Places.all, List.append_assoc, List.append_assoc]
    exact List.prefix_append _ _

/-- **No message is torn, lost or written twice**, in every state of every run of a logger, with
buffers and messages of every length. -/
theorem whole_throughout {bufferSize capacity : ℕ} {path : List (LoggerEvent × AsyncLogger)}
    (hp : Path Step (new bufferSize capacity) path) :
    Throughout FileWhole (new bufferSize capacity) path :=
  (hp.throughout (fun _ _ _ h hst => hst.whole h) (whole_new _ _)).mono fun _ h => h.fileWhole

/-- Two messages that `stop` finds, and writes in the wrong order. -/
theorem whole_throughout_swapped :
    Throughout FileWhole (new 2 15) (Paths.trace step (new 2 15)
      [.stop, .test, .test, .test, .join, .log (List.replicate 9 97), .log (List.replicate 9 98),
        .append 15, .drain]) :=
  whole_throughout (Paths.path_trace step _ _)

/-! ## The way of a buffer to the file -/

/-- The buffers that are not written yet, in their order. -/
def ahead (l : AsyncLogger) : List Bytes := l.localBuffers ++ l.buffersToWrite ++ [l.currentBuffer]

/-- How many of them are empty before one is not. -/
def blanks (l : AsyncLogger) : ℕ := l.ahead.findIdx fun buffer => !buffer.isEmpty

/-- How far the writer, or `stop` behind it, is from the next buffer. -/
def distance (l : AsyncLogger) : ℕ :=
  match l.writer with
  | .writing [] => 5
  | .testRunning => 4
  | .testQueue => 3
  | .testCurrent => 2
  | .locking => 1
  | .writing (_ :: _) => 0
  | .exited => if l.stopping = .joining then 1 else 0

/-- What falls until something is written: a buffer that is taken counts more than the writer's way
to it. -/
def rank (l : AsyncLogger) : ℕ := 6 * l.blanks + l.distance

/-- The steps that bring the file on. -/
inductive Drives : LoggerEvent → Prop
  | test : Drives .test
  | swap (capacity : ℕ) : Drives (.swap capacity)
  | write : Drives .write
  | join : Drives .join

/-- The steps that bring the file on are the test, the critical section, the writing of a buffer and
the join. -/
lemma drives_iff : Drives event ↔
    event = .test ∨ (∃ capacity, event = .swap capacity) ∨ event = .write ∨ event = .join := by
  constructor
  · rintro (_ | capacity | _ | _) <;> simp
  · rintro (rfl | ⟨capacity, rfl⟩ | rfl | rfl)
    exacts [.test, .swap capacity, .write, .join]

/-- No thread is further than five steps from the next buffer. -/
lemma distance_le (l : AsyncLogger) : l.distance ≤ 5 := by
  unfold distance
  split <;> first | omega | (split_ifs <;> omega)

/-- The buffers ahead hold the bytes that are pending. -/
lemma flatten_ahead (l : AsyncLogger) : l.ahead.flatten = l.pending := by
  simp [ahead, pending, queued]

/-- What comes behind the first buffer that is not empty does not count. -/
lemma findIdx_append_le {p : Bytes → Bool} {buffers more : List Bytes} {buffer buffer' : Bytes}
    (hp : p buffer → p buffer') (hmem : ∃ b ∈ buffers ++ [buffer], p b) :
    (buffers ++ buffer' :: more).findIdx p ≤ (buffers ++ [buffer]).findIdx p := by
  have hlt := List.findIdx_lt_length_of_exists hmem
  rw [List.findIdx_append] at hlt ⊢
  rw [List.findIdx_append]
  split_ifs with hin
  · exact le_rfl
  · rw [if_neg hin] at hlt
    have hbuffer : p buffer := by
      rcases hnot : p buffer with _ | _
      · simp [List.findIdx_cons, hnot] at hlt
      · rfl
    simp [List.findIdx_cons, hp hbuffer]

/-- `current_buffer_` may get longer, and a buffer may come behind it. -/
structure Extends (l l' : AsyncLogger) : Prop where
  logFile : l'.logFile = l.logFile
  ahead : ∃ before more rest, l.ahead = before ++ [l.currentBuffer] ∧
    l'.ahead = before ++ (l.currentBuffer ++ more) :: rest

/-- While bytes are pending, a buffer ahead is not empty. -/
lemma exists_of_pending (h : l.pending ≠ []) : ∃ buffer ∈ l.ahead, !buffer.isEmpty := by
  rw [← flatten_ahead] at h
  by_contra hnone
  push Not at hnone
  exact h (List.flatten_eq_nil_iff.mpr fun buffer hb => by simpa using hnone buffer hb)

/-- When the buffers only get longer and bytes are pending, no more empty buffers come first. -/
lemma Extends.blanks_le (h : Extends l l') (hpending : l.pending ≠ []) : l'.blanks ≤ l.blanks := by
  obtain ⟨before, more, rest, hahead, hahead'⟩ := h.ahead
  have hmem := exists_of_pending hpending
  rw [hahead] at hmem
  unfold blanks
  rw [hahead, hahead']
  refine findIdx_append_le (fun hp => ?_) hmem
  simp only [Bool.not_eq_true', List.isEmpty_eq_false_iff] at hp ⊢
  exact List.append_ne_nil_of_left_ne_nil hp more

/-- A step that leaves the file and the buffers ahead as they are extends them. -/
lemma extends_of_ahead_eq (hfile : l'.logFile = l.logFile) (h : l'.ahead = l.ahead) :
    Extends l l' :=
  ⟨hfile, _, [], [], rfl, by rw [h, List.append_nil]; rfl⟩

/-- A call of `log` makes `current_buffer_` longer, or puts an empty one behind it. -/
lemma extends_log (message : Bytes) (hcalls : l.appending = none) :
    Extends l ((l.log message).noteLogged message) := by
  rw [noteLogged_log message hcalls]
  split_ifs
  · exact ⟨rfl, _, [], [[]], rfl, by simp [ahead, localBuffers]⟩
  · exact ⟨rfl, _, logEntry message, [], rfl, by simp [ahead, localBuffers]⟩

/-- The end of a call of `log` makes `current_buffer_` longer. -/
lemma extends_append (message : Bytes) (capacity : ℕ) :
    Extends l ((l.append message capacity).noteLogged message) :=
  ⟨rfl, _, logEntry message, [], rfl, by simp [noteLogged_append, ahead, localBuffers]⟩

/-- The critical section of the writer leaves the buffers in their order, with an empty one
behind. -/
lemma extends_swap (hwriter : l.writer = .locking) (capacity : ℕ) :
    Extends l (l.swap capacity) := by
  have hbatch : l.localBuffers = [] := by simp [localBuffers, hwriter]
  by_cases hempty : l.buffersToWrite = [] ∧ l.currentBuffer = []
  · have hswap : l.swap capacity = { l with writer := .testRunning } := by
      unfold swap
      rw [if_pos hempty]
    rw [hswap]
    exact extends_of_ahead_eq rfl (by rw [ahead, ahead, hbatch]; rfl)
  · obtain ⟨hw, hqueue⟩ := swap_spec capacity hempty
    have hfile : (l.swap capacity).logFile = l.logFile := by
      unfold swap
      rw [if_neg hempty]
      exact (queueCurrent_spec capacity l).2.2.1
    have hcurrent : (l.swap capacity).currentBuffer = (l.queueCurrent capacity).currentBuffer := by
      unfold swap
      rw [if_neg hempty]
    have hahead : (l.swap capacity).ahead =
        (l.queueCurrent capacity).buffersToWrite ++ [(l.queueCurrent capacity).currentBuffer] := by
      rw [ahead, localBuffers, hw, hqueue, hcurrent, List.take_append_drop]
    by_cases hne : l.currentBuffer ≠ []
    · refine ⟨hfile, l.buffersToWrite, [], [[]], by rw [ahead, hbatch, List.nil_append], ?_⟩
      rw [hahead, queueCurrent, if_pos hne]
      simp
    · refine extends_of_ahead_eq hfile ?_
      rw [hahead, queueCurrent, if_neg hne, ahead, hbatch, List.nil_append]

/-- With bytes pending, the writer has a buffer to write behind its critical section. -/
lemma distance_swap (hpending : l.pending ≠ []) (hwriter : l.writer = .locking) (capacity : ℕ) :
    (l.swap capacity).distance = 0 := by
  have hbatch : l.localBuffers = [] := by simp [localBuffers, hwriter]
  have hempty : ¬ (l.buffersToWrite = [] ∧ l.currentBuffer = []) := by
    rintro ⟨hqueue, hcurrent⟩
    exact hpending (by rw [pending_of_no_batch hbatch, queued, hqueue, hcurrent]; rfl)
  obtain ⟨hw, -⟩ := swap_spec capacity hempty
  have hne : (l.queueCurrent capacity).buffersToWrite ≠ [] := by
    unfold queueCurrent
    split_ifs with hcurrent
    · simp
    · exact fun hqueue => hempty ⟨hqueue, not_not.mp hcurrent⟩
  obtain ⟨buffer, buffers, hq⟩ := List.exists_cons_of_ne_nil hne
  rw [distance, hw, hq, List.take_succ_cons]

/-- The writer's condition is one way into the critical section, or out of the loop. -/
lemma distance_test (h : l.test = some l') : l'.distance < l.distance := by
  have hexited : l'.writer = .exited → l'.distance ≤ 1 := by
    intro hwriter
    rw [distance, hwriter]
    dsimp only
    split_ifs <;> omega
  rcases test_cases h with ⟨hw, hw'⟩ | ⟨hw, -, hw'⟩ | ⟨hw, hw' | hw'⟩ | ⟨hw, hw' | hw'⟩
  · simp [distance, hw, hw']
  · simp [distance, hw, hw']
  · simp [distance, hw, hw']
  · simp [distance, hw, hw']
  · simp [distance, hw, hw']
  · have hlast : l.distance = 2 := by rw [distance, hw]
    have hnext := hexited hw'
    omega

/-- An empty buffer is taken from the batch. -/
lemma rank_tail (hlocal : l.localBuffers = [] :: l'.localBuffers)
    (hqueue : l'.buffersToWrite = l.buffersToWrite)
    (hcurrent : l'.currentBuffer = l.currentBuffer) : l'.rank < l.rank := by
  have hblanks : l.blanks = l'.blanks + 1 := by
    simp [blanks, ahead, hlocal, hqueue, hcurrent, List.findIdx_cons]
  have hle := distance_le l'
  unfold rank
  omega

/-- The writer writes a buffer, drops an empty one, or comes to its condition. -/
lemma rank_write (h : l.write = some l') :
    l'.logFile.length > l.logFile.length ∨ l'.rank < l.rank := by
  unfold write at h
  split at h
  · next hwriter =>
      obtain rfl := Option.some.inj h
      right
      have hblanks : ({ l with writer := .testRunning } : AsyncLogger).blanks = l.blanks := by
        simp [blanks, ahead, localBuffers, hwriter]
      rw [rank, rank, hblanks]
      simp [distance, hwriter]
  · next buffer localBuffers hwriter =>
      obtain rfl := Option.some.inj h
      rw [writeToFile_of_ne_nil]
      rcases buffer with _ | ⟨byte, buffer⟩
      · exact .inr (rank_tail (by simp [AsyncLogger.localBuffers, hwriter]) rfl rfl)
      · left
        simp [writeToFile]
  · cases h

/-- Until something is written, no step but the last one of `stop` makes the rank greater, and those
that bring the file on make it smaller. -/
lemma Step.rank_le (hst : Step l event l') (h : l.Phased) (hpending : l.pending ≠ [])
    (hdrain : event ≠ .drain) (hfile : l'.logFile.length ≤ l.logFile.length) :
    l'.rank ≤ l.rank ∧ (Drives event → l'.rank < l.rank) := by
  have hstay : ∀ {s s' : AsyncLogger}, Extends s s' → s.pending ≠ [] → s'.distance = s.distance →
      s'.rank ≤ s.rank := by
    intro s s' hext hs hdistance
    have hblanks := hext.blanks_le hs
    unfold rank
    omega
  have hmove : ∀ {s s' : AsyncLogger}, Extends s s' → s.pending ≠ [] → s'.distance < s.distance →
      s'.rank < s.rank := by
    intro s s' hext hs hdistance
    have hblanks := hext.blanks_le hs
    unfold rank
    omega
  cases event with
  | log message =>
      simp only [Step, step] at hst
      split_ifs at hst with hcalls
      obtain rfl := Option.some.inj hst
      refine ⟨hstay (extends_log message hcalls) hpending ?_, by simp [drives_iff]⟩
      rw [noteLogged_log message hcalls]
      split_ifs <;> rfl
  | append capacity =>
      simp only [Step, step] at hst
      split at hst
      · split_ifs at hst
        obtain rfl := Option.some.inj hst
        exact ⟨hstay (extends_append _ capacity) hpending rfl, by simp [drives_iff]⟩
      · cases hst
  | test =>
      obtain ⟨hbatch, -, hbatch', hl'⟩ := test_spec hst
      have hext : Extends l l' := by
        refine extends_of_ahead_eq (by rw [hl']) ?_
        rw [ahead, ahead, hbatch, hbatch', hl']
      have hlt := hmove hext hpending (distance_test hst)
      exact ⟨hlt.le, fun _ => hlt⟩
  | swap capacity =>
      simp only [Step, step] at hst
      split_ifs at hst with hlocking
      obtain rfl := Option.some.inj hst
      have hlt := hmove (extends_swap hlocking.1 capacity) hpending (by
        rw [distance_swap hpending hlocking.1 capacity, distance, hlocking.1]
        exact Nat.one_pos)
      exact ⟨hlt.le, fun _ => hlt⟩
  | write =>
      have hlt := (rank_write hst).resolve_left (not_lt.mpr hfile)
      exact ⟨hlt.le, fun _ => hlt⟩
  | stop =>
      simp only [Step, step] at hst
      split_ifs at hst with hstopping
      obtain rfl := Option.some.inj hst
      have hnot : l.writer ≠ .exited := by
        intro hwriter
        have hrunning := h.running.mpr hstopping
        rw [h.leaving (.inr (.inr hwriter))] at hrunning
        cases hrunning
      refine ⟨hstay (extends_of_ahead_eq rfl rfl) hpending ?_, by simp [drives_iff]⟩
      unfold distance
      split <;> simp_all
  | join =>
      simp only [Step, step] at hst
      split_ifs at hst with hjoin
      obtain rfl := Option.some.inj hst
      have hlt : ({ l with stopping := .joined } : AsyncLogger).rank < l.rank := by
        refine hmove (extends_of_ahead_eq rfl rfl) hpending ?_
        simp [distance, hjoin.1, hjoin.2]
      exact ⟨hlt.le, fun _ => hlt⟩
  | drain => exact absurd rfl hdrain

/-! ## The run -/

/-- No step takes anything out of the file. -/
lemma Step.logFile_le (hst : Step l event l') : l.logFile.length ≤ l'.logFile.length := by
  cases event with
  | log message =>
      simp only [Step, step] at hst
      split_ifs at hst with hcalls
      obtain rfl := Option.some.inj hst
      rw [(extends_log message hcalls).logFile]
  | append capacity =>
      simp only [Step, step] at hst
      split at hst
      · split_ifs at hst
        obtain rfl := Option.some.inj hst
        exact le_rfl
      · cases hst
  | test =>
      obtain ⟨-, -, -, hl'⟩ := test_spec hst
      rw [hl']
  | swap capacity =>
      simp only [Step, step] at hst
      split_ifs at hst with hlocking
      obtain rfl := Option.some.inj hst
      rw [(extends_swap hlocking.1 capacity).logFile]
  | write =>
      simp only [Step, step] at hst
      unfold write at hst
      split at hst
      · obtain rfl := Option.some.inj hst
        exact le_rfl
      · obtain rfl := Option.some.inj hst
        rw [writeToFile_of_ne_nil]
        simp [writeToFile]
      · cases hst
  | stop | join =>
      simp only [Step, step] at hst
      split_ifs at hst
      obtain rfl := Option.some.inj hst
      exact le_rfl
  | drain =>
      simp only [Step, step] at hst
      split_ifs at hst
      obtain rfl := Option.some.inj hst
      rw [drain_eq]
      simp only [List.length_append]
      omega

/-- What was logged before, and goes before what `stop` finds logged. -/
structure Since (messages : List Bytes) (l : AsyncLogger) : Prop where
  whole : l.Whole
  logged : messages <+: l.logged
  atStop : ∀ before ∈ l.loggedAtStop, messages <+: before

/-- Every step keeps what was logged before in front. -/
lemma Since.step (h : Since messages l) (hst : Step l event l') : Since messages l' := by
  have hwhole := hst.whole h.whole
  cases event with
  | stop | join =>
      simp only [Step, AsyncLogger.step] at hst
      split_ifs at hst
      obtain rfl := Option.some.inj hst
      exact ⟨hwhole, h.logged, h.atStop⟩
  | drain =>
      simp only [Step, AsyncLogger.step] at hst
      split_ifs at hst
      obtain rfl := Option.some.inj hst
      refine ⟨hwhole, ?_, ?_⟩
      · rw [drain_eq]
        exact h.logged
      · rw [drain_eq]
        simpa using h.logged
  | log | append | test | swap | write =>
      have hordinary := hst.ordinary (by simp) (by simp) (by simp)
      exact ⟨hwhole, h.logged.trans hordinary.logged, hordinary.loggedAtStop ▸ h.atStop⟩

/-- Of two beginnings of the messages, the one with the shorter text is a beginning of the other. -/
lemma prefix_of_length_le {messages written all : List Bytes} (hmessages : messages <+: all)
    (hwritten : written <+: all) (hle : (text messages).length ≤ (text written).length) :
    messages <+: written := by
  rcases List.prefix_or_prefix_of_prefix hmessages hwritten with h | ⟨rest, rfl⟩
  · exact h
  · rw [text_append, List.length_append] at hle
    obtain rfl : rest = [] := text_eq_nil (List.eq_nil_of_length_eq_zero (by omega))
    rw [List.append_nil]

section run

variable {state : ℕ → AsyncLogger} {label : ℕ → LoggerEvent} {n : ℕ}

/-- What the threads of a logger need to go on. -/
structure Scheduled (state : ℕ → AsyncLogger) (label : ℕ → LoggerEvent) : Prop where
  /-- the writer goes on, and gets the mutex when it asks for it or has waited -/
  writes : ∀ n, (state n).writer ≠ .exited →
    ∃ m, n ≤ m ∧ (label m = .test ∨ (∃ capacity, label m = .swap capacity) ∨ label m = .write)
  /-- a call of `join` returns when the writer has exited -/
  joins : ∀ n, (state n).stopping = .joining → (state n).writer = .exited →
    ∃ m, n ≤ m ∧ label m = .join
  /-- `stop` gets the mutex -/
  drains : ∀ n, (state n).stopping = .joined → ∃ m, n ≤ m ∧ label m = .drain

/-- Something is written, or `stop` has written the rest. -/
lemma Scheduled.written (h : Scheduled state label) (hrun : Endless Step state label)
    (hwhole : ∀ m, (state m).Whole) {bound : ℕ} (hlogged : ∀ m, n ≤ m →
      bound ≤ (text (state m).logged).length) (hlt : (state n).logFile.length < bound) :
    ∃ m, n ≤ m ∧ ((state m).stopping = .done ∨
      (state n).logFile.length < (state m).logFile.length) := by
  have hgrow : ∀ m, n ≤ m → (state n).logFile.length ≤ (state m).logFile.length :=
    hrun.always (I := fun l : AsyncLogger => (state n).logFile.length ≤ l.logFile.length)
      (fun _ _ _ hle hst => hle.trans hst.logFile_le) le_rfl
  refine Fair.reaches_of_rank (r := fun m => (state m).rank) (fun hnot m hm => ?_)
    (fun hnot m hm => ?_)
  all_goals
    -- until then the file is as it was, and something waits
    have hfile : ∀ k, n ≤ k → (state k).logFile.length = (state n).logFile.length := fun k hk =>
      le_antisymm (not_lt.mp fun hlt => hnot k hk (.inr hlt)) (hgrow k hk)
    have hnotdone : ∀ k, n ≤ k → (state k).stopping ≠ .done := fun k hk hdone =>
      hnot k hk (.inl hdone)
    have hfalls : ∀ k, n ≤ k → (state (k + 1)).rank ≤ (state k).rank ∧
        (Drives (label k) → (state (k + 1)).rank < (state k).rank) := by
      intro k hk
      have hk' := Nat.le_succ_of_le hk
      refine (hrun k).rank_le (hwhole k).phased ?_ ?_ (by rw [hfile _ hk', hfile _ hk])
      · intro hpending
        obtain ⟨places, hplaces⟩ := (hwhole k).holds (hnotdone k hk)
        have hall := hplaces.text_eq
        rw [hpending, List.append_nil] at hall
        have hle := hlogged k hk
        rw [← hall, hfile k hk] at hle
        omega
      · intro hlabel
        have hst := hrun k
        rw [hlabel, Step, step] at hst
        split_ifs at hst
        exact hnotdone (k + 1) hk' (by rw [← Option.some.inj hst]; rfl)
  · exact (hfalls m hm).1
  · by_cases hexited : (state m).writer = .exited
    · rcases hstopping : (state m).stopping with _ | _ | _ | _
      · -- a writer that has exited was told to
        have hrunning := (hwhole m).phased.running.mpr hstopping
        rw [(hwhole m).phased.leaving (.inr (.inr hexited))] at hrunning
        cases hrunning
      · obtain ⟨k, hk, hlabel⟩ := h.joins m hstopping hexited
        exact ⟨k, hk, (hfalls k (hm.trans hk)).2 (hlabel ▸ .join)⟩
      · obtain ⟨k, hk, hlabel⟩ := h.drains m hstopping
        have hst := hrun k
        rw [hlabel, Step, step] at hst
        split_ifs at hst
        refine absurd ?_ (hnotdone (k + 1) (Nat.le_succ_of_le (hm.trans hk)))
        rw [← Option.some.inj hst]
        rfl
      · exact absurd hstopping (hnotdone m hm)
    · obtain ⟨k, hk, hlabel⟩ := h.writes m hexited
      refine ⟨k, hk, (hfalls k (hm.trans hk)).2 (drives_iff.mpr ?_)⟩
      rcases hlabel with hlabel | hlabel | hlabel
      · exact .inl hlabel
      · exact .inr (.inl hlabel)
      · exact .inr (.inr (.inl hlabel))

/-- **Every message is written in the end**, in every endless run of a logger whose threads go on:
what was logged at a time at which `stop` has not written the rest is in the file at some later
time, each message as a whole. -/
theorem logged_in_the_end {bufferSize capacity : ℕ} (hrun : Endless Step state label)
    (hstart : state 0 = new bufferSize capacity) (hscheduled : Scheduled state label)
    (hopen : (state n).stopping ≠ .done) :
    ∃ m, n ≤ m ∧ ∃ messages, (state m).logFile = text messages ∧
      (state n).logged.Subperm messages ∧ messages.Subperm (state m).logged ∧
      ((state m).stopping ≠ .done → (state n).logged <+: messages ∧
        messages <+: (state m).logged) := by
  have hwhole : ∀ m, (state m).Whole := by
    intro m
    refine hrun.always (fun _ _ _ h hst => hst.whole h) (n := 0) ?_ m (Nat.zero_le m)
    rw [hstart]
    exact whole_new bufferSize capacity
  have hsince : ∀ m, n ≤ m → Since (state n).logged (state m) :=
    hrun.always (fun _ _ _ h hst => h.step hst)
      ⟨hwhole n, List.prefix_rfl, by simp [(hwhole n).open_ hopen]⟩
  have hlogged : ∀ m, n ≤ m → (text (state n).logged).length ≤ (text (state m).logged).length := by
    intro m hm
    obtain ⟨more, hmore⟩ := (hsince m hm).logged
    rw [← hmore, text_append, List.length_append]
    exact Nat.le_add_right _ _
  -- the file grows until it is as long as the text,
  obtain ⟨m, hm, hreached⟩ : ∃ m, n ≤ m ∧ ((state m).stopping = .done ∨
      (text (state n).logged).length ≤ (state m).logFile.length) := by
    by_contra hnever
    have hopen' : ∀ m, n ≤ m → (state m).stopping ≠ .done := fun m hm hdone =>
      hnever ⟨m, hm, .inl hdone⟩
    have hgrows : ∀ m, n ≤ m → (state m).logFile.length < (text (state n).logged).length →
        ∃ k, m ≤ k ∧ (state m).logFile.length < (state k).logFile.length := by
      intro m hm hlt
      obtain ⟨k, hk, hdone | hgrows⟩ := hscheduled.written hrun hwhole
        (fun k hk => hlogged k (hm.trans hk)) hlt
      · exact absurd hdone (hopen' k (hm.trans hk))
      · exact ⟨k, hk, hgrows⟩
    obtain ⟨m, hm, hle⟩ := Fair.reaches_of_grows (f := fun m => (state m).logFile.length) hgrows
    exact hnever ⟨m, hm, .inr hle⟩
  -- and then has that text in front, or all that `stop` found
  refine ⟨m, hm, ?_⟩
  by_cases hdone : (state m).stopping = .done
  · obtain ⟨written, hfile, before, hat, hperm, hle⟩ := (hwhole m).stopped hdone
    have hfirst := (hsince m hm).atStop before hat
    exact ⟨written, hfile, hfirst.sublist.subperm.trans hperm.symm.subperm,
      hperm.subperm.trans hle.sublist.subperm, fun hne => absurd hdone hne⟩
  · obtain ⟨places, hplaces⟩ := (hwhole m).holds hdone
    have hwritten : places.written <+: (state m).logged := by
      rw [← hplaces.logged, Places.all, List.append_assoc, List.append_assoc]
      exact List.prefix_append _ _
    have hfirst : (state n).logged <+: places.written := by
      refine prefix_of_length_le (hsince m hm).logged hwritten ?_
      rw [← hplaces.logFile]
      exact hreached.resolve_left hdone
    exact ⟨places.written, hplaces.logFile, hfirst.sublist.subperm, hwritten.sublist.subperm,
      fun _ => ⟨hfirst, hwritten⟩⟩

/-- Two messages, the second one behind a full buffer. -/
def twoMessages : List (LoggerEvent × AsyncLogger) :=
  Paths.trace step (new 2 15)
    [.log (List.replicate 9 97), .log (List.replicate 9 98), .append 15, .test, .swap 15, .write,
      .write, .write]

/-- A writer that looks for more for ever. -/
def looking : List (LoggerEvent × AsyncLogger) :=
  Paths.trace step (Paths.last (new 2 15) twoMessages) [.test, .swap 15]

/-- Two messages, the second one behind a full buffer, are in the file in the end. -/
theorem logged_in_the_end_two :
    ∃ m, 3 ≤ m ∧ ∃ messages,
      (Fair.roundState (new 2 15) twoMessages looking m).logFile = text messages ∧
      (Fair.roundState (new 2 15) twoMessages looking 3).logged.Subperm messages ∧
      messages.Subperm (Fair.roundState (new 2 15) twoMessages looking m).logged ∧
      ((Fair.roundState (new 2 15) twoMessages looking m).stopping ≠ .done →
        (Fair.roundState (new 2 15) twoMessages looking 3).logged <+: messages ∧
          messages <+: (Fair.roundState (new 2 15) twoMessages looking m).logged) := by
  have hne : looking ≠ [] := by decide
  have hopen : ∀ n, (Fair.roundState (new 2 15) twoMessages looking n).stopping = .notCalled :=
    Fair.forall_of_round (R := fun l : AsyncLogger => l.stopping = .notCalled) rfl (by decide)
  have hpath : Path Step (new 2 15) (twoMessages ++ looking) :=
    Paths.path_append.mpr ⟨Paths.path_trace step _ _, Paths.path_trace step _ _⟩
  have hrun : Endless Step (Fair.roundState (new 2 15) twoMessages looking)
      (Fair.roundLabel twoMessages looking .test) :=
    Fair.endless_of_round hne hpath (by decide)
  refine logged_in_the_end hrun rfl ⟨fun n _ => ?_, fun n hjoining => ?_, fun n hjoined => ?_⟩ ?_
  · have hlooking : ∀ x ∈ looking, x.1 = .test ∨ x.1 = .swap 15 := by decide
    exact Fair.comes_of_round (Q := fun event : LoggerEvent => event = .test ∨
      (∃ capacity, event = .swap capacity) ∨ event = .write) hne
      (fun x hx => (hlooking x hx).imp_right fun h => .inl ⟨15, h⟩) n
  · rw [hopen n] at hjoining
    cases hjoining
  · rw [hopen n] at hjoined
    cases hjoined
  · rw [hopen 3]
    simp

end run

end AsyncLogger

end SwiftNetCore
