import SwiftNetCore.BufferOps
import SwiftNetCore.Lib.Path

/-!
# A buffer is a queue of bytes

Three levels of one design.

* `RawBuffer`: the members of `Buffer` and nothing else. Sizes are `size_t`, so every sum and
  difference is taken modulo `2 ^ 64`, and an access outside of the vector has no result.
* `Buffer`: the same operations with the invariant in the type and sizes that never wrap.
* `ByteQueue`: all bytes that came in, and how many of them have left.

As long as no size wraps, the first level computes what the second does (`run_raw`), and the second
is the third (`readable_append` and its like). `BufferRun.refines_queue` puts the two steps
together for every run of operations. Two sizes that wrap: a constructor argument from
`2 ^ 64 - 8` on, and a request to `ensureWriteableBytes` that `writeIndex_` carries over `2 ^ 64`
(`BufferRun.not_refines_queue`).
-/

namespace SwiftNetCore

open Cells (window overwrite copyWithin resize)
open Paths (Path MeetsAll Throughout trace path_trace)

/-! ## The members as the machine has them -/

/-- The members of `Buffer`. Source: Buffer.h 171-173 -/
structure RawBuffer where
  /-- `buffer_` -/
  buffer : Bytes
  /-- `readerIndex_` -/
  readerIndex : ℕ
  /-- `writeIndex_` -/
  writeIndex : ℕ
  deriving DecidableEq, Repr

namespace RawBuffer

/-- The constructor. Source: Buffer.h 15-20 -/
def new (initialSize : ℕ) : RawBuffer where
  buffer := List.replicate (sizeT (kCheapPrepend + initialSize)) 0
  readerIndex := kCheapPrepend
  writeIndex := kCheapPrepend

/-- Source: Buffer.h 31 -/
def readableBytes (b : RawBuffer) : ℕ := sizeT (b.writeIndex - b.readerIndex)

/-- Source: Buffer.h 33 -/
def writeableBytes (b : RawBuffer) : ℕ := sizeT (b.buffer.length - b.writeIndex)

/-- Source: Buffer.h 35 -/
def prependableBytes (b : RawBuffer) : ℕ := b.readerIndex

/-- The bytes from `peek()` to `beginWrite()`. -/
def readable (b : RawBuffer) : Bytes := window b.readerIndex (b.writeIndex - b.readerIndex) b.buffer

/-- Source: Buffer.h 52-55 -/
def retrieveAll (b : RawBuffer) : RawBuffer :=
  { b with readerIndex := kCheapPrepend, writeIndex := kCheapPrepend }

/-- Source: Buffer.h 40-50 -/
def retrieve (len : ℕ) (b : RawBuffer) : RawBuffer :=
  if len < b.readableBytes then { b with readerIndex := sizeT (b.readerIndex + len) }
  else b.retrieveAll

/-- Source: Buffer.h 63-68 -/
def retrieveAsString (len : ℕ) (b : RawBuffer) : Option (Bytes × RawBuffer) :=
  if b.readerIndex + len ≤ b.buffer.length then some (window b.readerIndex len b.buffer, b.retrieve len)
  else none

/-- Source: Buffer.h 58-61 -/
def retrieveAllAsString (b : RawBuffer) : Option (Bytes × RawBuffer) :=
  b.retrieveAsString b.readableBytes

/-- Source: Buffer.h 154-169 -/
def makeSpace (len : ℕ) (b : RawBuffer) : Option RawBuffer :=
  if sizeT (b.writeableBytes + b.prependableBytes) < sizeT (len + kCheapPrepend) then
    some { b with buffer := resize (sizeT (b.writeIndex + len)) b.buffer 0 }
  else
    (copyWithin b.readerIndex kCheapPrepend b.readableBytes b.buffer).map fun v =>
      { buffer := v
        readerIndex := kCheapPrepend
        writeIndex := sizeT (kCheapPrepend + b.readableBytes) }

/-- Source: Buffer.h 70-76 -/
def ensureWriteableBytes (len : ℕ) (b : RawBuffer) : Option RawBuffer :=
  if b.writeableBytes < len then b.makeSpace len else some b

/-- Copy `data` to `beginWrite()` and move `writeIndex_` behind it. Source: Buffer.h 92-93 -/
def copyIn (data : Bytes) (b : RawBuffer) : Option RawBuffer :=
  if b.writeIndex + data.length ≤ b.buffer.length then
    some { b with
      buffer := overwrite b.writeIndex data b.buffer
      writeIndex := sizeT (b.writeIndex + data.length) }
  else none

/-- `append(const char *data, size_t len)`. Source: Buffer.h 89-94 -/
def append (data : Bytes) (b : RawBuffer) : Option RawBuffer :=
  (b.ensureWriteableBytes data.length).bind fun b => b.copyIn data

/-- `sizeof extrabuf`. Source: Buffer.cpp 15 -/
def extrabufSize : ℕ := 65536

/-- The room that `readFd` gives to `readv`: the writable part, and `extrabuf` behind it when the
writable part is smaller than `extrabuf`. Source: Buffer.cpp 17-24 -/
def readFdRoom (b : RawBuffer) : ℕ :=
  if b.writeableBytes < extrabufSize then b.writeableBytes + extrabufSize else b.writeableBytes

/-- `readFd`. `data` is what `readv` read, `none` for a result of `-1`. Source: Buffer.cpp 13-40 -/
def readFd (data : Option Bytes) (b : RawBuffer) : Option RawBuffer :=
  match data with
  | none => some b
  | some data =>
    if data.length ≤ b.writeableBytes then b.copyIn data
    else
      -- `readv` filled the writable part; the rest is in `extrabuf`
      (b.copyIn (data.take b.writeableBytes)).bind fun b' =>
        append (data.drop b.writeableBytes) { b' with writeIndex := b.buffer.length }

end RawBuffer

/-- The string that starts at a pointer to `char`: the bytes before the first zero, as `strlen`
counts them. -/
def cString (str : Bytes) : Bytes := str.takeWhile (· ≠ 0)

/-- The operations on a buffer. A pointer into the readable part is given by its offset from
`peek()`. -/
inductive BufferOp where
  | append (data : Bytes)
  | appendString (str : Bytes)
  | appendCString (str : Bytes)
  | ensureWriteableBytes (len : ℕ)
  | retrieve (len : ℕ)
  | retrieveUntil (stop : ℕ)
  | retrieveAll
  | retrieveAsString (len : ℕ)
  | retrieveAllAsString
  | readFd (data : Option Bytes)
  deriving DecidableEq, Repr

namespace BufferOp

/-- What a caller, or the kernel, has to keep to: a C string ends, a position lies in the readable
part, no more bytes are asked for than there are, and `readv` fills the areas it was given. -/
def Allowed (b : RawBuffer) : BufferOp → Prop
  | appendCString str => 0 ∈ str
  | retrieveUntil stop => stop ≤ b.readableBytes
  | retrieveAsString len => len ≤ b.readableBytes
  | readFd (some data) => data.length ≤ b.readFdRoom
  | _ => True

instance (b : RawBuffer) (op : BufferOp) : Decidable (op.Allowed b) := by
  cases op with
  | readFd data => cases data <;> unfold Allowed <;> infer_instance
  | _ => unfold Allowed; infer_instance

/-- The number of bytes an operation wants room for. -/
def wanted : BufferOp → ℕ
  | append data => data.length
  | appendString str => str.length
  | appendCString str => (cString str).length
  | ensureWriteableBytes len => len
  | readFd (some data) => data.length
  | _ => 0

/-- The end of that room is a `size_t`. -/
def Fits (b : RawBuffer) (op : BufferOp) : Prop := b.writeIndex + op.wanted < 2 ^ 64

instance (b : RawBuffer) (op : BufferOp) : Decidable (op.Fits b) :=
  inferInstanceAs (Decidable (_ < _))

/-- One operation: the string it returns, empty where it returns none, and the buffer behind it. -/
def run (b : RawBuffer) : BufferOp → Option (Bytes × RawBuffer)
  | append data => (b.append data).map ([], ·)
  | appendString str => (b.append str).map ([], ·)
  | appendCString str => (b.append (cString str)).map ([], ·)
  | ensureWriteableBytes len => (b.ensureWriteableBytes len).map ([], ·)
  | retrieve len => some ([], b.retrieve len)
  | retrieveUntil stop => some ([], b.retrieve stop)
  | retrieveAll => some ([], b.retrieveAll)
  | retrieveAsString len => b.retrieveAsString len
  | retrieveAllAsString => b.retrieveAllAsString
  | readFd data => (b.readFd data).map ([], ·)

end BufferOp

/-! ## What a buffer is for -/

/-- A queue of bytes: all that came in, and how many of them have left. -/
structure ByteQueue where
  /-- All bytes that came in, in order. -/
  came : Bytes
  /-- How many of them have left. -/
  left : ℕ
  left_le : left ≤ came.length

namespace ByteQueue

/-- Nothing came yet. -/
def empty : ByteQueue := ⟨[], 0, le_rfl⟩

/-- What is in the queue: all that came, without what has left. -/
def contents (q : ByteQueue) : Bytes := q.came.drop q.left

/-- Bytes come in at the back. -/
def push (data : Bytes) (q : ByteQueue) : ByteQueue where
  came := q.came ++ data
  left := q.left
  left_le := by
    rw [List.length_append]
    exact q.left_le.trans (Nat.le_add_right _ _)

/-- The first `len` bytes leave, or all of them when there are not as many. -/
def pop (len : ℕ) (q : ByteQueue) : ByteQueue where
  came := q.came
  left := q.left + min len q.contents.length
  left_le := by
    have h := q.left_le
    simp only [contents, List.length_drop]
    omega

/-- The empty queue holds nothing. -/
@[simp] lemma contents_empty : empty.contents = [] := rfl

/-- `push` puts the new bytes behind those in the queue. -/
@[simp] lemma contents_push (data : Bytes) (q : ByteQueue) :
    (q.push data).contents = q.contents ++ data :=
  List.drop_append_of_le_length q.left_le

/-- `pop` drops bytes from the front of the queue. -/
@[simp] lemma contents_pop (len : ℕ) (q : ByteQueue) :
    (q.pop len).contents = q.contents.drop len := by
  show q.came.drop (q.left + min len q.contents.length) = _
  rw [← List.drop_drop]
  show q.contents.drop (min len q.contents.length) = _
  rcases le_total len q.contents.length with h | h
  · rw [min_eq_left h]
  · rw [min_eq_right h, List.drop_length, List.drop_eq_nil_of_le h]

end ByteQueue

/-- What an operation does to a queue, and the string it returns. -/
def BufferOp.onQueue (q : ByteQueue) : BufferOp → Bytes × ByteQueue
  | append data => ([], q.push data)
  | appendString str => ([], q.push str)
  | appendCString str => ([], q.push (cString str))
  | ensureWriteableBytes _ => ([], q)
  | retrieve len => ([], q.pop len)
  | retrieveUntil stop => ([], q.pop stop)
  | retrieveAll => ([], q.pop q.contents.length)
  | retrieveAsString len => (q.contents.take len, q.pop len)
  | retrieveAllAsString => (q.contents, q.pop q.contents.length)
  | readFd (some data) => ([], q.push data)
  | readFd none => ([], q)

/-! ## The members follow the buffer with its invariant -/

/-- The difference of two sizes is the one of integers where it does not wrap. -/
lemma sizeT_sub {m n : ℕ} (h : n ≤ m) (hm : m < 2 ^ 64) : sizeT ((m : ℤ) - n) = m - n := by
  rw [← Nat.cast_sub h]
  exact sizeT_natCast (by omega)

/-- The sum of two sizes is the one of integers where it does not wrap. -/
lemma sizeT_add {m n : ℕ} (h : m + n < 2 ^ 64) : sizeT ((m : ℤ) + n) = m + n := by
  rw [← Nat.cast_add]
  exact sizeT_natCast h

namespace Buffer

/-- The members of a buffer. -/
def raw (b : Buffer) : RawBuffer := ⟨b.buffer, b.readerIndex, b.writeIndex⟩

/-- The size of the vector is a `size_t`. -/
def Sized (b : Buffer) : Prop := b.buffer.length < 2 ^ 64

variable {b : Buffer} {len : ℕ} {data : Bytes}

/-- The constructor makes the same of an initial size that does not wrap. -/
lemma raw_new {initialSize : ℕ} (h : kCheapPrepend + initialSize < 2 ^ 64) :
    RawBuffer.new initialSize = (new initialSize).raw := by
  unfold RawBuffer.new
  rw [sizeT_add h]
  rfl

/-- The members alone have the same readable bytes. -/
@[simp] lemma raw_readable (b : Buffer) : b.raw.readable = b.readable := rfl

/-- `readableBytes()` does not wrap in a buffer whose sizes do not. -/
lemma raw_readableBytes (h : b.Sized) : b.raw.readableBytes = b.readableBytes := by
  have h₃ := b.write_le_size
  exact sizeT_sub b.reader_le_write (h₃.trans_lt h)

/-- `writeableBytes()` does not wrap in a buffer whose sizes do not. -/
lemma raw_writeableBytes (h : b.Sized) : b.raw.writeableBytes = b.writeableBytes :=
  sizeT_sub b.write_le_size h

/-- `retrieveAll` is the same at both levels. -/
@[simp] lemma raw_retrieveAll (b : Buffer) : b.raw.retrieveAll = b.retrieveAll.raw := rfl

/-- `retrieve` is the same at both levels for a buffer whose sizes do not wrap. -/
lemma raw_retrieve (h : b.Sized) (len : ℕ) : b.raw.retrieve len = (b.retrieve len).raw := by
  have h₂ := b.reader_le_write
  have h₃ := b.write_le_size
  have hs : b.buffer.length < 2 ^ 64 := h
  unfold RawBuffer.retrieve retrieve
  rw [raw_readableBytes h, readableBytes]
  by_cases hlen : len < b.writeIndex - b.readerIndex
  · rw [if_pos hlen, dif_pos hlen]
    show RawBuffer.mk b.buffer (sizeT ((b.readerIndex : ℤ) + len)) b.writeIndex = _
    rw [sizeT_add (by omega)]
    rfl
  · rw [if_neg hlen, dif_neg hlen]
    rfl

/-- `retrieveAsString` of bytes that are there stays inside the vector and returns them. -/
lemma raw_retrieveAsString (h : b.Sized) (hlen : len ≤ b.readableBytes) :
    b.raw.retrieveAsString len = some (b.readable.take len, (b.retrieve len).raw) := by
  have h₂ := b.reader_le_write
  have h₃ := b.write_le_size
  have hin : b.raw.readerIndex + len ≤ b.raw.buffer.length := by
    unfold readableBytes at hlen
    show b.readerIndex + len ≤ b.buffer.length
    omega
  rw [RawBuffer.retrieveAsString, if_pos hin, raw_retrieve h, readable_eq_window,
    Cells.take_window hlen]
  rfl

/-- `makeSpace` stays inside the vector and does what it should, when the end of the room asked for
is a `size_t`. -/
lemma raw_makeSpace (h : b.Sized) (hfit : b.writeIndex + len < 2 ^ 64) :
    b.raw.makeSpace len = some (b.makeSpace len).raw ∧ (b.makeSpace len).Sized := by
  have h₁ := b.prepend_le_reader
  have h₂ := b.reader_le_write
  have h₃ := b.write_le_size
  have hs : b.buffer.length < 2 ^ 64 := h
  have hsum : sizeT ((b.writeableBytes : ℤ) + b.raw.prependableBytes) =
      b.writeableBytes + b.prependableBytes :=
    sizeT_add (by unfold writeableBytes; change _ + b.readerIndex < _; omega)
  have hneed : sizeT ((len : ℤ) + kCheapPrepend) = len + kCheapPrepend := sizeT_add (by omega)
  unfold RawBuffer.makeSpace makeSpace
  rw [raw_writeableBytes h, raw_readableBytes h, hsum, hneed]
  by_cases hfew : b.writeableBytes + b.prependableBytes < len + kCheapPrepend
  · rw [if_pos hfew, if_pos hfew]
    refine ⟨?_, ?_⟩
    · show some (RawBuffer.mk (resize (sizeT ((b.writeIndex : ℤ) + len)) b.buffer 0) _ _) = _
      rw [sizeT_add hfit]
      rfl
    · simpa [Sized] using hfit
  · rw [if_neg hfew, if_neg hfew]
    have hcopy : copyWithin b.raw.readerIndex kCheapPrepend b.readableBytes b.raw.buffer =
        some (overwrite kCheapPrepend (window b.readerIndex b.readableBytes b.buffer) b.buffer) :=
      Cells.copyWithin_eq_overwrite h₁
        (by change b.readerIndex + b.readableBytes ≤ b.buffer.length; unfold readableBytes; omega)
    have hend : sizeT ((kCheapPrepend : ℤ) + b.readableBytes) = kCheapPrepend + b.readableBytes :=
      sizeT_add (by unfold readableBytes; omega)
    rw [hcopy, hend]
    refine ⟨rfl, ?_⟩
    simpa [Sized] using hs

/-- `ensureWriteableBytes` is the same at both levels when `writeIndex_` plus the room asked for
does not wrap. -/
lemma raw_ensureWriteableBytes (h : b.Sized) (hfit : b.writeIndex + len < 2 ^ 64) :
    b.raw.ensureWriteableBytes len = some (b.ensureWriteableBytes len).raw ∧
      (b.ensureWriteableBytes len).Sized := by
  unfold RawBuffer.ensureWriteableBytes ensureWriteableBytes
  rw [raw_writeableBytes h]
  by_cases hlen : b.writeableBytes < len
  · rw [if_pos hlen, if_pos hlen]
    exact raw_makeSpace h hfit
  · rw [if_neg hlen, if_neg hlen]
    exact ⟨rfl, h⟩

/-- A copy into the writable part stays inside of the vector. -/
lemma raw_copyIn (h : b.Sized) (hlen : data.length ≤ b.writeableBytes) :
    b.raw.copyIn data = some
      ⟨overwrite b.writeIndex data b.buffer, b.readerIndex, b.writeIndex + data.length⟩ := by
  have h₃ := b.write_le_size
  have hs : b.buffer.length < 2 ^ 64 := h
  unfold writeableBytes at hlen
  have hin : b.raw.writeIndex + data.length ≤ b.raw.buffer.length := by
    show b.writeIndex + data.length ≤ b.buffer.length
    omega
  have hend : sizeT ((b.raw.writeIndex : ℤ) + data.length) = b.writeIndex + data.length :=
    sizeT_add (by change b.writeIndex + data.length < _; omega)
  rw [RawBuffer.copyIn, if_pos hin, hend]
  rfl

/-- `append` is the same at both levels when `writeIndex_` plus the new bytes does not wrap. -/
lemma raw_append (h : b.Sized) (hfit : b.writeIndex + data.length < 2 ^ 64) :
    b.raw.append data = some (b.append data).raw ∧ (b.append data).Sized := by
  obtain ⟨hensure, hsized⟩ := raw_ensureWriteableBytes h hfit
  refine ⟨?_, ?_⟩
  · rw [RawBuffer.append, hensure, Option.bind_some,
      raw_copyIn hsized (b.le_writeableBytes_ensureWriteableBytes _)]
    rfl
  · unfold Sized append
    rw [Cells.length_overwrite]
    exact hsized

/-- `readFd` is the same at both levels when `writeIndex_` plus what came in does not wrap. -/
lemma raw_readFd (h : b.Sized) (hfit : b.writeIndex + data.length < 2 ^ 64) :
    b.raw.readFd (some data) = some (b.readFd data).raw ∧ (b.readFd data).Sized := by
  have h₃ := b.write_le_size
  have hs : b.buffer.length < 2 ^ 64 := h
  unfold RawBuffer.readFd readFd
  simp only [raw_writeableBytes h]
  by_cases hlen : data.length ≤ b.writeableBytes
  · rw [if_pos hlen, dif_pos hlen, raw_copyIn h hlen]
    refine ⟨rfl, ?_⟩
    simpa [Sized] using hs
  · rw [if_neg hlen, dif_neg hlen]
    have htake : (data.take b.writeableBytes).length ≤ b.writeableBytes := by simp
    rw [raw_copyIn h htake, Option.bind_some]
    apply raw_append (b := { b with
      buffer := overwrite b.writeIndex (data.take b.writeableBytes) b.buffer
      writeIndex := b.buffer.length
      reader_le_write := _
      write_le_size := _ })
    · simpa [Sized] using hs
    · show b.buffer.length + (data.drop b.writeableBytes).length < 2 ^ 64
      rw [List.length_drop]
      unfold writeableBytes at hlen ⊢
      omega

end Buffer

/-- **One operation, on all three levels.** When it is allowed and what it asks for fits, it has
a result, that keeps the invariant, returns what the queue returns and holds what the queue
holds. -/
lemma BufferOp.run_raw {b : Buffer} {q : ByteQueue} {op : BufferOp} (h : b.Sized)
    (hq : b.readable = q.contents) (hallowed : op.Allowed b.raw) (hfit : op.Fits b.raw) :
    ∃ b' : Buffer, op.run b.raw = some ((op.onQueue q).1, b'.raw) ∧ b'.Sized ∧
      b'.readable = (op.onQueue q).2.contents ∧
      ∀ len, op = .ensureWriteableBytes len → len ≤ b'.writeableBytes := by
  have hlen : q.contents.length = b.readableBytes := by rw [← hq, b.length_readable]; rfl
  have hretrieve : ∀ len, (b.retrieve len).Sized := by
    intro len
    unfold Buffer.retrieve
    split <;> exact h
  cases op with
  | append data =>
      obtain ⟨hrun, hsized⟩ := Buffer.raw_append h hfit
      exact ⟨_, by simp [run, hrun, onQueue], hsized, by simp [onQueue, hq], by simp⟩
  | appendString str =>
      obtain ⟨hrun, hsized⟩ := Buffer.raw_append h hfit
      exact ⟨_, by simp [run, hrun, onQueue], hsized, by simp [onQueue, hq], by simp⟩
  | appendCString str =>
      obtain ⟨hrun, hsized⟩ := Buffer.raw_append h hfit
      exact ⟨_, by simp [run, hrun, onQueue], hsized, by simp [onQueue, hq], by simp⟩
  | ensureWriteableBytes len =>
      have hrun : b.raw.ensureWriteableBytes len = some (b.ensureWriteableBytes len).raw ∧
          (b.ensureWriteableBytes len).Sized := Buffer.raw_ensureWriteableBytes h hfit
      refine ⟨_, by simp [run, hrun.1, onQueue], hrun.2, by simp [onQueue, hq], ?_⟩
      intro len' heq
      cases heq
      exact b.le_writeableBytes_ensureWriteableBytes len
  | retrieve len =>
      exact ⟨b.retrieve len, by simp [run, Buffer.raw_retrieve h, onQueue], hretrieve len,
        by simp [onQueue, Buffer.readable_retrieve, hq], by simp⟩
  | retrieveUntil stop =>
      exact ⟨b.retrieve stop, by simp [run, Buffer.raw_retrieve h, onQueue], hretrieve stop,
        by simp [onQueue, Buffer.readable_retrieve, hq], by simp⟩
  | retrieveAll =>
      exact ⟨b.retrieveAll, by simp [run, onQueue], h, by simp [onQueue], by simp⟩
  | retrieveAsString len =>
      have hle : len ≤ b.readableBytes := by
        rw [← Buffer.raw_readableBytes h]
        exact hallowed
      exact ⟨b.retrieve len, by simp [run, Buffer.raw_retrieveAsString h hle, onQueue, hq],
        hretrieve len, by simp [onQueue, Buffer.readable_retrieve, hq], by simp⟩
  | retrieveAllAsString =>
      have hall : b.readable.take b.readableBytes = b.readable :=
        List.take_of_length_le (by rw [hq, hlen])
      refine ⟨b.retrieve b.readableBytes, ?_, hretrieve _, ?_, by simp⟩
      · rw [run, RawBuffer.retrieveAllAsString, Buffer.raw_readableBytes h,
          Buffer.raw_retrieveAsString h le_rfl, hall, hq]
        rfl
      · rw [Buffer.readable_retrieve, hq, onQueue, ByteQueue.contents_pop, hlen]
  | readFd data =>
      cases data with
      | none => exact ⟨b, rfl, h, hq, by simp⟩
      | some data =>
          obtain ⟨hrun, hsized⟩ := Buffer.raw_readFd h hfit
          exact ⟨_, by simp [run, hrun, onQueue], hsized, by simp [onQueue, hq], by simp⟩

/-! ## Runs -/

/-- A buffer in use, beside the queue it stands for: the strings that its operations returned, and
those that the queue's returned. -/
structure BufferRun where
  buffer : RawBuffer
  returned : List Bytes
  queue : ByteQueue
  expected : List Bytes

namespace BufferRun

/-- A new buffer beside an empty queue. -/
def start (initialSize : ℕ) : BufferRun := ⟨.new initialSize, [], .empty, []⟩

/-- One operation on both. There is no step when the operation is not allowed, or when it leaves
the vector. -/
def step (s : BufferRun) (op : BufferOp) : Option BufferRun :=
  if op.Allowed s.buffer then
    (op.run s.buffer).map fun (str, b) =>
      { buffer := b
        returned := s.returned ++ [str]
        queue := (op.onQueue s.queue).2
        expected := s.expected ++ [(op.onQueue s.queue).1] }
  else none

/-- The steps of a buffer in use. -/
def Step (s : BufferRun) (op : BufferOp) (t : BufferRun) : Prop := s.step op = some t

/-- The invariant of the indices, and what makes the buffer the queue: it holds the same bytes and
has returned the same strings. -/
structure Refines (s : BufferRun) : Prop where
  prepend_le_reader : kCheapPrepend ≤ s.buffer.readerIndex
  reader_le_write : s.buffer.readerIndex ≤ s.buffer.writeIndex
  write_le_size : s.buffer.writeIndex ≤ s.buffer.buffer.length
  readable_eq : s.buffer.readable = s.queue.contents
  returned_eq : s.returned = s.expected

/-- Every allowed operation that fits has a result. -/
def Responds (s : BufferRun) : Prop :=
  ∀ op : BufferOp, op.Allowed s.buffer → op.Fits s.buffer → (s.step op).isSome

/-- Behind `ensureWriteableBytes(len)` there is room for `len` bytes. -/
def HasRoom (op : BufferOp) (t : BufferRun) : Prop :=
  ∀ len, op = .ensureWriteableBytes len → len ≤ t.buffer.writeableBytes

/-- The invariant of a run: the members are those of a buffer with its invariant. -/
def Follows (s : BufferRun) : Prop :=
  ∃ b : Buffer, s.buffer = b.raw ∧ b.Sized ∧ b.readable = s.queue.contents ∧
    s.returned = s.expected

variable {s t : BufferRun} {op : BufferOp}

/-- A run whose three levels go together refines the queue. -/
lemma Follows.refines (h : s.Follows) : s.Refines := by
  obtain ⟨b, hb, -, hq, hret⟩ := h
  refine ⟨?_, ?_, ?_, ?_, hret⟩ <;> rw [hb]
  · exact b.prepend_le_reader
  · exact b.reader_le_write
  · exact b.write_le_size
  · exact hq

/-- The operations of such a run return what the queue says, and the room asked for is there. -/
lemma Follows.responds (h : s.Follows) : s.Responds := by
  obtain ⟨b, hb, hsized, hq, -⟩ := h
  intro op hallowed hfit
  rw [hb] at hfit
  have hallowed' := hallowed
  rw [hb] at hallowed'
  obtain ⟨b', hrun, -⟩ := BufferOp.run_raw hsized hq hallowed' hfit
  rw [step, if_pos hallowed, hb, hrun]
  rfl

/-- A step that fits keeps the invariant, and leaves the room that it was asked for. -/
lemma Follows.step (h : s.Follows) (hst : Step s op t) (hfit : op.Fits s.buffer) :
    t.Follows ∧ HasRoom op t := by
  obtain ⟨b, hb, hsized, hq, hret⟩ := h
  unfold Step BufferRun.step at hst
  split at hst
  · rename_i hallowed
    rw [hb] at hallowed hfit
    obtain ⟨b', hrun, hsized', hq', hroom⟩ := BufferOp.run_raw hsized hq hallowed hfit
    rw [hb, hrun, Option.map_some, Option.some.injEq] at hst
    subst hst
    refine ⟨⟨b', rfl, hsized', hq', by rw [hret]⟩, ?_⟩
    intro len heq
    show len ≤ b'.raw.writeableBytes
    rw [Buffer.raw_writeableBytes hsized']
    exact hroom len heq
  · exact absurd hst nofun

/-- The three levels go together at the start. -/
lemma follows_start {initialSize : ℕ} (h : kCheapPrepend + initialSize < 2 ^ 64) :
    (start initialSize).Follows := by
  refine ⟨.new initialSize, Buffer.raw_new h, ?_, ?_, rfl⟩
  · simpa [Buffer.Sized, Buffer.new] using h
  · simp [Buffer.readable, Buffer.new, start]

/-- **A buffer refines a queue of bytes.** From a constructor whose size does not wrap, through any
operations whose room ends at a `size_t`: the indices keep their invariant, the buffer holds and
returns what the queue does, no operation leaves the vector, and `ensureWriteableBytes` makes the
room it is asked for. -/
theorem refines_queue {initialSize : ℕ} (h : kCheapPrepend + initialSize < 2 ^ 64)
    {p : List (BufferOp × BufferRun)} (hp : Path Step (start initialSize) p)
    (hfits : MeetsAll (fun s op => op.Fits s.buffer) (start initialSize) p) :
    Throughout (fun s => s.Refines ∧ s.Responds) (start initialSize) p ∧
      ∀ x ∈ p, HasRoom x.1 x.2 := by
  have hstart := follows_start h
  have hkeep : ∀ (s : BufferRun) (op : BufferOp) (t : BufferRun), s.Follows → Step s op t →
      op.Fits s.buffer → t.Follows := fun _ _ _ hs hst hfit => (hs.step hst hfit).1
  constructor
  · apply (hp.throughout_of_meetsAll hkeep hfits hstart).mono
    intro s hs
    exact ⟨hs.refines, hs.responds⟩
  · have hroom : ∀ (s : BufferRun) (op : BufferOp) (t : BufferRun), s.Follows → Step s op t →
        op.Fits s.buffer → HasRoom op t := fun _ _ _ hs hst hfit => (hs.step hst hfit).2
    exact hp.forall_mem_of_meetsAll hkeep hroom hfits hstart

/-- Bytes through a small buffer: they come in, some leave, the rest moves to the front to make
room, and what `readv` reads spills over. -/
theorem refines_queue_move_and_spill :
    kCheapPrepend + 4 < 2 ^ 64 ∧
      (let p := trace step (start 4)
        [.append [1, 2, 3], .retrieveAsString 2, .ensureWriteableBytes 3, .appendCString [4, 0, 9],
          .readFd (some [5, 6, 7, 8]), .retrieveAllAsString]
      Throughout (fun s => s.Refines ∧ s.Responds) (start 4) p ∧ ∀ x ∈ p, HasRoom x.1 x.2) :=
  ⟨by decide, refines_queue (by decide) (path_trace step _ _) (by decide)⟩

/-- **Where a size wraps the refinement ends.** The constructor takes `2 ^ 64 - 1` for a vector of
seven bytes, whose indices stand behind its end. A request for `2 ^ 64 - 1` bytes looks like one
for less than the prepend area holds, and makes no room. -/
theorem not_refines_queue :
    ¬ (start (2 ^ 64 - 1)).Refines ∧
      ¬ ∀ x ∈ trace step (start 0) [.ensureWriteableBytes (2 ^ 64 - 1)], HasRoom x.1 x.2 := by
  constructor
  · intro h
    have := h.write_le_size
    revert this
    decide
  · intro h
    have hroom := h _ List.mem_cons_self _ rfl
    revert hroom
    decide

end BufferRun

end SwiftNetCore
