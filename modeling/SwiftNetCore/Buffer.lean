import SwiftNetCore.Base
import SwiftNetCore.Lib.Delimited

/-!
# The input buffer

`Buffer` (Buffer.h) keeps its bytes in a vector between two indices. Its readers only ever see
the bytes between `peek()` and `beginWrite()` and take bytes off their front, so the parsers are
written over `InputBuffer`: a type with a readable part and a `retrieve` that drops a prefix of
it. Two types are input buffers:

* `Bytes`, the readable part by itself: the byte queue that the other one refines;
* `Buffer`, the vector with its indices, whose invariant
  `kCheapPrepend ≤ readerIndex_ ≤ writeIndex_ ≤ buffer_.size()` is part of the type.
-/

namespace SwiftNetCore

/-! ## What a parser asks of its buffer -/

/-- A buffer as its readers use it: the bytes from `peek()` to `beginWrite()`, and `retrieve`. -/
class InputBuffer (β : Type) where
  /-- The bytes from `peek()` to `beginWrite()`. -/
  readable : β → Bytes
  /-- `Buffer::retrieve(len)`. -/
  retrieve : ℕ → β → β
  /-- `retrieve` takes bytes off the front, all of them when there are not enough. -/
  readable_retrieve : ∀ (len : ℕ) (b : β), readable (retrieve len b) = (readable b).drop len

namespace InputBuffer

variable {β : Type} [InputBuffer β]

attribute [simp] readable_retrieve

/-- `Buffer::readableBytes()`. Source: Buffer.h 31 -/
def readableBytes (b : β) : ℕ := (readable b).length

/-- `Buffer::findCRLF()`, as the offset from `peek()` of the `"\r\n"` it finds.
Source: Buffer.h 111-116 -/
def findCRLF (b : β) : Option ℕ := Delimited.search CR LF (readable b)

/-- `Buffer::retrieveUntil(peek() + len)`. Source: Buffer.h 137-140 -/
def retrieveUntil (len : ℕ) (b : β) : β := retrieve len b

/-- `Buffer::retrieveAllAsString()`: the readable bytes, and the buffer without them.
Source: Buffer.h 58-68 -/
def retrieveAllAsString (b : β) : Bytes × β := (readable b, retrieve (readableBytes b) b)

/-- `retrieveUntil` drops the bytes in front of `end`. -/
@[simp] lemma readable_retrieveUntil (len : ℕ) (b : β) :
    readable (retrieveUntil len b) = (readable b).drop len :=
  readable_retrieve len b

/-- `retrieveAllAsString` returns all readable bytes. -/
@[simp] lemma retrieveAllAsString_fst (b : β) : (retrieveAllAsString b).1 = readable b := rfl

/-- Behind `retrieveAllAsString` nothing can be read. -/
@[simp] lemma readable_retrieveAllAsString_snd (b : β) :
    readable (retrieveAllAsString b).2 = [] := by
  simp [retrieveAllAsString, readableBytes]

end InputBuffer

/-- The readable part by itself. -/
instance : InputBuffer Bytes where
  readable := id
  retrieve len b := b.drop len
  readable_retrieve _ _ := rfl

/-- A string of bytes, as a buffer, has all its bytes to read. -/
@[simp] lemma readable_bytes (b : Bytes) : InputBuffer.readable b = b := rfl

/-- A string of bytes, as a buffer, has as many bytes to read as it is long. -/
@[simp] lemma readableBytes_bytes (b : Bytes) : InputBuffer.readableBytes b = b.length := rfl

/-- `retrieve` drops bytes from the front of a string. -/
@[simp] lemma retrieve_bytes (len : ℕ) (b : Bytes) : InputBuffer.retrieve len b = b.drop len := rfl

/-- `retrieveUntil` drops bytes from the front of a string. -/
@[simp] lemma retrieveUntil_bytes (len : ℕ) (b : Bytes) :
    InputBuffer.retrieveUntil len b = b.drop len := rfl

/-- `retrieveAllAsString` of a string returns it and leaves the empty one. -/
@[simp] lemma retrieveAllAsString_bytes (b : Bytes) :
    InputBuffer.retrieveAllAsString b = (b, []) := by
  simp [InputBuffer.retrieveAllAsString]

/-! ## The vector with its two indices -/

/-- `Buffer::kCheapPrepend`. Source: Buffer.h 12 -/
def kCheapPrepend : ℕ := 8

/-- `Buffer`: a vector of bytes, of which those from `readerIndex_` up to `writeIndex_` are
readable. Source: Buffer.h 9-175 -/
structure Buffer where
  /-- `buffer_` -/
  buffer : Bytes
  /-- `readerIndex_` -/
  readerIndex : ℕ
  /-- `writeIndex_` -/
  writeIndex : ℕ
  prepend_le_reader : kCheapPrepend ≤ readerIndex
  reader_le_write : readerIndex ≤ writeIndex
  write_le_size : writeIndex ≤ buffer.length

namespace Buffer

/-- The constructor: a vector of `kCheapPrepend + initialSize` zero bytes, nothing readable.
Source: Buffer.h 15-20 -/
def new (initialSize : ℕ) : Buffer where
  buffer := List.replicate (kCheapPrepend + initialSize) 0
  readerIndex := kCheapPrepend
  writeIndex := kCheapPrepend
  prepend_le_reader := le_rfl
  reader_le_write := le_rfl
  write_le_size := by simp

/-- The bytes from `peek()` to `beginWrite()`. Source: Buffer.h 38, 101-104 -/
def readable (b : Buffer) : Bytes :=
  (b.buffer.drop b.readerIndex).take (b.writeIndex - b.readerIndex)

/-- `readerIndex_ = writeIndex_ = kCheapPrepend`. Source: Buffer.h 52-55 -/
def retrieveAll (b : Buffer) : Buffer where
  buffer := b.buffer
  readerIndex := kCheapPrepend
  writeIndex := kCheapPrepend
  prepend_le_reader := le_rfl
  reader_le_write := le_rfl
  write_le_size := b.prepend_le_reader.trans (b.reader_le_write.trans b.write_le_size)

/-- Advance `readerIndex_` when some readable bytes remain, else reset both indices.
Source: `Buffer::retrieve`, Buffer.h 40-50 -/
def retrieve (len : ℕ) (b : Buffer) : Buffer :=
  if h : len < b.writeIndex - b.readerIndex then
    { b with
      readerIndex := b.readerIndex + len
      prepend_le_reader := b.prepend_le_reader.trans (Nat.le_add_right _ _)
      reader_le_write := by omega }
  else b.retrieveAll

/-- There are `writeIndex_ - readerIndex_` readable bytes. -/
lemma length_readable (b : Buffer) : b.readable.length = b.writeIndex - b.readerIndex := by
  have h₁ := b.reader_le_write
  have h₂ := b.write_le_size
  simp only [readable, List.length_take, List.length_drop]
  omega

/-- Behind `retrieveAll` nothing can be read. -/
@[simp] lemma readable_retrieveAll (b : Buffer) : b.retrieveAll.readable = [] := by
  simp [readable, retrieveAll]

/-- `retrieve` on the indices drops a prefix of the readable bytes. -/
lemma readable_retrieve (len : ℕ) (b : Buffer) :
    (b.retrieve len).readable = b.readable.drop len := by
  unfold retrieve
  split
  · rename_i h
    simp only [readable, List.drop_take, List.drop_drop]
    congr 1
    omega
  · rename_i h
    rw [readable_retrieveAll, List.drop_eq_nil_of_le]
    rw [length_readable]
    omega

instance : InputBuffer Buffer where
  readable := readable
  retrieve := retrieve
  readable_retrieve := readable_retrieve

/-- A buffer that holds the bytes `l`, behind the prepend area. -/
def ofBytes (l : Bytes) : Buffer where
  buffer := List.replicate kCheapPrepend 0 ++ l
  readerIndex := kCheapPrepend
  writeIndex := kCheapPrepend + l.length
  prepend_le_reader := le_rfl
  reader_le_write := Nat.le_add_right _ _
  write_le_size := by simp

/-- A buffer made of some bytes has these bytes to read. -/
@[simp] lemma readable_ofBytes (l : Bytes) : InputBuffer.readable (ofBytes l) = l := by
  show (ofBytes l).readable = l
  simp [readable, ofBytes]

end Buffer

end SwiftNetCore
