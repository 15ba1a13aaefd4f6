import SwiftNetCore.Buffer
import SwiftNetCore.Lib.Cells

/-!
# Writing into a buffer

The operations of `Buffer` that put bytes in, over `Buffer` with its invariant: `makeSpace`,
`ensureWriteableBytes`, the three `append`s and `readFd`. Each keeps what is readable and puts
the new bytes behind it:

* `readable_makeSpace`, `readable_ensureWriteableBytes`: making room changes no readable byte,
  whether the vector grows or the bytes move to the front;
* `le_writeableBytes_ensureWriteableBytes`: the room asked for is there afterwards;
* `readable_append`, `readable_readFd`: the new bytes, in order.

The bytes that `append` copies are a value here: they do not lie in the buffer itself, whose vector
may move. Sizes are natural numbers. What the 64-bit `size_t` of the source adds is in
`SwiftNetCore.BufferFifo`.
-/

namespace SwiftNetCore

open Cells (window overwrite resize)

namespace Buffer

/-- Source: Buffer.h 13 -/
def kInitialSize : ℕ := 1024

/-- `readableBytes()`. Source: Buffer.h 31 -/
def readableBytes (b : Buffer) : ℕ := b.writeIndex - b.readerIndex

/-- `writeableBytes()`. Source: Buffer.h 33 -/
def writeableBytes (b : Buffer) : ℕ := b.buffer.length - b.writeIndex

/-- `prependableBytes()`. Source: Buffer.h 35 -/
def prependableBytes (b : Buffer) : ℕ := b.readerIndex

/-- What is readable is the window between the two indices. -/
lemma readable_eq_window (b : Buffer) :
    b.readable = window b.readerIndex b.readableBytes b.buffer := rfl

/-- Make the vector larger, or move the readable bytes to the front when that frees enough room.
Source: Buffer.h 154-169 -/
def makeSpace (len : ℕ) (b : Buffer) : Buffer :=
  if b.writeableBytes + b.prependableBytes < len + kCheapPrepend then
    { b with
      buffer := resize (b.writeIndex + len) b.buffer 0
      write_le_size := by simp }
  else
    { buffer := overwrite kCheapPrepend (window b.readerIndex b.readableBytes b.buffer) b.buffer
      readerIndex := kCheapPrepend
      writeIndex := kCheapPrepend + b.readableBytes
      prepend_le_reader := le_rfl
      reader_le_write := Nat.le_add_right _ _
      write_le_size := by
        have h₁ := b.prepend_le_reader
        have h₂ := b.reader_le_write
        have h₃ := b.write_le_size
        simp only [Cells.length_overwrite, readableBytes]
        omega }

/-- Source: Buffer.h 70-76 -/
def ensureWriteableBytes (len : ℕ) (b : Buffer) : Buffer :=
  if b.writeableBytes < len then b.makeSpace len else b

/-- The room asked for is there. -/
lemma le_writeableBytes_ensureWriteableBytes (len : ℕ) (b : Buffer) :
    len ≤ (b.ensureWriteableBytes len).writeableBytes := by
  have h₁ := b.prepend_le_reader
  have h₂ := b.reader_le_write
  have h₃ := b.write_le_size
  unfold ensureWriteableBytes
  split
  · unfold makeSpace
    split
    · rename_i hfew
      simp [writeableBytes]
    · rename_i hlen hfew
      simp only [writeableBytes, prependableBytes, readableBytes, Cells.length_overwrite]
        at hlen hfew ⊢
      omega
  · rename_i hlen
    exact not_lt.mp hlen

/-- `makeSpace` changes no readable byte, whether it grows the vector or moves the bytes. -/
@[simp] lemma readable_makeSpace {len : ℕ} {b : Buffer} (h : b.writeableBytes < len) :
    (b.makeSpace len).readable = b.readable := by
  have h₁ := b.prepend_le_reader
  have h₂ := b.reader_le_write
  have h₃ := b.write_le_size
  unfold makeSpace
  split
  · rw [readable_eq_window, readable_eq_window]
    apply Cells.window_resize
    · simp only [readableBytes]
      omega
    · unfold writeableBytes at h
      omega
  · have hlen : (window b.readerIndex b.readableBytes b.buffer).length = b.readableBytes :=
      Cells.length_window (by unfold readableBytes; omega)
    have hself := Cells.window_overwrite_self (i := kCheapPrepend) (v := b.buffer)
      (l := window b.readerIndex b.readableBytes b.buffer)
      (by rw [hlen]; unfold readableBytes; omega)
    rw [hlen] at hself
    show window kCheapPrepend (kCheapPrepend + b.readableBytes - kCheapPrepend) _ = _
    rw [Nat.add_sub_cancel_left]
    exact hself

/-- Making room changes no readable byte. -/
@[simp] lemma readable_ensureWriteableBytes (len : ℕ) (b : Buffer) :
    (b.ensureWriteableBytes len).readable = b.readable := by
  unfold ensureWriteableBytes
  split
  · rename_i h
    exact readable_makeSpace h
  · rfl

/-- `append(const char *data, size_t len)`: copy the bytes behind the readable ones, once there is
room for them. Source: Buffer.h 89-94 -/
def append (data : Bytes) (b : Buffer) : Buffer where
  buffer := overwrite (b.ensureWriteableBytes data.length).writeIndex data
    (b.ensureWriteableBytes data.length).buffer
  readerIndex := (b.ensureWriteableBytes data.length).readerIndex
  writeIndex := (b.ensureWriteableBytes data.length).writeIndex + data.length
  prepend_le_reader := (b.ensureWriteableBytes data.length).prepend_le_reader
  reader_le_write := (b.ensureWriteableBytes data.length).reader_le_write.trans
    (Nat.le_add_right _ _)
  write_le_size := by
    have h := b.le_writeableBytes_ensureWriteableBytes data.length
    have h' := (b.ensureWriteableBytes data.length).write_le_size
    unfold writeableBytes at h
    rw [Cells.length_overwrite]
    omega

/-- `readFd`: `readv` fills the writable part first and then `extrabuf`; what came into
`extrabuf` is appended. `data` is what `readv` read, in order. Source: Buffer.cpp 13-40 -/
def readFd (data : Bytes) (b : Buffer) : Buffer :=
  if h : data.length ≤ b.writeableBytes then
    { b with
      buffer := overwrite b.writeIndex data b.buffer
      writeIndex := b.writeIndex + data.length
      reader_le_write := b.reader_le_write.trans (Nat.le_add_right _ _)
      write_le_size := by
        have h' := b.write_le_size
        unfold writeableBytes at h
        rw [Cells.length_overwrite]
        omega }
  else
    append (data.drop b.writeableBytes)
      { b with
        buffer := overwrite b.writeIndex (data.take b.writeableBytes) b.buffer
        writeIndex := b.buffer.length
        reader_le_write := b.reader_le_write.trans b.write_le_size
        write_le_size := by rw [Cells.length_overwrite] }

/-- How many bytes one `readv` of `readFd` can take: the writable part, and `extrabuf` behind it
when the writable part is smaller than `extrabuf`. Source: Buffer.cpp 15-24 -/
def readFdRoom (b : Buffer) : ℕ :=
  if b.writeableBytes < 65536 then b.writeableBytes + 65536 else b.writeableBytes

/-! ## The new bytes -/

/-- Bytes copied behind the readable ones become readable. -/
lemma window_overwrite_readable {b : Buffer} {data : Bytes} (h : data.length ≤ b.writeableBytes) :
    window b.readerIndex (b.writeIndex + data.length - b.readerIndex)
      (overwrite b.writeIndex data b.buffer) = b.readable ++ data := by
  have h₂ := b.reader_le_write
  have h₃ := b.write_le_size
  have hend : b.readerIndex + b.readableBytes = b.writeIndex := Nat.add_sub_cancel' h₂
  have hroom : b.readerIndex + b.readableBytes + data.length ≤ b.buffer.length := by
    unfold writeableBytes at h
    omega
  have happ := Cells.window_overwrite_append hroom
  rw [hend] at happ
  rw [show b.writeIndex + data.length - b.readerIndex = b.readableBytes + data.length by omega,
    happ, readable_eq_window]

/-- **`append` puts its bytes behind the readable ones.** -/
@[simp] lemma readable_append (data : Bytes) (b : Buffer) :
    (b.append data).readable = b.readable ++ data := by
  have h := b.le_writeableBytes_ensureWriteableBytes data.length
  rw [← readable_ensureWriteableBytes data.length b, ← window_overwrite_readable h]
  rfl

/-- **`readFd` puts what it read behind the readable bytes**, also where it came in two parts. -/
@[simp] lemma readable_readFd (data : Bytes) (b : Buffer) :
    (b.readFd data).readable = b.readable ++ data := by
  unfold readFd
  split
  · rename_i h
    exact window_overwrite_readable h
  · rename_i h
    have hlen : (data.take b.writeableBytes).length = b.writeableBytes := by
      rw [List.length_take]
      omega
    have hend : b.writeIndex + b.writeableBytes = b.buffer.length :=
      Nat.add_sub_cancel' b.write_le_size
    have hroom : (data.take b.writeableBytes).length ≤ b.writeableBytes := hlen.le
    have hfull := window_overwrite_readable hroom
    rw [hlen, hend] at hfull
    rw [readable_append]
    show window b.readerIndex (b.buffer.length - b.readerIndex) _ ++ _ = _
    rw [hfull, List.append_assoc, List.take_append_drop]

end Buffer

end SwiftNetCore
