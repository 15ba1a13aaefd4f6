import SwiftNetCore.BufferFifo

/-!
# How large a buffer gets

The vector of a `Buffer` never shrinks, and `makeSpace` lets it grow only where moving the readable
bytes to the front would not do. So its size is bounded by what was in the buffer at its peak,
however many bytes have gone through it: twice the peak, beside the prepend area.

* `length_append_le`, `length_readFd_le`: one operation.
* `bounded_throughout`: over every run of a buffer that is constructed with at most `2 ^ 62` bytes,
  and whose contents, with what an operation wants room for, stay below `2 ^ 62`. The sizes then
  never wrap, so the buffer refines the queue of bytes throughout, with no further condition.
-/

namespace SwiftNetCore

open Cells (window overwrite resize)
open Paths (Path MeetsAll Throughout trace path_trace)

namespace Buffer

/-- The size that a vector may have when `n` bytes were in the buffer, or were to have room in
it. -/
def sizeFor (n : ℕ) : ℕ := 2 * n + (kCheapPrepend - 1)

variable {b : Buffer} {len : ℕ} {data : Bytes}

/-- A vector grows only when the front has no room: less than `len` bytes are free then. -/
lemma length_makeSpace_le (len : ℕ) (b : Buffer) :
    (b.makeSpace len).buffer.length ≤ max b.buffer.length (sizeFor (b.readableBytes + len)) := by
  have h₂ := b.reader_le_write
  have h₃ := b.write_le_size
  unfold makeSpace
  split
  · rename_i hfew
    apply le_max_of_le_right
    simp only [writeableBytes, prependableBytes, sizeFor, readableBytes, kCheapPrepend,
      Cells.length_resize] at hfew ⊢
    omega
  · apply le_max_of_le_left
    rw [Cells.length_overwrite]

/-- `ensureWriteableBytes` makes the vector as large as what is readable and the room asked for
need. -/
lemma length_ensureWriteableBytes_le (len : ℕ) (b : Buffer) :
    (b.ensureWriteableBytes len).buffer.length ≤
      max b.buffer.length (sizeFor (b.readableBytes + len)) := by
  unfold ensureWriteableBytes
  split
  · exact length_makeSpace_le len b
  · exact le_max_left _ _

/-- `append` makes the vector as large as what is readable and the new bytes need. -/
lemma length_append_le (data : Bytes) (b : Buffer) :
    (b.append data).buffer.length ≤
      max b.buffer.length (sizeFor (b.readableBytes + data.length)) := by
  unfold append
  rw [Cells.length_overwrite]
  exact length_ensureWriteableBytes_le data.length b

/-- What spills into `extrabuf` is appended to a full vector. -/
lemma length_readFd_le (data : Bytes) (b : Buffer) :
    (b.readFd data).buffer.length ≤
      max b.buffer.length (sizeFor (b.readableBytes + data.length)) := by
  have h₂ := b.reader_le_write
  have h₃ := b.write_le_size
  unfold readFd
  split
  · rw [Cells.length_overwrite]
    exact le_max_left _ _
  · rename_i hlen
    refine (length_append_le _ _).trans ?_
    rw [Cells.length_overwrite, List.length_drop]
    have hsame : b.buffer.length - b.readerIndex + (data.length - b.writeableBytes) =
        b.readableBytes + data.length := by
      unfold writeableBytes at hlen ⊢
      unfold readableBytes
      omega
    show max _ (sizeFor (b.buffer.length - b.readerIndex + _)) ≤ _
    rw [hsame]

end Buffer

/-- **One operation** leaves the vector no longer than it was, or than its room and the bytes in it
need. -/
lemma BufferOp.length_run_le {b : Buffer} {op : BufferOp} {str : Bytes} {r : RawBuffer}
    (h : b.Sized) (hallowed : op.Allowed b.raw) (hfit : op.Fits b.raw)
    (hrun : op.run b.raw = some (str, r)) :
    r.buffer.length ≤ max b.buffer.length (Buffer.sizeFor (b.readableBytes + op.wanted)) := by
  have happend : ∀ data : Bytes, b.writeIndex + data.length < 2 ^ 64 →
      (b.raw.append data).map (fun r => (([] : Bytes), r)) = some (str, r) →
      r.buffer.length ≤ max b.buffer.length (Buffer.sizeFor (b.readableBytes + data.length)) := by
    intro data hfit hrun
    rw [(Buffer.raw_append h hfit).1, Option.map_some, Option.some.injEq] at hrun
    rw [← (Prod.mk.inj hrun).2]
    exact Buffer.length_append_le data b
  have hretrieve : ∀ len, (b.raw.retrieve len).buffer.length = b.buffer.length := by
    intro len
    unfold RawBuffer.retrieve
    split <;> rfl
  cases op with
  | append data => exact happend data hfit hrun
  | appendString text => exact happend text hfit hrun
  | appendCString text => exact happend (cString text) hfit hrun
  | ensureWriteableBytes len =>
      have hfit' : b.writeIndex + len < 2 ^ 64 := hfit
      rw [run, (Buffer.raw_ensureWriteableBytes h hfit').1, Option.map_some,
        Option.some.injEq] at hrun
      rw [← (Prod.mk.inj hrun).2]
      exact Buffer.length_ensureWriteableBytes_le len b
  | retrieve len =>
      rw [run, Option.some.injEq] at hrun
      rw [← (Prod.mk.inj hrun).2, hretrieve]
      exact le_max_left _ _
  | retrieveUntil stop =>
      rw [run, Option.some.injEq] at hrun
      rw [← (Prod.mk.inj hrun).2, hretrieve]
      exact le_max_left _ _
  | retrieveAll =>
      rw [run, Option.some.injEq] at hrun
      rw [← (Prod.mk.inj hrun).2]
      exact le_max_left _ _
  | retrieveAsString len =>
      have hle : len ≤ b.readableBytes := by
        rw [← Buffer.raw_readableBytes h]
        exact hallowed
      rw [run, RawBuffer.retrieveAsString] at hrun
      split at hrun
      · rw [Option.some.injEq] at hrun
        rw [← (Prod.mk.inj hrun).2, hretrieve]
        exact le_max_left _ _
      · exact absurd hrun (by simp)
  | retrieveAllAsString =>
      rw [run, RawBuffer.retrieveAllAsString, RawBuffer.retrieveAsString] at hrun
      split at hrun
      · rw [Option.some.injEq] at hrun
        rw [← (Prod.mk.inj hrun).2, hretrieve]
        exact le_max_left _ _
      · exact absurd hrun (by simp)
  | readFd data =>
      cases data with
      | none =>
          rw [run, RawBuffer.readFd, Option.map_some, Option.some.injEq] at hrun
          rw [← (Prod.mk.inj hrun).2]
          exact le_max_left _ _
      | some data =>
          rw [run, (Buffer.raw_readFd h hfit).1, Option.map_some, Option.some.injEq] at hrun
          rw [← (Prod.mk.inj hrun).2]
          exact Buffer.length_readFd_le data b

/-! ## Runs -/

namespace BufferRun

variable {s t : BufferRun} {op : BufferOp} {initialSize peak : ℕ}

/-- With what an operation wants room for, there are at most `peak` bytes in the buffer. -/
def Within (peak : ℕ) (s : BufferRun) (op : BufferOp) : Prop :=
  s.queue.contents.length + op.wanted ≤ peak

instance (peak : ℕ) (s : BufferRun) (op : BufferOp) : Decidable (Within peak s op) :=
  inferInstanceAs (Decidable (_ ≤ _))

/-- The size that the vector of such a buffer may have. -/
def sizeBound (initialSize peak : ℕ) : ℕ := max (kCheapPrepend + initialSize) (Buffer.sizeFor peak)

/-- The buffer is the queue of bytes, every operation has a result, and the vector is within its
bound. -/
structure Bounded (initialSize peak : ℕ) (s : BufferRun) : Prop where
  refines : s.Refines
  responds : ∀ op : BufferOp, op.Allowed s.buffer → Within peak s op → (s.step op).isSome
  size : s.buffer.buffer.length ≤ sizeBound initialSize peak

/-- What every step keeps. -/
structure FollowsWithin (initialSize peak : ℕ) (s : BufferRun) : Prop where
  follows : s.Follows
  size : s.buffer.buffer.length ≤ sizeBound initialSize peak

/-- No size wraps in an operation that stays within the peak. -/
lemma FollowsWithin.fits (h : s.FollowsWithin initialSize peak) (hinitial : initialSize ≤ 2 ^ 62)
    (hpeak : peak ≤ 2 ^ 62) (hop : Within peak s op) : op.Fits s.buffer := by
  have hwrite := h.follows.refines.write_le_size
  have hsize := h.size
  unfold Within at hop
  unfold BufferOp.Fits
  unfold sizeBound Buffer.sizeFor kCheapPrepend at hsize
  omega

/-- A run that stays within its peak is bounded by it. -/
lemma FollowsWithin.bounded (h : s.FollowsWithin initialSize peak) (hinitial : initialSize ≤ 2 ^ 62)
    (hpeak : peak ≤ 2 ^ 62) : s.Bounded initialSize peak where
  refines := h.follows.refines
  responds := fun op hallowed hop => h.follows.responds op hallowed (h.fits hinitial hpeak hop)
  size := h.size

/-- An operation within the peak keeps the run within it. -/
lemma FollowsWithin.step (h : s.FollowsWithin initialSize peak) (hinitial : initialSize ≤ 2 ^ 62)
    (hpeak : peak ≤ 2 ^ 62) (hst : Step s op t) (hop : Within peak s op) :
    t.FollowsWithin initialSize peak := by
  have hfit := h.fits hinitial hpeak hop
  refine ⟨(h.follows.step hst hfit).1, ?_⟩
  obtain ⟨b, hb, hsized, hq, -⟩ := h.follows
  have hsize := h.size
  have hcontents : s.queue.contents.length = b.readableBytes := by
    rw [← hq, b.length_readable]
    rfl
  unfold Within at hop
  unfold Step BufferRun.step at hst
  split at hst
  · rename_i hallowed
    obtain ⟨⟨str, r⟩, hrun, rfl⟩ := Option.map_eq_some_iff.mp hst
    rw [hb] at hallowed hfit hrun hsize
    have hone := BufferOp.length_run_le hsized hallowed hfit hrun
    have hgrown : Buffer.sizeFor (b.readableBytes + op.wanted) ≤ Buffer.sizeFor peak := by
      unfold Buffer.sizeFor
      omega
    exact hone.trans (max_le hsize (hgrown.trans (le_max_right _ _)))
  · exact absurd hst nofun

/-- A new buffer is within any peak. -/
lemma followsWithin_start (hinitial : initialSize ≤ 2 ^ 62) :
    (start initialSize).FollowsWithin initialSize peak := by
  have hsum : kCheapPrepend + initialSize < 2 ^ 64 := by
    unfold kCheapPrepend
    omega
  refine ⟨follows_start hsum, ?_⟩
  show (List.replicate (sizeT (kCheapPrepend + initialSize)) 0).length ≤ _
  rw [List.length_replicate, sizeT_add hsum]
  exact le_max_left _ _

/-- **A buffer is as large as its contents need.** Over every run in which what is in the buffer,
with what an operation wants room for, is at most `peak`: the vector has at most twice as many
bytes, beside the prepend area and its initial size, no size wraps, and the buffer is the queue of
bytes. -/
theorem bounded_throughout (hinitial : initialSize ≤ 2 ^ 62) (hpeak : peak ≤ 2 ^ 62)
    {p : List (BufferOp × BufferRun)} (hp : Path Step (start initialSize) p)
    (hwithin : MeetsAll (Within peak) (start initialSize) p) :
    Throughout (Bounded initialSize peak) (start initialSize) p := by
  have hkeep : ∀ (s : BufferRun) (op : BufferOp) (t : BufferRun),
      s.FollowsWithin initialSize peak → Step s op t → Within peak s op →
      t.FollowsWithin initialSize peak :=
    fun _ _ _ h hst hop => h.step hinitial hpeak hst hop
  apply (hp.throughout_of_meetsAll hkeep hwithin (followsWithin_start hinitial)).mono
  exact fun s h => h.bounded hinitial hpeak

/-- Twelve bytes go through a buffer that never holds more than five. -/
theorem bounded_throughout_five :
    Throughout (Bounded 2 5) (start 2)
      (trace step (start 2)
        [.append [1, 2, 3], .retrieve 2, .append [4, 5, 6], .readFd (some [7]), .retrieveAsString 3,
          .append [8, 9, 10], .retrieveAllAsString, .appendString [11, 12]]) :=
  bounded_throughout (by norm_num) (by norm_num) (path_trace step _ _) (by decide)

end BufferRun

end SwiftNetCore
