import Mathlib

/-!
# Blocks of memory cells

A block of memory is a list of cells, read and written at offsets from its start.

* `getElem?_concat_iff`, `getElem?_set_iff`: what the cells hold when one is added, or written.
* `window i n v`: the `n` cells from offset `i` on, as far as the block goes.
* `overwrite i l v`: a copy of `l` into the block from offset `i` on, cell after cell
  (`getElem?_overwrite` says what each cell holds afterwards). Windows inside and before the
  written part are `window_overwrite_self` and `window_overwrite_of_le`.
* `copyWithin src dst n v`: a copy inside one block, cell after cell from the front, or `none` when
  it leaves the block. Where the target lies before the source the overlap does no harm
  (`copyWithin_eq_overwrite`).
* `resize n v d`: the block cut or filled up with `d` to `n` cells.
-/

namespace Cells

variable {α : Type*} {i j n m src dst : ℕ} {l v : List α} {d : α}

/-- The `n` cells from offset `i` on, as far as the block goes. -/
def window (i n : ℕ) (v : List α) : List α := (v.drop i).take n

/-- Copy `l` into the block from offset `i` on, cell after cell. -/
def overwrite : ℕ → List α → List α → List α
  | _, [], v => v
  | i, x :: l, v => overwrite (i + 1) l (v.set i x)

/-- Copy `n` cells from offset `src` to offset `dst` of the same block, cell after cell from the
front. `none` when a cell is read or written outside of the block. -/
def copyWithin : ℕ → ℕ → ℕ → List α → Option (List α)
  | _, _, 0, v => some v
  | src, dst, n + 1, v =>
    match v[src]? with
    | some x => if dst < v.length then copyWithin (src + 1) (dst + 1) n (v.set dst x) else none
    | none => none

/-- The block cut to `n` cells, or filled up to `n` cells with `d`. -/
def resize (n : ℕ) (v : List α) (d : α) : List α := v.take n ++ List.replicate (n - v.length) d

/-! ## One cell -/

/-- What the cells hold when one is added behind them. -/
lemma getElem?_concat_iff {x y : α} : (v ++ [x])[j]? = some y ↔
    v[j]? = some y ∨ j = v.length ∧ y = x := by
  rcases lt_trichotomy j v.length with hj | rfl | hj
  · simp [List.getElem?_append_left hj, hj.ne]
  · simp [eq_comm]
  · simp [hj.le, hj.ne', not_le.mpr hj]

/-- What the cells hold when one of them is written. -/
lemma getElem?_set_iff {x y z : α} (h : v[i]? = some z) : (v.set i x)[j]? = some y ↔
    j ≠ i ∧ v[j]? = some y ∨ j = i ∧ y = x := by
  have hlt : i < v.length := (List.getElem?_eq_some_iff.mp h).1
  by_cases hj : j = i
  · subst hj
    simp [List.getElem?_set_self hlt, eq_comm]
  · simp [List.getElem?_set_ne (Ne.symm hj), hj]

/-! ## Windows -/

/-- A window that lies inside the list has the length that is asked for. -/
lemma length_window (h : i + n ≤ v.length) : (window i n v).length = n := by
  simp only [window, List.length_take, List.length_drop]
  omega

/-- A window of no cells is empty. -/
@[simp] lemma window_zero (i : ℕ) (v : List α) : window i 0 v = [] := rfl

/-- The cells of a window are those of the list, from its first one on. -/
lemma getElem?_window (j : ℕ) :
    (window i n v)[j]? = if j < n then v[i + j]? else none := by
  simp [window, List.getElem?_take, List.getElem?_drop]

/-- Two neighbouring windows make one. -/
lemma window_append (i n m : ℕ) (v : List α) :
    window i n v ++ window (i + n) m v = window i (n + m) v := by
  rw [window, window, window, ← List.drop_drop, ← List.take_add]

/-- The beginning of a window is a shorter window. -/
lemma take_window (h : m ≤ n) : (window i n v).take m = window i m v := by
  simp [window, List.take_take, h]

/-! ## Overwriting -/

/-- Overwriting no cell changes nothing. -/
@[simp] lemma overwrite_nil (i : ℕ) (v : List α) : overwrite i [] v = v := rfl

/-- Overwriting cells does not change how many there are. -/
@[simp] lemma length_overwrite (i : ℕ) (l v : List α) : (overwrite i l v).length = v.length := by
  induction l generalizing i v with
  | nil => rfl
  | cons x l ih => simp [overwrite, ih]

/-- What a cell holds after a copy: the copied cell where one was written, else the old one. -/
lemma getElem?_overwrite (i : ℕ) (l v : List α) (j : ℕ) :
    (overwrite i l v)[j]? =
      if i ≤ j ∧ j < i + l.length ∧ j < v.length then l[j - i]? else v[j]? := by
  induction l generalizing i v with
  | nil =>
      rw [overwrite_nil, if_neg]
      simp only [List.length_nil]
      omega
  | cons x l ih =>
      rw [overwrite, ih, List.length_set, List.getElem?_set, List.length_cons]
      by_cases hj : j = i
      · subst hj
        by_cases hlt : j < v.length <;> simp [hlt]
      · by_cases hin : i + 1 ≤ j ∧ j < i + 1 + l.length ∧ j < v.length
        · rw [if_pos hin, if_pos (by omega), show j - i = j - (i + 1) + 1 by omega,
            List.getElem?_cons_succ]
        · rw [if_neg hin, if_neg (fun h => hj h.symm), if_neg (by omega)]

/-- A copy that fits is read back. -/
lemma window_overwrite_self (h : i + l.length ≤ v.length) :
    window i l.length (overwrite i l v) = l := by
  apply List.ext_getElem?
  intro j
  rw [getElem?_window]
  by_cases hj : j < l.length
  · rw [if_pos hj, getElem?_overwrite, if_pos (by omega), Nat.add_sub_cancel_left]
  · rw [if_neg hj, List.getElem?_eq_none (by omega)]

/-- A copy leaves alone what lies before it. -/
lemma window_overwrite_of_le (h : j + n ≤ i) : window j n (overwrite i l v) = window j n v := by
  apply List.ext_getElem?
  intro k
  rw [getElem?_window, getElem?_window]
  by_cases hk : k < n
  · rw [if_pos hk, if_pos hk, getElem?_overwrite, if_neg (by omega)]
  · rw [if_neg hk, if_neg hk]

/-- A copy right behind a window prolongs it. -/
lemma window_overwrite_append (h : i + n + l.length ≤ v.length) :
    window i (n + l.length) (overwrite (i + n) l v) = window i n v ++ l := by
  rw [← window_append, window_overwrite_of_le le_rfl, window_overwrite_self h]

/-! ## Copies inside one block -/

/-- A copy towards the front of the block moves the cells unchanged, also where the source and
the target overlap: a cell is read before the copy gets to write it. -/
lemma copyWithin_eq_overwrite (hle : dst ≤ src) (h : src + n ≤ v.length) :
    copyWithin src dst n v = some (overwrite dst (window src n v) v) := by
  induction n generalizing src dst v with
  | zero => rfl
  | succ n ih =>
      have hsrc : src < v.length := by omega
      have hread : v[src]? = some v[src] := List.getElem?_eq_getElem hsrc
      have hw : window src (n + 1) v = v[src] :: window (src + 1) n v := by
        rw [window, window, List.drop_eq_getElem_cons hsrc, List.take_succ_cons]
      have hset : window (src + 1) n (v.set dst v[src]) = window (src + 1) n v := by
        rw [window, window, List.drop_set_of_lt (by omega)]
      simp only [copyWithin, hread]
      rw [if_pos (by omega), ih (by omega) (by rw [List.length_set]; omega), hset, hw, overwrite]

/-! ## Resizing -/

/-- A resized list has the length that is asked for. -/
@[simp] lemma length_resize (n : ℕ) (v : List α) (d : α) : (resize n v d).length = n := by
  simp only [resize, List.length_append, List.length_take, List.length_replicate]
  omega

/-- Making a block larger keeps what it holds. -/
lemma window_resize (h : i + m ≤ v.length) (hn : v.length ≤ n) :
    window i m (resize n v d) = window i m v := by
  rw [resize, List.take_of_length_le hn, window, window, List.drop_append_of_le_length (by omega),
    List.take_append_of_le_length (by rw [List.length_drop]; omega)]

end Cells
