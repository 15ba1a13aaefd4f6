import Mathlib

/-!
# Ordered sets

A finite set kept as the list of its elements in increasing order, as `std::set` and its like are
walked. The order is part of the type, so the first element is the least one (`first?_eq_some_iff`)
and the elements before a bound are those below it (`mem_before`).

Operations: `insert`, `erase`, `first?`, and the two parts that `lower_bound x` makes of a set,
`before x` and `startingAt x`. Each has a membership lemma; the proofs about a program use no
others.
-/

/-- A finite set, as the list of its elements in increasing order. -/
structure OrdSet (α : Type*) [LinearOrder α] where
  toList : List α
  sorted : toList.Pairwise (· < ·)

namespace OrdSet

variable {α : Type*} [LinearOrder α] {s : OrdSet α} {x y : α}

instance : Membership α (OrdSet α) := ⟨fun s x => x ∈ s.toList⟩

/-- The elements of a set are those of its list. -/
lemma mem_def : x ∈ s ↔ x ∈ s.toList := Iff.rfl

instance (x : α) (s : OrdSet α) : Decidable (x ∈ s) :=
  inferInstanceAs (Decidable (x ∈ s.toList))

/-- The empty set. -/
def empty : OrdSet α := ⟨[], .nil⟩

/-- The empty set has no element. -/
@[simp] lemma not_mem_empty : x ∉ (empty : OrdSet α) := List.not_mem_nil

/-! ## Inserting and erasing -/

/-- Put an element in its place, unless it is there. -/
def insertList (x : α) : List α → List α
  | [] => [x]
  | y :: l => if x < y then x :: y :: l else if x = y then y :: l else y :: insertList x l

/-- A list into which `x` is put has `x` and what it had. -/
lemma mem_insertList {l : List α} : y ∈ insertList x l ↔ y = x ∨ y ∈ l := by
  induction l with
  | nil => simp [insertList]
  | cons z l ih =>
      unfold insertList
      split
      · simp
      · split
        · rename_i heq
          simp [heq]
        · simp only [List.mem_cons, ih]
          tauto

/-- A sorted list stays sorted when an element is put in its place. -/
lemma pairwise_insertList {l : List α} (h : l.Pairwise (· < ·)) :
    (insertList x l).Pairwise (· < ·) := by
  induction l with
  | nil => exact List.pairwise_singleton _ _
  | cons z l ih =>
      obtain ⟨hz, hl⟩ := List.pairwise_cons.mp h
      unfold insertList
      split
      · rename_i hlt
        refine List.pairwise_cons.mpr ⟨?_, h⟩
        intro y hy
        rcases List.mem_cons.mp hy with rfl | hy
        · exact hlt
        · exact hlt.trans (hz y hy)
      · split
        · exact h
        · rename_i hlt hne
          refine List.pairwise_cons.mpr ⟨?_, ih hl⟩
          intro y hy
          rcases mem_insertList.mp hy with rfl | hy
          · exact lt_of_le_of_ne (not_lt.mp hlt) (Ne.symm hne)
          · exact hz y hy

/-- The set with one element more. -/
def insert (x : α) (s : OrdSet α) : OrdSet α := ⟨insertList x s.toList, pairwise_insertList s.sorted⟩

/-- The set without an element. -/
def erase (x : α) (s : OrdSet α) : OrdSet α := ⟨s.toList.filter (· ≠ x), s.sorted.filter _⟩

/-- `insert x` adds `x` and takes nothing away. -/
@[simp] lemma mem_insert : y ∈ s.insert x ↔ y = x ∨ y ∈ s := mem_insertList

/-- `erase x` takes `x` away and nothing else. -/
@[simp] lemma mem_erase : y ∈ s.erase x ↔ y ∈ s ∧ y ≠ x := by
  simp [mem_def, erase]

/-! ## The first element -/

/-- The element at `begin()`. -/
def first? (s : OrdSet α) : Option α := s.toList.head?

/-- There is no first element exactly in the empty set. -/
lemma first?_eq_none_iff : s.first? = none ↔ ∀ x, x ∉ s := by
  rw [first?, List.head?_eq_none_iff, List.eq_nil_iff_forall_not_mem]
  rfl

/-- The first element is the least. -/
lemma first?_eq_some_iff : s.first? = some x ↔ x ∈ s ∧ ∀ y ∈ s, x ≤ y := by
  obtain ⟨l, hl⟩ := s
  cases l with
  | nil => simp [first?, mem_def]
  | cons z l =>
      have hz := (List.pairwise_cons.mp hl).1
      simp only [first?, List.head?_cons, Option.some.injEq, mem_def, List.mem_cons]
      constructor
      · rintro rfl
        refine ⟨Or.inl rfl, ?_⟩
        rintro y (rfl | hy)
        · exact le_rfl
        · exact (hz y hy).le
      · rintro ⟨hx, hleast⟩
        rcases hx with rfl | hx
        · rfl
        · exact absurd (hz x hx) (not_lt.mpr (hleast z (Or.inl rfl)))

/-! ## Below a bound and from it on -/

/-- The elements from `begin()` up to `lower_bound(x)`, in order. -/
def before (x : α) (s : OrdSet α) : List α := s.toList.takeWhile (· < x)

/-- The elements from `lower_bound(x)` on. -/
def startingAt (x : α) (s : OrdSet α) : OrdSet α where
  toList := s.toList.dropWhile (· < x)
  sorted := s.sorted.sublist (List.dropWhile_sublist _)

/-- Of a sorted list, the elements in front of the first one that is not below `x` are those below
`x`. -/
lemma mem_takeWhile_lt {l : List α} (h : l.Pairwise (· < ·)) :
    y ∈ l.takeWhile (· < x) ↔ y ∈ l ∧ y < x := by
  induction l with
  | nil => simp
  | cons z l ih =>
      obtain ⟨hz, hl⟩ := List.pairwise_cons.mp h
      by_cases hzx : z < x
      · rw [List.takeWhile_cons_of_pos (by simpa using hzx), List.mem_cons, ih hl, List.mem_cons]
        constructor
        · rintro (rfl | ⟨hy, hyx⟩)
          · exact ⟨Or.inl rfl, hzx⟩
          · exact ⟨Or.inr hy, hyx⟩
        · rintro ⟨rfl | hy, hyx⟩
          · exact Or.inl rfl
          · exact Or.inr ⟨hy, hyx⟩
      · rw [List.takeWhile_cons_of_neg (by simpa using hzx)]
        apply iff_of_false List.not_mem_nil
        rintro ⟨hy, hyx⟩
        rcases List.mem_cons.mp hy with rfl | hy
        · exact hzx hyx
        · exact hzx ((hz y hy).trans hyx)

/-- `before x` has the elements below `x`. -/
@[simp] lemma mem_before : y ∈ s.before x ↔ y ∈ s ∧ y < x := mem_takeWhile_lt s.sorted

/-- `startingAt x` has the elements from `x` on. -/
@[simp] lemma mem_startingAt : y ∈ s.startingAt x ↔ y ∈ s ∧ x ≤ y := by
  have hsplit : y ∈ s ↔ y ∈ s.before x ∨ y ∈ s.startingAt x := by
    have heq := List.takeWhile_append_dropWhile (p := fun z => decide (z < x)) (l := s.toList)
    rw [mem_def, ← heq, List.mem_append]
    rfl
  have hdisj : y ∈ s.startingAt x → x ≤ y := by
    have hall : (s.toList.takeWhile (· < x) ++ s.toList.dropWhile (· < x)).Pairwise (· < ·) := by
      rw [List.takeWhile_append_dropWhile]
      exact s.sorted
    intro hy
    by_contra hlt
    have hbefore : y ∈ s.before x := mem_before.mpr ⟨hsplit.mpr (Or.inr hy), not_le.mp hlt⟩
    exact lt_irrefl y ((List.pairwise_append.mp hall).2.2 y hbefore y hy)
  constructor
  · intro hy
    exact ⟨hsplit.mpr (Or.inr hy), hdisj hy⟩
  · rintro ⟨hy, hxy⟩
    exact (hsplit.mp hy).resolve_left fun hb => not_lt.mpr hxy (mem_before.mp hb).2

/-- The elements below a bound come in increasing order. -/
lemma pairwise_before (x : α) (s : OrdSet α) : (s.before x).Pairwise (· < ·) :=
  s.sorted.sublist (List.takeWhile_sublist _)

end OrdSet
