import Mathlib

/-!
# Lists cut at a two-element delimiter

Text protocols end their lines with a pair of bytes. For an arbitrary pair `a b` of different
elements:

* `search a b l` is the offset of the first `a b` in `l`; `PairFree a b l` says there is none.
* A list is pair-free or splits, in one way only, into a pair-free line, the delimiter and the
  rest (`pairFree_or_split`, `split_unique`, `search_eq_some_iff`).
* A cut before the end of the first delimiter leaves a pair-free prefix (`pairFree_of_append_eq`).
* `segments a b l` are the pieces between the delimiters of `l` (`segments_spec`).
* `unlines a b ls` is the text of the lines `ls`, and `lineAt ls i` the line that an offset of it
  falls into. A text that goes on as lines with a property and then a line without it determines
  all of them (`unlines_unique`), and every text starts with such lines and then has no complete
  line or one without the property (`exists_unlines`).
-/

namespace Delimited

variable {α : Type*} {a b : α}

/-! ## The text of a list of lines -/

/-- The text of the lines `ls`: each followed by the delimiter. -/
def unlines (a b : α) (ls : List (List α)) : List α := ls.flatMap (· ++ [a, b])

/-- No lines make the empty text. -/
@[simp] lemma unlines_nil : unlines a b [] = [] := rfl

/-- The text of some lines is the first line, the delimiter and the text of the others. -/
@[simp] lemma unlines_cons (l : List α) (ls : List (List α)) :
    unlines a b (l :: ls) = l ++ a :: b :: unlines a b ls := by
  simp [unlines]

/-- The text of two lists of lines is the text of the first, and behind it that of the second. -/
@[simp] lemma unlines_append (ls ms : List (List α)) :
    unlines a b (ls ++ ms) = unlines a b ls ++ unlines a b ms := by
  simp [unlines]

/-- A line adds its own length and that of the delimiter. -/
lemma length_unlines_cons (l : List α) (ls : List (List α)) :
    (unlines a b (l :: ls)).length = l.length + 2 + (unlines a b ls).length := by
  simp only [unlines_cons, List.length_append, List.length_cons]
  omega

/-- The line that the offset `i` of the text of `ls` falls into; the delimiter belongs to the
line that it ends. -/
def lineAt : List (List α) → ℕ → Option (List α)
  | [], _ => none
  | l :: ls, i => if i < l.length + 2 then some l else lineAt ls (i - (l.length + 2))

/-- An offset falls into a line when it is not before its start and before its end. -/
lemma lineAt_eq_some_iff {ls : List (List α)} {l : List α} {i : ℕ} :
    lineAt ls i = some l ↔
      ∃ ms ns, ls = ms ++ l :: ns ∧ (unlines a b ms).length ≤ i ∧
        i < (unlines a b ms).length + (l.length + 2) := by
  induction ls generalizing i with
  | nil => simp [lineAt]
  | cons l' ls ih =>
      rw [lineAt]
      split_ifs with hi
      · constructor
        · intro h
          obtain rfl := Option.some.inj h
          exact ⟨[], ls, rfl, by simp, by simpa using hi⟩
        · rintro ⟨_ | ⟨m, ms⟩, ns, heq, hle, -⟩
          · exact congrArg some (List.cons.inj heq).1
          · obtain ⟨rfl, -⟩ := List.cons.inj heq
            rw [length_unlines_cons] at hle
            omega
      · rw [ih]
        constructor
        · rintro ⟨ms, ns, rfl, hle, hlt⟩
          refine ⟨l' :: ms, ns, rfl, ?_, ?_⟩ <;> rw [length_unlines_cons] <;> omega
        · rintro ⟨_ | ⟨m, ms⟩, ns, heq, hle, hlt⟩
          · obtain ⟨rfl, -⟩ := List.cons.inj heq
            simp only [unlines_nil, List.length_nil] at hlt
            omega
          · obtain ⟨rfl, rfl⟩ := List.cons.inj heq
            rw [length_unlines_cons] at hle hlt
            exact ⟨ms, ns, rfl, by omega, by omega⟩

/-- Every offset before the end of the text falls into a line. -/
lemma exists_lineAt {ls : List (List α)} {i : ℕ} (h : i < (unlines a b ls).length) :
    ∃ l, lineAt ls i = some l := by
  induction ls generalizing i with
  | nil => simp at h
  | cons l ls ih =>
      rw [lineAt]
      split_ifs with hi
      · exact ⟨l, rfl⟩
      · rw [length_unlines_cons] at h
        exact ih (by omega)

/-- Behind some lines, offsets count from their end. -/
lemma lineAt_append {ms ls : List (List α)} {i : ℕ} (h : (unlines a b ms).length ≤ i) :
    lineAt (ms ++ ls) i = lineAt ls (i - (unlines a b ms).length) := by
  induction ms generalizing i with
  | nil => simp
  | cons m ms ih =>
      rw [length_unlines_cons] at h ⊢
      rw [List.cons_append, lineAt, if_neg (by omega), ih (by omega)]
      congr 1
      omega

/-- Of two cuts of one list, the longer beginning has the shorter in front, and the shorter rest
lies behind. -/
lemma exists_between {x y u v : List α} (h : x ++ y = u ++ v) (hle : u.length ≤ x.length) :
    ∃ w, x = u ++ w ∧ v = w ++ y := by
  obtain ⟨w, rfl⟩ : u <+: x :=
    List.prefix_of_prefix_length_le (h ▸ List.prefix_append u v) (List.prefix_append x y) hle
  exact ⟨w, rfl, by simpa [eq_comm] using h⟩

variable [DecidableEq α]

/-! ## The first delimiter -/

/-- The offset of the first `a` directly followed by `b`. -/
def search (a b : α) : List α → Option ℕ
  | x :: y :: l => if x = a ∧ y = b then some 0 else (search a b (y :: l)).map (· + 1)
  | _ => none

/-- The list has no `a` directly followed by `b`. -/
def PairFree (a b : α) (l : List α) : Prop := search a b l = none

instance (l : List α) : Decidable (PairFree a b l) := inferInstanceAs (Decidable (_ = none))

/-- The empty list has no delimiter inside. -/
@[simp] lemma pairFree_nil : PairFree a b [] := rfl

/-- A list of one element has no delimiter inside. -/
@[simp] lemma pairFree_singleton (x : α) : PairFree a b [x] := rfl

/-- A list has no delimiter inside when it does not begin with one and its tail has none. -/
lemma pairFree_cons_cons {x y : α} {l : List α} :
    PairFree a b (x :: y :: l) ↔ ¬ (x = a ∧ y = b) ∧ PairFree a b (y :: l) := by
  by_cases h : x = a ∧ y = b <;> simp [PairFree, search, h]

/-- Pair-free means that the pair is no infix. -/
lemma pairFree_iff_not_isInfix {l : List α} : PairFree a b l ↔ ¬ [a, b] <:+: l := by
  induction l with
  | nil => simp
  | cons x l ih =>
      rcases l with _ | ⟨y, l⟩
      · simp [List.infix_cons_iff, List.prefix_cons_iff]
      · rw [pairFree_cons_cons, ih, @List.infix_cons_iff _ _ _ (y :: l)]
        simp only [List.cons_prefix_cons, List.nil_prefix, and_true, not_or]
        tauto

/-- A part of a pair-free list is pair-free. -/
lemma PairFree.of_isInfix {l l' : List α} (h : PairFree a b l) (hl : l' <:+: l) :
    PairFree a b l' :=
  pairFree_iff_not_isInfix.mpr fun h' => pairFree_iff_not_isInfix.mp h (h'.trans hl)

/-- Elements other than `a` in front of a pair-free list leave it so. -/
lemma PairFree.append_left {l m : List α} (hm : a ∉ m) (h : PairFree a b l) :
    PairFree a b (m ++ l) := by
  induction m with
  | nil => exact h
  | cons x m ih =>
      obtain ⟨hx, hm⟩ := not_or.mp fun h => hm (List.mem_cons.mpr h)
      rcases hml : m ++ l with _ | ⟨y, t⟩
      · simp [hml]
      · rw [List.cons_append, hml]
        exact pairFree_cons_cons.mpr ⟨fun h' => hx h'.1.symm, hml ▸ ih hm⟩

/-- A list without the first element of the delimiter is pair-free. -/
lemma pairFree_of_notMem {l : List α} (h : a ∉ l) : PairFree a b l := by
  simpa using PairFree.append_left h pairFree_nil

/-- Two pair-free lists are pair-free together where the second one does not start with `b`. -/
lemma PairFree.append_cons {l m : List α} {x : α} (hl : PairFree a b l) (hx : x ≠ b)
    (hm : PairFree a b (x :: m)) : PairFree a b (l ++ x :: m) := by
  induction l with
  | nil => exact hm
  | cons y l ih =>
      rcases l with _ | ⟨z, l⟩
      · exact pairFree_cons_cons.mpr ⟨fun h => hx h.2, hm⟩
      · obtain ⟨hyz, hl⟩ := pairFree_cons_cons.mp hl
        exact pairFree_cons_cons.mpr ⟨hyz, ih hl⟩

/-- What is found lies inside the list. -/
lemma add_two_le_of_search {l : List α} {i : ℕ} (h : search a b l = some i) :
    i + 2 ≤ l.length := by
  induction l generalizing i with
  | nil => simp [search] at h
  | cons x l ih =>
      rcases l with _ | ⟨y, l⟩
      · simp [search] at h
      · simp only [search] at h
        split at h
        · obtain rfl : 0 = i := by simpa using h
          simp
        · obtain ⟨j, hj, rfl⟩ := Option.map_eq_some_iff.mp h
          have := ih hj
          simp only [List.length_cons] at this ⊢
          omega

section distinct

variable (hab : a ≠ b)

include hab

/-- The line before the delimiter, followed by it, is found with its own length. -/
lemma search_line {line rest : List α} (h : PairFree a b line) :
    search a b (line ++ a :: b :: rest) = some line.length := by
  induction line with
  | nil => simp [search]
  | cons x line ih =>
      rcases line with _ | ⟨y, line⟩
      · have : ¬ (x = a ∧ a = b) := fun h => hab h.2
        simp [search, this]
      · rw [pairFree_cons_cons] at h
        have := ih h.2
        simp only [List.cons_append] at this ⊢
        rw [search, if_neg h.1, this]
        rfl

/-- The offset that is found cuts the list into a pair-free line, the delimiter and the rest. -/
lemma search_eq_some_iff {l : List α} {i : ℕ} :
    search a b l = some i ↔
      ∃ line rest, l = line ++ a :: b :: rest ∧ PairFree a b line ∧ line.length = i := by
  constructor
  · intro h
    induction l generalizing i with
    | nil => simp [search] at h
    | cons x l ih =>
        rcases l with _ | ⟨y, l⟩
        · simp [search] at h
        · simp only [search] at h
          by_cases hxy : x = a ∧ y = b
          · obtain ⟨rfl, rfl⟩ := hxy
            simp only [and_self, if_true, Option.some.injEq] at h
            exact ⟨[], l, rfl, pairFree_nil, by simpa using h⟩
          · simp only [hxy, if_false, Option.map_eq_some_iff] at h
            obtain ⟨j, hj, rfl⟩ := h
            obtain ⟨line, rest, heq, hfree, hlen⟩ := ih hj
            refine ⟨x :: line, rest, by rw [heq]; rfl, ?_, by simp [hlen]⟩
            rcases line with _ | ⟨z, line⟩
            · exact pairFree_singleton x
            · obtain ⟨rfl, -⟩ := List.cons.inj heq
              exact pairFree_cons_cons.mpr ⟨hxy, hfree⟩
  · rintro ⟨line, rest, rfl, hfree, rfl⟩
    exact search_line hab hfree

/-- A list is pair-free, or it splits at its first delimiter. -/
lemma pairFree_or_split (l : List α) :
    PairFree a b l ∨ ∃ line rest, l = line ++ a :: b :: rest ∧ PairFree a b line := by
  rcases h : search a b l with _ | i
  · exact .inl h
  · obtain ⟨line, rest, heq, hfree, -⟩ := (search_eq_some_iff hab).mp h
    exact .inr ⟨line, rest, heq, hfree⟩

/-- The split at the first delimiter is unique. -/
lemma split_unique {line line' rest rest' : List α} (h : PairFree a b line)
    (h' : PairFree a b line') (heq : line ++ a :: b :: rest = line' ++ a :: b :: rest') :
    line = line' ∧ rest = rest' := by
  have hlen : line.length = line'.length := by
    have h₁ : search a b (line ++ a :: b :: rest) = some line.length := search_line hab h
    rw [heq, search_line hab h'] at h₁
    exact (Option.some.inj h₁).symm
  obtain ⟨h₁, h₂⟩ := List.append_inj heq hlen
  exact ⟨h₁, by simpa using h₂⟩

omit hab in
/-- A list with a delimiter is not pair-free. -/
lemma not_pairFree_split {line rest : List α} : ¬ PairFree a b (line ++ a :: b :: rest) := by
  rw [pairFree_iff_not_isInfix, not_not]
  exact ⟨line, rest, by simp⟩

/-- A pair-free line stays pair-free with the delimiter's first half behind it. -/
lemma PairFree.append_half {line : List α} (h : PairFree a b line) : PairFree a b (line ++ [a]) := by
  rcases pairFree_or_split hab (line ++ [a]) with hfree | ⟨line', rest, heq, hfree⟩
  · exact hfree
  · -- the delimiter that would be found ends with `a`, or lies inside `line`
    exfalso
    rcases List.eq_nil_or_concat rest with rfl | ⟨rest', z, rfl⟩
    · have := (List.append_inj' (show line ++ [a] = (line' ++ [a]) ++ [b] by simp [heq]) rfl).2
      exact hab (by simpa using this)
    · have := (List.append_inj' (show line ++ [a] = (line' ++ a :: b :: rest') ++ [z] by
        simp [heq]) rfl).1
      exact not_pairFree_split (this ▸ h)

/-- A cut before the end of the first delimiter leaves a pair-free prefix. -/
lemma pairFree_of_append_eq {pre post line rest : List α} (h : PairFree a b line)
    (heq : pre ++ post = line ++ a :: b :: rest) (hlt : pre.length < line.length + 2) :
    PairFree a b pre := by
  have hpre : pre <+: line ++ [a] := by
    have h₁ : pre <+: line ++ a :: b :: rest := heq ▸ List.prefix_append pre post
    have h₂ : line ++ [a] <+: line ++ a :: b :: rest := ⟨b :: rest, by simp⟩
    apply List.prefix_of_prefix_length_le h₁ h₂
    simp only [List.length_append, List.length_singleton]
    omega
  exact (h.append_half hab).of_isInfix hpre.isInfix

end distinct

/-! ## All pieces between delimiters -/

/-- The pieces of a list between its delimiters, from the left. -/
def segments (a b : α) : List α → List (List α)
  | x :: y :: l =>
    if x = a ∧ y = b then [] :: segments a b l else (segments a b (y :: l)).modifyHead (x :: ·)
  | l => [l]

/-- There is a first piece, which the list starts with; no piece has a delimiter inside, and the
pieces, each ended by a delimiter, make up the list and one more delimiter. -/
lemma segments_spec (l : List α) :
    ∃ m ms, segments a b l = m :: ms ∧ m <+: l ∧ (∀ n ∈ m :: ms, PairFree a b n) ∧
      unlines a b (m :: ms) = l ++ [a, b] := by
  fun_induction segments a b l with
  | case1 x y l h ih =>
      obtain ⟨rfl, rfl⟩ := h
      obtain ⟨m, ms, heq, -, hfree, htext⟩ := ih
      refine ⟨[], m :: ms, by rw [heq], List.nil_prefix, ?_, ?_⟩
      · exact List.forall_mem_cons.mpr ⟨pairFree_nil, hfree⟩
      · rw [unlines_cons, htext]
        simp
  | case2 x y l h ih =>
      obtain ⟨m, ms, heq, hm, hfree, htext⟩ := ih
      obtain ⟨hmfree, hms⟩ := List.forall_mem_cons.mp hfree
      refine ⟨x :: m, ms, by rw [heq]; rfl, List.cons_prefix_cons.mpr ⟨rfl, hm⟩, ?_, ?_⟩
      · refine List.forall_mem_cons.mpr ⟨?_, hms⟩
        rcases m with _ | ⟨z, m⟩
        · exact pairFree_singleton x
        · obtain ⟨rfl, -⟩ := List.cons_prefix_cons.mp hm
          exact pairFree_cons_cons.mpr ⟨h, hmfree⟩
      · rw [unlines_cons, List.cons_append, ← unlines_cons, htext]
        rfl
  | case3 l h =>
      refine ⟨l, [], ?_, List.prefix_rfl, ?_, by simp⟩
      · rcases l with _ | ⟨x, _ | ⟨y, l⟩⟩
        · rfl
        · rfl
        · exact absurd rfl (h x y l)
      · rcases l with _ | ⟨x, _ | ⟨y, l⟩⟩
        · simp
        · simp
        · exact absurd rfl (h x y l)

/-! ## Lines with a property, then a line without it -/

section distinct

variable (hab : a ≠ b) {p : List α → Prop}

include hab

/-- Lines with a property and then a line without it are determined by the text. -/
lemma unlines_unique {ls ls' : List (List α)} {e e' rest rest' : List α}
    (hls : ∀ l ∈ ls, PairFree a b l ∧ p l) (hls' : ∀ l ∈ ls', PairFree a b l ∧ p l)
    (he : PairFree a b e ∧ ¬ p e) (he' : PairFree a b e' ∧ ¬ p e')
    (heq : unlines a b ls ++ (e ++ a :: b :: rest) = unlines a b ls' ++ (e' ++ a :: b :: rest')) :
    ls = ls' ∧ e = e' ∧ rest = rest' := by
  induction ls generalizing ls' with
  | nil =>
      rcases ls' with _ | ⟨l', ls'⟩
      · obtain ⟨h₁, h₂⟩ := split_unique hab he.1 he'.1 (by simpa using heq)
        exact ⟨rfl, h₁, h₂⟩
      · obtain ⟨h₁, -⟩ := split_unique hab he.1 (hls' l' (by simp)).1 (by simpa using heq)
        exact absurd (h₁ ▸ (hls' l' (by simp)).2) he.2
  | cons l ls ih =>
      rcases ls' with _ | ⟨l', ls'⟩
      · obtain ⟨h₁, -⟩ := split_unique hab (hls l (by simp)).1 he'.1 (by simpa using heq)
        exact absurd (h₁ ▸ (hls l (by simp)).2) he'.2
      · obtain ⟨rfl, h₂⟩ := split_unique hab (hls l (by simp)).1 (hls' l' (by simp)).1
          (by simpa using heq)
        obtain ⟨rfl, h₃, h₄⟩ := ih (fun m hm => hls m (List.mem_cons_of_mem _ hm))
          (fun m hm => hls' m (List.mem_cons_of_mem _ hm)) (by simpa using h₂)
        exact ⟨rfl, h₃, h₄⟩

/-- Every text starts with lines that have the property; what follows has no complete line, or
starts with a line without the property. -/
lemma exists_unlines [DecidablePred p] (l : List α) :
    ∃ ls tail, l = unlines a b ls ++ tail ∧ (∀ m ∈ ls, PairFree a b m ∧ p m) ∧
      (PairFree a b tail ∨
        ∃ e rest, tail = e ++ a :: b :: rest ∧ PairFree a b e ∧ ¬ p e) := by
  induction hn : l.length using Nat.strong_induction_on generalizing l with
  | _ n ih =>
      subst hn
      rcases pairFree_or_split hab l with hfree | ⟨line, rest, rfl, hfree⟩
      · exact ⟨[], l, rfl, by simp, .inl hfree⟩
      · by_cases hp : p line
        · obtain ⟨ls, tail, hrest, hls, htail⟩ := ih rest.length (by simp; omega) rest rfl
          refine ⟨line :: ls, tail, by simp [← hrest], ?_, htail⟩
          intro m hm
          rcases List.mem_cons.mp hm with rfl | hm
          · exact ⟨hfree, hp⟩
          · exact hls m hm
        · exact ⟨[], _, rfl, by simp, .inr ⟨line, rest, rfl, hfree, hp⟩⟩

end distinct

end Delimited
