import SwiftNetCore.Lib.Path

/-!
# Infinite runs and what comes about in them

Whether something happens at all is a question about runs that go on for ever. Such a run gives the
state at each time and the label of the step behind it (`Endless`). What makes a system go on is not
in its steps: it is a premise about the run, of the form "at a later time this step is taken".

* `Endless.always`: an invariant holds at all times.
* `reaches_of_rank`: something comes about when a rank that does not grow meanwhile falls again and
  again; `reaches_of_grows`: a number that grows whenever it is below a bound gets there.
* `comes_of_kept`: what is kept until something comes about meets it.
* `Resting`: a system that may rest, so that a run that comes to an end goes on for ever, too.
* `endless_of_path`, `endless_of_round`: a finite run that goes on idle, or that comes round again,
  is such a run; what is awaited in it can be decided (`comes_of_path`, `comes_of_round`).
-/

namespace Fair

open Paths (Path)

variable {σ α : Type*}

/-- The states at all times and the labels of the steps between them form a run. -/
def Endless (step : σ → α → σ → Prop) (state : ℕ → σ) (label : ℕ → α) : Prop :=
  ∀ n, step (state n) (label n) (state (n + 1))

variable {step : σ → α → σ → Prop} {state : ℕ → σ} {label : ℕ → α} {I : σ → Prop}

/-- An invariant holds at all times, from the one on at which it holds first. -/
theorem Endless.always (h : Endless step state label) (hI : ∀ s a t, I s → step s a t → I t)
    {n : ℕ} (hn : I (state n)) : ∀ m, n ≤ m → I (state m) := by
  intro m hm
  induction m, hm using Nat.le_induction with
  | base => exact hn
  | succ m hm ih => exact hI _ _ _ ih (h m)

/-- What is kept until something comes about meets it, when there is a time at which it does. -/
theorem comes_of_kept {P Q : ℕ → Prop} {n : ℕ} (hn : P n)
    (hkeep : ∀ m, n ≤ m → P m → Q m ∨ P (m + 1)) (hcomes : ∃ m, n ≤ m ∧ (P m → Q m)) :
    ∃ m, n ≤ m ∧ P m ∧ Q m := by
  by_contra hnever
  have hall : ∀ m, n ≤ m → P m := by
    intro m hm
    induction m, hm using Nat.le_induction with
    | base => exact hn
    | succ m hm ih => exact (hkeep m hm ih).resolve_left fun hQ => hnever ⟨m, hm, ih, hQ⟩
  obtain ⟨m, hm, hQ⟩ := hcomes
  exact hnever ⟨m, hm, hall m hm, hQ (hall m hm)⟩

/-- **What a rank brings about.** If `Q` did not come about, a rank would never grow and fall again
and again: so `Q` comes about. -/
theorem reaches_of_rank {β : Type*} [Preorder β] [WellFoundedLT β] {Q : ℕ → Prop} {r : ℕ → β}
    {n : ℕ} (hkeep : (∀ m, n ≤ m → ¬ Q m) → ∀ m, n ≤ m → r (m + 1) ≤ r m)
    (hfalls : (∀ m, n ≤ m → ¬ Q m) → ∀ m, n ≤ m → ∃ k, m ≤ k ∧ r (k + 1) < r k) :
    ∃ m, n ≤ m ∧ Q m := by
  by_contra hnever
  have hnot : ∀ m, n ≤ m → ¬ Q m := fun m hm hQ => hnever ⟨m, hm, hQ⟩
  have hanti : ∀ m k, n ≤ m → m ≤ k → r k ≤ r m := by
    intro m k hm hk
    induction k, hk using Nat.le_induction with
    | base => exact le_rfl
    | succ k hk ih => exact (hkeep hnot k (hm.trans hk)).trans ih
  -- induction on the rank: it is `b` at no time
  have hno : ∀ b m, n ≤ m → r m ≠ b := by
    intro b
    induction b using WellFoundedLT.induction with
    | ind b ih =>
        rintro m hm rfl
        obtain ⟨k, hk, hlt⟩ := hfalls hnot m hm
        exact ih _ (hlt.trans_le (hanti m k hm hk)) (k + 1) (Nat.le_succ_of_le (hm.trans hk)) rfl
  exact hno _ n le_rfl rfl

/-- A number that grows whenever it is below a bound gets there. -/
theorem reaches_of_grows {f : ℕ → ℕ} {bound n : ℕ}
    (hgrows : ∀ m, n ≤ m → f m < bound → ∃ k, m ≤ k ∧ f m < f k) : ∃ m, n ≤ m ∧ bound ≤ f m := by
  by_contra hnever
  have hlt : ∀ m, n ≤ m → f m < bound := by
    intro m hm
    by_contra hle
    exact hnever ⟨m, hm, not_lt.mp hle⟩
  -- it would get as high as one likes
  have hhigh : ∀ r, ∃ m, n ≤ m ∧ r ≤ f m := by
    intro r
    induction r with
    | zero => exact ⟨n, le_rfl, Nat.zero_le _⟩
    | succ r ih =>
        obtain ⟨m, hm, hr⟩ := ih
        obtain ⟨k, hk, hfk⟩ := hgrows m hm (hlt m hm)
        exact ⟨k, hm.trans hk, by omega⟩
  obtain ⟨m, hm, hb⟩ := hhigh bound
  exact absurd (hlt m hm) (not_lt.mpr hb)

/-! ## A system that may rest -/

section rest

/-- The steps of a system that may rest instead. -/
def Resting (step : σ → α → σ → Prop) (s : σ) : Option α → σ → Prop
  | some a, t => step s a t
  | none, t => t = s

/-- What the steps keep is kept by a system that may rest. -/
lemma Resting.keeps (hI : ∀ s a t, I s → step s a t → I t) :
    ∀ s a t, I s → Resting step s a t → I t := by
  rintro s (_ | a) t hs hst
  · rwa [show t = s from hst]
  · exact hI s a t hs hst

/-- A run of a system is one of the system that may rest. -/
lemma path_resting {s : σ} {p : List (α × σ)} (hp : Path step s p) :
    Path (Resting step) s (p.map (Prod.map some id)) := by
  induction p generalizing s with
  | nil => trivial
  | cons x p ih => exact ⟨hp.1, ih hp.2⟩

end rest

/-! ## A finite run that goes on idle -/

section extend

variable {s : σ} {p : List (α × σ)} {idle : α}

/-- The states of a run, and the last one for ever. -/
def stateOf (s : σ) (p : List (α × σ)) (n : ℕ) : σ := Paths.last s (p.take n)

/-- The labels of a run, and `idle` for ever. -/
def labelOf (p : List (α × σ)) (idle : α) (n : ℕ) : α := (p[n]?.map Prod.fst).getD idle

/-- Behind the end of the run the state is the last one. -/
lemma stateOf_of_length_le {n : ℕ} (h : p.length ≤ n) : stateOf s p n = Paths.last s p := by
  rw [stateOf, List.take_of_length_le h]

/-- Behind the end of the run the label is `idle`. -/
lemma labelOf_of_length_le {n : ℕ} (h : p.length ≤ n) : labelOf p idle n = idle := by
  rw [labelOf, List.getElem?_eq_none h]
  rfl

/-- A run that ends where `idle` changes nothing goes on for ever. -/
theorem endless_of_path (hp : Path step s p) (hidle : step (Paths.last s p) idle (Paths.last s p)) :
    Endless step (stateOf s p) (labelOf p idle) := by
  intro n
  by_cases hn : n < p.length
  · have hsplit : p.take n ++ p[n] :: p.drop (n + 1) = p := by
      rw [← List.drop_eq_getElem_cons hn, List.take_append_drop]
    have hstep : step (Paths.last s (p.take n)) p[n].1 p[n].2 := by
      rw [← hsplit] at hp
      exact (Paths.path_append.mp hp).2.1
    have hnext : stateOf s p (n + 1) = p[n].2 := by
      rw [stateOf, List.take_succ_eq_append_getElem hn, Paths.last_append]
      rfl
    have hlabel : labelOf p idle n = p[n].1 := by
      rw [labelOf, List.getElem?_eq_getElem hn]
      rfl
    rw [hnext, hlabel]
    exact hstep
  · have hle : p.length ≤ n := not_lt.mp hn
    rw [stateOf_of_length_le hle, stateOf_of_length_le (Nat.le_succ_of_le hle),
      labelOf_of_length_le hle]
    exact hidle

/-- What is awaited comes about, when it does by the end of the run and `idle` brings what is
awaited there. -/
lemma comes_of_path {Q : σ → Prop} {R : σ → α → Prop}
    (hlast : Q (Paths.last s p) → R (Paths.last s p) idle)
    (hrun : ∀ n < p.length, Q (stateOf s p n) →
      ∃ m ≤ p.length, n ≤ m ∧ R (stateOf s p m) (labelOf p idle m)) :
    ∀ n, Q (stateOf s p n) → ∃ m, n ≤ m ∧ R (stateOf s p m) (labelOf p idle m) := by
  intro n hQ
  by_cases hn : n < p.length
  · obtain ⟨m, -, hm, hR⟩ := hrun n hn hQ
    exact ⟨m, hm, hR⟩
  · have hle := not_lt.mp hn
    refine ⟨n, le_rfl, ?_⟩
    rw [stateOf_of_length_le hle] at hQ ⊢
    rw [labelOf_of_length_le hle]
    exact hlast hQ

/-- What is so at all times of the run, and at its end, is always so. -/
lemma forall_of_path {R : σ → α → Prop} (hlast : R (Paths.last s p) idle)
    (hrun : ∀ n < p.length, R (stateOf s p n) (labelOf p idle n)) (n : ℕ) :
    R (stateOf s p n) (labelOf p idle n) := by
  by_cases hn : n < p.length
  · exact hrun n hn
  · rw [stateOf_of_length_le (not_lt.mp hn), labelOf_of_length_le (not_lt.mp hn)]
    exact hlast

end extend

/-! ## A finite run that comes round again -/

section round

variable {s : σ} {p c : List (α × σ)} {default : α}

/-- Where a run along `p`, and then along `c` again and again, is at time `n`: a place in
`p ++ c`. -/
def place (p c : List (α × σ)) (n : ℕ) : ℕ :=
  if n < p.length then n else p.length + (n - p.length) % c.length

/-- The states of such a run, -/
def roundState (s : σ) (p c : List (α × σ)) (n : ℕ) : σ :=
  Paths.last s ((p ++ c).take (place p c n))

/-- and its labels. -/
def roundLabel (p c : List (α × σ)) (default : α) (n : ℕ) : α :=
  ((p ++ c)[place p c n]?.map Prod.fst).getD default

/-- A place is one of the two parts of the run. -/
lemma place_lt (hc : c ≠ []) (n : ℕ) : place p c n < (p ++ c).length := by
  have hpos := List.length_pos_iff.mpr hc
  rw [List.length_append]
  unfold place
  split_ifs
  · omega
  · have hmod := Nat.mod_lt (n - p.length) hpos
    omega

/-- Behind a place comes the next one, or the first one of `c` behind the last. -/
lemma place_succ (hc : c ≠ []) (n : ℕ) :
    place p c (n + 1) = place p c n + 1 ∨
      place p c n + 1 = (p ++ c).length ∧ place p c (n + 1) = p.length := by
  have hpos := List.length_pos_iff.mpr hc
  rw [List.length_append]
  unfold place
  rcases lt_trichotomy (n + 1) p.length with hlt | heq | hgt
  · left
    rw [if_pos hlt, if_pos (Nat.lt_of_succ_lt hlt)]
  · left
    rw [if_neg (by omega), if_pos (by omega), heq, Nat.sub_self, Nat.zero_mod, Nat.add_zero]
  · have hmod := Nat.mod_lt (n - p.length) hpos
    rw [if_neg (by omega), if_neg (by omega), show n + 1 - p.length = n - p.length + 1 by omega,
      ← Nat.mod_add_mod]
    rcases Nat.lt_or_eq_of_le (Nat.succ_le_of_lt hmod) with hlt | heq
    · left
      rw [Nat.mod_eq_of_lt hlt]
      rfl
    · right
      have hround : ((n - p.length) % c.length + 1) % c.length = 0 := by
        rw [show (n - p.length) % c.length + 1 = c.length from heq, Nat.mod_self]
      rw [hround]
      omega

/-- A run that ends where its second part begins goes on for ever. -/
theorem endless_of_round (hc : c ≠ []) (hp : Path step s (p ++ c))
    (hlast : Paths.last s (p ++ c) = Paths.last s p) :
    Endless step (roundState s p c) (roundLabel p c default) := by
  intro n
  have hn := place_lt (p := p) hc n
  have hsplit : (p ++ c).take (place p c n) ++
      (p ++ c)[place p c n] :: (p ++ c).drop (place p c n + 1) = p ++ c := by
    rw [← List.drop_eq_getElem_cons hn, List.take_append_drop]
  have hstep : step (roundState s p c n) (p ++ c)[place p c n].1 (p ++ c)[place p c n].2 := by
    rw [← hsplit] at hp
    exact (Paths.path_append.mp hp).2.1
  have hafter : Paths.last s ((p ++ c).take (place p c n + 1)) = (p ++ c)[place p c n].2 := by
    rw [List.take_succ_eq_append_getElem hn, Paths.last_append]
    rfl
  have hnext : roundState s p c (n + 1) = (p ++ c)[place p c n].2 := by
    rw [roundState, ← hafter]
    rcases place_succ (p := p) hc n with hsucc | ⟨hend, hround⟩
    · rw [hsucc]
    · rw [hend, hround, List.take_length, List.take_left, hlast]
  have hlabel : roundLabel p c default n = (p ++ c)[place p c n].1 := by
    rw [roundLabel, List.getElem?_eq_getElem hn]
    rfl
  rw [hnext, hlabel]
  exact hstep

/-- What holds at the beginning and behind every step of both parts always holds. -/
lemma forall_of_round {R : σ → Prop} (hs : R s) (hall : ∀ x ∈ p ++ c, R x.2) (n : ℕ) :
    R (roundState s p c n) :=
  (show Paths.Throughout R s ((p ++ c).take (place p c n)) from
    ⟨hs, fun x hx => hall x (List.mem_of_mem_take hx)⟩).last

/-- The steps of the second part come again and again. -/
lemma comes_of_round {Q : α → Prop} (hc : c ≠ []) (hall : ∀ x ∈ c, Q x.1) (n : ℕ) :
    ∃ m, n ≤ m ∧ Q (roundLabel p c default m) := by
  refine ⟨p.length + n, Nat.le_add_left _ _, ?_⟩
  have hn := place_lt (p := p) hc (p.length + n)
  rw [roundLabel, List.getElem?_eq_getElem hn]
  refine hall _ ?_
  have hle : p.length ≤ place p c (p.length + n) := by
    unfold place
    split_ifs <;> omega
  rw [List.getElem_append_right hle]
  exact List.getElem_mem _

end round

end Fair
