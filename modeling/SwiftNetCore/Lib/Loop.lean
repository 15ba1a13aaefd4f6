import Mathlib

/-!
# Loops that may never end

A `while` loop is a body `σ → Flow σ ρ`: one evaluation of the body either goes round again in
a new state or leaves the loop with a result. Nothing forces such a loop to end, so it is run
with a bound on the number of evaluations (`iterate`), and the loop's own meaning is what some
bound yields (`Returns`, `Halts`).

* A result does not depend on the bound that found it (`iterate_mono`).
* `Reaches` is "the loop gets here"; a loop has the same results from every state it gets to
  (`Reaches.returns_iff`).
* **The bound is computable** when every repeating evaluation makes a measure smaller or changes
  nothing at all (`halts_iff_iterate`): then the loop either ends within the measure or sits in
  a state that its body maps to itself.
* A map between the states of two loops that commutes with the bodies carries the results along
  (`iterate_map`).
-/

namespace Loops

variable {σ ρ σ' ρ' : Type*}

/-- What one evaluation of a loop's body decides. -/
inductive Flow (σ ρ : Type*) where
  /-- Go round again, in the state `s`. -/
  | again (s : σ)
  /-- Leave the loop with the result `r`. -/
  | leave (r : ρ)

namespace Flow

/-- Rename the states and the results of one evaluation. -/
def map (f : σ → σ') (g : ρ → ρ') : Flow σ ρ → Flow σ' ρ'
  | again s => again (f s)
  | leave r => leave (g r)

/-- A body that goes round again still does when states and results are renamed. -/
@[simp] lemma map_again (f : σ → σ') (g : ρ → ρ') (s : σ) :
    (again s : Flow σ ρ).map f g = again (f s) := rfl

/-- A body that leaves the loop still does when states and results are renamed. -/
@[simp] lemma map_leave (f : σ → σ') (g : ρ → ρ') (r : ρ) :
    (leave r : Flow σ ρ).map f g = leave (g r) := rfl

end Flow

/-! ## Running a loop under a bound -/

/-- Evaluate the body at most `n` times. `none` says that `n` evaluations were not enough. -/
def iterate (body : σ → Flow σ ρ) : ℕ → σ → Option ρ
  | 0, _ => none
  | n + 1, s =>
    match body s with
    | .again s' => iterate body n s'
    | .leave r => some r

variable {body : σ → Flow σ ρ} {s s' : σ} {r r' : ρ} {n m : ℕ}

/-- When the body goes round again, the rest of the evaluations are from where it is then. -/
lemma iterate_succ_of_again (h : body s = .again s') (n : ℕ) :
    iterate body (n + 1) s = iterate body n s' := by
  simp only [iterate, h]

/-- When the body leaves, one evaluation is enough. -/
lemma iterate_succ_of_leave (h : body s = .leave r) (n : ℕ) :
    iterate body (n + 1) s = some r := by
  simp only [iterate, h]

/-- A larger bound never changes a result. -/
lemma iterate_mono (hnm : n ≤ m) (h : iterate body n s = some r) :
    iterate body m s = some r := by
  induction n generalizing m s with
  | zero => simp [iterate] at h
  | succ n ih =>
      obtain ⟨m, rfl⟩ := Nat.exists_eq_add_of_le' (show 1 ≤ m by omega)
      rcases hb : body s with s' | r₀
      · rw [iterate_succ_of_again hb] at h ⊢
        exact ih (by omega) h
      · rw [iterate_succ_of_leave hb] at h ⊢
        exact h

/-! ## What the loop itself does -/

/-- The loop started in `s` ends with the result `r`. -/
def Returns (body : σ → Flow σ ρ) (s : σ) (r : ρ) : Prop := ∃ n, iterate body n s = some r

/-- The loop started in `s` ends. -/
def Halts (body : σ → Flow σ ρ) (s : σ) : Prop := ∃ r, Returns body s r

/-- A loop whose body leaves at once has that result. -/
lemma returns_of_leave (h : body s = .leave r) : Returns body s r :=
  ⟨1, iterate_succ_of_leave h 0⟩

/-- A loop whose body goes round again has the results of the next state. -/
lemma returns_iff_of_again (h : body s = .again s') : Returns body s r ↔ Returns body s' r := by
  constructor
  · rintro ⟨n, hn⟩
    rcases n with _ | n
    · simp [iterate] at hn
    · exact ⟨n, by rwa [iterate_succ_of_again h] at hn⟩
  · rintro ⟨n, hn⟩
    exact ⟨n + 1, by rwa [iterate_succ_of_again h]⟩

/-- A body that maps a state to itself is stuck there for ever. -/
lemma not_halts_of_fixed (h : body s = .again s) : ¬ Halts body s := by
  rintro ⟨r, n, hn⟩
  induction n with
  | zero => simp [iterate] at hn
  | succ n ih => exact ih (by rwa [iterate_succ_of_again h] at hn)

/-! ## The states a loop gets to -/

/-- The loop gets from one state to another by going round. -/
inductive Reaches (body : σ → Flow σ ρ) : σ → σ → Prop
  | refl (s : σ) : Reaches body s s
  | step {s t u : σ} : body s = .again t → Reaches body t u → Reaches body s u

/-- A loop has the same results from every state it gets to. -/
lemma Reaches.returns_iff {t : σ} (h : Reaches body s t) : Returns body s r ↔ Returns body t r := by
  induction h with
  | refl => exact Iff.rfl
  | step hb _ ih => exact (returns_iff_of_again hb).trans ih

/-- A loop ends from a state exactly when it ends from a state it gets to. -/
lemma Reaches.halts_iff {t : σ} (h : Reaches body s t) : Halts body s ↔ Halts body t :=
  exists_congr fun _ => h.returns_iff

/-! ## Loops that make progress or are stuck -/

section progress

variable (μ : σ → ℕ) (hμ : ∀ s s', body s = .again s' → μ s' < μ s ∨ s' = s)

include hμ

/-- Such a loop gets to a state where its body leaves, or to one that its body maps to itself. -/
lemma exists_end (s : σ) :
    ∃ t, Reaches body s t ∧ ((∃ r, body t = .leave r) ∨ body t = .again t) := by
  induction hn : μ s using Nat.strong_induction_on generalizing s with
  | _ n ih =>
      subst hn
      rcases hb : body s with s' | r
      · rcases hμ s s' hb with hlt | rfl
        · obtain ⟨t, hst, ht⟩ := ih (μ s') hlt s' rfl
          exact ⟨t, .step hb hst, ht⟩
        · exact ⟨s', .refl s', .inr hb⟩
      · exact ⟨s, .refl s, .inl ⟨r, hb⟩⟩

/-- **The bound is computable**: the loop ends exactly when it ends within its measure. -/
theorem halts_iff_iterate (s : σ) : Halts body s ↔ (iterate body (μ s + 1) s).isSome := by
  constructor
  · intro h
    induction hn : μ s using Nat.strong_induction_on generalizing s with
    | _ n ih =>
        subst hn
        rcases hb : body s with s' | r
        · rcases hμ s s' hb with hlt | rfl
          · have hs' : Halts body s' := (Reaches.step hb (.refl s')).halts_iff.mp h
            obtain ⟨r, hr⟩ := Option.isSome_iff_exists.mp (ih (μ s') hlt s' hs' rfl)
            rw [iterate_succ_of_again hb, iterate_mono (show μ s' + 1 ≤ μ s by omega) hr]
            rfl
          · exact absurd h (not_halts_of_fixed hb)
        · rw [iterate_succ_of_leave hb]
          rfl
  · intro h
    obtain ⟨r, hr⟩ := Option.isSome_iff_exists.mp h
    exact ⟨r, _, hr⟩

/-- Under the computed bounds, one evaluation that goes round again changes no result. -/
lemma iterate_measure_of_again (h : body s = .again s') :
    iterate body (μ s + 1) s = iterate body (μ s' + 1) s' := by
  rcases hμ s s' h with hlt | rfl
  · rcases hr : iterate body (μ s' + 1) s' with _ | r
    · have hs' : ¬ Halts body s' := fun hh => by
        simpa [hr] using (halts_iff_iterate μ hμ s').mp hh
      have hs : ¬ Halts body s := fun hh => hs' ((Reaches.step h (.refl s')).halts_iff.mp hh)
      rw [halts_iff_iterate μ hμ s] at hs
      simpa using hs
    · rw [iterate_succ_of_again h]
      exact iterate_mono (by omega) hr
  · rfl

end progress

/-! ## Two loops in step -/

/-- A map of states that commutes with the bodies carries every bounded run along. -/
lemma iterate_map {body' : σ' → Flow σ' ρ'} {f : σ → σ'} {g : ρ → ρ'}
    (h : ∀ s, body' (f s) = (body s).map f g) (n : ℕ) (s : σ) :
    iterate body' n (f s) = (iterate body n s).map g := by
  induction n generalizing s with
  | zero => rfl
  | succ n ih =>
      have hs := h s
      rcases hb : body s with s' | r
      · rw [hb, Flow.map_again] at hs
        rw [iterate_succ_of_again hb, iterate_succ_of_again hs, ih]
      · rw [hb, Flow.map_leave] at hs
        rw [iterate_succ_of_leave hb, iterate_succ_of_leave hs, Option.map_some]

end Loops
