import Mathlib

/-!
# Runs of a labelled transition system

A run is kept with its intermediate states: a list of pairs, each the label of a step and the state
after it (`Path`). Two questions are asked of a run: does a property hold in every state it visits
(`Throughout`), and does every one of its steps meet a condition on the state before the step and on
its label (`MeetsAll`).

* If the condition is exactly what keeps the property, then the property holds throughout a run
  exactly when all its steps meet the condition (`Path.throughout_iff_meetsAll`); where the property
  needs a stronger invariant, `Path.throughout_iff_meetsAll_of_invariant`; where a step that does
  not meet it shows only at the end of the run, `Path.throughout_iff_meetsAll_of_last`; where the
  condition is enough without being needed, `Path.throughout_of_meetsAll`.
* A system whose steps are computed has a run for every list of labels (`trace`), and both questions
  about it can be decided.
-/

namespace Paths

variable {σ α : Type*}

/-- The steps `p`, each with the state after it, form a run from `s`. -/
def Path (step : σ → α → σ → Prop) : σ → List (α × σ) → Prop
  | _, [] => True
  | s, (a, t) :: p => step s a t ∧ Path step t p

/-- `P` holds in `s` and in every state that `p` visits. -/
def Throughout (P : σ → Prop) (s : σ) (p : List (α × σ)) : Prop := P s ∧ ∀ x ∈ p, P x.2

/-- Every step of `p`, taken from `s`, meets the condition `guard`. -/
def MeetsAll (guard : σ → α → Prop) : σ → List (α × σ) → Prop
  | _, [] => True
  | s, (a, t) :: p => guard s a ∧ MeetsAll guard t p

/-- The state a run from `s` ends in. -/
def last (s : σ) : List (α × σ) → σ
  | [] => s
  | (_, t) :: p => last t p

variable {step : σ → α → σ → Prop} {guard : σ → α → Prop} {P I : σ → Prop} {s t : σ} {a : α}
  {p q : List (α × σ)}

/-- No steps are a run. -/
@[simp] lemma path_nil : Path step s [] := trivial

/-- A run is a step, and a run from where it leads. -/
@[simp] lemma path_cons : Path step s ((a, t) :: p) ↔ step s a t ∧ Path step t p := Iff.rfl

/-- Without a step the condition is met. -/
@[simp] lemma meetsAll_nil : MeetsAll guard s [] := trivial

/-- Every step meets the condition when the first one does and those behind it do. -/
@[simp] lemma meetsAll_cons :
    MeetsAll guard s ((a, t) :: p) ↔ guard s a ∧ MeetsAll guard t p := Iff.rfl

/-- Without a step there is only the start. -/
@[simp] lemma throughout_nil : Throughout (α := α) P s [] ↔ P s := by simp [Throughout]

/-- What holds at the start, and throughout the rest of the run, holds throughout. -/
@[simp] lemma throughout_cons :
    Throughout P s ((a, t) :: p) ↔ P s ∧ Throughout P t p := by simp [Throughout]

/-- A run in two parts is a run, and one from where it ends. -/
lemma path_append : Path step s (p ++ q) ↔ Path step s p ∧ Path step (last s p) q := by
  induction p generalizing s with
  | nil => simp [last]
  | cons x p ih =>
      obtain ⟨a, t⟩ := x
      rw [List.cons_append, path_cons, path_cons, ih, last, and_assoc]

/-- Two runs, one behind the other, end where the second one does. -/
lemma last_append : last s (p ++ q) = last (last s p) q := by
  induction p generalizing s with
  | nil => rfl
  | cons x p ih =>
      obtain ⟨a, t⟩ := x
      exact ih

/-- A condition on the labels alone is met by a run when each of its labels meets it. -/
lemma meetsAll_iff_forall_mem {Q : α → Prop} :
    MeetsAll (fun _ a => Q a) s p ↔ ∀ x ∈ p, Q x.1 := by
  induction p generalizing s with
  | nil => simp
  | cons x p ih =>
      obtain ⟨a, t⟩ := x
      rw [meetsAll_cons, ih, List.forall_mem_cons]

/-- The state a run ends in is one of those it visits. -/
lemma Throughout.last (h : Throughout P s p) : P (last s p) := by
  induction p generalizing s with
  | nil => exact h.1
  | cons x p ih =>
      obtain ⟨a, t⟩ := x
      exact ih (throughout_cons.mp h).2

/-- What follows from a property that holds throughout holds throughout. -/
lemma Throughout.mono {Q : σ → Prop} (hPQ : ∀ s, P s → Q s) (h : Throughout P s p) :
    Throughout Q s p :=
  ⟨hPQ s h.1, fun x hx => hPQ x.2 (h.2 x hx)⟩

/-- An invariant of the system holds throughout every run from a state that has it. -/
lemma Path.throughout (hI : ∀ s a t, I s → step s a t → I t) (hp : Path step s p) (hs : I s) :
    Throughout I s p := by
  induction p generalizing s with
  | nil => exact throughout_nil.mpr hs
  | cons x p ih =>
      obtain ⟨a, t⟩ := x
      rw [path_cons] at hp
      exact throughout_cons.mpr ⟨hs, ih hp.2 (hI s a t hs hp.1)⟩

/-- An invariant that steps keep when they meet a condition holds throughout every run whose steps
all meet it. -/
lemma Path.throughout_of_meetsAll (hkeep : ∀ s a t, I s → step s a t → guard s a → I t)
    (hp : Path step s p) (hg : MeetsAll guard s p) (hs : I s) : Throughout I s p := by
  induction p generalizing s with
  | nil => exact throughout_nil.mpr hs
  | cons x p ih =>
      obtain ⟨a, t⟩ := x
      rw [path_cons] at hp
      rw [meetsAll_cons] at hg
      exact throughout_cons.mpr ⟨hs, ih hp.2 hg.2 (hkeep s a t hs hp.1 hg.1)⟩

/-- What every such step does from a state with the invariant, every step of the run does. -/
lemma Path.forall_mem_of_meetsAll {Q : α → σ → Prop}
    (hkeep : ∀ s a t, I s → step s a t → guard s a → I t)
    (hQ : ∀ s a t, I s → step s a t → guard s a → Q a t)
    (hp : Path step s p) (hg : MeetsAll guard s p) (hs : I s) : ∀ x ∈ p, Q x.1 x.2 := by
  induction p generalizing s with
  | nil => exact nofun
  | cons x p ih =>
      obtain ⟨a, t⟩ := x
      rw [path_cons] at hp
      rw [meetsAll_cons] at hg
      intro x hx
      rcases List.mem_cons.mp hx with rfl | hx
      · exact hQ s a t hs hp.1 hg.1
      · exact ih hp.2 hg.2 (hkeep s a t hs hp.1 hg.1) x hx

/-- An exact condition, by way of an invariant that is stronger than the property: a step that
meets the condition keeps the invariant, and one that does not breaks the property. -/
theorem Path.throughout_iff_meetsAll_of_invariant (hI : ∀ s, I s → P s)
    (hkeep : ∀ s a t, I s → step s a t → guard s a → I t)
    (hbreak : ∀ s a t, I s → step s a t → P t → guard s a) (hp : Path step s p) (hs : I s) :
    Throughout P s p ↔ MeetsAll guard s p := by
  induction p generalizing s with
  | nil => exact iff_of_true (throughout_nil.mpr (hI s hs)) meetsAll_nil
  | cons x p ih =>
      obtain ⟨a, t⟩ := x
      rw [path_cons] at hp
      rw [throughout_cons, meetsAll_cons]
      constructor
      · rintro ⟨-, h⟩
        have hga := hbreak s a t hs hp.1 h.1
        exact ⟨hga, (ih hp.2 (hkeep s a t hs hp.1 hga)).mp h⟩
      · rintro ⟨hga, hg⟩
        exact ⟨hI s hs, (ih hp.2 (hkeep s a t hs hp.1 hga)).mpr hg⟩

/-- **An exact condition.** Where a step from a state with the property keeps it exactly when it
meets the condition, a run keeps the property throughout exactly when all its steps meet it. -/
theorem Path.throughout_iff_meetsAll (hP : ∀ s a t, P s → step s a t → (P t ↔ guard s a))
    (hp : Path step s p) (hs : P s) : Throughout P s p ↔ MeetsAll guard s p :=
  hp.throughout_iff_meetsAll_of_invariant (fun _ h => h)
    (fun s a t h hst => (hP s a t h hst).mpr) (fun s a t h hst => (hP s a t h hst).mp) hs

/-- An exact condition for runs that are judged by their end: a step that does not meet it breaks
the property, or leads to where all further steps stay and a run that ends there breaks it. -/
theorem Path.throughout_iff_meetsAll_of_last {B : σ → Prop} (hI : ∀ s, I s → P s)
    (hkeep : ∀ s a t, I s → step s a t → guard s a → I t)
    (hbreak : ∀ s a t, I s → step s a t → ¬ guard s a → ¬ P t ∨ B t)
    (hB : ∀ s a t, B s → step s a t → B t) (hp : Path step s p) (hs : I s)
    (hlast : B (Paths.last s p) → ¬ P (Paths.last s p)) :
    Throughout P s p ↔ MeetsAll guard s p := by
  induction p generalizing s with
  | nil => exact iff_of_true (throughout_nil.mpr (hI s hs)) meetsAll_nil
  | cons x p ih =>
      obtain ⟨a, t⟩ := x
      rw [path_cons] at hp
      rw [throughout_cons, meetsAll_cons]
      by_cases hga : guard s a
      · rw [ih hp.2 (hkeep s a t hs hp.1 hga) hlast]
        exact ⟨fun h => ⟨hga, h.2⟩, fun h => ⟨hI s hs, h.2⟩⟩
      · refine iff_of_false (fun h => ?_) (fun h => hga h.1)
        rcases hbreak s a t hs hp.1 hga with hnot | hbad
        · exact hnot h.2.1
        · exact hlast (hp.2.throughout hB hbad).last h.2.last

/-! ## The runs of a step function -/

/-- The run that a step function makes of a list of labels, up to the first that it has no step
for. -/
def trace (f : σ → α → Option σ) : σ → List α → List (α × σ)
  | _, [] => []
  | s, a :: as =>
    match f s a with
    | some t => (a, t) :: trace f t as
    | none => []

/-- A trace is a run. -/
lemma path_trace (f : σ → α → Option σ) (s : σ) (as : List α) :
    Path (fun s a t => f s a = some t) s (trace f s as) := by
  induction as generalizing s with
  | nil => exact path_nil
  | cons a as ih =>
      rw [trace]
      rcases h : f s a with _ | t
      · exact path_nil
      · exact path_cons.mpr ⟨h, ih t⟩

/-- The labels of a trace are among those of the list. -/
lemma mem_of_mem_trace {f : σ → α → Option σ} {as : List α} {x : α × σ}
    (h : x ∈ trace f s as) : x.1 ∈ as := by
  induction as generalizing s with
  | nil => exact absurd h List.not_mem_nil
  | cons a as ih =>
      rw [trace] at h
      split at h
      · rcases List.mem_cons.mp h with rfl | h
        · exact List.mem_cons_self
        · exact List.mem_cons_of_mem _ (ih h)
      · exact absurd h List.not_mem_nil

/-- Whether all steps of a run meet a condition that can be decided, is decided step by step. -/
instance instDecidableMeetsAll [∀ s a, Decidable (guard s a)] :
    ∀ (s : σ) (p : List (α × σ)), Decidable (MeetsAll guard s p)
  | _, [] => isTrue trivial
  | s, (a, t) :: p =>
    have := instDecidableMeetsAll t p
    inferInstanceAs (Decidable (guard s a ∧ MeetsAll guard t p))

instance [DecidablePred P] (s : σ) (p : List (α × σ)) : Decidable (Throughout P s p) :=
  inferInstanceAs (Decidable (_ ∧ _))

end Paths
