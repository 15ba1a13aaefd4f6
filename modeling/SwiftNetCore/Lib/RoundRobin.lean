import Mathlib

/-!
# Dealing in turn

Items are dealt to the members of a list in turn, from the first one on, over and over again. `deal
l m` are the members that the first `m` items go to. Each member gets `m / n` of them, and the first
`m % n` members one more (`count_deal`), so no two differ by more than one (`count_deal_le`).
-/

namespace RoundRobin

variable {α : Type*} {l : List α} {i : ℕ} {a b : α}

/-- The members that the first `m` items go to. -/
def deal (l : List α) (m : ℕ) : List α := (List.range m).filterMap fun j => l[j % l.length]?

/-- When nothing was dealt nobody has anything. -/
@[simp] lemma deal_zero (l : List α) : deal l 0 = [] := rfl

/-- One item more goes to the member whose turn it is. -/
lemma deal_succ (l : List α) (m : ℕ) :
    deal l (m + 1) = deal l m ++ (l[m % l.length]?).toList := by
  rw [deal, deal, List.range_succ, List.filterMap_append]
  rcases h : l[m % l.length]? with _ | a <;> simp [h]

variable [DecidableEq α]

/-- Among the members, `m` items are dealt as evenly as they can be, the first members first. -/
lemma count_deal (hl : l.Nodup) (hi : i < l.length) (m : ℕ) :
    (deal l m).count l[i] = m / l.length + if i < m % l.length then 1 else 0 := by
  have hpos : 0 < l.length := Nat.zero_lt_of_lt hi
  have hcount : (deal l m).count l[i] = m.count (· ≡ i [MOD l.length]) := by
    induction m with
    | zero => simp
    | succ m ih =>
        have hlt : m % l.length < l.length := Nat.mod_lt _ hpos
        have hiff : l[m % l.length] = l[i] ↔ m ≡ i [MOD l.length] := by
          rw [hl.getElem_inj_iff, Nat.ModEq, Nat.mod_eq_of_lt hi]
        rw [deal_succ, List.count_append, ih, List.getElem?_eq_getElem hlt, Nat.count_succ,
          Option.toList_some, List.count_singleton]
        simp only [beq_iff_eq, hiff]
  rw [hcount, Nat.count_modEq_card _ hpos, Nat.mod_eq_of_lt hi]

/-- **Nobody gets two more than another.** -/
lemma count_deal_le (hl : l.Nodup) (ha : a ∈ l) (hb : b ∈ l) (m : ℕ) :
    (deal l m).count a ≤ (deal l m).count b + 1 := by
  obtain ⟨i, hi, rfl⟩ := List.getElem_of_mem ha
  obtain ⟨j, hj, rfl⟩ := List.getElem_of_mem hb
  rw [count_deal hl hi, count_deal hl hj]
  split <;> split <;> omega

end RoundRobin
