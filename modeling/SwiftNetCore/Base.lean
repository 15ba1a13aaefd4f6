import Mathlib

/-!
# Bytes, strings and the C library functions the sources call

`std::string` and every `[begin, end)` range of `char` is a list of bytes. This file has the
library functions the HTTP code rests on, under their own names and with their documented
behaviour:

* `find` is `std::find` on such a range, returning what lies before and behind the byte it
  found;
* `isspace` is the classification of the "C" locale; `trim` is what `HttpRequest::addHeader`
  does with it;
* `atoi` is `(int)strtol(s, NULL, 10)`: leading white space, one sign, digits up to the first
  other byte, saturation to `long`, truncation to `int`;
* `sizeT` is the conversion of an `int` to `size_t` in a mixed comparison;
* `decimal` is what `std::to_string` and `"%zd"` print for a number that is not negative.
-/

namespace SwiftNetCore

/-- A `char`, as the eight bits it is. -/
abbrev Byte := UInt8

/-- A `std::string`, or a `[begin, end)` range of `char`. -/
abbrev Bytes := List Byte

/-- A string literal. -/
def lit (s : String) : Bytes := s.toList.map fun c => c.toNat.toUInt8

/-- `Timestamp`: microseconds since the epoch. The default constructor gives `0`.
Source: Timestamp.h 6-41 -/
structure Timestamp where
  /-- `microSecondsSinceEpoch_` -/
  microSecondsSinceEpoch : ℤ := 0
  deriving DecidableEq, Repr

/-! ## Single bytes -/

/-- `'\r'` -/
abbrev CR : Byte := 13
/-- `'\n'` -/
abbrev LF : Byte := 10
/-- `' '` -/
abbrev SP : Byte := 32
/-- `':'` -/
abbrev COLON : Byte := 58
/-- `'?'` -/
abbrev QUESTION : Byte := 63

/-- `"\r\n"`. Source: `Buffer::kCRLF`, Buffer.cpp 7 -/
abbrev crlf : Bytes := [CR, LF]

/-- The two characters of a line end are different. -/
lemma CR_ne_LF : CR ≠ LF := by decide

/-- `isspace` in the "C" locale: blank, `\t`, `\n`, `\v`, `\f`, `\r`. -/
def isspace (c : Byte) : Bool := c == 32 || (9 ≤ c && c ≤ 13)

/-- `isdigit`. -/
def isdigit (c : Byte) : Bool := 48 ≤ c && c ≤ 57

/-! ## `std::find` -/

/-- `std::find(begin, end, c)`: the bytes before the first `c` and those behind it, or `none`
when the result is `end`. -/
def find (c : Byte) : Bytes → Option (Bytes × Bytes)
  | [] => none
  | b :: l => if b = c then some ([], l) else (find c l).map fun (p, q) => (b :: p, q)

/-- Nothing is found exactly when the byte does not occur. -/
lemma find_eq_none_iff {c : Byte} {l : Bytes} : find c l = none ↔ c ∉ l := by
  induction l with
  | nil => simp [find]
  | cons b l ih =>
      by_cases h : b = c
      · simp [find, h]
      · simp [find, h, ih, Ne.symm h]

/-- What is found splits the range at its first `c`. -/
lemma find_eq_some_iff {c : Byte} {l p q : Bytes} :
    find c l = some (p, q) ↔ l = p ++ c :: q ∧ c ∉ p := by
  induction l generalizing p with
  | nil => simp [find]
  | cons b l ih =>
      by_cases h : b = c
      · subst h
        rcases p with _ | ⟨b', p⟩
        · simp [find]
        · simp only [find, if_true, Option.some.injEq, Prod.mk.injEq, List.nil_eq, reduceCtorEq,
            false_and, List.cons_append, List.cons.injEq, List.mem_cons, not_or, false_iff]
          rintro ⟨⟨rfl, -⟩, hne, -⟩
          exact hne rfl
      · simp only [find, h, if_false, Option.map_eq_some_iff, Prod.mk.injEq, Prod.exists]
        constructor
        · rintro ⟨p', q', hf, rfl, rfl⟩
          obtain ⟨rfl, hp⟩ := ih.mp hf
          exact ⟨rfl, by simp [hp, Ne.symm h]⟩
        · rintro ⟨heq, hp⟩
          rcases p with _ | ⟨b', p⟩
          · simp at heq
            exact absurd heq.1 h
          · simp only [List.cons_append, List.cons.injEq] at heq
            obtain ⟨rfl, rfl⟩ := heq
            exact ⟨p, q, ih.mpr ⟨rfl, fun h' => hp (by simp [h'])⟩, rfl, rfl⟩

/-- The first `c` is found behind a prefix without it. -/
lemma find_append {c : Byte} {p q : Bytes} (h : c ∉ p) : find c (p ++ c :: q) = some (p, q) :=
  find_eq_some_iff.mpr ⟨rfl, h⟩

/-! ## Trimming -/

/-- The bytes without the white space at either end: the two `isspace` loops of
`HttpRequest::addHeader`.
Source: HttpRequest.h 170-179 -/
def trim (l : Bytes) : Bytes := (l.dropWhile isspace).rdropWhile isspace

/-! ## Numbers -/

/-- The value of a string of digits. -/
def digitsValue (l : Bytes) : ℕ := l.foldl (fun n c => 10 * n + (c.toNat - 48)) 0

/-- `strtol(s, NULL, 10)`: white space, a sign, digits, and saturation to `long`. -/
def strtol (s : Bytes) : ℤ :=
  match s.dropWhile isspace with
  | 45 :: l => max (-2 ^ 63) (-digitsValue (l.takeWhile isdigit))
  | 43 :: l => min (2 ^ 63 - 1) (digitsValue (l.takeWhile isdigit))
  | l => min (2 ^ 63 - 1) (digitsValue (l.takeWhile isdigit))

/-- `atoi(s)`: the `long` that `strtol` reads, truncated to a 32-bit `int`. -/
def atoi (s : Bytes) : ℤ := (strtol s).bmod (2 ^ 32)

/-- The `size_t` that an `int` is converted to when it is compared with one. -/
def sizeT (n : ℤ) : ℕ := (n % 2 ^ 64).toNat

/-- The digit `d < 10`. -/
def digit (d : ℕ) : Byte := 48 + d.toUInt8

/-- The decimal numeral of a number, as `std::to_string` and `"%zd"` print it. -/
def decimal (n : ℕ) : Bytes :=
  if n = 0 then [48] else (Nat.digits 10 n).reverse.map digit

/-- The character of a digit is that far behind the character `0`. -/
lemma toNat_digit {d : ℕ} (h : d < 10) : (digit d).toNat = 48 + d := by
  interval_cases d <;> rfl

/-- The character of a digit is a digit. -/
lemma isdigit_digit {d : ℕ} (h : d < 10) : isdigit (digit d) = true := by
  interval_cases d <;> rfl

/-- A numeral is not empty. -/
lemma decimal_ne_nil (n : ℕ) : decimal n ≠ [] := by
  unfold decimal
  split
  · simp
  · rename_i h
    simpa using Nat.digits_ne_nil_iff_ne_zero.mpr h

/-- A numeral has only digits. -/
lemma isdigit_of_mem_decimal {n : ℕ} {c : Byte} (h : c ∈ decimal n) : isdigit c = true := by
  unfold decimal at h
  split at h
  · obtain rfl : c = 48 := by simpa using h
    rfl
  · obtain ⟨d, hd, rfl⟩ := List.mem_map.mp h
    exact isdigit_digit (Nat.digits_lt_base (by omega) (List.mem_reverse.mp hd))

/-- A number below `10 ^ k` has at most `k` digits. -/
lemma length_decimal_le {n k : ℕ} (hk : k ≠ 0) (h : n < 10 ^ k) : (decimal n).length ≤ k := by
  unfold decimal
  split
  · simpa using Nat.one_le_iff_ne_zero.mpr hk
  · simpa using (Nat.digits_length_le_iff (by omega) n).mpr h

/-- The value of a numeral is the number. -/
lemma digitsValue_decimal (n : ℕ) : digitsValue (decimal n) = n := by
  unfold decimal
  split
  · rename_i h
    subst h
    rfl
  · have key : ∀ L : List ℕ, (∀ d ∈ L, d < 10) →
        digitsValue (L.reverse.map digit) = Nat.ofDigits 10 L := by
      intro L hL
      rw [digitsValue, List.foldl_map, List.foldl_reverse]
      induction L with
      | nil => rfl
      | cons d L ih =>
          rw [List.foldr_cons, ih fun d' hd' => hL d' (by simp [hd']), Nat.ofDigits_cons,
            toNat_digit (hL d (by simp))]
          omega
    rw [key _ fun d hd => Nat.digits_lt_base (by omega) hd, Nat.ofDigits_digits]

/-- A digit is neither white space nor a sign. -/
lemma not_isspace_of_isdigit {c : Byte} (h : isdigit c = true) :
    isspace c = false ∧ c ≠ 45 ∧ c ≠ 43 := by
  simp only [isdigit, isspace, Bool.and_eq_true, decide_eq_true_eq, Bool.or_eq_false_iff,
    beq_eq_false_iff_ne, Bool.and_eq_false_iff, decide_eq_false_iff_not, ne_eq,
    UInt8.le_iff_toNat_le, ← UInt8.toNat_inj] at h ⊢
  simp only [UInt8.reduceToNat] at h ⊢
  omega

/-- `strtol` reads a string of digits as its value, up to the largest `long`. -/
lemma strtol_of_digits {l : Bytes} (h : ∀ c ∈ l, isdigit c = true) :
    strtol l = min (2 ^ 63 - 1) (digitsValue l : ℤ) := by
  have hdrop : l.dropWhile isspace = l := by
    rcases l with _ | ⟨c, l⟩
    · rfl
    · rw [List.dropWhile_cons_of_neg]
      simp [(not_isspace_of_isdigit (h c (by simp))).1]
  have htake : l.takeWhile isdigit = l := List.takeWhile_eq_self_iff.mpr h
  unfold strtol
  rw [hdrop]
  rcases l with _ | ⟨c, l⟩
  · rfl
  · obtain ⟨-, h₁, h₂⟩ := not_isspace_of_isdigit (h c (by simp))
    split
    · rename_i heq
      exact absurd (List.cons.inj heq).1 h₁
    · rename_i heq
      exact absurd (List.cons.inj heq).1 h₂
    · rw [htake]

/-- `atoi` reads the numeral of an `int` back. -/
lemma atoi_decimal {n : ℕ} (h : n < 2 ^ 31) : atoi (decimal n) = n := by
  rw [atoi, strtol_of_digits fun c hc => isdigit_of_mem_decimal hc, digitsValue_decimal,
    min_eq_right (by omega), Int.bmod_eq_of_le] <;> omega

/-- A number that is not negative is its own `size_t`. -/
lemma sizeT_natCast {n : ℕ} (h : n < 2 ^ 64) : sizeT n = n := by
  unfold sizeT
  omega

end SwiftNetCore
