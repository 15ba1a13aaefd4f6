import SwiftNetCore.Http.Head

/-!
# Headers as they are written

Both messages write a header as its name, a colon, a blank and its value. `PlainHeader` says of a
header that this line can be told apart again: the name has no colon, neither part has a
`"\r\n"`, and the value no white space at its ends.

* `flatMap_headerText`: the headers of a map, written one after the other, are lines.
* `PlainHeader.isHeaderLine`: the line of a plain header is a header line of the parsers.
* `lastValue_headerLines`: the lines of a map of plain headers give each header its value.
-/

namespace SwiftNetCore

open Delimited (PairFree unlines)

/-! ## White space at the ends -/

/-- The string neither starts nor ends with white space. -/
def NoOuterSpace (v : Bytes) : Prop :=
  v.head?.any isspace = false ∧ v.getLast?.any isspace = false

instance (v : Bytes) : Decidable (NoOuterSpace v) := inferInstanceAs (Decidable (_ ∧ _))

/-- A value without white space at its ends is not trimmed. -/
lemma NoOuterSpace.trim_eq {v : Bytes} (h : NoOuterSpace v) : trim v = v := by
  have hdrop : v.dropWhile isspace = v := by
    rcases v with _ | ⟨c, v⟩
    · rfl
    · rw [List.dropWhile_cons_of_neg]
      simpa using h.1
  rw [trim, hdrop]
  apply List.rdropWhile_eq_self_iff.mpr
  intro hne
  have hlast := h.2
  rw [List.getLast?_eq_some_getLast hne] at hlast
  simpa using hlast

/-- The blank behind the colon is trimmed. -/
lemma NoOuterSpace.trim_blank {v : Bytes} (h : NoOuterSpace v) : trim (SP :: v) = v := by
  have hsp : isspace SP = true := by decide
  rw [trim, List.dropWhile_cons_of_pos hsp]
  exact h.trim_eq

/-! ## Lines -/

/-- The line of a header. -/
def headerLine (h : Bytes × Bytes) : Bytes := h.1 ++ lit ": " ++ h.2

/-- The line of a header has its name, a colon, a blank and its value. -/
lemma headerLine_eq (h : Bytes × Bytes) : headerLine h = h.1 ++ COLON :: SP :: h.2 := by
  have hlit : lit ": " = [COLON, SP] := rfl
  simp [headerLine, hlit]

/-- Headers written one after the other are the lines of the headers. -/
lemma flatMap_headerText (hs : List (Bytes × Bytes)) :
    hs.flatMap HttpResponse.headerText = unlines CR LF (hs.map headerLine) := by
  have hheader : HttpResponse.headerText = fun h => headerLine h ++ crlf := rfl
  rw [hheader]
  simp [unlines, List.flatMap_map]

/-- A header whose line can be told apart again. -/
structure PlainHeader (h : Bytes × Bytes) : Prop where
  name_ne_nil : h.1 ≠ []
  colon_notMem : COLON ∉ h.1
  pairFree_name : PairFree CR LF h.1
  pairFree_value : PairFree CR LF h.2
  noOuterSpace : NoOuterSpace h.2

namespace PlainHeader

variable {h : Bytes × Bytes} (hp : PlainHeader h)

include hp

/-- The line has no delimiter inside. -/
lemma pairFree_headerLine : PairFree CR LF (headerLine h) := by
  rw [headerLine_eq]
  apply hp.pairFree_name.append_cons (by decide)
  exact hp.pairFree_value.append_left (m := [COLON, SP]) (by decide)

/-- The line of a plain header reads as a header line. -/
lemma isHeaderLine : IsHeaderLine (headerLine h) :=
  ⟨hp.pairFree_headerLine, by simp [headerLine_eq]⟩

/-- The first colon of the line is the one behind the name. -/
lemma find_headerLine : find COLON (headerLine h) = some (h.1, SP :: h.2) := by
  rw [headerLine_eq]
  exact find_append hp.colon_notMem

/-- The line gives its header the value. -/
lemma valueOf_headerLine (name : Bytes) :
    valueOf name (headerLine h) = if h.1 = name then some h.2 else none := by
  rw [valueOf, hp.find_headerLine]
  simp [hp.noOuterSpace.trim_blank]

end PlainHeader

/-- **Headers read back.** The lines of a map of plain headers give each header its value, and
no other header one. -/
lemma lastValue_headerLines {m : HeaderMap} (hm : ∀ h ∈ m.toList, PlainHeader h) (name : Bytes) :
    lastValue name (m.toList.map headerLine) = m[name]? := by
  have hmem : ∀ v, v ∈ (m.toList.map headerLine).filterMap (valueOf name) ↔ m[name]? = some v := by
    intro v
    rw [← Std.ExtTreeMap.mem_toList_iff_getElem?_eq_some, List.filterMap_map, List.mem_filterMap]
    constructor
    · rintro ⟨h, hh, hv⟩
      rw [Function.comp_apply, (hm h hh).valueOf_headerLine] at hv
      split_ifs at hv with hname
      obtain rfl := Option.some.inj hv
      exact hname ▸ hh
    · intro hh
      refine ⟨(name, v), hh, ?_⟩
      rw [Function.comp_apply, (hm _ hh).valueOf_headerLine, if_pos rfl]
  unfold lastValue
  rcases hlast : ((m.toList.map headerLine).filterMap (valueOf name)).getLast? with _ | v
  · -- no line gives the header a value
    rw [List.getLast?_eq_none_iff] at hlast
    simp only [hlast, List.not_mem_nil, false_iff] at hmem
    exact (Option.eq_none_iff_forall_ne_some.mpr hmem).symm
  · exact ((hmem v).mp (List.mem_of_getLast? hlast)).symm

end SwiftNetCore
