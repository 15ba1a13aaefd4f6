import SwiftNetCore.Http.ResponseText

/-!
# A response from `appendToBuffer` to the parser

`parseResponse` puts all that follows a header's colon into the map, the blank with it, where the
parser of requests trims it. So a response with a header is not read back as it was, and what is
read back well is told exactly by `parseResponse_roundTrip_iff`. Its other condition is about
`statusMessage_`, which is written as it is: what follows a `"\r\n"` in it is a line of the head.

* `text_eq_unlines`: the text of a response as the lines of its head and its body.
* `parseResponse_text_of_colons`, `parseResponse_text_of_no_colon`: what a new context has when
  each line of the head has a colon, and when one of the status message has none.
* `parseResponse_roundTrip_iff`: the responses that are read back.
-/

namespace SwiftNetCore

open InputBuffer
open Delimited (PairFree unlines segments)
open HttpContext

namespace HttpResponse

/-! ## The lines of the head -/

/-- What `snprintf` cuts off leaves a `CR` at the end, or nothing of the delimiter: the two lines
about the connection are one then. -/
lemma exists_lengthLines (n : ℕ) :
    ∃ ls, snprintf32 (lit "Content-Length: " ++ decimal n ++ crlf) ++
        lit "Connection: Keep-Alive" ++ crlf = unlines CR LF ls ∧ ∀ l ∈ ls, IsHeaderLine l := by
  have hcr : CR ∉ lit "Content-Length: " ++ decimal n := by
    intro h
    exact (List.mem_append.mp h).elim (by decide) (CR_notMem_decimal n)
  have hfree : PairFree CR LF (lit "Content-Length: " ++ decimal n) :=
    Delimited.pairFree_of_notMem hcr
  have hcolon : COLON ∈ lit "Content-Length: " := by decide
  have hkeep : IsHeaderLine (lit "Connection: Keep-Alive") := by decide
  have h16 : (lit "Content-Length: ").length = 16 := rfl
  by_cases hlen : (lit "Content-Length: " ++ decimal n).length + 2 ≤ 31
  · refine ⟨[lit "Content-Length: " ++ decimal n, lit "Connection: Keep-Alive"], ?_, ?_⟩
    · rw [snprintf32, List.take_of_length_le ((List.length_append).trans_le hlen)]
      simp
    · intro l hl
      rcases List.mem_pair.mp hl with rfl | rfl
      · exact ⟨hfree, List.mem_append_left _ hcolon⟩
      · exact hkeep
  · set w := snprintf32 (lit "Content-Length: " ++ decimal n ++ crlf) with hw
    have hsplit : w ++ List.drop 31 (lit "Content-Length: " ++ decimal n ++ crlf) =
        (lit "Content-Length: " ++ decimal n) ++ CR :: LF :: [] :=
      List.take_append_drop 31 _
    have hwfree : PairFree CR LF w := by
      apply Delimited.pairFree_of_append_eq CR_ne_LF hfree hsplit
      rw [hw, snprintf32, List.length_take]
      omega
    refine ⟨[w ++ lit "Connection: Keep-Alive"], by simp, ?_⟩
    intro l hl
    obtain rfl := List.mem_singleton.mp hl
    have hc : lit "Connection: Keep-Alive" = 67 :: lit "onnection: Keep-Alive" := by decide
    refine ⟨?_, List.mem_append_right _ hkeep.2⟩
    rw [hc]
    exact hwfree.append_cons (by decide) (by decide)

/-- What is written about the connection are header lines. -/
lemma exists_connectionLines (resp : HttpResponse) :
    ∃ ls, (if resp.closeConnection then lit "Connection: close" ++ crlf
        else snprintf32 (lit "Content-Length: " ++ decimal resp.body.length ++ crlf) ++
          lit "Connection: Keep-Alive" ++ crlf) = unlines CR LF ls ∧ ∀ l ∈ ls, IsHeaderLine l := by
  split
  · refine ⟨[lit "Connection: close"], by simp, ?_⟩
    intro l hl
    obtain rfl := List.mem_singleton.mp hl
    decide
  · exact exists_lengthLines resp.body.length

/-- The beginning of the status line. -/
def statusStart (resp : HttpResponse) : Bytes :=
  lit "HTTP/1.1 " ++ decimal resp.statusCode.toInt ++ lit " "

/-- **The text of a response** in lines: the pieces of the status message, of which the first
one ends the status line, the lines about the connection and those of the headers. -/
lemma text_eq_unlines (resp : HttpResponse) :
    ∃ m ms ls, segments CR LF resp.statusMessage = m :: ms ∧
      resp.text = (resp.statusStart ++ m) ++ CR :: LF ::
        (unlines CR LF (ms ++ ls ++ resp.headers.toList.map headerLine) ++
          ([] ++ CR :: LF :: resp.body)) ∧
      PairFree CR LF (resp.statusStart ++ m) ∧ (∀ n ∈ ms, PairFree CR LF n) ∧
      ∀ l ∈ ls, IsHeaderLine l := by
  obtain ⟨m, ms, heq, -, hfree, htext⟩ :=
    Delimited.segments_spec (a := CR) (b := LF) resp.statusMessage
  obtain ⟨hm, hms⟩ := List.forall_mem_cons.mp hfree
  obtain ⟨ls, hconn, hls⟩ := resp.exists_connectionLines
  refine ⟨m, ms, ls, heq, ?_, ?_, hms, hls⟩
  · have hmessage : resp.statusMessage ++ crlf = m ++ CR :: LF :: unlines CR LF ms := by
      rw [← Delimited.unlines_cons, htext]
    rw [text_eq, head, preamble, snprintf32_status, hconn, flatMap_headerText,
      List.append_assoc _ resp.statusMessage crlf, hmessage]
    simp [statusStart]
  · apply Delimited.PairFree.append_left _ hm
    unfold statusStart
    cases resp.statusCode <;> decide

/-! ## What is read -/

/-- The response that a new context has behind the status line. -/
def withStatus (code : HttpStatusCode) : HttpResponse := setStatusCode {} code.toInt

/-- **Each line of the message has a colon**: a new context has the status and the body, and the
headers that the lines of the head give. -/
lemma parseResponse_text_of_colons {resp : HttpResponse}
    (hh : ∀ h ∈ resp.headers.toList, PlainHeader h)
    (hc : ∀ l ∈ (segments CR LF resp.statusMessage).tail, COLON ∈ l) :
    ∃ ls, parseResponse {} resp.text = .returned ⟨true,
      { state := .kGotAll
        response := (addResponseHeaderLines (withStatus resp.statusCode)
          (ls ++ resp.headers.toList.map headerLine)).setBody resp.body }, []⟩ := by
  obtain ⟨m, ms, ls, heq, htext, hline, hms, hls⟩ := resp.text_eq_unlines
  rw [heq, List.tail_cons] at hc
  refine ⟨ms ++ ls, ?_⟩
  rw [htext, parseResponse_head_closed rfl hline (statusOfLine_status _ m) _ isEndLine_nil]
  · rfl
  · intro l hl
    rcases List.mem_append.mp hl with hl | hl
    · rcases List.mem_append.mp hl with hl | hl
      · exact ⟨hms l hl, hc l hl⟩
      · exact hls l hl
    · obtain ⟨h, hmem, rfl⟩ := List.mem_map.mp hl
      exact (hh h hmem).isHeaderLine

/-- **A line of the message has no colon**: the head ends there, and what is read as the body is
longer than the body. -/
lemma parseResponse_text_of_no_colon {resp : HttpResponse} {e : Bytes}
    (he : e ∈ (segments CR LF resp.statusMessage).tail) (hc : COLON ∉ e) :
    ∃ p, parseResponse {} resp.text = .returned p ∧
      resp.body.length < p.context.response.body.length := by
  obtain ⟨m, ms, ls, heq, htext, hline, hms, -⟩ := resp.text_eq_unlines
  rw [heq, List.tail_cons] at he
  -- the first line without a colon
  obtain ⟨e', hfind⟩ : ∃ e', ms.find? (fun l => decide (COLON ∉ l)) = some e' :=
    Option.isSome_iff_exists.mp (List.find?_isSome.mpr ⟨e, he, by simpa using hc⟩)
  obtain ⟨hc', ms₁, ms₂, rfl, hfirst⟩ := List.find?_eq_some_iff_append.mp hfind
  have hend : IsEndLine e' := ⟨hms e' (by simp), by simpa using hc'⟩
  have hlines : ∀ l ∈ ms₁, IsHeaderLine l :=
    fun l hl => ⟨hms l (List.mem_append_left _ hl), by simpa using hfirst l hl⟩
  have hsplit : unlines CR LF (ms₁ ++ e' :: ms₂ ++ ls ++ resp.headers.toList.map headerLine) ++
      ([] ++ CR :: LF :: resp.body) = unlines CR LF ms₁ ++ (e' ++ CR :: LF ::
        (unlines CR LF (ms₂ ++ ls ++ resp.headers.toList.map headerLine) ++
          CR :: LF :: resp.body)) := by
    simp
  rw [htext, hsplit, parseResponse_head_closed rfl hline (statusOfLine_status _ m) hlines hend]
  refine ⟨_, rfl, ?_⟩
  simp only [setBody, List.length_append, List.length_cons]
  omega

/-- The line of a header puts the header into the map, with a blank in front of its value. -/
lemma getElem?_addResponseHeaderLine (response : HttpResponse) {h : Bytes × Bytes}
    (hp : PlainHeader h) (name : Bytes) :
    (addResponseHeaderLine response (headerLine h)).headers[name]? =
      if h.1 = name then some (SP :: h.2) else response.headers[name]? := by
  rw [addResponseHeaderLine, hp.find_headerLine]
  simp only [addHeader, Std.ExtTreeMap.getElem?_insert, Std.LawfulEqCmp.compare_eq_iff_eq]

/-- The blank stays, whatever the other lines are. -/
lemma getElem?_addResponseHeaderLines (response : HttpResponse) {hs : List (Bytes × Bytes)}
    (hh : ∀ h ∈ hs, PlainHeader h) {k v : Bytes} (hmem : (k, v) ∈ hs)
    (huniq : ∀ h ∈ hs, h.1 = k → h.2 = v) :
    (addResponseHeaderLines response (hs.map headerLine)).headers[k]? = some (SP :: v) := by
  induction hs using List.reverseRecOn with
  | nil => exact absurd hmem List.not_mem_nil
  | append_singleton hs h ih =>
      have hstep : addResponseHeaderLines response ((hs ++ [h]).map headerLine) =
          addResponseHeaderLine (addResponseHeaderLines response (hs.map headerLine))
            (headerLine h) := by
        simp [addResponseHeaderLines]
      rw [hstep, getElem?_addResponseHeaderLine _ (hh h (by simp))]
      split_ifs with hk
      · rw [huniq h (by simp) hk]
      · have hmem' : (k, v) ∈ hs := by
          rcases List.mem_append.mp hmem with hmem | hmem
          · exact hmem
          · exact absurd (congrArg Prod.fst (List.mem_singleton.mp hmem)).symm hk
        exact ih (fun h' hh' => hh h' (List.mem_append_left _ hh')) hmem'
          fun h' hh' => huniq h' (List.mem_append_left _ hh')

/-- **A header read back** has a blank in front of its value. -/
lemma exists_blank_of_colons {resp : HttpResponse} (hh : ∀ h ∈ resp.headers.toList, PlainHeader h)
    (hc : ∀ l ∈ (segments CR LF resp.statusMessage).tail, COLON ∈ l) {k v : Bytes}
    (hk : resp.headers[k]? = some v) :
    ∃ p, parseResponse {} resp.text = .returned p ∧
      p.context.response.headers[k]? = some (SP :: v) := by
  obtain ⟨ls, heq⟩ := parseResponse_text_of_colons hh hc
  refine ⟨_, heq, ?_⟩
  have huniq : ∀ h ∈ resp.headers.toList, h.1 = k → h.2 = v := by
    rintro ⟨k', v'⟩ h rfl
    rw [Std.ExtTreeMap.mem_toList_iff_getElem?_eq_some, hk] at h
    exact (Option.some.inj h).symm
  have hblank := getElem?_addResponseHeaderLines
    (addResponseHeaderLines (withStatus resp.statusCode) ls) hh
    (Std.ExtTreeMap.mem_toList_iff_getElem?_eq_some.mpr hk) huniq
  rwa [addResponseHeaderLines, addResponseHeaderLines, ← List.foldl_append] at hblank

/-! ## The round trip -/

/-- The response is read from the buffer, by a new context, as it was: all of it, without an
error, with its status, its body and each of its headers. -/
def RoundTrips {β : Type} [InputBuffer β] (resp : HttpResponse) (buf : β) : Prop :=
  ∃ p, parseResponse {} buf = .returned p ∧ p.ok = true ∧ p.context.gotAll = true ∧
    p.context.response.statusCode = resp.statusCode ∧ p.context.response.body = resp.body ∧
    ∀ k v : Bytes, resp.headers[k]? = some v → p.context.response.headers[k]? = some v

/-- The round trip depends on the bytes of the buffer only. -/
lemma roundTrips_readable {β : Type} [InputBuffer β] (resp : HttpResponse) (buf : β) :
    RoundTrips resp (readable buf) ↔ RoundTrips resp buf := by
  unfold RoundTrips
  rw [parseResponse_readable]
  rcases parseResponse {} buf with p | _ | _ <;> simp [Parse.map]

/-- A body that is not longer than it was needs a colon in each line of the message. -/
lemma RoundTrips.colons {resp : HttpResponse} (h : RoundTrips resp resp.text) :
    ∀ l ∈ (segments CR LF resp.statusMessage).tail, COLON ∈ l := by
  obtain ⟨p, hp, -, -, -, hbody, -⟩ := h
  intro l hl
  by_contra hc
  obtain ⟨p', hp', hlt⟩ := parseResponse_text_of_no_colon hl hc
  obtain rfl : p = p' := Outcome.returned.inj (hp.symm.trans hp')
  exact absurd (congrArg List.length hbody) hlt.ne'

/-- A response with plain headers that makes the round trip has none: each would be read with a
blank in front. -/
lemma RoundTrips.headers_eq {resp : HttpResponse} (h : RoundTrips resp resp.text)
    (hh : ∀ h ∈ resp.headers.toList, PlainHeader h) : resp.headers = ∅ := by
  have hcolons := h.colons
  obtain ⟨p, hp, -, -, -, -, hheaders⟩ := h
  apply Std.ExtTreeMap.ext_getElem?
  intro k
  rcases hk : resp.headers[k]? with _ | v
  · simp
  · exfalso
    obtain ⟨p', hp', hblank⟩ := exists_blank_of_colons hh hcolons hk
    obtain rfl : p = p' := Outcome.returned.inj (hp.symm.trans hp')
    have hv := Option.some.inj ((hheaders k v hk).symm.trans hblank)
    exact absurd (congrArg List.length hv) (by simp)

/-- **The responses that are read back.** Let the headers of a response be plain, and let a
buffer hold what `appendToBuffer` writes. The parser reads the response back exactly when it has
no header of its own and each line of its status message behind the first one has a colon. -/
theorem parseResponse_roundTrip_iff {β : Type} [InputBuffer β] (buf : β) (resp : HttpResponse)
    (hh : ∀ h ∈ resp.headers.toList, PlainHeader h) (hbuf : readable buf = resp.text) :
    RoundTrips resp buf ↔
      resp.headers = ∅ ∧ ∀ l ∈ (segments CR LF resp.statusMessage).tail, COLON ∈ l := by
  rw [← roundTrips_readable, hbuf]
  constructor
  · exact fun h => ⟨h.headers_eq hh, h.colons⟩
  · rintro ⟨hempty, hcolons⟩
    obtain ⟨ls, heq⟩ := parseResponse_text_of_colons hh hcolons
    refine ⟨_, heq, rfl, by simp [gotAll], ?_, rfl, ?_⟩
    · simp [setBody, withStatus, setStatusCode]
    · intro k v hk
      simp [hempty] at hk

/-- A response without headers is read back, whatever its body has in it. -/
theorem parseResponse_roundTrip_plain :
    RoundTrips { statusCode := .k200Ok, statusMessage := lit "OK", body := lit "a\r\n\r\nb: c" }
      (text { statusCode := .k200Ok, statusMessage := lit "OK", body := lit "a\r\n\r\nb: c" }) := by
  apply (parseResponse_roundTrip_iff _ _ ?_ rfl).mpr
  · exact ⟨rfl, by decide⟩
  · simp

/-- A response with the header `A: b`. -/
def responseWithHeader : HttpResponse :=
  addHeader { statusCode := .k200Ok, statusMessage := lit "OK" } (lit "A") (lit "b")

/-- The header of this response is plain, and is read as one with the value `" b"`. -/
theorem responseWithHeader_not_roundTrips :
    (∀ h ∈ responseWithHeader.headers.toList, PlainHeader h) ∧
      (∃ p, parseResponse {} responseWithHeader.text = .returned p ∧
        p.context.response.headers[lit "A"]? = some (lit " b")) ∧
      ¬ RoundTrips responseWithHeader responseWithHeader.text := by
  have hget : ∀ k, responseWithHeader.headers[k]? =
      if lit "A" = k then some (lit "b") else none := by
    intro k
    simp [responseWithHeader, addHeader, Std.ExtTreeMap.getElem?_insert]
  have hplain : ∀ h ∈ responseWithHeader.headers.toList, PlainHeader h := by
    rintro ⟨k, v⟩ h
    rw [Std.ExtTreeMap.mem_toList_iff_getElem?_eq_some, hget] at h
    split_ifs at h with hk
    obtain rfl := Option.some.inj h
    subst hk
    exact ⟨by decide, by decide, by decide, by decide, by decide⟩
  refine ⟨hplain, ?_, ?_⟩
  · have hcolons : ∀ l ∈ (segments CR LF responseWithHeader.statusMessage).tail, COLON ∈ l := by
      decide
    exact exists_blank_of_colons hplain hcolons (hget (lit "A"))
  · intro h
    have hempty := h.headers_eq hplain
    have := hget (lit "A")
    simp [hempty] at this

end HttpResponse

end SwiftNetCore
