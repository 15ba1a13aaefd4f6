import SwiftNetCore.Http.Grammar

/-!
# The response parser as equations

`parseResponse` line by line, as `Parser` has it for requests. The response parser looks at no
length: the line that ends the head is followed by a body of all the bytes that are there.

* `parseResponse_statusLine`, `parseResponse_headers_open`, `parseResponse_headers_closed`: what
  a call does with the first line, and with an incomplete and a complete head behind it.
* `response_cases`: a text has no complete line, a first line that is no status line, an
  incomplete head, or a complete one.
* `parseResponse_returns`: a call on a new context always returns.
-/

namespace SwiftNetCore

open InputBuffer
open Delimited (PairFree unlines)

/-- The line reads as a status line. -/
def IsStatusLine (line : Bytes) : Prop := HttpContext.statusOfLine line ≠ none

instance (line : Bytes) : Decidable (IsStatusLine line) := inferInstanceAs (Decidable (_ ≠ _))

namespace HttpContext

variable {context : HttpContext} {line rest buf : Bytes}

/-! ## One line -/

/-- Without a complete line the status line is waited for. -/
lemma parseResponse_statusLine_incomplete (hs : context.state = .kExpectRequestLine)
    (hb : PairFree CR LF buf) :
    parseResponse context buf = .returned ⟨true, context, buf⟩ := by
  apply parseResponse_of_leave (r := some _)
  have : findCRLF buf = none := hb
  simp [parseResponseIteration, hs, this]

/-- A complete line in state `kExpectRequestLine` gives an error that leaves the bytes where they
are, or the header state behind it. -/
lemma parseResponse_statusLine (hs : context.state = .kExpectRequestLine)
    (hl : PairFree CR LF line) :
    parseResponse context (line ++ CR :: LF :: rest) =
      match statusOfLine line with
      | none => .returned ⟨false, context, line ++ CR :: LF :: rest⟩
      | some statusCode =>
        parseResponse
          { context with
            state := .kExpectHeaders
            response := context.response.setStatusCode statusCode } rest := by
  rcases h : statusOfLine line with _ | statusCode
  · apply parseResponse_of_leave (r := some _)
    simp [parseResponseIteration, hs, findCRLF_line hl, h]
  · apply parseResponse_of_again
    simp [parseResponseIteration, hs, findCRLF_line hl, h]

/-- Without a complete line the rest of the head is waited for. -/
lemma parseResponse_header_incomplete (hs : context.state = .kExpectHeaders)
    (hb : PairFree CR LF buf) :
    parseResponse context buf = .returned ⟨true, context, buf⟩ := by
  apply parseResponse_of_leave (r := some _)
  have : findCRLF buf = none := hb
  simp [parseResponseIteration, hs, this]

/-- A line with a colon is a header. -/
lemma parseResponse_headerLine (hs : context.state = .kExpectHeaders) (hl : PairFree CR LF line)
    (hc : COLON ∈ line) :
    parseResponse context (line ++ CR :: LF :: rest) =
      parseResponse { context with response := addResponseHeaderLine context.response line }
        rest := by
  apply parseResponse_of_again
  simp [parseResponseIteration, hs, findCRLF_line hl, hc]

/-- The body is whatever is there. -/
lemma parseResponse_body (hs : context.state = .kExpectBody) :
    parseResponse context buf =
      .returned ⟨true, { context with
        state := .kGotAll
        response := context.response.setBody buf }, []⟩ := by
  apply parseResponse_of_leave (r := some _)
  simp [parseResponseIteration, hs]

/-- A line without a colon ends the head: all that follows is the body. -/
lemma parseResponse_endLine (hs : context.state = .kExpectHeaders) (hl : PairFree CR LF line)
    (hc : COLON ∉ line) :
    parseResponse context (line ++ CR :: LF :: rest) =
      .returned ⟨true, { context with
        state := .kGotAll
        response := context.response.setBody rest }, []⟩ := by
  have hnext : parseResponse context (line ++ CR :: LF :: rest) =
      parseResponse { context with state := .kExpectBody } rest := by
    apply parseResponse_of_again
    simp [parseResponseIteration, hs, findCRLF_line hl, hc]
  rw [hnext, parseResponse_body rfl]

/-! ## A head at once -/

/-- What the header branch does with the lines `ls`, one after the other. -/
def addResponseHeaderLines (response : HttpResponse) (ls : List Bytes) : HttpResponse :=
  ls.foldl addResponseHeaderLine response

/-- A header line changes the headers only. -/
lemma addResponseHeaderLine_statusCode (response : HttpResponse) (l : Bytes) :
    (addResponseHeaderLine response l).statusCode = response.statusCode := by
  unfold addResponseHeaderLine
  split <;> rfl

/-- Headers leave the status alone. -/
@[simp] lemma addResponseHeaderLines_statusCode (response : HttpResponse) (ls : List Bytes) :
    (addResponseHeaderLines response ls).statusCode = response.statusCode := by
  induction ls generalizing response with
  | nil => rfl
  | cons l ls ih => exact (ih _).trans (addResponseHeaderLine_statusCode response l)

/-- In the header state, header lines are read and added to the response. -/
lemma parseResponse_headerLines (hs : context.state = .kExpectHeaders) {ls : List Bytes}
    (hls : ∀ l ∈ ls, IsHeaderLine l) (tail : Bytes) :
    parseResponse context (unlines CR LF ls ++ tail) =
      parseResponse
        { context with response := addResponseHeaderLines context.response ls } tail := by
  induction ls generalizing context with
  | nil => rfl
  | cons l ls ih =>
      obtain ⟨hl, hc⟩ := hls l (by simp)
      rw [Delimited.unlines_cons, List.append_assoc, List.cons_append, List.cons_append,
        parseResponse_headerLine hs hl hc]
      exact ih hs fun m hm => hls m (List.mem_cons_of_mem _ hm)

/-- A status line and header lines without an end line: what was read is gone from the buffer. -/
lemma parseResponse_head_open (hs : context.state = .kExpectRequestLine)
    (hl : PairFree CR LF line) {statusCode : ℤ} (hstatus : statusOfLine line = some statusCode)
    {ls : List Bytes} (hls : ∀ l ∈ ls, IsHeaderLine l) {tail : Bytes} (ht : PairFree CR LF tail) :
    parseResponse context (line ++ CR :: LF :: (unlines CR LF ls ++ tail)) =
      .returned ⟨true, { context with
        state := .kExpectHeaders
        response := addResponseHeaderLines (context.response.setStatusCode statusCode) ls },
        tail⟩ := by
  rw [parseResponse_statusLine hs hl, hstatus]
  simp only
  rw [parseResponse_headerLines rfl hls]
  exact parseResponse_header_incomplete rfl ht

/-- The body of a response with a complete head is whatever is behind it. -/
lemma parseResponse_head_closed (hs : context.state = .kExpectRequestLine)
    (hl : PairFree CR LF line) {statusCode : ℤ} (hstatus : statusOfLine line = some statusCode)
    {ls : List Bytes} (hls : ∀ l ∈ ls, IsHeaderLine l) {e : Bytes} (he : IsEndLine e)
    (rest : Bytes) :
    parseResponse context (line ++ CR :: LF :: (unlines CR LF ls ++ (e ++ CR :: LF :: rest))) =
      .returned ⟨true, { context with
        state := .kGotAll
        response := (addResponseHeaderLines (context.response.setStatusCode statusCode)
          ls).setBody rest }, []⟩ := by
  rw [parseResponse_statusLine hs hl, hstatus]
  simp only
  rw [parseResponse_headerLines rfl hls, parseResponse_endLine rfl he.1 he.2]

/-- A first line that is no status line is refused: the bytes stay. -/
lemma parseResponse_refused (hs : context.state = .kExpectRequestLine) (hl : PairFree CR LF line)
    (hstatus : ¬ IsStatusLine line) (rest : Bytes) :
    parseResponse context (line ++ CR :: LF :: rest) =
      .returned ⟨false, context, line ++ CR :: LF :: rest⟩ := by
  rw [parseResponse_statusLine hs hl, not_not.mp hstatus]

/-- Every text has no complete line, a first line that is no status line, an incomplete head, or
a complete one. -/
lemma response_cases (s : Bytes) :
    PairFree CR LF s ∨
      (∃ line rest, s = line ++ CR :: LF :: rest ∧ PairFree CR LF line ∧ ¬ IsStatusLine line) ∨
      (∃ line statusCode ls tail, s = line ++ CR :: LF :: (unlines CR LF ls ++ tail) ∧
        PairFree CR LF line ∧ statusOfLine line = some statusCode ∧ (∀ l ∈ ls, IsHeaderLine l) ∧
        PairFree CR LF tail) ∨
      ∃ line statusCode ls e rest,
        s = line ++ CR :: LF :: (unlines CR LF ls ++ (e ++ CR :: LF :: rest)) ∧
        PairFree CR LF line ∧ statusOfLine line = some statusCode ∧ (∀ l ∈ ls, IsHeaderLine l) ∧
        IsEndLine e := by
  rcases Delimited.pairFree_or_split CR_ne_LF s with hs | ⟨line, rest, rfl, hl⟩
  · exact .inl hs
  rcases hstatus : statusOfLine line with _ | statusCode
  · exact .inr (.inl ⟨line, rest, rfl, hl, not_not.mpr hstatus⟩)
  · obtain ⟨ls, tail, rfl, hls, ht | ⟨e, rest, rfl, he⟩⟩ := headers_cases rest
    · exact .inr (.inr (.inl ⟨line, statusCode, ls, tail, rfl, hl, hstatus, hls, ht⟩))
    · exact .inr (.inr (.inr ⟨line, statusCode, ls, e, rest, rfl, hl, hstatus, hls, he⟩))

/-- A call on a new context always returns. -/
lemma parseResponse_returns (s : Bytes) : ∃ p, parseResponse {} s = .returned p := by
  rcases response_cases s with hs | ⟨line, rest, rfl, hl, hline⟩ |
    ⟨line, statusCode, ls, tail, rfl, hl, hstatus, hls, ht⟩ |
    ⟨line, statusCode, ls, e, rest, rfl, hl, hstatus, hls, he⟩
  · exact ⟨_, parseResponse_statusLine_incomplete rfl hs⟩
  · exact ⟨_, parseResponse_refused rfl hl hline rest⟩
  · exact ⟨_, parseResponse_head_open rfl hl hstatus hls ht⟩
  · exact ⟨_, parseResponse_head_closed rfl hl hstatus hls he rest⟩

end HttpContext

end SwiftNetCore
