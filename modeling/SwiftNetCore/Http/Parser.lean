import SwiftNetCore.Http.Context

/-!
# The parsers as equations

What a call of `parseRequest` or `parseResponse` does, line by line, with no loop and no bound in
the statements:

* both loops make progress or stand still, so their bounded runs decide how they end
  (`parseRequest_hangs_iff`);
* what a call does depends on the readable bytes only (`parseRequest_readable`);
* `parseRequest_requestLine`, `parseRequest_headerLine`, `parseRequest_endLine`, … say what a
  call does with the first line of the bytes, in each state, as a call on what is left.

Every later fact about the parsers is derived from these equations.
-/

namespace SwiftNetCore

open Loops (Flow)
open InputBuffer
open Delimited (PairFree unlines)

namespace HttpContext

variable {β : Type} [InputBuffer β] {receiveTime : Timestamp}

/-! ## Progress -/

/-- What `retrieveUntil` leaves behind a line that was found is shorter. -/
lemma readableBytes_retrieveUntil_lt {buf : β} {i : ℕ} (h : findCRLF buf = some i) :
    readableBytes (retrieveUntil (i + 2) buf) < readableBytes buf := by
  have := Delimited.add_two_le_of_search h
  simp only [readableBytes, readable_retrieveUntil, List.length_drop]
  omega

/-- An evaluation of the request parser's loop that goes round again takes bytes off the buffer
or changes nothing. -/
lemma parseRequestIteration_progress (p p' : Parse β)
    (h : parseRequestIteration receiveTime p = .again p') :
    readableBytes p'.buf < readableBytes p.buf ∨ p' = p := by
  unfold parseRequestIteration at h
  rcases hs : p.context.state with _ | _ | _ | _ <;> simp only [hs] at h
  · rcases hc : findCRLF p.buf with _ | i <;> simp only [hc] at h
    · cases h
    · rcases hl : processRequestLine p.context.request ((readable p.buf).take i) with
        _ | ⟨_ | _, request⟩ <;> simp only [hl] at h
      · cases h
      · cases h
      · cases h
        exact .inl (readableBytes_retrieveUntil_lt hc)
  · rcases hc : findCRLF p.buf with _ | i <;> simp only [hc] at h
    · cases h
    · split_ifs at h
      · cases h
        exact .inl (readableBytes_retrieveUntil_lt hc)
      · cases h
        exact .inl (readableBytes_retrieveUntil_lt hc)
  · split_ifs at h
    cases h
    exact .inr rfl
  · cases h
    exact .inr rfl

/-- When the body of the response parser goes round again, it has consumed bytes or changed
nothing. -/
lemma parseResponseIteration_progress (p p' : Parse β)
    (h : parseResponseIteration p = .again p') :
    readableBytes p'.buf < readableBytes p.buf ∨ p' = p := by
  unfold parseResponseIteration at h
  rcases hs : p.context.state with _ | _ | _ | _ <;> simp only [hs] at h
  · rcases hc : findCRLF p.buf with _ | i <;> simp only [hc] at h
    · cases h
    · rcases hl : statusOfLine ((readable p.buf).take i) with _ | statusCode <;>
        simp only [hl] at h
      · cases h
      · cases h
        exact .inl (readableBytes_retrieveUntil_lt hc)
  · rcases hc : findCRLF p.buf with _ | i <;> simp only [hc] at h
    · cases h
    · split_ifs at h
      · cases h
        exact .inl (readableBytes_retrieveUntil_lt hc)
      · cases h
        exact .inl (readableBytes_retrieveUntil_lt hc)
  · cases h
  · cases h
    exact .inr rfl

/-- **`hangs` is what it says**: the loop does not end, under any bound. -/
theorem parseRequest_hangs_iff (context : HttpContext) (buf : β) :
    parseRequest receiveTime context buf = .hangs ↔
      ¬ Loops.Halts (parseRequestIteration receiveTime) (⟨true, context, buf⟩ : Parse β) := by
  rw [Loops.halts_iff_iterate (fun p : Parse β => readableBytes p.buf)
    parseRequestIteration_progress]
  simp only [parseRequest]
  rcases Loops.iterate (parseRequestIteration receiveTime) (readableBytes buf + 1)
    (⟨true, context, buf⟩ : Parse β) with _ | _ | p <;> simp [Outcome.ofRun]

/-! ## One evaluation -/

/-- Going round again is calling again. -/
lemma parseRequest_of_again {context context' : HttpContext} {buf buf' : β}
    (h : parseRequestIteration receiveTime ⟨true, context, buf⟩ = .again ⟨true, context', buf'⟩) :
    parseRequest receiveTime context buf = parseRequest receiveTime context' buf' := by
  unfold parseRequest
  rw [Loops.iterate_measure_of_again (fun p : Parse β => readableBytes p.buf)
    parseRequestIteration_progress h]

/-- A call whose first evaluation leaves the loop returns what that gives. -/
lemma parseRequest_of_leave {context : HttpContext} {buf : β} {r : Option (Parse β)}
    (h : parseRequestIteration receiveTime ⟨true, context, buf⟩ = .leave r) :
    parseRequest receiveTime context buf = .ofRun (some r) := by
  unfold parseRequest
  rw [Loops.iterate_succ_of_leave h]

/-- Going round again in the same state is never returning. -/
lemma parseRequest_of_fixed {context : HttpContext} {buf : β}
    (h : parseRequestIteration receiveTime ⟨true, context, buf⟩ = .again ⟨true, context, buf⟩) :
    parseRequest receiveTime context buf = .hangs :=
  (parseRequest_hangs_iff context buf).mpr (Loops.not_halts_of_fixed h)

/-- A call whose loop goes round again returns what a call in the next state returns. -/
lemma parseResponse_of_again {context context' : HttpContext} {buf buf' : β}
    (h : parseResponseIteration ⟨true, context, buf⟩ = .again ⟨true, context', buf'⟩) :
    parseResponse context buf = parseResponse context' buf' := by
  unfold parseResponse
  rw [Loops.iterate_measure_of_again (fun p : Parse β => readableBytes p.buf)
    parseResponseIteration_progress h]

/-- A call whose loop is left at once returns what the loop was left with. -/
lemma parseResponse_of_leave {context : HttpContext} {buf : β} {r : Option (Parse β)}
    (h : parseResponseIteration ⟨true, context, buf⟩ = .leave r) :
    parseResponse context buf = .ofRun (some r) := by
  unfold parseResponse
  rw [Loops.iterate_succ_of_leave h]

/-! ## Only the readable bytes matter -/

/-- One evaluation commutes with forgetting how the buffer stores its readable bytes. -/
lemma parseRequestIteration_readable (p : Parse β) :
    parseRequestIteration receiveTime (p.map readable) =
      (parseRequestIteration receiveTime p).map (Parse.map readable)
        (Option.map (Parse.map readable)) := by
  have hfind : findCRLF (readable p.buf) = findCRLF p.buf := rfl
  have hbytes : readableBytes (readable p.buf) = readableBytes p.buf := rfl
  unfold parseRequestIteration
  simp only [Parse.map, hfind, hbytes, readable_bytes]
  rcases p.context.state with _ | _ | _ | _
  · rcases findCRLF p.buf with _ | i
    · rfl
    · rcases hl : processRequestLine p.context.request ((readable p.buf).take i) with
        _ | ⟨_ | _, request⟩ <;> simp [Parse.map, hl]
  · rcases findCRLF p.buf with _ | i
    · rfl
    · simp only
      split_ifs <;> simp [Parse.map]
  · simp only
    split_ifs <;> simp [Parse.map]
  · simp [Parse.map]

/-- **What `parseRequest` does depends on the readable bytes only.** -/
theorem parseRequest_readable (context : HttpContext) (buf : β) :
    parseRequest receiveTime context (readable buf) =
      (parseRequest receiveTime context buf).map (Parse.map readable) := by
  unfold parseRequest
  rw [show (⟨true, context, readable buf⟩ : Parse Bytes) =
    Parse.map readable ⟨true, context, buf⟩ from rfl,
    Loops.iterate_map parseRequestIteration_readable]
  show Outcome.ofRun (Option.map _ (Loops.iterate _ (readableBytes buf + 1) _)) = _
  rcases Loops.iterate (parseRequestIteration receiveTime) (readableBytes buf + 1)
    (⟨true, context, buf⟩ : Parse β) with _ | _ | p <;> rfl

/-- What a returning call leaves, on the readable bytes. -/
lemma exists_returned_readable_iff {context : HttpContext} {buf : β}
    {P : Bool → HttpContext → Bytes → Prop} :
    (∃ p, parseRequest receiveTime context buf = .returned p ∧
        P p.ok p.context (readable p.buf)) ↔
      ∃ p, parseRequest receiveTime context (readable buf) = .returned p ∧
        P p.ok p.context p.buf := by
  rw [parseRequest_readable]
  rcases parseRequest receiveTime context buf with p | _ | _ <;> simp [Parse.map]

/-- One evaluation of the response parser commutes with forgetting how the buffer stores its
readable bytes. -/
lemma parseResponseIteration_readable (p : Parse β) :
    parseResponseIteration (p.map readable) =
      (parseResponseIteration p).map (Parse.map readable) (Option.map (Parse.map readable)) := by
  have hfind : findCRLF (readable p.buf) = findCRLF p.buf := rfl
  have hbytes : readableBytes (readable p.buf) = readableBytes p.buf := rfl
  unfold parseResponseIteration
  simp only [Parse.map, hfind, hbytes, readable_bytes]
  rcases p.context.state with _ | _ | _ | _
  · rcases findCRLF p.buf with _ | i
    · rfl
    · rcases hl : statusOfLine ((readable p.buf).take i) with _ | statusCode <;>
        simp [Parse.map, hl]
  · rcases findCRLF p.buf with _ | i
    · rfl
    · simp only
      split_ifs <;> simp [Parse.map]
  · simp [Parse.map]
  · simp [Parse.map]

/-- **What `parseResponse` does depends on the readable bytes only.** -/
theorem parseResponse_readable (context : HttpContext) (buf : β) :
    parseResponse context (readable buf) =
      (parseResponse context buf).map (Parse.map readable) := by
  unfold parseResponse
  rw [show (⟨true, context, readable buf⟩ : Parse Bytes) =
    Parse.map readable ⟨true, context, buf⟩ from rfl,
    Loops.iterate_map parseResponseIteration_readable]
  show Outcome.ofRun (Option.map _ (Loops.iterate _ (readableBytes buf + 1) _)) = _
  rcases Loops.iterate parseResponseIteration (readableBytes buf + 1)
    (⟨true, context, buf⟩ : Parse β) with _ | _ | p <;> rfl

/-! ## The request parser, line by line -/

section request

variable {context : HttpContext} {line rest buf : Bytes}

/-- `findCRLF` on the text of a line finds the line. -/
lemma findCRLF_line (hl : PairFree CR LF line) :
    findCRLF (line ++ CR :: LF :: rest) = some line.length :=
  Delimited.search_line CR_ne_LF hl

/-- Without a complete line the request line is waited for. -/
lemma parseRequest_requestLine_incomplete (hs : context.state = .kExpectRequestLine)
    (hb : PairFree CR LF buf) :
    parseRequest receiveTime context buf = .returned ⟨true, context, buf⟩ := by
  apply parseRequest_of_leave (r := some _)
  have : findCRLF buf = none := hb
  simp [parseRequestIteration, hs, this]

/-- A complete line in state `kExpectRequestLine` gives an assertion failure, an error that leaves
the bytes where they are, or the header state behind it. -/
lemma parseRequest_requestLine (hs : context.state = .kExpectRequestLine)
    (hl : PairFree CR LF line) :
    parseRequest receiveTime context (line ++ CR :: LF :: rest) =
      match processRequestLine context.request line with
      | none => .aborted
      | some (true, request) =>
        parseRequest receiveTime
          { context with
            state := .kExpectHeaders
            request := request.setReceiveTime receiveTime } rest
      | some (false, request) =>
        .returned ⟨false, { context with request := request }, line ++ CR :: LF :: rest⟩ := by
  rcases h : processRequestLine context.request line with _ | ⟨_ | _, request⟩
  · apply parseRequest_of_leave (r := none)
    simp [parseRequestIteration, hs, findCRLF_line hl, h]
  · apply parseRequest_of_leave (r := some _)
    simp [parseRequestIteration, hs, findCRLF_line hl, h]
  · apply parseRequest_of_again
    simp [parseRequestIteration, hs, findCRLF_line hl, h]

/-- Without a complete line the rest of the head is waited for. -/
lemma parseRequest_header_incomplete (hs : context.state = .kExpectHeaders)
    (hb : PairFree CR LF buf) :
    parseRequest receiveTime context buf = .returned ⟨true, context, buf⟩ := by
  apply parseRequest_of_leave (r := some _)
  have : findCRLF buf = none := hb
  simp [parseRequestIteration, hs, this]

/-- A line with a colon is a header. -/
lemma parseRequest_headerLine (hs : context.state = .kExpectHeaders) (hl : PairFree CR LF line)
    (hc : COLON ∈ line) :
    parseRequest receiveTime context (line ++ CR :: LF :: rest) =
      parseRequest receiveTime { context with request := addHeaderLine context.request line }
        rest := by
  apply parseRequest_of_again
  simp [parseRequestIteration, hs, findCRLF_line hl, hc]

/-- A line without a colon ends the head: of a POST request the body comes next, any other
request is complete. -/
lemma parseRequest_endLine (hs : context.state = .kExpectHeaders) (hl : PairFree CR LF line)
    (hc : COLON ∉ line) :
    parseRequest receiveTime context (line ++ CR :: LF :: rest) =
      if context.request.method = .kPost then
        parseRequest receiveTime { context with state := .kExpectBody } rest
      else .returned ⟨true, { context with state := .kGotAll }, rest⟩ := by
  split_ifs with hm
  · apply parseRequest_of_again
    simp [parseRequestIteration, hs, findCRLF_line hl, hc, hm]
  · apply parseRequest_of_leave (r := some _)
    simp [parseRequestIteration, hs, findCRLF_line hl, hc, hm]

/-- Without a `Content-Length` the body is whatever is there. -/
lemma parseRequest_body_all (hs : context.state = .kExpectBody)
    (hc : context.request.getHeader (lit "Content-Length") = []) :
    parseRequest receiveTime context buf =
      .returned ⟨true, { context with
        state := .kGotAll
        request := context.request.setBody buf }, []⟩ := by
  apply parseRequest_of_leave (r := some _)
  simp [parseRequestIteration, hs, hc]

/-- With a `Content-Length` of at most the bytes that are there, the body is that many. -/
lemma parseRequest_body_length (hs : context.state = .kExpectBody)
    (hc : context.request.getHeader (lit "Content-Length") ≠ [])
    (hle : sizeT (atoi (context.request.getHeader (lit "Content-Length"))) ≤ buf.length) :
    parseRequest receiveTime context buf =
      .returned ⟨true, { context with
        state := .kGotAll
        request := context.request.setBody
          (buf.take (sizeT (atoi (context.request.getHeader (lit "Content-Length"))))) },
        buf.drop (sizeT (atoi (context.request.getHeader (lit "Content-Length"))))⟩ := by
  apply parseRequest_of_leave (r := some _)
  simp [parseRequestIteration, hs, hc, hle]

/-- With a larger `Content-Length` the loop goes round for ever: the branch leaves `hasMore` set
and changes nothing. -/
lemma parseRequest_body_short (hs : context.state = .kExpectBody)
    (hc : context.request.getHeader (lit "Content-Length") ≠ [])
    (hlt : buf.length < sizeT (atoi (context.request.getHeader (lit "Content-Length")))) :
    parseRequest receiveTime context buf = .hangs := by
  apply parseRequest_of_fixed
  simp [parseRequestIteration, hs, hc, Nat.not_le.mpr hlt]

/-- No branch is taken in state `kGotAll`. -/
lemma parseRequest_gotAll (hs : context.state = .kGotAll) :
    parseRequest receiveTime context buf = .hangs := by
  apply parseRequest_of_fixed
  simp [parseRequestIteration, hs]

end request

end HttpContext

end SwiftNetCore
