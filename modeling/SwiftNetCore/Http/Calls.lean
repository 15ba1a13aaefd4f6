import SwiftNetCore.Http.Head

/-!
# One call of `parseRequest` on a context that is in use

What a call makes of a context that earlier calls have left, for every state of it.

* `MethodUnset.parseRequest_iff`: the method stays unset where a request line is expected exactly
  when the call refuses no line that starts with a method name; `LineAccepted` says so of the
  bytes.
* `Completes context buf rest`: the bytes `buf` complete the request that the context is reading,
  and `rest` follows it. A call that returns reports a complete request exactly then
  (`Completes.gotAll`, `completes_of_gotAll`).
* `pairFree_of_waits`: a call that waits for more has read all complete lines.
-/

namespace SwiftNetCore

open InputBuffer
open Delimited (PairFree unlines)

namespace HttpContext

variable {receiveTime : Timestamp} {context : HttpContext} {p : Parse Bytes}

/-! ## The method, between two calls -/

/-- Behind a request line the parser does not go back to one. -/
lemma parseRequest_state_ne (hs : context.state ≠ .kExpectRequestLine) {buf : Bytes}
    (h : parseRequest receiveTime context buf = .returned p) :
    p.context.state ≠ .kExpectRequestLine := by
  rcases hs' : context.state with _ | _ | _ | _
  · exact absurd hs' hs
  · obtain ⟨ls, tail, rfl, hls, ht | ⟨e, rest, rfl, he⟩⟩ := headers_cases buf
    · rw [parseRequest_headers_open hs' hls ht] at h
      cases h
      simp [hs']
    · rw [parseRequest_headers_closed hs' hls he] at h
      simp [state_of_finish h]
  · rw [parseRequest_body hs'] at h
    simp [state_of_finish h]
  · rw [parseRequest_gotAll hs'] at h
    cases h

/-- Where a request line is expected, `method_` is not set. -/
def MethodUnset (context : HttpContext) : Prop :=
  context.state = .kExpectRequestLine → context.request.method = .kInvalid

/-- Where a request line is expected and a complete line is there that starts with a method name,
it is a well formed request line. -/
def LineAccepted (context : HttpContext) (buf : Bytes) : Prop :=
  context.state = .kExpectRequestLine → ∀ line rest, buf = line ++ CR :: LF :: rest →
    PairFree CR LF line → StartsWithMethod line → IsRequestLine line

/-- With the method unset where it must be, no assertion fails. -/
lemma MethodUnset.parseRequest_ne_aborted (h : MethodUnset context) (buf : Bytes) :
    parseRequest receiveTime context buf ≠ .aborted := by
  rcases hs : context.state with _ | _ | _ | _
  · have hr := h hs
    rcases request_cases buf with hb | ⟨line, rest, rfl, hl, hline⟩ |
      ⟨line, ls, tail, rfl, hl, hline, hls, ht⟩ | ⟨line, ls, e, rest, rfl, hl, hline, hls, he⟩
    · simp [parseRequest_requestLine_incomplete hs hb]
    · obtain ⟨request, -, -, -, heq⟩ := @parseRequest_refused receiveTime _ hs hr _ hl hline rest
      simp [heq]
    · obtain ⟨request, -, -, -, heq⟩ :=
        @parseRequest_head_open receiveTime _ hs hr _ hl hline _ hls _ ht
      simp [heq]
    · obtain ⟨request, -, -, -, heq⟩ := @parseRequest_head receiveTime _ hs hr _ hl hline _ hls _ he
      rw [heq rest]
      exact finish_ne_aborted
  · obtain ⟨ls, tail, rfl, hls, ht | ⟨e, rest, rfl, he⟩⟩ := headers_cases buf
    · simp [parseRequest_headers_open hs hls ht]
    · rw [parseRequest_headers_closed hs hls he]
      exact finish_ne_aborted
  · rw [parseRequest_body hs]
    exact finish_ne_aborted
  · simp [parseRequest_gotAll hs]

/-- A complete request leaves a context with the method unset. -/
lemma methodUnset_reset (context : HttpContext) : MethodUnset context.reset := fun _ => rfl

/-- What a call leaves has the method unset where it must be exactly when the call refused no
line that starts with a method name. -/
lemma MethodUnset.parseRequest_iff (h : MethodUnset context) {buf : Bytes}
    (hp : parseRequest receiveTime context buf = .returned p) :
    (p.context.gotAll = false → MethodUnset p.context) ↔ LineAccepted context buf := by
  by_cases hs : context.state = .kExpectRequestLine
  · have hr := h hs
    rcases request_cases buf with hb | ⟨line, rest, rfl, hl, hline⟩ |
      ⟨line, ls, tail, rfl, hl, hline, hls, ht⟩ | ⟨line, ls, e, rest, rfl, hl, hline, hls, he⟩
    · -- no complete line: the context stays
      rw [parseRequest_requestLine_incomplete hs hb] at hp
      cases hp
      refine iff_of_true (fun _ => h) ?_
      rintro - line rest rfl
      exact absurd hb Delimited.not_pairFree_split
    · -- a line that is refused has set the method if it starts with one
      obtain ⟨request, hm, -, -, heq⟩ := parseRequest_refused hs hr hl hline rest
      rw [heq] at hp
      cases hp
      have hg : ({ context with request := request } : HttpContext).gotAll = false := by
        simp [gotAll, hs]
      have hleft : MethodUnset { context with request := request } ↔ ¬ StartsWithMethod line := by
        simp [MethodUnset, hs, hm]
      simp only [hg, true_implies, hleft]
      constructor
      · intro hstart _ line' rest' heq' hl' hstart'
        obtain ⟨rfl, -⟩ := Delimited.split_unique CR_ne_LF hl hl' heq'
        exact absurd hstart' hstart
      · intro hacc hstart
        exact hline (hacc hs line rest rfl hl hstart)
    · -- a line that is accepted is a request line
      obtain ⟨request, -, -, -, heq⟩ := parseRequest_head_open hs hr hl hline hls ht
      rw [heq] at hp
      cases hp
      refine iff_of_true (fun _ => by simp [MethodUnset]) ?_
      intro _ line' rest' heq' hl' _
      obtain ⟨rfl, -⟩ := Delimited.split_unique CR_ne_LF hl hl' heq'
      exact hline
    · obtain ⟨request, -, -, -, heq⟩ := parseRequest_head hs hr hl hline hls he
      rw [heq rest] at hp
      have hg : p.context.gotAll = true := by simp [gotAll, state_of_finish hp]
      refine iff_of_true (fun hg' => absurd hg (by simp [hg'])) ?_
      intro _ line' rest' heq' hl' _
      rw [headText_append] at heq'
      obtain ⟨rfl, -⟩ := Delimited.split_unique CR_ne_LF hl hl' heq'
      exact hline
  · refine iff_of_true (fun _ hs' => ?_) (fun hs' => absurd hs' hs)
    exact absurd hs' (parseRequest_state_ne hs hp)

/-! ## Where the current request ends -/

/-- The bytes `buf` complete the request that the context is reading, and `rest` follows it. -/
def Completes (context : HttpContext) (buf rest : Bytes) : Prop :=
  match context.state with
  | .kExpectRequestLine =>
    ∃ line ls e body, buf = headText line ls e ++ (body ++ rest) ∧ PairFree CR LF line ∧
      IsRequestLine line ∧ (∀ l ∈ ls, IsHeaderLine l) ∧ IsEndLine e ∧
      IsBody (IsPostLine line) (contentLength (addHeaderLines context.request ls)) body rest
  | .kExpectHeaders =>
    ∃ ls e body, buf = unlines CR LF ls ++ (e ++ CR :: LF :: (body ++ rest)) ∧
      (∀ l ∈ ls, IsHeaderLine l) ∧ IsEndLine e ∧
      IsBody (context.request.method = .kPost) (contentLength (addHeaderLines context.request ls))
        body rest
  | .kExpectBody =>
    ∃ body, buf = body ++ rest ∧ IsBody True (contentLength context.request) body rest
  | .kGotAll => False

variable {buf rest : Bytes}

/-- A line that is accepted is a request line, and the method was not set. -/
lemma processRequestLine_eq_true {request request' : HttpRequest} {line : Bytes}
    (h : processRequestLine request line = some (true, request')) :
    request.method = .kInvalid ∧ IsRequestLine line := by
  have hr : request.method = .kInvalid := by
    by_contra hne
    unfold processRequestLine at h
    rcases hf : find SP line with _ | ⟨m, rest⟩ <;>
      simp [hf, HttpRequest.setMethod, hne] at h
  obtain ⟨ok, request₁, heq, hok, -⟩ := processRequestLine_spec hr line
  rw [heq] at h
  cases h
  exact ⟨hr, hok.mp rfl⟩

/-- A call that returns from a request line that is well formed has found the method unset. -/
lemma method_of_returned (hs : context.state = .kExpectRequestLine) {line : Bytes}
    (hl : PairFree CR LF line) (hline : IsRequestLine line)
    (h : parseRequest receiveTime context (line ++ CR :: LF :: rest) = .returned p) :
    context.request.method = .kInvalid := by
  by_contra hne
  obtain ⟨m, target, version, rfl, hm, -, -⟩ := hline
  have hnone : processRequestLine context.request (m ++ SP :: (target ++ SP :: version)) = none := by
    unfold processRequestLine
    rw [find_append (HttpRequest.sp_notMem_of_methodOf hm)]
    simp [HttpRequest.setMethod, hne]
  rw [parseRequest_requestLine hs hl, hnone] at h
  cases h

/-- Where the bytes complete the current request, the call reports it and leaves what follows. -/
lemma Completes.gotAll (hc : Completes context buf rest)
    (h : parseRequest receiveTime context buf = .returned p) :
    p.context.gotAll = true ∧ p.buf = rest := by
  unfold Completes at hc
  rcases hs : context.state with _ | _ | _ | _ <;> simp only [hs] at hc
  · obtain ⟨line, ls, e, body, rfl, hl, hline, hls, he, hbody⟩ := hc
    have hr : context.request.method = .kInvalid := by
      rw [headText_append] at h
      exact method_of_returned hs hl hline h
    obtain ⟨request, -, hh, -, heq⟩ := parseRequest_head hs hr hl hline hls he
    rw [← contentLength_congr hh] at hbody
    rw [heq (body ++ rest), finish_of_isBody hbody] at h
    cases h
    exact ⟨by simp [HttpContext.gotAll], rfl⟩
  · obtain ⟨ls, e, body, rfl, hls, he, hbody⟩ := hc
    rw [parseRequest_headers_closed hs hls he, finish_of_isBody hbody] at h
    cases h
    exact ⟨by simp [HttpContext.gotAll], rfl⟩
  · obtain ⟨body, rfl, hbody⟩ := hc
    rw [parseRequest_body hs, finish_of_isBody hbody] at h
    cases h
    exact ⟨by simp [HttpContext.gotAll], rfl⟩

/-- A call that reports a complete request has found the bytes that complete it. -/
lemma completes_of_gotAll (h : parseRequest receiveTime context buf = .returned p)
    (hg : p.context.gotAll = true) : Completes context buf p.buf := by
  unfold Completes
  rcases hs : context.state with _ | _ | _ | _ <;> simp only
  · have hr : context.request.method = .kInvalid := by
      rcases Delimited.pairFree_or_split CR_ne_LF buf with hb | ⟨line, rest, rfl, hl⟩
      · rw [parseRequest_requestLine_incomplete hs hb] at h
        cases h
        simp [gotAll, hs] at hg
      · rw [parseRequest_requestLine hs hl] at h
        rcases hline : processRequestLine context.request line with _ | ⟨_ | _, request⟩ <;>
          simp only [hline] at h
        · cases h
        · cases h
          simp [gotAll, hs] at hg
        · exact (processRequestLine_eq_true hline).1
    obtain ⟨line, ls, e, rest, rfl, hl, hline, hls, he⟩ := exists_head_of_gotAll hs hr h hg
    obtain ⟨request, -, hh, -, heq⟩ := parseRequest_head hs hr hl hline hls he
    rw [heq rest] at h
    obtain ⟨body, rest, rfl, hbody, rfl⟩ := finish_eq_returned_iff.mp h
    rw [contentLength_congr hh] at hbody
    exact ⟨line, ls, e, body, rfl, hl, hline, hls, he, hbody⟩
  · obtain ⟨ls, tail, rfl, hls, ht | ⟨e, rest, rfl, he⟩⟩ := headers_cases buf
    · rw [parseRequest_headers_open hs hls ht] at h
      cases h
      simp [gotAll, hs] at hg
    · rw [parseRequest_headers_closed hs hls he] at h
      obtain ⟨body, rest, rfl, hbody, rfl⟩ := finish_eq_returned_iff.mp h
      exact ⟨ls, e, body, rfl, hls, he, hbody⟩
  · rw [parseRequest_body hs] at h
    obtain ⟨body, rest, rfl, hbody, rfl⟩ := finish_eq_returned_iff.mp h
    exact ⟨body, rfl, hbody⟩
  · rw [parseRequest_gotAll hs] at h
    cases h

/-- In the header state, a call that reports no complete request has read all complete lines. -/
lemma pairFree_of_headers (hs : context.state = .kExpectHeaders)
    (h : parseRequest receiveTime context buf = .returned p) (hg : p.context.gotAll = false) :
    PairFree CR LF p.buf := by
  obtain ⟨ls, tail, rfl, hls, ht | ⟨e, rest, rfl, he⟩⟩ := headers_cases buf
  · rw [parseRequest_headers_open hs hls ht] at h
    cases h
    exact ht
  · rw [parseRequest_headers_closed hs hls he] at h
    simp [gotAll, state_of_finish h] at hg

/-- A call that returns without an error and without a complete request has read all the complete
lines that are there. -/
lemma pairFree_of_waits (h : parseRequest receiveTime context buf = .returned p)
    (hok : p.ok = true) (hg : p.context.gotAll = false) : PairFree CR LF p.buf := by
  rcases hs : context.state with _ | _ | _ | _
  · rcases Delimited.pairFree_or_split CR_ne_LF buf with hb | ⟨line, rest, rfl, hl⟩
    · rw [parseRequest_requestLine_incomplete hs hb] at h
      cases h
      exact hb
    · rw [parseRequest_requestLine hs hl] at h
      rcases hline : processRequestLine context.request line with _ | ⟨_ | _, request⟩ <;>
        simp only [hline] at h
      · cases h
      · cases h
        cases hok
      · exact pairFree_of_headers rfl h hg
  · exact pairFree_of_headers hs h hg
  · rw [parseRequest_body hs] at h
    simp [gotAll, state_of_finish h] at hg
  · rw [parseRequest_gotAll hs] at h
    cases h

end HttpContext

end SwiftNetCore
