import SwiftNetCore.Http.Parser

/-!
# The grammar of a request

What the lines of a request are as text, said without the parser: a request line
(`IsRequestLine`) and header lines with a colon (`IsHeaderLine`). The parser's own end of a head
is any line without a colon (`IsEndLine`).

* `processRequestLine_spec`: what the request line function does with a line, from the line
  alone.
* `parseRequest_headerLines`: any number of header lines at once.
* `parseRequest_headers_open`, `parseRequest_headers_closed`: what a call does in the header
  state, with an incomplete and with a complete head.
* `finish_eq_returned_iff`: how a call ends that has read a complete head.
-/

namespace SwiftNetCore

open InputBuffer
open Delimited (PairFree unlines)

/-! ## Lines -/

/-- A header line: no `"\r\n"` inside, and a colon. -/
def IsHeaderLine (l : Bytes) : Prop := PairFree CR LF l ∧ COLON ∈ l

instance (l : Bytes) : Decidable (IsHeaderLine l) := inferInstanceAs (Decidable (_ ∧ _))

/-- A line at which the parser ends the head: no colon. -/
def IsEndLine (l : Bytes) : Prop := PairFree CR LF l ∧ COLON ∉ l

/-- The line starts with a method name and a space. -/
def StartsWithMethod (line : Bytes) : Prop :=
  ∃ m rest, line = m ++ SP :: rest ∧ HttpRequest.methodOf m ≠ .kInvalid

/-- A well formed request line: method, target and version with one space between them. -/
def IsRequestLine (line : Bytes) : Prop :=
  ∃ m target version, line = m ++ SP :: (target ++ SP :: version) ∧
    HttpRequest.methodOf m ≠ .kInvalid ∧ SP ∉ target ∧
    (version = lit "HTTP/1.1" ∨ version = lit "HTTP/1.0")

/-- The line is that of a POST request. -/
def IsPostLine (line : Bytes) : Prop := lit "POST " <+: line

instance (line : Bytes) : Decidable (IsPostLine line) :=
  inferInstanceAs (Decidable (_ <+: _))

namespace HttpRequest

/-- Five tokens name a method. -/
lemma methodOf_ne_kInvalid_iff {m : Bytes} :
    methodOf m ≠ .kInvalid ↔
      m ∈ [lit "GET", lit "POST", lit "HEAD", lit "PUT", lit "DELETE"] := by
  unfold methodOf
  split_ifs <;> simp_all

/-- A method name has no space. -/
lemma sp_notMem_of_methodOf {m : Bytes} (h : methodOf m ≠ .kInvalid) : SP ∉ m := by
  rw [methodOf_ne_kInvalid_iff] at h
  fin_cases h <;> decide

/-- Only the token `POST` names the method POST. -/
lemma methodOf_eq_kPost_iff {m : Bytes} : methodOf m = .kPost ↔ m = lit "POST" := by
  unfold methodOf
  split_ifs with h <;> simp_all
  decide

end HttpRequest

/-- A prefix up to the first space of a line is the line's first token. -/
lemma isPostLine_iff {m rest : Bytes} (h : SP ∉ m) :
    IsPostLine (m ++ SP :: rest) ↔ m = lit "POST" := by
  constructor
  · rintro ⟨t, ht⟩
    have h₁ : find SP (m ++ SP :: rest) = some (m, rest) := find_append h
    have h₂ : find SP (lit "POST" ++ SP :: t) = some (lit "POST", t) := find_append (by decide)
    rw [← ht, show lit "POST " ++ t = lit "POST" ++ SP :: t from rfl, h₂] at h₁
    exact (congrArg Prod.fst (Option.some.inj h₁)).symm
  · rintro rfl
    exact ⟨rest, rfl⟩

/-- A line starts with a method when the part in front of its first space names one. -/
lemma startsWithMethod_iff {line : Bytes} :
    StartsWithMethod line ↔
      ∃ m rest, find SP line = some (m, rest) ∧ HttpRequest.methodOf m ≠ .kInvalid := by
  constructor
  · rintro ⟨m, rest, rfl, hm⟩
    exact ⟨m, rest, find_append (HttpRequest.sp_notMem_of_methodOf hm), hm⟩
  · rintro ⟨m, rest, hf, hm⟩
    exact ⟨m, rest, (find_eq_some_iff.mp hf).1, hm⟩

/-- A line is a request line when its first two spaces cut it into the three parts. -/
lemma isRequestLine_iff {line : Bytes} :
    IsRequestLine line ↔
      ∃ m rest target version, find SP line = some (m, rest) ∧
        HttpRequest.methodOf m ≠ .kInvalid ∧ find SP rest = some (target, version) ∧
        (version = lit "HTTP/1.1" ∨ version = lit "HTTP/1.0") := by
  constructor
  · rintro ⟨m, target, version, rfl, hm, ht, hv⟩
    exact ⟨m, _, target, version, find_append (HttpRequest.sp_notMem_of_methodOf hm), hm,
      find_append ht, hv⟩
  · rintro ⟨m, rest, target, version, hf, hm, ht, hv⟩
    obtain ⟨rfl, -⟩ := find_eq_some_iff.mp hf
    obtain ⟨rfl, htarget⟩ := find_eq_some_iff.mp ht
    exact ⟨m, target, version, rfl, hm, htarget, hv⟩

namespace HttpContext

/-! ## The request line function on a line -/

/-- `setTarget` touches the path and the query only. -/
lemma setTarget_frame (request : HttpRequest) (target : Bytes) :
    (setTarget request target).method = request.method ∧
      (setTarget request target).headers = request.headers ∧
      (setTarget request target).body = request.body := by
  unfold setTarget
  split <;> exact ⟨rfl, rfl, rfl⟩

/-- The tests of the function for its two versions hold of these alone. -/
lemma version_cases {version : Bytes} :
    (version.length = 8 ∧ version.take 7 = lit "HTTP/1." ∧ version.drop 7 = lit "1" ↔
        version = lit "HTTP/1.1") ∧
      (version.length = 8 ∧ version.take 7 = lit "HTTP/1." ∧ version.drop 7 = lit "0" ↔
        version = lit "HTTP/1.0") := by
  have key : ∀ d : Bytes, d.length = 1 →
      (version.length = 8 ∧ version.take 7 = lit "HTTP/1." ∧ version.drop 7 = d ↔
        version = lit "HTTP/1." ++ d) := by
    intro d hd
    constructor
    · rintro ⟨-, h₁, h₂⟩
      rw [← h₁, ← h₂, List.take_append_drop]
    · rintro rfl
      have h7 : (lit "HTTP/1.").length = 7 := rfl
      exact ⟨by rw [List.length_append, h7, hd], List.take_left' h7, List.drop_left' h7⟩
  exact ⟨key (lit "1") rfl, key (lit "0") rfl⟩

/-- The function takes a line apart at its first two spaces, when the method may be set. -/
lemma processRequestLine_eq {request : HttpRequest} (hr : request.method = .kInvalid)
    (line : Bytes) :
    processRequestLine request line =
      match find SP line with
      | none => some (false, request)
      | some (m, rest) =>
        let request := { request with method := HttpRequest.methodOf m }
        if HttpRequest.methodOf m = .kInvalid then some (false, request)
        else
          match find SP rest with
          | none => some (false, request)
          | some (target, version) =>
            if version = lit "HTTP/1.1" then
              some (true, (setTarget request target).setVersion .kHttp11)
            else if version = lit "HTTP/1.0" then
              some (true, (setTarget request target).setVersion .kHttp10)
            else some (false, setTarget request target) := by
  unfold processRequestLine
  rcases find SP line with _ | ⟨m, rest⟩
  · rfl
  · simp only [HttpRequest.setMethod, hr, if_true, ne_eq]
    by_cases hm : HttpRequest.methodOf m = .kInvalid
    · simp [hm]
    · simp only [hm, not_false_eq_true, decide_true, if_false]
      rcases find SP rest with _ | ⟨target, version⟩
      · rfl
      · obtain ⟨h₁, h₀⟩ := @version_cases version
        simp only
        by_cases hv₁ : version = lit "HTTP/1.1"
        · obtain ⟨ha, hb, hc⟩ := h₁.mpr hv₁
          rw [if_pos ⟨ha, hb⟩, if_pos hc, if_pos hv₁]
        · rw [if_neg hv₁]
          by_cases hv₀ : version = lit "HTTP/1.0"
          · obtain ⟨ha, hb, hc⟩ := h₀.mpr hv₀
            rw [if_pos ⟨ha, hb⟩, if_neg fun h => hv₁ (h₁.mp ⟨ha, hb, h⟩), if_pos hc, if_pos hv₀]
          · rw [if_neg hv₀]
            split_ifs with ha hb hc
            · exact absurd (h₁.mp ⟨ha.1, ha.2, hb⟩) hv₁
            · exact absurd (h₀.mp ⟨ha.1, ha.2, hc⟩) hv₀
            · rfl
            · rfl

/-- **What the request line function does**, when the method may be set: it accepts the well
formed lines, and a line that it refuses has set the method exactly when it starts with one. -/
lemma processRequestLine_spec {request : HttpRequest} (hr : request.method = .kInvalid)
    (line : Bytes) :
    ∃ (ok : Bool) (request' : HttpRequest),
      processRequestLine request line = some (ok, request') ∧
        (ok = true ↔ IsRequestLine line) ∧
        (request'.method = .kPost ↔ IsPostLine line) ∧
        (request'.method = .kInvalid ↔ ¬ StartsWithMethod line) ∧
        request'.headers = request.headers ∧ request'.body = request.body := by
  rw [processRequestLine_eq hr, isRequestLine_iff, startsWithMethod_iff]
  rcases hf : find SP line with _ | ⟨m, rest⟩
  · -- no space: neither a method nor a request line
    have hpost : ¬ IsPostLine line := by
      rintro ⟨t, rfl⟩
      exact find_eq_none_iff.mp hf (List.mem_append_left _ (by decide))
    exact ⟨false, request, rfl, by simp, by simp [hr, hpost], by simp [hr], rfl, rfl⟩
  · have hpost : IsPostLine line ↔ HttpRequest.methodOf m = .kPost := by
      obtain ⟨rfl, hm⟩ := find_eq_some_iff.mp hf
      rw [isPostLine_iff hm, HttpRequest.methodOf_eq_kPost_iff]
    simp only [hpost, Option.some.injEq, Prod.mk.injEq, ne_eq, existsAndEq, true_and,
      exists_and_left]
    by_cases hm : HttpRequest.methodOf m = .kInvalid
    · exact ⟨false, { request with method := HttpRequest.methodOf m }, by simp [hm], by simp [hm],
        Iff.rfl, by simp [hm], rfl, rfl⟩
    · simp only [hm, if_false, not_false_eq_true, true_and, not_true, iff_false]
      rcases ht : find SP rest with _ | ⟨target, version⟩
      · exact ⟨false, _, rfl, by simp, Iff.rfl, hm, rfl, rfl⟩
      · obtain ⟨h₁, h₂, h₃⟩ :=
          setTarget_frame { request with method := HttpRequest.methodOf m } target
        simp only [Option.some.injEq, Prod.mk.injEq, existsAndEq, true_and]
        split_ifs with hv₁ hv₀
        · refine ⟨true, _, rfl, by simp [hv₁], ?_, ?_, h₂, h₃⟩
          · simp [HttpRequest.setVersion, h₁]
          · simp [HttpRequest.setVersion, h₁, hm]
        · refine ⟨true, _, rfl, by simp [hv₀], ?_, ?_, h₂, h₃⟩
          · simp [HttpRequest.setVersion, h₁]
          · simp [HttpRequest.setVersion, h₁, hm]
        · exact ⟨false, _, rfl, by simp [hv₁, hv₀], by simp [h₁], by simp [h₁, hm], h₂, h₃⟩

/-! ## A head at once -/

/-- What the header branch does with the lines `ls`, one after the other. -/
def addHeaderLines (request : HttpRequest) (ls : List Bytes) : HttpRequest :=
  ls.foldl addHeaderLine request

/-- No lines add no header. -/
@[simp] lemma addHeaderLines_nil (request : HttpRequest) : addHeaderLines request [] = request :=
  rfl

/-- The header of the first line is added first. -/
@[simp] lemma addHeaderLines_cons (request : HttpRequest) (l : Bytes) (ls : List Bytes) :
    addHeaderLines request (l :: ls) = addHeaderLines (addHeaderLine request l) ls := rfl

/-- A header line changes the headers only, and by what they were. -/
lemma addHeaderLine_frame (request : HttpRequest) (l : Bytes) :
    addHeaderLine request l =
      { request with headers := (addHeaderLine { headers := request.headers } l).headers } := by
  unfold addHeaderLine
  split <;> rfl

/-- Header lines change the headers only, and by what they were. -/
lemma addHeaderLines_frame (request : HttpRequest) (ls : List Bytes) :
    addHeaderLines request ls =
      { request with
        headers := (addHeaderLines { headers := request.headers } ls).headers } := by
  induction ls generalizing request with
  | nil => rfl
  | cons l ls ih =>
      rw [addHeaderLines_cons, ih, addHeaderLines_cons, ih (addHeaderLine { headers := _ } l),
        addHeaderLine_frame request l]

/-- Headers leave the method alone. -/
@[simp] lemma addHeaderLines_method (request : HttpRequest) (ls : List Bytes) :
    (addHeaderLines request ls).method = request.method := by
  rw [addHeaderLines_frame]

/-- Headers leave the body alone. -/
@[simp] lemma addHeaderLines_body (request : HttpRequest) (ls : List Bytes) :
    (addHeaderLines request ls).body = request.body := by
  rw [addHeaderLines_frame]

/-- Header lines leave the same headers where there were the same before. -/
lemma addHeaderLines_headers_congr {request request' : HttpRequest}
    (h : request.headers = request'.headers) (ls : List Bytes) :
    (addHeaderLines request ls).headers = (addHeaderLines request' ls).headers := by
  rw [addHeaderLines_frame, addHeaderLines_frame request', h]

/-- The value of the header `Content-Length`, or the empty string. -/
def contentLength (request : HttpRequest) : Bytes := request.getHeader (lit "Content-Length")

/-- The same headers have the same `Content-Length`. -/
lemma contentLength_congr {request request' : HttpRequest}
    (h : request.headers = request'.headers) : contentLength request = contentLength request' := by
  simp only [contentLength, HttpRequest.getHeader, h]

/-- What the body state does with the bytes that are there: the body and the bytes behind it, or
`none` when the announced body has not arrived. -/
def takeBody (request : HttpRequest) (buf : Bytes) : Option (Bytes × Bytes) :=
  if contentLength request = [] then some (buf, [])
  else if sizeT (atoi (contentLength request)) ≤ buf.length then
    some (buf.splitAt (sizeT (atoi (contentLength request))))
  else none

/-- The body that is taken is a prefix of the bytes: of the announced length, or all of them
where none is announced. -/
lemma takeBody_eq_some_iff {request : HttpRequest} {buf body rest : Bytes} :
    takeBody request buf = some (body, rest) ↔
      buf = body ++ rest ∧ (contentLength request = [] → rest = []) ∧
        (contentLength request ≠ [] → sizeT (atoi (contentLength request)) = body.length) := by
  unfold takeBody
  split_ifs with hc hle
  · simp only [Option.some.injEq, Prod.mk.injEq, hc, true_implies, ne_eq, not_true, false_implies,
      and_true]
    constructor
    · rintro ⟨rfl, rfl⟩
      simp
    · rintro ⟨rfl, rfl⟩
      simp
  · simp only [List.splitAt_eq, Option.some.injEq, Prod.mk.injEq, hc, false_implies, ne_eq,
      not_false_eq_true, true_implies, true_and]
    constructor
    · rintro ⟨rfl, rfl⟩
      exact ⟨(List.take_append_drop _ _).symm, by simp [hle]⟩
    · rintro ⟨rfl, hlen⟩
      rw [hlen]
      simp
  · simp only [hc, false_implies, ne_eq, not_false_eq_true, true_implies, true_and, false_iff,
      not_and]
    rintro rfl hlen
    exact hle (by simp [hlen])

/-- `body` is the body of a request and `rest` the bytes behind it: of a POST request, the body
has the announced length, or takes all bytes where no length is announced; of any other request
it is empty. -/
def IsBody (post : Prop) [Decidable post] (length body rest : Bytes) : Prop :=
  if post then (length = [] → rest = []) ∧ (length ≠ [] → sizeT (atoi length) = body.length)
  else body = []

/-- A request without a body gets this one. -/
lemma IsBody.request_body {request : HttpRequest} {post : Prop} [Decidable post]
    {length body rest : Bytes} (h : IsBody post length body rest) (hb : request.body = []) :
    (if post then request.setBody body else request).body = body := by
  unfold IsBody at h
  split_ifs at h ⊢
  · rfl
  · rw [hb, h]

/-- How a call ends that has read the whole head of `request`: a POST request gets its body from
the bytes `buf` behind the head, any other is complete. -/
def finish (context : HttpContext) (request : HttpRequest) (post : Prop) [Decidable post]
    (buf : Bytes) : Outcome (Parse Bytes) :=
  if post then
    match takeBody request buf with
    | some (body, rest) =>
      .returned ⟨true, { context with state := .kGotAll, request := request.setBody body }, rest⟩
    | none => .hangs
  else .returned ⟨true, { context with state := .kGotAll, request := request }, buf⟩

section finish

variable {context : HttpContext} {request : HttpRequest} {post : Prop} [Decidable post]
  {buf : Bytes} {p : Parse Bytes}

/-- The end of a call returns with the body that the bytes begin with. -/
lemma finish_eq_returned_iff :
    finish context request post buf = .returned p ↔
      ∃ body rest, buf = body ++ rest ∧ IsBody post (contentLength request) body rest ∧
        p = ⟨true, { context with
          state := .kGotAll
          request := if post then request.setBody body else request }, rest⟩ := by
  unfold finish IsBody
  by_cases hpost : post
  · simp only [hpost, if_true]
    constructor
    · intro h
      rcases ht : takeBody request buf with _ | ⟨body, rest⟩ <;> simp only [ht] at h <;> cases h
      obtain ⟨heq, hbody⟩ := takeBody_eq_some_iff.mp ht
      exact ⟨body, rest, heq, hbody, rfl⟩
    · rintro ⟨body, rest, heq, hbody, rfl⟩
      rw [takeBody_eq_some_iff.mpr ⟨heq, hbody⟩]
  · simp only [hpost, if_false]
    constructor
    · intro h
      cases h
      exact ⟨[], buf, rfl, rfl, rfl⟩
    · rintro ⟨body, rest, rfl, rfl, rfl⟩
      rfl

/-- A call that has the whole body takes it and leaves what is behind it. -/
lemma finish_of_isBody {body rest : Bytes} (h : IsBody post (contentLength request) body rest) :
    finish context request post (body ++ rest) =
      .returned ⟨true, { context with
        state := .kGotAll
        request := if post then request.setBody body else request }, rest⟩ :=
  finish_eq_returned_iff.mpr ⟨body, rest, rfl, h, rfl⟩

/-- The end of a call returns with a complete request only. -/
lemma state_of_finish (h : finish context request post buf = .returned p) :
    p.context.state = .kGotAll := by
  obtain ⟨body, rest, -, -, rfl⟩ := finish_eq_returned_iff.mp h
  rfl

/-- The end of a call never aborts. -/
lemma finish_ne_aborted : finish context request post buf ≠ .aborted := by
  unfold finish
  split_ifs
  · rcases takeBody request buf with _ | ⟨body, rest⟩ <;> simp
  · simp

/-- The end of a call does not return where the body of a POST request is not there. -/
lemma finish_eq_hangs_iff :
    finish context request post buf = .hangs ↔ post ∧ takeBody request buf = none := by
  unfold finish
  by_cases hpost : post
  · rcases takeBody request buf with _ | ⟨body, rest⟩ <;> simp [hpost]
  · simp [hpost]

end finish

variable {receiveTime : Timestamp} {context : HttpContext}

/-- In the body state, a call comes to its end. -/
lemma parseRequest_body (hs : context.state = .kExpectBody) (buf : Bytes) :
    parseRequest receiveTime context buf = finish context context.request True buf := by
  rw [finish, if_pos trivial]
  unfold takeBody
  split_ifs with hc hle
  · exact parseRequest_body_all hs hc
  · rw [List.splitAt_eq]
    exact parseRequest_body_length hs hc hle
  · exact parseRequest_body_short hs hc (Nat.not_le.mp hle)

/-- In the header state, header lines are read and added to the request. -/
lemma parseRequest_headerLines (hs : context.state = .kExpectHeaders) {ls : List Bytes}
    (hls : ∀ l ∈ ls, IsHeaderLine l) (tail : Bytes) :
    parseRequest receiveTime context (unlines CR LF ls ++ tail) =
      parseRequest receiveTime
        { context with request := addHeaderLines context.request ls } tail := by
  induction ls generalizing context with
  | nil => rfl
  | cons l ls ih =>
      obtain ⟨hl, hc⟩ := hls l (by simp)
      rw [Delimited.unlines_cons, List.append_assoc, List.cons_append, List.cons_append,
        parseRequest_headerLine hs hl hc]
      exact ih hs fun m hm => hls m (List.mem_cons_of_mem _ hm)

/-- Every text in the header state is header lines and then no complete line, or an end line. -/
lemma headers_cases (buf : Bytes) :
    ∃ ls tail, buf = unlines CR LF ls ++ tail ∧ (∀ l ∈ ls, IsHeaderLine l) ∧
      (PairFree CR LF tail ∨ ∃ e rest, tail = e ++ CR :: LF :: rest ∧ IsEndLine e) :=
  Delimited.exists_unlines (p := fun l => COLON ∈ l) CR_ne_LF buf

/-- Header lines and an end line are determined by the text. -/
lemma headers_unique {ls ls' : List Bytes} {e e' rest rest' : Bytes}
    (hls : ∀ l ∈ ls, IsHeaderLine l) (hls' : ∀ l ∈ ls', IsHeaderLine l) (he : IsEndLine e)
    (he' : IsEndLine e')
    (heq : unlines CR LF ls ++ (e ++ CR :: LF :: rest) =
      unlines CR LF ls' ++ (e' ++ CR :: LF :: rest')) :
    ls = ls' ∧ e = e' ∧ rest = rest' :=
  Delimited.unlines_unique (p := fun l => COLON ∈ l) CR_ne_LF hls hls' he he' heq

/-- Header lines without an end line: the rest of the head is waited for. -/
lemma parseRequest_headers_open (hs : context.state = .kExpectHeaders) {ls : List Bytes}
    (hls : ∀ l ∈ ls, IsHeaderLine l) {tail : Bytes} (ht : PairFree CR LF tail) :
    parseRequest receiveTime context (unlines CR LF ls ++ tail) =
      .returned ⟨true, { context with request := addHeaderLines context.request ls }, tail⟩ := by
  rw [parseRequest_headerLines hs hls]
  exact parseRequest_header_incomplete hs ht

/-- Header lines and an end line: a POST request gets its body, any other is complete. -/
lemma parseRequest_headers_closed (hs : context.state = .kExpectHeaders) {ls : List Bytes}
    (hls : ∀ l ∈ ls, IsHeaderLine l) {e : Bytes} (he : IsEndLine e) (rest : Bytes) :
    parseRequest receiveTime context (unlines CR LF ls ++ (e ++ CR :: LF :: rest)) =
      finish context (addHeaderLines context.request ls) (context.request.method = .kPost)
        rest := by
  have hs' : { context with request := addHeaderLines context.request ls }.state =
    .kExpectHeaders := hs
  rw [parseRequest_headerLines hs hls, parseRequest_endLine hs' he.1 he.2]
  simp only [addHeaderLines_method]
  split_ifs with hm
  · rw [parseRequest_body rfl]
    simp only [finish, hm, if_true]
  · rw [finish, if_neg hm]

end HttpContext

end SwiftNetCore
