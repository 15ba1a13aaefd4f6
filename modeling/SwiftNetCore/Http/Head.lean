import SwiftNetCore.Http.Grammar

/-!
# A whole head, and a whole request

`headText line ls e` is the text of a head: the request line, the header lines and the line that
ends it, which the grammar wants empty and the parser only wants without a colon. A text splits
into a head and the rest in one way at most (`headText_unique`).

* `lastValue name ls` is the value of the last header called `name` among the lines `ls`, read
  off the lines; `getHeader_addHeaderLines` says that the parser's map has the same.
* `parseRequest_head`: what a call does with a complete head, from state `kExpectRequestLine`.
* `exists_head_of_gotAll`: a call that reports a complete request has read a complete head.
* `RequestText` is a complete request, with its well-formedness.
-/

namespace SwiftNetCore

open InputBuffer
open Delimited (PairFree unlines)

/-! ## The text of a head -/

/-- The request line `line`, the header lines `ls` and the line `e` that ends the head. -/
def headText (line : Bytes) (ls : List Bytes) (e : Bytes) : Bytes :=
  line ++ CR :: LF :: (unlines CR LF ls ++ (e ++ [CR, LF]))

/-- A head with more bytes behind it is its first line with its end, and the rest. -/
lemma headText_append (line : Bytes) (ls : List Bytes) (e rest : Bytes) :
    headText line ls e ++ rest =
      line ++ CR :: LF :: (unlines CR LF ls ++ (e ++ CR :: LF :: rest)) := by
  simp [headText]

/-- A text determines its head and what follows it. -/
lemma headText_unique {line line' e e' rest rest' : Bytes} {ls ls' : List Bytes}
    (hl : PairFree CR LF line) (hl' : PairFree CR LF line') (hls : ∀ l ∈ ls, IsHeaderLine l)
    (hls' : ∀ l ∈ ls', IsHeaderLine l) (he : IsEndLine e) (he' : IsEndLine e')
    (heq : headText line ls e ++ rest = headText line' ls' e' ++ rest') :
    line = line' ∧ ls = ls' ∧ e = e' ∧ rest = rest' := by
  rw [headText_append, headText_append] at heq
  obtain ⟨h₁, h₂⟩ := Delimited.split_unique CR_ne_LF hl hl' heq
  exact ⟨h₁, HttpContext.headers_unique hls hls' he he' h₂⟩

/-- The empty line ends a head. -/
lemma isEndLine_nil : IsEndLine [] := ⟨Delimited.pairFree_nil, by simp⟩

/-! ## The value of a header -/

/-- The value that the line `l` gives to the header `name`, if it is that header. -/
def valueOf (name l : Bytes) : Option Bytes :=
  match find COLON l with
  | some (field, value) => if field = name then some (trim value) else none
  | none => none

/-- The value of the last header called `name`. -/
def lastValue (name : Bytes) (ls : List Bytes) : Option Bytes :=
  (ls.filterMap (valueOf name)).getLast?

/-- The value of the last `Content-Length`, or the empty string. -/
def announced (ls : List Bytes) : Bytes := (lastValue (lit "Content-Length") ls).getD []

/-- The last value of a header is that of the last line, if this has one. -/
lemma lastValue_concat (name : Bytes) (ls : List Bytes) (l : Bytes) :
    lastValue name (ls ++ [l]) = (valueOf name l).or (lastValue name ls) := by
  unfold lastValue
  rw [List.filterMap_append, List.getLast?_append]
  rcases h : valueOf name l with _ | v <;> simp [h]

/-- A line that gives the header a value leaves it with one. -/
lemma lastValue_ne_none {name l : Bytes} {ls : List Bytes} (hl : l ∈ ls)
    (hv : valueOf name l ≠ none) : lastValue name ls ≠ none := by
  obtain ⟨v, hv⟩ := Option.ne_none_iff_exists'.mp hv
  have hmem : v ∈ ls.filterMap (valueOf name) := List.mem_filterMap.mpr ⟨l, hl, hv⟩
  rw [lastValue, ne_eq, List.getLast?_eq_none_iff]
  exact List.ne_nil_of_mem hmem

namespace HttpContext

/-- A header line stores the value that it gives for its name, and leaves the other headers. -/
lemma getElem?_addHeaderLine (request : HttpRequest) (l name : Bytes) :
    (addHeaderLine request l).headers[name]? = (valueOf name l).or request.headers[name]? := by
  unfold addHeaderLine valueOf
  rcases find COLON l with _ | ⟨field, value⟩
  · rfl
  · simp only [HttpRequest.addHeader, Std.ExtTreeMap.getElem?_insert,
      Std.LawfulEqCmp.compare_eq_iff_eq]
    split_ifs <;> rfl

/-- The map after the header lines has the last value given to each header. -/
lemma getElem?_addHeaderLines (request : HttpRequest) (ls : List Bytes) (name : Bytes) :
    (addHeaderLines request ls).headers[name]? = (lastValue name ls).or request.headers[name]? := by
  induction ls using List.reverseRecOn with
  | nil => rfl
  | append_singleton ls l ih =>
      rw [addHeaderLines, List.foldl_append, List.foldl_cons, List.foldl_nil,
        getElem?_addHeaderLine, lastValue_concat, Option.or_assoc, ← ih]
      rfl

/-- The `Content-Length` after a whole head is the one that its lines announce. -/
lemma contentLength_addHeaderLines {request : HttpRequest} (h : request.headers = ∅)
    (ls : List Bytes) : contentLength (addHeaderLines request ls) = announced ls := by
  rw [contentLength, HttpRequest.getHeader, getElem?_addHeaderLines, h]
  simp [announced]

/-! ## What a call does with a head -/

variable {receiveTime : Timestamp} {context : HttpContext}

/-- A well formed request line is accepted where the method may be set. -/
lemma processRequestLine_of_isRequestLine {request : HttpRequest} {line : Bytes}
    (hr : request.method = .kInvalid) (h : IsRequestLine line) :
    ∃ request', processRequestLine request line = some (true, request') ∧
      (request'.method = .kPost ↔ IsPostLine line) ∧ request'.headers = request.headers ∧
      request'.body = request.body := by
  obtain ⟨ok, request', heq, hok, hpost, -, hh, hb⟩ := processRequestLine_spec hr line
  rw [hok.mpr h] at heq
  exact ⟨request', heq, hpost, hh, hb⟩

/-- **A complete head**, from state `kExpectRequestLine`: the request has what the head says, and
a POST request gets its body from the bytes behind the head. -/
lemma parseRequest_head (hs : context.state = .kExpectRequestLine)
    (hr : context.request.method = .kInvalid) {line : Bytes} (hl : PairFree CR LF line)
    (hline : IsRequestLine line) {ls : List Bytes} (hls : ∀ l ∈ ls, IsHeaderLine l) {e : Bytes}
    (he : IsEndLine e) :
    ∃ request : HttpRequest, (request.method = .kPost ↔ IsPostLine line) ∧
      request.headers = (addHeaderLines context.request ls).headers ∧
      request.body = context.request.body ∧
      ∀ rest, parseRequest receiveTime context (headText line ls e ++ rest) =
        finish context request (IsPostLine line) rest := by
  obtain ⟨request, heq, hpost, hh, hb⟩ := processRequestLine_of_isRequestLine hr hline
  refine ⟨addHeaderLines (request.setReceiveTime receiveTime) ls, ?_, ?_, ?_, fun rest => ?_⟩
  · simpa using hpost
  · exact addHeaderLines_headers_congr (by simpa using hh) ls
  · simpa using hb
  · rw [headText_append, parseRequest_requestLine hs hl, heq]
    simp only
    rw [parseRequest_headers_closed rfl hls he]
    unfold finish
    exact if_congr hpost rfl rfl

/-- Every text in the state `kExpectRequestLine` has no complete line, a first line that is no
request line, an incomplete head, or a complete one. -/
lemma request_cases (s : Bytes) :
    PairFree CR LF s ∨
      (∃ line rest, s = line ++ CR :: LF :: rest ∧ PairFree CR LF line ∧ ¬ IsRequestLine line) ∨
      (∃ line ls tail, s = line ++ CR :: LF :: (unlines CR LF ls ++ tail) ∧ PairFree CR LF line ∧
        IsRequestLine line ∧ (∀ l ∈ ls, IsHeaderLine l) ∧ PairFree CR LF tail) ∨
      ∃ line ls e rest, s = headText line ls e ++ rest ∧ PairFree CR LF line ∧
        IsRequestLine line ∧ (∀ l ∈ ls, IsHeaderLine l) ∧ IsEndLine e := by
  rcases Delimited.pairFree_or_split CR_ne_LF s with hs | ⟨line, rest, rfl, hl⟩
  · exact .inl hs
  by_cases hline : IsRequestLine line
  · obtain ⟨ls, tail, rfl, hls, ht | ⟨e, rest, rfl, he⟩⟩ := headers_cases rest
    · exact .inr (.inr (.inl ⟨line, ls, tail, rfl, hl, hline, hls, ht⟩))
    · exact .inr (.inr (.inr ⟨line, ls, e, rest, (headText_append _ _ _ _).symm, hl, hline, hls,
        he⟩))
  · exact .inr (.inl ⟨line, rest, rfl, hl, hline⟩)

/-- A first line that is no request line is refused: the state and the bytes stay. -/
lemma parseRequest_refused (hs : context.state = .kExpectRequestLine)
    (hr : context.request.method = .kInvalid) {line : Bytes} (hl : PairFree CR LF line)
    (hline : ¬ IsRequestLine line) (rest : Bytes) :
    ∃ request : HttpRequest, (request.method = .kInvalid ↔ ¬ StartsWithMethod line) ∧
      request.headers = context.request.headers ∧ request.body = context.request.body ∧
      parseRequest receiveTime context (line ++ CR :: LF :: rest) =
        .returned ⟨false, { context with request := request }, line ++ CR :: LF :: rest⟩ := by
  obtain ⟨ok, request, heq, hok, -, hm, hh, hb⟩ := processRequestLine_spec hr line
  obtain rfl : ok = false := by simpa [hline] using hok
  exact ⟨request, hm, hh, hb, by rw [parseRequest_requestLine hs hl, heq]⟩

/-- An incomplete head is read up to its last complete line. -/
lemma parseRequest_head_open (hs : context.state = .kExpectRequestLine)
    (hr : context.request.method = .kInvalid) {line : Bytes} (hl : PairFree CR LF line)
    (hline : IsRequestLine line) {ls : List Bytes} (hls : ∀ l ∈ ls, IsHeaderLine l) {tail : Bytes}
    (ht : PairFree CR LF tail) :
    ∃ request : HttpRequest, (request.method = .kPost ↔ IsPostLine line) ∧
      request.headers = (addHeaderLines context.request ls).headers ∧
      request.body = context.request.body ∧
      parseRequest receiveTime context (line ++ CR :: LF :: (unlines CR LF ls ++ tail)) =
        .returned ⟨true, { context with state := .kExpectHeaders, request := request }, tail⟩ := by
  obtain ⟨request, heq, hpost, hh, hb⟩ := processRequestLine_of_isRequestLine hr hline
  refine ⟨addHeaderLines (request.setReceiveTime receiveTime) ls, ?_, ?_, ?_, ?_⟩
  · simpa using hpost
  · exact addHeaderLines_headers_congr (by simpa using hh) ls
  · simpa using hb
  · rw [parseRequest_requestLine hs hl, heq]
    simp only
    rw [parseRequest_headers_open rfl hls ht]

/-- A call that reports a complete request has read a complete head. -/
lemma exists_head_of_gotAll (hs : context.state = .kExpectRequestLine)
    (hr : context.request.method = .kInvalid) {s : Bytes} {p : Parse Bytes}
    (h : parseRequest receiveTime context s = .returned p) (hg : p.context.gotAll = true) :
    ∃ line ls e rest, s = headText line ls e ++ rest ∧ PairFree CR LF line ∧
      IsRequestLine line ∧ (∀ l ∈ ls, IsHeaderLine l) ∧ IsEndLine e := by
  rcases request_cases s with hs' | ⟨line, rest, rfl, hl, hline⟩ |
    ⟨line, ls, tail, rfl, hl, hline, hls, ht⟩ | hhead
  · rw [parseRequest_requestLine_incomplete hs hs'] at h
    cases h
    simp [gotAll, hs] at hg
  · obtain ⟨request, -, -, -, heq⟩ := parseRequest_refused hs hr hl hline rest
    rw [heq] at h
    cases h
    simp [gotAll, hs] at hg
  · obtain ⟨request, -, -, -, heq⟩ := parseRequest_head_open hs hr hl hline hls ht
    rw [heq] at h
    cases h
    simp [gotAll] at hg
  · exact hhead

end HttpContext

/-! ## A whole request -/

/-- The body that a request with this line and these headers has: of a POST request, as many
bytes as the last `Content-Length` says, or any where there is none; of any other, none. -/
def BodyFits (line : Bytes) (ls : List Bytes) (body : Bytes) : Prop :=
  if IsPostLine line then announced ls ≠ [] → sizeT (atoi (announced ls)) = body.length
  else body = []

/-- Such a body, with nothing behind it, is the body of the request. -/
lemma bodyFits_iff {line : Bytes} {ls : List Bytes} {body : Bytes} :
    BodyFits line ls body ↔ HttpContext.IsBody (IsPostLine line) (announced ls) body [] := by
  simp [BodyFits, HttpContext.IsBody]

/-- One complete request: the request line, the header lines, the empty line and the body. -/
structure RequestText where
  /-- the request line -/
  line : Bytes
  /-- the header lines -/
  headers : List Bytes
  /-- the body -/
  body : Bytes
  pairFree_line : PairFree CR LF line
  isRequestLine : IsRequestLine line
  isHeaderLine : ∀ l ∈ headers, IsHeaderLine l
  bodyFits : BodyFits line headers body

namespace RequestText

/-- The head of the request, with the empty line that ends it. -/
def head (r : RequestText) : Bytes := headText r.line r.headers []

/-- The bytes of the request. -/
def text (r : RequestText) : Bytes := r.head ++ r.body

end RequestText

end SwiftNetCore
