import SwiftNetCore.Http.RequestLine
import SwiftNetCore.Http.HeaderText
import SwiftNetCore.Http.Client

/-!
# A request from the client to the parser

`sendRequest` writes a request and `parseRequest` reads it, in files that share no code.

* `requestText_eq_headText`: what is sent has the head that is meant, a request line and one line
  for each header.
* `parseRequest_requestText`: for any request with plain headers and a body that its headers
  announce, a new context has its method, its target, its headers and its body again.
* `parseRequest_roundTrip`: the requests of `get` and `post` are such requests.
-/

namespace SwiftNetCore

open InputBuffer
open Delimited (PairFree unlines)
open HttpContext
open HttpClient (requestText getRequest)

/-! ## What is sent -/

/-- A method's name is in the table of names. -/
lemma methodString_mem {req : HttpRequest} (hm : req.method ≠ .kInvalid) :
    req.methodString ∈ methodNames.map Prod.fst := by
  apply HttpRequest.methodOf_ne_kInvalid_iff.mp
  rwa [HttpRequest.methodOf_methodString req hm]

/-- The request line that `sendRequest` writes. -/
def requestLine (req : HttpRequest) (hm : req.method ≠ .kInvalid) (hp : SP ∉ req.path) :
    RequestLine :=
  ⟨req.methodString, req.path, lit "HTTP/1.1", methodString_mem hm, hp, by decide⟩

variable {req : HttpRequest} (hm : req.method ≠ .kInvalid) (hp : SP ∉ req.path)

/-- **The text of a request** is a head and a body. -/
lemma requestText_eq_headText :
    requestText req =
      headText (requestLine req hm hp).text (req.headers.toList.map headerLine) [] ++ req.body := by
  have hversion : lit " HTTP/1.1\r\n" = lit " " ++ lit "HTTP/1.1" ++ crlf := by decide
  rw [requestText, flatMap_headerText, hversion]
  simp [headText, RequestLine.text, requestLine]

/-- The request line has no delimiter inside, if the path has none. -/
lemma pairFree_requestLine (hcrlf : PairFree CR LF req.path) :
    PairFree CR LF (requestLine req hm hp).text := by
  have hmethod : ∀ m ∈ methodNames.map Prod.fst, CR ∉ m := by decide
  have hstart : CR ∉ req.methodString ++ lit " " := by
    intro h
    rcases List.mem_append.mp h with h | h
    · exact hmethod _ (methodString_mem hm) h
    · exact absurd h (by decide)
  have hend : PairFree CR LF (req.path ++ SP :: lit "HTTP/1.1") :=
    hcrlf.append_cons (by decide) (by decide)
  have htext : (requestLine req hm hp).text =
      (req.methodString ++ lit " ") ++ (req.path ++ SP :: lit "HTTP/1.1") := by
    have hsp : lit " " = [SP] := rfl
    simp [RequestLine.text, requestLine, hsp]
  rw [htext]
  exact hend.append_left hstart

/-! ## What is read -/

/-- The lines of plain headers leave the headers of the request in an empty map. -/
lemma headers_addHeaderLines (hh : ∀ h ∈ req.headers.toList, PlainHeader h)
    {request : HttpRequest} (hempty : request.headers = ∅) :
    (addHeaderLines request (req.headers.toList.map headerLine)).headers = req.headers := by
  apply Std.ExtTreeMap.ext_getElem?
  intro name
  rw [getElem?_addHeaderLines, lastValue_headerLines hh, hempty]
  simp

include hm hp in
/-- What a new context stores for the request line. -/
lemma processRequestLine_requestLine :
    ∃ request : HttpRequest,
      processRequestLine {} (requestLine req hm hp).text = some (true, request) ∧
        request.method = req.method ∧ request.version = .kHttp11 ∧
        request.path ++ request.query = req.path ∧ request.headers = ∅ ∧ request.body = [] := by
  obtain ⟨h₁, h₂, h₃⟩ :=
    setTarget_frame { method := HttpRequest.methodOf req.methodString } req.path
  refine ⟨_, processRequestLine_text rfl (requestLine req hm hp), ?_, rfl, ?_, h₂, h₃⟩
  · exact h₁.trans (HttpRequest.methodOf_methodString req hm)
  · exact setTarget_path_append_query rfl req.path

include hm hp in
/-- **A request read back**, by a new context: it has the method, the target, the headers and
the body of the one that was sent, and no byte is left. -/
lemma parseRequest_requestText {receiveTime : Timestamp} (hcrlf : PairFree CR LF req.path)
    (hh : ∀ h ∈ req.headers.toList, PlainHeader h)
    (hbody : IsBody (req.method = .kPost) (contentLength req) req.body []) :
    ∃ request : HttpRequest,
      parseRequest receiveTime {} (requestText req) =
        .returned ⟨true, { state := .kGotAll, request := request }, []⟩ ∧
      request.method = req.method ∧ request.version = .kHttp11 ∧
      request.path ++ request.query = req.path ∧ request.headers = req.headers ∧
      request.body = req.body := by
  obtain ⟨request, hline, h₁, h₂, h₃, h₄, h₅⟩ := processRequestLine_requestLine hm hp
  have hlines : ∀ l ∈ req.headers.toList.map headerLine, IsHeaderLine l := by
    intro l hl
    obtain ⟨h, hmem, rfl⟩ := List.mem_map.mp hl
    exact (hh h hmem).isHeaderLine
  -- the request with its headers, as the header state leaves it
  set request' := addHeaderLines (request.setReceiveTime receiveTime)
    (req.headers.toList.map headerLine) with hrequest'
  have hframe : request' = { request.setReceiveTime receiveTime with
      headers := request'.headers } := by
    rw [hrequest', addHeaderLines_frame]
  have hheaders : request'.headers = req.headers := headers_addHeaderLines hh h₄
  have hisBody : IsBody (request.method = .kPost) (contentLength request') req.body [] := by
    rwa [contentLength_congr hheaders, h₁]
  have hnil : request'.body = [] := by
    rw [hframe]
    exact h₅
  -- where there is no POST, there is no body to set
  have hset : (if request.method = .kPost then request'.setBody req.body else request') =
      request'.setBody req.body := by
    unfold IsBody at hisBody
    split_ifs with hpost
    · rfl
    · rw [if_neg hpost] at hisBody
      rw [hisBody, ← hnil]
      rfl
  refine ⟨request'.setBody req.body, ?_, ?_⟩
  · have hfinish : finish
        { state := .kExpectHeaders, request := request.setReceiveTime receiveTime } request'
        (request.method = .kPost) (req.body ++ []) = _ :=
      finish_of_isBody hisBody
    rw [List.append_nil, hset] at hfinish
    rw [requestText_eq_headText hm hp, headText_append,
      parseRequest_requestLine rfl (pairFree_requestLine hm hp hcrlf), hline]
    simp only
    rw [parseRequest_headers_closed rfl hlines isEndLine_nil]
    exact hfinish
  · rw [HttpRequest.setBody, hframe]
    exact ⟨h₁, h₂, h₃, hheaders, rfl⟩

/-! ## The requests of `get` and `post` -/

/-- The request `req`, sent to a new context in one piece, is read: all of it, without an error,
and with the same method and target. `P` says more about what was read. -/
def RoundTrips {β : Type} [InputBuffer β] (receiveTime : Timestamp) (buf : β) (req : HttpRequest)
    (P : HttpRequest → Prop) : Prop :=
  ∃ p, parseRequest receiveTime {} buf = .returned p ∧ p.ok = true ∧ p.context.gotAll = true ∧
    readable p.buf = [] ∧ p.context.request.method = req.method ∧
    p.context.request.version = .kHttp11 ∧
    p.context.request.path ++ p.context.request.query = req.path ∧ P p.context.request

/-- A request that is read back from its bytes is read back from any buffer that holds them. -/
lemma roundTrips_of_parse {β : Type} [InputBuffer β] {receiveTime : Timestamp} {buf : β}
    {req : HttpRequest} {P : HttpRequest → Prop} (hbuf : readable buf = requestText req)
    (h : ∃ request : HttpRequest,
      parseRequest receiveTime {} (requestText req) =
        .returned ⟨true, { state := .kGotAll, request := request }, []⟩ ∧
      request.method = req.method ∧ request.version = .kHttp11 ∧
      request.path ++ request.query = req.path ∧ P request) : RoundTrips receiveTime buf req P := by
  obtain ⟨request, heq, h⟩ := h
  apply (exists_returned_readable_iff (P := fun ok context b => ok = true ∧
    context.gotAll = true ∧ b = [] ∧ context.request.method = req.method ∧
    context.request.version = .kHttp11 ∧
    context.request.path ++ context.request.query = req.path ∧ P context.request)).mpr
  rw [hbuf]
  exact ⟨_, heq, rfl, by simp [gotAll], rfl, h⟩

section post

variable {path body contentType : Bytes}

/-- A request of `post` has the headers `Content-Length` and `Content-Type`, and no other. -/
lemma getElem?_postRequest (name : Bytes) :
    (HttpClient.postRequest path body contentType).headers[name]? =
      if lit "Content-Length" = name then some (decimal body.length)
      else if lit "Content-Type" = name then some contentType else none := by
  simp only [HttpClient.postRequest, HttpRequest.addHeaderString, HttpRequest.setBody,
    Std.ExtTreeMap.getElem?_insert, Std.LawfulEqCmp.compare_eq_iff_eq]
  split_ifs <;> simp

/-- The numeral of a length is a plain value. -/
lemma plainHeader_contentLength (n : ℕ) : PlainHeader (lit "Content-Length", decimal n) where
  name_ne_nil := by simp [lit]
  colon_notMem := show COLON ∉ lit "Content-Length" by decide
  pairFree_name := show PairFree CR LF (lit "Content-Length") by decide
  pairFree_value := by
    apply Delimited.pairFree_of_notMem
    exact fun h => absurd (isdigit_of_mem_decimal h) (by decide)
  noOuterSpace := by
    have hdigit : ∀ c ∈ decimal n, isspace c = false :=
      fun c hc => (not_isspace_of_isdigit (isdigit_of_mem_decimal hc)).1
    rw [NoOuterSpace, Option.any_eq_false, Option.any_eq_false]
    constructor
    · intro c hc
      simpa using hdigit c (List.mem_of_mem_head? hc)
    · intro c hc
      simpa using hdigit c (List.mem_of_mem_getLast? hc)

/-- The headers of `post` are plain, if the content type is. -/
lemma plainHeader_postRequest (hcrlf : PairFree CR LF contentType)
    (hspace : NoOuterSpace contentType) :
    ∀ h ∈ (HttpClient.postRequest path body contentType).headers.toList, PlainHeader h := by
  rintro ⟨name, value⟩ hmem
  rw [Std.ExtTreeMap.mem_toList_iff_getElem?_eq_some, getElem?_postRequest] at hmem
  split_ifs at hmem with h₁ h₂
  · obtain rfl := Option.some.inj hmem
    exact h₁ ▸ plainHeader_contentLength body.length
  · obtain rfl := Option.some.inj hmem
    subst h₂
    have hcolon : COLON ∉ lit "Content-Type" := by decide
    have hname : PairFree CR LF (lit "Content-Type") := by decide
    exact ⟨by simp [lit], hcolon, hname, hcrlf, hspace⟩

/-- The body of `post` is as long as its `Content-Length` says. -/
lemma isBody_postRequest (hbody : body.length ≤ 2 ^ 31 - 1) :
    IsBody ((HttpClient.postRequest path body contentType).method = .kPost)
      (contentLength (HttpClient.postRequest path body contentType))
      (HttpClient.postRequest path body contentType).body [] := by
  have hlength :
      contentLength (HttpClient.postRequest path body contentType) = decimal body.length := by
    rw [contentLength, HttpRequest.getHeader, getElem?_postRequest]
    rfl
  have hpost : (HttpClient.postRequest path body contentType).method = .kPost := rfl
  rw [IsBody, if_pos hpost, hlength, atoi_decimal (by omega), sizeT_natCast (by omega)]
  exact ⟨fun _ => rfl, fun _ => rfl⟩

end post

/-- **The round trip of a request.** What `sendRequest` writes for `get(path)`, and for
`post(path, body, contentType)`, is read by a new context as the request that was meant, and no
byte is left. -/
theorem parseRequest_roundTrip {β : Type} [InputBuffer β] (receiveTime : Timestamp) (buf : β)
    (path : Bytes) (hsp : SP ∉ path) (hcrlf : PairFree CR LF path) :
    (readable buf = requestText (getRequest path) →
        RoundTrips receiveTime buf (getRequest path) fun _ => True) ∧
      ∀ body contentType : Bytes, PairFree CR LF contentType → NoOuterSpace contentType →
        body.length ≤ 2 ^ 31 - 1 →
        readable buf = requestText (HttpClient.postRequest path body contentType) →
        RoundTrips receiveTime buf (HttpClient.postRequest path body contentType) fun request =>
          request.headers[lit "Content-Type"]? = some contentType ∧
          request.headers[lit "Content-Length"]? = some (decimal body.length) ∧
          request.body = body := by
  constructor
  · intro hbuf
    apply roundTrips_of_parse hbuf
    have hheaders : ∀ h ∈ (getRequest path).headers.toList, PlainHeader h := by
      simp [getRequest]
    obtain ⟨request, heq, h₁, h₂, h₃, -⟩ :=
      parseRequest_requestText (by simp [getRequest]) hsp hcrlf hheaders rfl
    exact ⟨request, heq, h₁, h₂, h₃, trivial⟩
  · intro body contentType hc hs hbody hbuf
    apply roundTrips_of_parse hbuf
    obtain ⟨request, heq, h₁, h₂, h₃, h₄, h₅⟩ :=
      parseRequest_requestText (show Method.kPost ≠ .kInvalid by decide) hsp hcrlf
        (plainHeader_postRequest hc hs) (isBody_postRequest hbody)
    refine ⟨request, heq, h₁, h₂, h₃, ?_, ?_, h₅⟩ <;> rw [h₄, getElem?_postRequest]
    · rw [if_neg (by decide), if_pos rfl]
    · rw [if_pos rfl]

/-- The round trip of a post whose path has a query and whose body has protocol bytes. -/
theorem parseRequest_roundTrip_post :
    RoundTrips {}
      (requestText (HttpClient.postRequest (lit "/a?b") (lit "\r\n\r\nGET") (lit "text/plain")))
      (HttpClient.postRequest (lit "/a?b") (lit "\r\n\r\nGET") (lit "text/plain")) fun request =>
        request.headers[lit "Content-Type"]? = some (lit "text/plain") ∧
        request.headers[lit "Content-Length"]? = some (decimal 7) ∧
        request.body = lit "\r\n\r\nGET" := by
  apply (parseRequest_roundTrip {} _ (lit "/a?b") (by decide) (by decide)).2
  · decide
  · decide
  · have hlength : (lit "\r\n\r\nGET").length = 7 := by decide
    omega
  · rfl

end SwiftNetCore
