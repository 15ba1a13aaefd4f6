import SwiftNetCore.Http.Head

/-!
# Where a request ends

Where the parser puts the end of a request, against where the grammar and the announced length
put it.

* `parseRequest_framing_iff`: of a request with a `Content-Length` of `N`, the parser takes the
  `N` bytes behind the head as the body exactly when the request is a POST and its last
  `Content-Length` has that value, or there is no body to take.
* `parseRequest_consumesRequest_iff`: the bytes that the parser takes as one request are one of
  the grammar exactly when the first line without a colon is the empty line.
-/

namespace SwiftNetCore

open InputBuffer
open Delimited (PairFree unlines)

namespace HttpContext

variable {receiveTime : Timestamp}

/-! ## The announced length -/

/-- The call returns a complete request whose body is the first `n` of the bytes `rest` behind
the head, and leaves the others. -/
def TakesBody {β : Type} [InputBuffer β] (receiveTime : Timestamp) (buf : β) (rest : Bytes)
    (n : ℕ) : Prop :=
  ∃ p, parseRequest receiveTime {} buf = .returned p ∧ p.ok = true ∧ p.context.gotAll = true ∧
    p.context.request.body = rest.take n ∧ readable p.buf = rest.drop n

/-- Of a POST request, the last `Content-Length` is `n`, or it is empty and `n` bytes are there;
of any other request, `n` is zero. -/
def FramedBy (line : Bytes) (ls : List Bytes) (rest : Bytes) (n : ℕ) : Prop :=
  if IsPostLine line then
    (announced ls = [] → rest.length = n) ∧ (announced ls ≠ [] → sizeT (atoi (announced ls)) = n)
  else n = 0

/-- The first `n` bytes are then the body. -/
lemma framedBy_iff_isBody {line : Bytes} {ls : List Bytes} {rest : Bytes} {n : ℕ}
    (hn : n ≤ rest.length) :
    FramedBy line ls rest n ↔
      IsBody (IsPostLine line) (announced ls) (rest.take n) (rest.drop n) := by
  unfold FramedBy IsBody
  split_ifs
  · rw [List.length_take, min_eq_left hn, List.drop_eq_nil_iff]
    exact and_congr_left' (imp_congr_right fun _ => by omega)
  · rw [← List.length_eq_zero_iff, List.length_take, min_eq_left hn]

/-- What a call takes behind a complete head, on the byte queue. -/
lemma takesBody_iff {line : Bytes} {ls : List Bytes} {rest : Bytes} {n : ℕ}
    (hl : PairFree CR LF line) (hline : IsRequestLine line) (hls : ∀ l ∈ ls, IsHeaderLine l)
    (hn : n ≤ rest.length) :
    TakesBody receiveTime (headText line ls [] ++ rest) rest n ↔ FramedBy line ls rest n := by
  obtain ⟨request, -, hh, hb, heq⟩ :=
    @parseRequest_head receiveTime {} rfl rfl line hl hline ls hls [] isEndLine_nil
  have hcl : contentLength request = announced ls := by
    rw [contentLength_congr hh, contentLength_addHeaderLines rfl]
  rw [framedBy_iff_isBody hn, ← hcl]
  unfold TakesBody
  rw [heq rest]
  constructor
  · rintro ⟨p, hp, -, -, hbody, hrest⟩
    obtain ⟨body, rest', -, hisBody, rfl⟩ := finish_eq_returned_iff.mp hp
    -- the body stays the empty one that a fresh context has, or is the one that was taken
    obtain rfl : body = rest.take n := (hisBody.request_body hb).symm.trans hbody
    obtain rfl : rest' = rest.drop n := hrest
    exact hisBody
  · intro hisBody
    refine ⟨_, finish_eq_returned_iff.mpr ⟨_, _, (List.take_append_drop n rest).symm, hisBody, rfl⟩,
      rfl, by simp [gotAll], hisBody.request_body hb, rfl⟩

/-- Where all headers `Content-Length` say `n`, that is what the head announces. -/
lemma announced_eq_decimal {ls : List Bytes} {n : ℕ}
    (hex : ∃ l ∈ ls, valueOf (lit "Content-Length") l = some (decimal n))
    (hall : ∀ l ∈ ls, ∀ v, valueOf (lit "Content-Length") l = some v → v = decimal n) :
    announced ls = decimal n := by
  obtain ⟨l, hl, hv⟩ := hex
  have hne : valueOf (lit "Content-Length") l ≠ none := by simp [hv]
  obtain ⟨v, hv⟩ := Option.ne_none_iff_exists'.mp (lastValue_ne_none hl hne)
  obtain ⟨l', hl', hv'⟩ := List.mem_filterMap.mp (List.mem_of_getLast? hv)
  rw [announced, hv, Option.getD_some, hall l' hl' v hv']

/-- **Where the body is taken to end.** Take a request line, header lines of which one is a
`Content-Length` of `n`, the empty line, and at least `n` bytes behind it. The parser takes the
first `n` of these bytes as the body, and leaves the others unread, exactly when the request is a
POST and its last `Content-Length` is `n`, or is empty and no other byte has arrived, or the
request is no POST and `n` is zero. If no header gives another length, this says that the request
is a POST or has no body. -/
theorem parseRequest_framing_iff {β : Type} [InputBuffer β] (receiveTime : Timestamp) (buf : β)
    {line : Bytes} {ls : List Bytes} {rest : Bytes} {n : ℕ} (hl : PairFree CR LF line)
    (hline : IsRequestLine line) (hls : ∀ l ∈ ls, IsHeaderLine l) (hn : n < 2 ^ 31)
    (hcl : ∃ l ∈ ls, valueOf (lit "Content-Length") l = some (decimal n))
    (hbuf : readable buf = headText line ls [] ++ rest) (hrest : n ≤ rest.length) :
    (TakesBody receiveTime buf rest n ↔ FramedBy line ls rest n) ∧
      ((∀ l ∈ ls, ∀ v, valueOf (lit "Content-Length") l = some v → v = decimal n) →
        (TakesBody receiveTime buf rest n ↔ IsPostLine line ∨ n = 0)) := by
  have hiff : TakesBody receiveTime buf rest n ↔ FramedBy line ls rest n := by
    have hqueue : TakesBody receiveTime (readable buf) rest n ↔ FramedBy line ls rest n :=
      hbuf ▸ takesBody_iff hl hline hls hrest
    rw [← hqueue]
    exact exists_returned_readable_iff (P := fun ok context b => ok = true ∧
      context.gotAll = true ∧ context.request.body = rest.take n ∧ b = rest.drop n)
  refine ⟨hiff, fun hall => ?_⟩
  rw [hiff, FramedBy, announced_eq_decimal hcl hall, atoi_decimal hn, sizeT_natCast (by omega)]
  by_cases hpost : IsPostLine line <;> simp [hpost, decimal_ne_nil]

/-- `POST / HTTP/1.1` is a request line. -/
lemma isRequestLine_post : IsRequestLine (lit "POST / HTTP/1.1") :=
  ⟨lit "POST", lit "/", lit "HTTP/1.1", rfl, by decide, by decide, .inl rfl⟩

/-- A POST request with `Content-Length: 2`, two bytes of body and a byte behind them. -/
theorem parseRequest_framing_post :
    TakesBody {} (Buffer.ofBytes (headText (lit "POST / HTTP/1.1") [lit "Content-Length: 2"] [] ++
      lit "abG")) (lit "abG") 2 :=
  ((parseRequest_framing_iff {} (Buffer.ofBytes _) (by decide) isRequestLine_post
    (by simpa using ⟨by decide, by decide⟩) (by decide) ⟨_, List.mem_singleton_self _, by decide⟩
    (Buffer.readable_ofBytes _) (by decide)).2 (by
      simp only [List.mem_singleton, forall_eq]
      rintro v hv
      exact (Option.some.inj hv).symm)).mpr (.inl (by decide))

/-- A PUT request with `Content-Length: 1` and its body: the request is reported without the
body, which stays in the buffer. -/
theorem parseRequest_put_leaves_body :
    parseRequest {} {} (headText (lit "PUT / HTTP/1.1") [lit "Content-Length: 1"] [] ++ lit "x") =
        .returned ⟨true, { state := .kGotAll, request :=
          { method := .kPut
            version := .kHttp11
            path := lit "/"
            headers := {(lit "Content-Length", lit "1")} } }, lit "x"⟩ ∧
      ¬ TakesBody {} (headText (lit "PUT / HTTP/1.1") [lit "Content-Length: 1"] [] ++ lit "x")
        (lit "x") 1 := by
  have h : parseRequest {} {}
      (headText (lit "PUT / HTTP/1.1") [lit "Content-Length: 1"] [] ++ lit "x") =
        .returned ⟨true, { state := .kGotAll, request :=
          { method := .kPut
            version := .kHttp11
            path := lit "/"
            headers := {(lit "Content-Length", lit "1")} } }, lit "x"⟩ := by
    decide
  refine ⟨h, ?_⟩
  rintro ⟨p, hp, -, -, hbody, -⟩
  rw [h] at hp
  cases hp
  exact absurd hbody (by decide)

/-! ## The end of the head -/

/-- The bytes that a call took off the front of `s` are a request of the grammar: a request line,
header lines, the empty line, and the body that the call stored. -/
def ConsumesRequest {β : Type} [InputBuffer β] (s : Bytes) (p : Parse β) : Prop :=
  ∃ line ls, s = headText line ls [] ++ (p.context.request.body ++ readable p.buf) ∧
    PairFree CR LF line ∧ IsRequestLine line ∧ ∀ l ∈ ls, IsHeaderLine l

/-- The first line without a colon, behind the request line, is the empty line. -/
def HeadEndsEmpty (s : Bytes) : Prop :=
  ∀ line ls e rest, s = headText line ls e ++ rest → PairFree CR LF line →
    (∀ l ∈ ls, IsHeaderLine l) → IsEndLine e → e = []

/-- What a call that reports a complete request has stored and left: the bytes behind the head
are the body and what is left. -/
lemma exists_head_append {s : Bytes} {p : Parse Bytes}
    (h : parseRequest receiveTime {} s = .returned p) (hg : p.context.gotAll = true) :
    ∃ line ls e, s = headText line ls e ++ (p.context.request.body ++ p.buf) ∧
      PairFree CR LF line ∧ IsRequestLine line ∧ (∀ l ∈ ls, IsHeaderLine l) ∧ IsEndLine e := by
  obtain ⟨line, ls, e, rest, rfl, hl, hline, hls, he⟩ := exists_head_of_gotAll rfl rfl h hg
  obtain ⟨request, -, -, hb, heq⟩ :=
    @parseRequest_head receiveTime {} rfl rfl line hl hline ls hls e he
  refine ⟨line, ls, e, ?_, hl, hline, hls, he⟩
  rw [heq rest] at h
  obtain ⟨body, rest', rfl, hisBody, rfl⟩ := finish_eq_returned_iff.mp h
  rw [hisBody.request_body hb]

/-- **What is taken as one request.** When a call on a fresh context reports a complete request,
the bytes it took are a request of the grammar exactly when the first line without a colon,
behind the request line, is the empty line. -/
theorem parseRequest_consumesRequest_iff {β : Type} [InputBuffer β] (receiveTime : Timestamp)
    (buf : β) {p : Parse β} (h : parseRequest receiveTime {} buf = .returned p)
    (hg : p.context.gotAll = true) :
    ConsumesRequest (readable buf) p ↔ HeadEndsEmpty (readable buf) := by
  have hread : parseRequest receiveTime {} (readable buf) = .returned (p.map readable) := by
    rw [parseRequest_readable, h, Outcome.map_returned]
  obtain ⟨line, ls, e, heq, hl, hline, hls, he⟩ := exists_head_append hread hg
  constructor
  · rintro ⟨line', ls', heq', hl', -, hls'⟩ line'' ls'' e'' rest'' heq'' hl'' hls'' he''
    exact (headText_unique hl'' hl' hls'' hls' he'' isEndLine_nil (heq''.symm.trans heq')).2.2.1
  · intro hempty
    obtain rfl : e = [] := hempty line ls e _ heq hl hls he
    exact ⟨line, ls, heq, hl, hline, hls⟩

/-- `GET / HTTP/1.1` is a request line. -/
lemma isRequestLine_get : IsRequestLine (lit "GET / HTTP/1.1") :=
  ⟨lit "GET", lit "/", lit "HTTP/1.1", rfl, by decide, by decide, .inl rfl⟩

/-- The head of a GET request with one header ends at the empty line. -/
theorem headEndsEmpty_get : HeadEndsEmpty (headText (lit "GET / HTTP/1.1") [lit "Host: a"] []) := by
  have h : parseRequest {} {} (headText (lit "GET / HTTP/1.1") [lit "Host: a"] []) =
      .returned ⟨true, { state := .kGotAll, request :=
        { method := .kGet
          version := .kHttp11
          path := lit "/"
          headers := {(lit "Host", lit "a")} } }, []⟩ := by
    decide
  refine (parseRequest_consumesRequest_iff {} _ h rfl).mp
    ⟨_, _, (List.append_nil _).symm, by decide, isRequestLine_get, ?_⟩
  simpa using ⟨by decide, by decide⟩

/-- A line that is neither empty nor a header ends the head: the header behind it stays in the
buffer. -/
theorem parseRequest_ends_at_any_colonless_line :
    ∃ p, parseRequest {} {}
        (headText (lit "GET / HTTP/1.1") [] (lit "folded") ++ lit "Host: a\r\n\r\n") =
          .returned p ∧ p.ok = true ∧ p.context.gotAll = true ∧ p.buf = lit "Host: a\r\n\r\n" ∧
      ¬ ConsumesRequest
        (headText (lit "GET / HTTP/1.1") [] (lit "folded") ++ lit "Host: a\r\n\r\n") p := by
  refine ⟨⟨true, { state := .kGotAll, request :=
    { method := .kGet, version := .kHttp11, path := lit "/" } }, lit "Host: a\r\n\r\n"⟩,
    by decide, rfl, rfl, rfl, ?_⟩
  rintro ⟨line, ls, heq, hl, -, hls⟩
  have he : IsEndLine (lit "folded") := ⟨by decide, by decide⟩
  have h := headText_unique (by decide) hl (by simp) hls he isEndLine_nil heq
  exact absurd h.2.2.1 (by decide)

end HttpContext

end SwiftNetCore
