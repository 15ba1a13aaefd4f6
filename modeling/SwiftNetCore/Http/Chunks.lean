import SwiftNetCore.Http.Head

/-!
# A request that arrives in pieces

`feed` appends chunks to a buffer one after the other and calls `parseRequest` after each. A call
that waits for more bytes has lost nothing: the next call does what one call on all the bytes
would have done (`parseRequest_append`). What a call does with a *body*, though, it decides from
the bytes that happen to be there, so a request is parsed alike in every division exactly when no
cut falls into the body of a POST request (`feed_iff_noCutInBody`).

The time of a call is stored in the request and nothing else depends on it
(`parseRequest_eraseTime`), so results are compared without it.
-/

namespace SwiftNetCore

open Loops (Flow)
open InputBuffer
open Delimited (PairFree unlines)

namespace HttpContext

/-! ## The time of a call -/

/-- The context without `receiveTime_`. -/
def eraseTime (context : HttpContext) : HttpContext :=
  { context with request := context.request.setReceiveTime {} }

end HttpContext

/-- All of a result but `receiveTime_`. -/
def Parse.eraseTime {β : Type} (p : Parse β) : Parse β := ⟨p.ok, p.context.eraseTime, p.buf⟩

namespace HttpContext

variable {receiveTime : Timestamp} {context : HttpContext}

/-- The request line function does not look at the time. -/
lemma processRequestLine_setReceiveTime (request : HttpRequest) (line : Bytes) :
    processRequestLine (request.setReceiveTime {}) line =
      (processRequestLine request line).map fun (ok, request) =>
        (ok, request.setReceiveTime {}) := by
  unfold processRequestLine
  rcases find SP line with _ | ⟨m, rest⟩
  · rfl
  · simp only [HttpRequest.setMethod, HttpRequest.setReceiveTime_method]
    by_cases hm : request.method = .kInvalid
    · simp only [hm, if_true]
      rcases decide (HttpRequest.methodOf m ≠ .kInvalid) with _ | _
      · rfl
      · rcases find SP rest with _ | ⟨target, version⟩
        · rfl
        · simp only [setTarget]
          rcases find QUESTION target with _ | ⟨path, query⟩ <;> simp only <;> split_ifs <;> rfl
    · simp [hm]

/-- A header line does not look at the time. -/
lemma addHeaderLine_setReceiveTime (request : HttpRequest) (l : Bytes) :
    addHeaderLine (request.setReceiveTime {}) l =
      (addHeaderLine request l).setReceiveTime {} := by
  unfold addHeaderLine
  split <;> rfl

/-- One evaluation commutes with forgetting the time. -/
lemma parseRequestIteration_eraseTime (p : Parse Bytes) :
    parseRequestIteration {} p.eraseTime =
      (parseRequestIteration receiveTime p).map Parse.eraseTime (Option.map Parse.eraseTime) := by
  have hlength : ∀ request : HttpRequest, (request.setReceiveTime {}).getHeader
      (lit "Content-Length") = request.getHeader (lit "Content-Length") := fun _ => rfl
  unfold parseRequestIteration
  simp only [Parse.eraseTime, eraseTime, processRequestLine_setReceiveTime, hlength,
    addHeaderLine_setReceiveTime, readable_bytes]
  rcases hs : p.context.state with _ | _ | _ | _
  · rcases findCRLF p.buf with _ | i
    · simp [Parse.eraseTime, eraseTime, hs]
    · rcases hl : processRequestLine p.context.request (p.buf.take i) with
        _ | ⟨_ | _, request⟩
      · simp [hl]
      · simp [hl, Parse.eraseTime, eraseTime]
      · simp [hl, Parse.eraseTime, eraseTime, HttpRequest.setReceiveTime]
  · rcases findCRLF p.buf with _ | i
    · simp [Parse.eraseTime, eraseTime, hs]
    · simp only
      by_cases hc : COLON ∈ p.buf.take i
      · simp only [hc, if_true, Flow.map_again, Parse.eraseTime, eraseTime]
      · by_cases hm : p.context.request.method = .kPost ∧ readableBytes p.buf > 0
        · rw [if_neg hc, if_neg hc, if_pos hm]
          exact if_pos hm
        · rw [if_neg hc, if_neg hc, if_neg hm]
          exact if_neg hm
  · simp only
    split_ifs <;>
      simp [Parse.eraseTime, eraseTime, hs, HttpRequest.setBody, HttpRequest.setReceiveTime]
  · simp [Parse.eraseTime, eraseTime, hs]

/-- **A call depends on its time only in the time that it stores.** -/
lemma parseRequest_eraseTime (context : HttpContext) (buf : Bytes) :
    parseRequest {} context.eraseTime buf =
      (parseRequest receiveTime context buf).map Parse.eraseTime := by
  unfold parseRequest
  rw [show (⟨true, context.eraseTime, buf⟩ : Parse Bytes) =
    Parse.eraseTime ⟨true, context, buf⟩ from rfl,
    Loops.iterate_map parseRequestIteration_eraseTime]
  rcases Loops.iterate (parseRequestIteration receiveTime) (readableBytes buf + 1)
    (⟨true, context, buf⟩ : Parse Bytes) with _ | _ | p <;> rfl

/-! ## Waiting for more bytes -/

/-- The call returns without an error and without a complete request. -/
def Waits (receiveTime : Timestamp) (context : HttpContext) (buf : Bytes) : Prop :=
  ∃ p, parseRequest receiveTime context buf = .returned p ∧ p.ok = true ∧
    p.context.gotAll = false

/-- In the header state, the next call goes on behind the lines that were read. -/
lemma parseRequest_headers_append {p : Parse Bytes} {buf : Bytes}
    (hs : context.state = .kExpectHeaders)
    (h : parseRequest receiveTime context buf = .returned p) (hg : p.context.gotAll = false)
    (more : Bytes) :
    parseRequest receiveTime context (buf ++ more) =
      parseRequest receiveTime p.context (p.buf ++ more) := by
  obtain ⟨ls, tail, rfl, hls, ht | ⟨e, rest, rfl, he⟩⟩ := headers_cases buf
  · rw [parseRequest_headers_open hs hls ht] at h
    cases h
    rw [List.append_assoc, parseRequest_headerLines hs hls]
  · -- a complete head is a complete request or a call that does not return
    rw [parseRequest_headers_closed hs hls he] at h
    simp [gotAll, state_of_finish h] at hg

/-- **A call that waits has lost nothing**: the next call does what one call on all the bytes
would have done. -/
lemma parseRequest_append {p : Parse Bytes} {buf : Bytes}
    (h : parseRequest {} context buf = .returned p) (hok : p.ok = true)
    (hg : p.context.gotAll = false) (more : Bytes) :
    parseRequest {} context (buf ++ more) = parseRequest {} p.context (p.buf ++ more) := by
  rcases hs : context.state with _ | _ | _ | _
  · rcases Delimited.pairFree_or_split CR_ne_LF buf with hb | ⟨line, rest, rfl, hl⟩
    · rw [parseRequest_requestLine_incomplete hs hb] at h
      cases h
      rfl
    · rw [parseRequest_requestLine hs hl] at h
      rw [List.append_assoc, List.cons_append, List.cons_append, parseRequest_requestLine hs hl]
      rcases hline : processRequestLine context.request line with _ | ⟨_ | _, request⟩ <;>
        simp only [hline] at h ⊢
      · cases h
      · cases h
        simp at hok
      · exact parseRequest_headers_append rfl h hg more
  · exact parseRequest_headers_append hs h hg more
  · rw [parseRequest_body hs] at h
    simp [gotAll, state_of_finish h] at hg
  · rw [parseRequest_gotAll hs] at h
    cases h

/-- A context that has read no part of the request. -/
def IsFresh (context : HttpContext) : Prop :=
  context.state = .kExpectRequestLine ∧ context.request.method = .kInvalid

/-- A call waits on every proper prefix of a head. -/
lemma waits_of_append_eq {line : Bytes} {ls : List Bytes} (hl : PairFree CR LF line)
    (hline : IsRequestLine line) (hls : ∀ l ∈ ls, IsHeaderLine l) (hctx : IsFresh context)
    {pre post : Bytes} (heq : pre ++ post = headText line ls []) (hpost : post ≠ []) :
    Waits receiveTime context pre := by
  obtain ⟨hs, hr⟩ := hctx
  rcases request_cases pre with hp | ⟨line', rest, rfl, hl', hline'⟩ |
    ⟨line', ls', tail, rfl, hl', hline', hls', ht⟩ | ⟨line', ls', e, rest, rfl, hl', -, hls', he⟩
  · exact ⟨_, parseRequest_requestLine_incomplete hs hp, rfl, by simp [gotAll, hs]⟩
  · -- the prefix has the request line of the head
    have h := Delimited.split_unique CR_ne_LF hl' hl (by simpa [headText] using heq)
    exact absurd (h.1 ▸ hline) hline'
  · obtain ⟨request, -, -, -, h⟩ := parseRequest_head_open hs hr hl' hline' hls' ht
    exact ⟨_, h, rfl, by simp [gotAll]⟩
  · -- the prefix would be the whole head
    rw [List.append_assoc, ← List.append_nil (headText line ls [])] at heq
    have h := headText_unique hl' hl hls' hls he isEndLine_nil heq
    exact absurd (List.append_eq_nil_iff.mp h.2.2.2).2 hpost

/-! ## Calls on the chunks, one after the other -/

/-- Append each chunk to the buffer and call `parseRequest` at its time. -/
def feed (p : Parse Bytes) : List (Timestamp × Bytes) → Outcome (Parse Bytes)
  | [] => .returned p
  | (receiveTime, chunk) :: cs =>
    (parseRequest receiveTime p.context (p.buf ++ chunk)).bind fun p' => feed p' cs

/-- All the bytes of the chunks. -/
def chunkBytes (cs : List (Timestamp × Bytes)) : Bytes := cs.flatMap Prod.snd

/-- No chunks have no bytes. -/
@[simp] lemma chunkBytes_nil : chunkBytes [] = [] := rfl

/-- The bytes of the first chunk come first. -/
@[simp] lemma chunkBytes_cons (c : Timestamp × Bytes) (cs : List (Timestamp × Bytes)) :
    chunkBytes (c :: cs) = c.2 ++ chunkBytes cs := rfl

/-- The bytes of two lists of chunks are those of the first and then those of the second. -/
@[simp] lemma chunkBytes_append (cs ds : List (Timestamp × Bytes)) :
    chunkBytes (cs ++ ds) = chunkBytes cs ++ chunkBytes ds := List.flatMap_append

/-- The chunks with the time forgotten. -/
def eraseTimes (cs : List (Timestamp × Bytes)) : List (Timestamp × Bytes) :=
  cs.map fun c => ({}, c.2)

/-- The bytes do not depend on when the chunks came. -/
@[simp] lemma chunkBytes_eraseTimes (cs : List (Timestamp × Bytes)) :
    chunkBytes (eraseTimes cs) = chunkBytes cs := by
  simp [chunkBytes, eraseTimes, List.flatMap_map]

/-- The times of the calls change nothing but the time that is stored. -/
lemma feed_eraseTimes (p : Parse Bytes) (cs : List (Timestamp × Bytes)) :
    feed p.eraseTime (eraseTimes cs) = (feed p cs).map Parse.eraseTime := by
  induction cs generalizing p with
  | nil => rfl
  | cons c cs ih =>
      have h : parseRequest {} p.eraseTime.context (p.eraseTime.buf ++ c.2) =
          (parseRequest c.1 p.context (p.buf ++ c.2)).map Parse.eraseTime :=
        parseRequest_eraseTime p.context (p.buf ++ c.2)
      show (parseRequest {} p.eraseTime.context (p.eraseTime.buf ++ c.2)).bind _ =
        ((parseRequest c.1 p.context (p.buf ++ c.2)).bind _).map _
      rw [h]
      rcases parseRequest c.1 p.context (p.buf ++ c.2) with p' | _ | _
      · exact ih p'
      · rfl
      · rfl

/-- As long as the calls wait, the last of them does what one call on all the bytes does. -/
lemma feed_eq_parseRequest {p : Parse Bytes} {c : Timestamp × Bytes}
    {cs : List (Timestamp × Bytes)} (hc : c.1 = {}) (hcs : ∀ d ∈ cs, d.1 = {})
    (hw : ∀ cs₁ cs₂, cs = cs₁ ++ cs₂ → cs₂ ≠ [] →
      Waits {} p.context (p.buf ++ chunkBytes (c :: cs₁))) :
    feed p (c :: cs) = parseRequest {} p.context (p.buf ++ chunkBytes (c :: cs)) := by
  induction cs generalizing p c with
  | nil =>
      obtain ⟨t, chunk⟩ := c
      obtain rfl : t = {} := hc
      simp only [feed, chunkBytes_cons, chunkBytes_nil, List.append_nil]
      rcases parseRequest {} p.context (p.buf ++ chunk) with p' | _ | _ <;> rfl
  | cons d cs ih =>
      obtain ⟨t, chunk⟩ := c
      obtain rfl : t = {} := hc
      obtain ⟨p', hp', hok, hg⟩ := hw [] (d :: cs) rfl (by simp)
      simp only [chunkBytes_cons, chunkBytes_nil, List.append_nil] at hp'
      -- a later call on the first chunks is one call on the first chunk, and then a call
      have happend : ∀ more, parseRequest {} p'.context (p'.buf ++ more) =
          parseRequest {} p.context (p.buf ++ (chunk ++ more)) := fun more => by
        rw [← List.append_assoc, parseRequest_append hp' hok hg]
      have hw' : ∀ cs₁ cs₂, cs = cs₁ ++ cs₂ → cs₂ ≠ [] →
          Waits {} p'.context (p'.buf ++ chunkBytes (d :: cs₁)) := by
        intro cs₁ cs₂ heq hne
        obtain ⟨q, hq, hq'⟩ := hw (d :: cs₁) cs₂ (by rw [heq]; rfl) hne
        exact ⟨q, (happend _).trans hq, hq'⟩
      rw [feed, hp', Outcome.returned_bind,
        ih (hcs d (by simp)) (fun e he => hcs e (by simp [he])) hw']
      exact happend _

/-- The calls on some chunks, and then those on the others. -/
lemma feed_append (p : Parse Bytes) (cs ds : List (Timestamp × Bytes)) :
    feed p (cs ++ ds) = (feed p cs).bind fun p' => feed p' ds := by
  induction cs generalizing p with
  | nil => rfl
  | cons c cs ih =>
      simp only [List.cons_append, feed]
      rcases parseRequest c.1 p.context (p.buf ++ c.2) with p' | _ | _
      · exact ih p'
      · rfl
      · rfl

/-! ## A whole request in every division -/

section division

variable {r : RequestText} {cs : List (Timestamp × Bytes)}

/-- A call waits on what is shorter than the head. -/
lemma waits_of_isPrefix {pre : Bytes} (hpre : pre <+: r.text) (hlt : pre.length < r.head.length) :
    Waits receiveTime {} pre := by
  obtain ⟨post, heq⟩ :=
    List.prefix_of_prefix_length_le hpre (List.prefix_append r.head r.body) hlt.le
  refine waits_of_append_eq r.pairFree_line r.isRequestLine r.isHeaderLine ⟨rfl, rfl⟩ heq ?_
  rintro rfl
  rw [List.append_nil] at heq
  exact absurd (congrArg List.length heq) hlt.ne

/-- A call on a whole request reports it, with its body and nothing behind it. -/
lemma parseRequest_text (r : RequestText) :
    ∃ p, parseRequest receiveTime {} r.text = .returned p ∧ p.ok = true ∧
      p.context.gotAll = true ∧ p.context.request.body = r.body ∧ p.buf = [] := by
  obtain ⟨request, -, hh, hb, heq⟩ := @parseRequest_head receiveTime {} rfl rfl r.line
    r.pairFree_line r.isRequestLine r.headers r.isHeaderLine [] isEndLine_nil
  have hcl : contentLength request = announced r.headers := by
    rw [contentLength_congr hh, contentLength_addHeaderLines rfl]
  have hbody : IsBody (IsPostLine r.line) (contentLength request) r.body [] := by
    rw [hcl]
    exact bodyFits_iff.mp r.bodyFits
  have hcall := (heq (r.body ++ [])).trans (finish_of_isBody hbody)
  rw [List.append_nil] at hcall
  exact ⟨_, hcall, rfl, by simp [gotAll], hbody.request_body hb, rfl⟩

/-- As long as the cuts fall into the head, the calls on the chunks do what one call does. -/
lemma feed_map_eraseTime (hne : cs ≠ []) (hpre : chunkBytes cs <+: r.text)
    (hcut : ∀ cs₁ cs₂, cs = cs₁ ++ cs₂ → cs₂ ≠ [] →
      (chunkBytes cs₁).length < r.head.length) :
    (feed ⟨true, {}, []⟩ cs).map Parse.eraseTime = parseRequest {} {} (chunkBytes cs) := by
  obtain ⟨c, cs, rfl⟩ := List.exists_cons_of_ne_nil hne
  have htimes : ∀ d ∈ eraseTimes cs, d.1 = {} := by
    intro d hd
    obtain ⟨c', -, rfl⟩ := List.mem_map.mp hd
    rfl
  have hw : ∀ cs₁ cs₂, eraseTimes cs = cs₁ ++ cs₂ → cs₂ ≠ [] →
      Waits {} {} ([] ++ chunkBytes (({}, c.2) :: cs₁)) := by
    intro cs₁ cs₂ heq hne'
    obtain ⟨ds₁, ds₂, rfl, rfl, rfl⟩ := List.map_eq_append_iff.mp heq
    have hbytes : [] ++ chunkBytes (({}, c.2) :: eraseTimes ds₁) = chunkBytes (c :: ds₁) := by
      simp
    show Waits {} {} ([] ++ chunkBytes (({}, c.2) :: eraseTimes ds₁))
    rw [hbytes]
    refine waits_of_isPrefix (List.IsPrefix.trans ?_ hpre)
      (hcut (c :: ds₁) ds₂ rfl (by simpa using hne'))
    exact ⟨chunkBytes ds₂, by simp⟩
  have hfeed : feed ⟨true, {}, []⟩ (({}, c.2) :: eraseTimes cs) =
      parseRequest {} {} ([] ++ chunkBytes (({}, c.2) :: eraseTimes cs)) :=
    feed_eq_parseRequest rfl htimes hw
  rw [← feed_eraseTimes]
  show feed ⟨true, {}, []⟩ (({}, c.2) :: eraseTimes cs) = _
  rw [hfeed]
  simp

/-- The calls on the chunks end as one call on the whole request does, and none before the last
reports a complete request. -/
def ChunkIndependent (receiveTime : Timestamp) (r : RequestText) (cs : List (Timestamp × Bytes)) :
    Prop :=
  (feed ⟨true, {}, []⟩ cs).map Parse.eraseTime =
      (parseRequest receiveTime {} r.text).map Parse.eraseTime ∧
    ∀ cs₁ cs₂, cs = cs₁ ++ cs₂ → cs₂ ≠ [] → ∀ p, feed ⟨true, {}, []⟩ cs₁ = .returned p →
      p.context.gotAll = false

/-- No chunk but the last ends at the end of the head of a POST request or behind it. -/
def NoCutInBody (r : RequestText) (cs : List (Timestamp × Bytes)) : Prop :=
  IsPostLine r.line → ∀ cs₁ cs₂, cs = cs₁ ++ cs₂ → cs₂ ≠ [] →
    (chunkBytes cs₁).length < r.head.length

/-- Where no cut falls into the body of a POST request, every cut falls into the head. -/
lemma NoCutInBody.lt_length (h : NoCutInBody r cs) (hne : ∀ c ∈ cs, c.2 ≠ [])
    (hcs : chunkBytes cs = r.text) {cs₁ cs₂ : List (Timestamp × Bytes)} (heq : cs = cs₁ ++ cs₂)
    (hne₂ : cs₂ ≠ []) : (chunkBytes cs₁).length < r.head.length := by
  by_cases hpost : IsPostLine r.line
  · exact h hpost cs₁ cs₂ heq hne₂
  · -- the request is its head, and the last chunks are not empty
    have hbody : r.body = [] := by simpa [BodyFits, hpost] using r.bodyFits
    obtain ⟨c, ds, rfl⟩ := List.exists_cons_of_ne_nil hne₂
    have hc : 0 < c.2.length := List.length_pos_iff.mpr (hne c (by simp [heq]))
    have hlen := congrArg List.length hcs
    rw [heq, RequestText.text, hbody] at hlen
    simp only [chunkBytes_append, chunkBytes_cons, List.length_append, List.append_nil] at hlen
    omega

/-- Calls on chunks of which none but the last reaches the end of the head, and the last reaches
it: the request is reported, or the last call never returns. -/
lemma feed_of_head_le (hpre : chunkBytes cs <+: r.text)
    (hle : r.head.length ≤ (chunkBytes cs).length) (hcut : ∀ cs₁ cs₂, cs = cs₁ ++ cs₂ →
      cs₂ ≠ [] → (chunkBytes cs₁).length < r.head.length) :
    feed ⟨true, {}, []⟩ cs = .hangs ∨
      ∃ p, feed ⟨true, {}, []⟩ cs = .returned p ∧ p.context.gotAll = true := by
  have hne : cs ≠ [] := by
    rintro rfl
    simp [RequestText.head, headText] at hle
  obtain ⟨rest, hrest⟩ :=
    List.prefix_of_prefix_length_le (List.prefix_append r.head r.body) hpre hle
  obtain ⟨request, -, -, -, heq⟩ := @parseRequest_head {} {} rfl rfl r.line
    r.pairFree_line r.isRequestLine r.headers r.isHeaderLine [] isEndLine_nil
  have hfeed := feed_map_eraseTime hne hpre hcut
  rw [← hrest, RequestText.head, heq rest] at hfeed
  rcases hcs : feed ⟨true, {}, []⟩ cs with p | _ | _
  · right
    rw [hcs] at hfeed
    have hp : p.eraseTime.context.state = .kGotAll := state_of_finish hfeed.symm
    exact ⟨p, rfl, decide_eq_true hp⟩
  · rw [hcs] at hfeed
    exact absurd hfeed.symm finish_ne_aborted
  · exact .inl rfl

/-- **When the division of a request does not matter.** For every complete request and every
division of it into chunks that are not empty, the calls on the chunks end as one call on the
whole request does and none of them reports the request early, exactly when no cut falls at the
end of the head of a POST request or into its body. -/
theorem chunkIndependent_iff (receiveTime : Timestamp) (r : RequestText)
    (cs : List (Timestamp × Bytes)) (hne : ∀ c ∈ cs, c.2 ≠ []) (hcs : chunkBytes cs = r.text) :
    ChunkIndependent receiveTime r cs ↔ NoCutInBody r cs := by
  have hnil : cs ≠ [] := by
    rintro rfl
    simp [RequestText.text, RequestText.head, headText] at hcs
  have hpart : ∀ {cs₁ cs₂}, cs = cs₁ ++ cs₂ → chunkBytes cs₁ <+: r.text := by
    rintro cs₁ cs₂ rfl
    exact ⟨chunkBytes cs₂, by rw [← hcs, chunkBytes_append]⟩
  constructor
  · rintro ⟨hlast, hearly⟩ hpost cs₁
    -- the first cut behind the head would be reported, or its call would never return
    induction hn : cs₁.length using Nat.strong_induction_on generalizing cs₁ with
    | _ n ih =>
        subst hn
        intro cs₂ heq hne₂
        by_contra hge
        have hcut : ∀ a b, cs₁ = a ++ b → b ≠ [] → (chunkBytes a).length < r.head.length := by
          rintro a b rfl hb
          refine ih a.length ?_ a rfl (b ++ cs₂) (by rw [heq, List.append_assoc]) (by simp [hb])
          have := List.length_pos_iff.mpr hb
          simp only [List.length_append]
          omega
        rcases feed_of_head_le (hpart heq) (not_lt.mp hge) hcut with hhang | ⟨p, hp, hg⟩
        · obtain ⟨p, hp, -⟩ := @parseRequest_text receiveTime r
          rw [heq, feed_append, hhang, hp] at hlast
          cases hlast
        · rw [hearly cs₁ cs₂ heq hne₂ p hp] at hg
          cases hg
  · intro h
    have hcut : ∀ cs₁ cs₂, cs = cs₁ ++ cs₂ → cs₂ ≠ [] →
        (chunkBytes cs₁).length < r.head.length := fun _ _ => h.lt_length hne hcs
    refine ⟨?_, fun cs₁ cs₂ heq hne₂ p hp => ?_⟩
    · have herase : ({} : HttpContext).eraseTime = {} := rfl
      rw [feed_map_eraseTime hnil (hcs ▸ List.prefix_rfl) hcut, hcs, ← parseRequest_eraseTime,
        herase]
    · by_cases hnil₁ : cs₁ = []
      · subst hnil₁
        cases hp
        rfl
      · obtain ⟨q, hq, -, hg⟩ := @waits_of_isPrefix {} r _ (hpart heq) (hcut cs₁ cs₂ heq hne₂)
        have hfeed := feed_map_eraseTime hnil₁ (hpart heq) fun a b hab hb =>
          hcut a (b ++ cs₂) (by rw [heq, hab, List.append_assoc]) (by simp [hb])
        rw [hp, hq] at hfeed
        rw [← Outcome.returned.inj hfeed] at hg
        exact hg

/-- A POST request with two bytes of body. -/
def postRequest : RequestText where
  line := lit "POST / HTTP/1.1"
  headers := [lit "Content-Length: 2"]
  body := lit "ab"
  pairFree_line := by decide
  isRequestLine := ⟨lit "POST", lit "/", lit "HTTP/1.1", rfl, by decide, by decide, .inl rfl⟩
  isHeaderLine := by simpa using ⟨by decide, by decide⟩
  bodyFits := by
    rw [BodyFits, if_pos (by decide)]
    decide

/-- A cut inside the request line is harmless. -/
theorem chunkIndependent_cut_in_line :
    ChunkIndependent {} postRequest
      [({}, lit "POST / HT"), ({}, lit "TP/1.1\r\nContent-Length: 2\r\n\r\nab")] := by
  refine (chunkIndependent_iff {} postRequest _ (by decide) (by decide)).mpr ?_
  rintro - (_ | ⟨c, _ | ⟨d, cs₁⟩⟩) cs₂ heq hne
  · decide
  · obtain ⟨rfl, -⟩ := List.cons.inj heq
    decide
  · have hnil := (List.cons.inj (List.cons.inj heq).2).2
    exact absurd (List.append_eq_nil_iff.mp hnil.symm).2 hne

/-- A cut behind the head is not: the call on the head never returns. -/
theorem not_chunkIndependent_cut_behind_head :
    feed ⟨true, {}, []⟩ [({}, postRequest.head), ({}, postRequest.body)] = .hangs ∧
      ¬ ChunkIndependent {} postRequest [({}, postRequest.head), ({}, postRequest.body)] := by
  have hfeed : feed ⟨true, {}, []⟩ [({}, postRequest.head), ({}, postRequest.body)] = .hangs := by
    decide
  refine ⟨hfeed, fun h => ?_⟩
  obtain ⟨p, hp, -⟩ := @parseRequest_text {} postRequest
  have hlast := h.1
  rw [hfeed, hp] at hlast
  cases hlast

end division

end HttpContext

end SwiftNetCore
