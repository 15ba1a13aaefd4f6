import SwiftNetCore.Http.Server

/-!
# Requests on one connection, isolated from each other or not

`HttpContext::reset` swaps the request with a fresh one, member by member, and leaves `body_` out.
So the body of the last POST request is still there when the next request is read, and stays
there unless the next one is a POST too.

* `parseRequest_withBody`: a call does not look at the body that is there, and keeps it unless it
  completes a POST request.
* `Reading`: what is known of the request that a connection is reading, from the bytes received
  since the last one.
* `nextRequest_iff`: two connections that have handled any requests, with the same unread bytes,
  pass on the same next request exactly when the same body was left or the next request is a POST.
-/

namespace SwiftNetCore

open InputBuffer
open Delimited (PairFree unlines)
open Paths (Path Throughout)

namespace HttpContext

variable {receiveTime : Timestamp} {context : HttpContext} {p : Parse Bytes} {buf : Bytes}

/-! ## The body that is there before a call -/

/-- The context with another body. -/
def withBody (context : HttpContext) (body : Bytes) : HttpContext :=
  { context with request := context.request.setBody body }

/-- What a call returns when another body was there before it. -/
def replaceBody (body : Bytes) (p : Parse Bytes) : Parse Bytes :=
  if p.context.gotAll = true ∧ p.context.request.method = .kPost then p
  else { p with context := p.context.withBody body }

/-- Replacing the body leaves the buffer alone. -/
@[simp] lemma replaceBody_buf (body : Bytes) : (replaceBody body p).buf = p.buf := by
  unfold replaceBody
  split <;> rfl

/-- Replacing the body does not change whether the request is complete. -/
@[simp] lemma replaceBody_gotAll (body : Bytes) :
    (replaceBody body p).context.gotAll = p.context.gotAll := by
  unfold replaceBody
  split <;> rfl

/-- A request that is not complete gets the body. -/
lemma replaceBody_context_of_not_gotAll (hg : p.context.gotAll = false) (body : Bytes) :
    (replaceBody body p).context = p.context.withBody body := by
  simp [replaceBody, hg]

/-- A complete request gets the body, unless it is a post, which has one of its own. -/
lemma replaceBody_request_of_gotAll (hg : p.context.gotAll = true) (body : Bytes) :
    (replaceBody body p).context.request =
      if p.context.request.method = .kPost then p.context.request
      else p.context.request.setBody body := by
  simp only [replaceBody, hg, true_and]
  split <;> rfl

/-- The request line function does not look at the body. -/
lemma processRequestLine_setBody (request : HttpRequest) (line body : Bytes) :
    processRequestLine (request.setBody body) line =
      (processRequestLine request line).map fun (ok, request) => (ok, request.setBody body) := by
  unfold processRequestLine
  rcases find SP line with _ | ⟨m, rest⟩
  · rfl
  · by_cases hm : request.method = .kInvalid
    · simp only [HttpRequest.setMethod, HttpRequest.setBody, hm, if_true]
      rcases decide (HttpRequest.methodOf m ≠ .kInvalid) with _ | _
      · rfl
      · rcases find SP rest with _ | ⟨target, version⟩
        · rfl
        · simp only [setTarget]
          rcases find QUESTION target with _ | ⟨path, query⟩ <;> simp only <;> split_ifs <;> rfl
    · simp [HttpRequest.setMethod, HttpRequest.setBody, hm]

/-- Header lines do not look at the body. -/
lemma addHeaderLines_setBody (request : HttpRequest) (ls : List Bytes) (body : Bytes) :
    addHeaderLines (request.setBody body) ls = (addHeaderLines request ls).setBody body := by
  rw [addHeaderLines_frame, addHeaderLines_frame request]
  rfl

/-- In the header state, a call keeps the body that is there unless it takes one. -/
lemma parseRequest_headers_withBody (hs : context.state = .kExpectHeaders) (body : Bytes) :
    parseRequest receiveTime (context.withBody body) buf =
      (parseRequest receiveTime context buf).map (replaceBody body) := by
  have hs' : (context.withBody body).state = .kExpectHeaders := hs
  obtain ⟨ls, tail, rfl, hls, ht | ⟨e, rest, rfl, he⟩⟩ := headers_cases buf
  · rw [parseRequest_headers_open hs hls ht, parseRequest_headers_open hs' hls ht]
    simp [replaceBody, withBody, addHeaderLines_setBody, gotAll, hs]
  · rw [parseRequest_headers_closed hs hls he, parseRequest_headers_closed hs' hls he]
    have hreq : addHeaderLines (context.withBody body).request ls =
        (addHeaderLines context.request ls).setBody body := addHeaderLines_setBody _ _ _
    have hmethod : (context.withBody body).request.method = context.request.method := rfl
    have htake : takeBody ((addHeaderLines context.request ls).setBody body) rest =
        takeBody (addHeaderLines context.request ls) rest := rfl
    rw [hreq, hmethod]
    unfold finish
    by_cases hpost : context.request.method = .kPost
    · rw [if_pos hpost, if_pos hpost, htake]
      rcases takeBody (addHeaderLines context.request ls) rest with _ | ⟨taken, rest'⟩
      · rfl
      · simp [replaceBody, gotAll, HttpRequest.setBody, hpost, withBody]
    · rw [if_neg hpost, if_neg hpost]
      simp [replaceBody, withBody, hpost]

/-- **A call does not look at the body that is there**, and keeps it unless it completes a POST
request. -/
lemma parseRequest_withBody
    (hs : context.state = .kExpectRequestLine ∨ context.state = .kExpectHeaders) (body : Bytes) :
    parseRequest receiveTime (context.withBody body) buf =
      (parseRequest receiveTime context buf).map (replaceBody body) := by
  rcases hs with hs | hs
  · have hs' : (context.withBody body).state = .kExpectRequestLine := hs
    rcases Delimited.pairFree_or_split CR_ne_LF buf with hb | ⟨line, rest, rfl, hl⟩
    · rw [parseRequest_requestLine_incomplete hs hb, parseRequest_requestLine_incomplete hs' hb]
      simp [replaceBody, gotAll, hs]
    · have hline : processRequestLine (context.withBody body).request line =
          (processRequestLine context.request line).map fun (ok, request) =>
            (ok, request.setBody body) := processRequestLine_setBody _ _ _
      rw [parseRequest_requestLine hs hl, parseRequest_requestLine hs' hl, hline]
      rcases processRequestLine context.request line with _ | ⟨_ | _, request⟩
      · rfl
      · simp [replaceBody, withBody, gotAll, hs]
      · have hnext : HttpContext.state { context with
            state := .kExpectHeaders
            request := request.setReceiveTime receiveTime } = .kExpectHeaders := rfl
        exact parseRequest_headers_withBody hnext body
  · exact parseRequest_headers_withBody hs body

/-! ## What a call leaves -/

/-- In the header state, a call keeps the method, and stays in that state unless it reports a
complete request. -/
lemma parseRequest_headers_frame (hs : context.state = .kExpectHeaders)
    (h : parseRequest receiveTime context buf = .returned p) :
    p.context.request.method = context.request.method ∧
      p.context.response = context.response ∧
      (p.context.gotAll = false → p.context.state = .kExpectHeaders) := by
  obtain ⟨ls, tail, rfl, hls, ht | ⟨e, rest, rfl, he⟩⟩ := headers_cases buf
  · rw [parseRequest_headers_open hs hls ht] at h
    cases h
    exact ⟨addHeaderLines_method _ _, rfl, fun _ => hs⟩
  · rw [parseRequest_headers_closed hs hls he] at h
    obtain ⟨body, rest', -, -, rfl⟩ := finish_eq_returned_iff.mp h
    refine ⟨?_, rfl, fun hg => by simp [gotAll] at hg⟩
    split_ifs
    · exact addHeaderLines_method _ _
    · exact addHeaderLines_method _ _

/-- No call of `parseRequest` touches `response_`. -/
lemma parseRequest_response (h : parseRequest receiveTime context buf = .returned p) :
    p.context.response = context.response := by
  rcases hs : context.state with _ | _ | _ | _
  · rcases Delimited.pairFree_or_split CR_ne_LF buf with hb | ⟨line, rest, rfl, hl⟩
    · rw [parseRequest_requestLine_incomplete hs hb] at h
      cases h
      rfl
    · rw [parseRequest_requestLine hs hl] at h
      rcases hline : processRequestLine context.request line with _ | ⟨_ | _, request⟩ <;>
        simp only [hline] at h
      · cases h
      · cases h
        rfl
      · exact (parseRequest_headers_frame rfl h).2.1
  · exact (parseRequest_headers_frame hs h).2.1
  · rw [parseRequest_body hs] at h
    obtain ⟨body, rest, -, -, rfl⟩ := finish_eq_returned_iff.mp h
    rfl
  · rw [parseRequest_gotAll hs] at h
    cases h

/-- What is known of the request that a connection is reading, when `s` is what it has received
of it: the request line is expected and all of `s` is in the buffer, or the headers are expected
and the method is that of the first line. -/
def Reading (s : Bytes) (context : HttpContext) (buf : Bytes) : Prop :=
  (context.state = .kExpectRequestLine ∧ buf = s) ∨
    (context.state = .kExpectHeaders ∧ ∃ line rest, s = line ++ CR :: LF :: rest ∧
      (context.request.method = .kPost ↔ IsPostLine line))

/-- Only the first line decides whether a text starts as a POST request does. -/
lemma isPostLine_append_iff (line rest : Bytes) :
    IsPostLine (line ++ CR :: LF :: rest) ↔ IsPostLine line := by
  constructor
  · intro h
    have hline : line <+: line ++ CR :: LF :: rest := List.prefix_append _ _
    rcases List.prefix_or_prefix_of_prefix h hline with hpost | ⟨t, ht⟩
    · exact hpost
    · -- the line is a part of `POST `, which has no carriage return
      rcases t with _ | ⟨c, t⟩
      · exact ⟨[], by simpa using ht.symm⟩
      · obtain ⟨u, hu⟩ := h
        rw [← ht, List.append_assoc, List.append_cancel_left_eq] at hu
        obtain ⟨rfl, -⟩ := List.cons.inj hu
        have hmem : CR ∈ lit "POST " := by simp [← ht]
        exact absurd hmem (by decide)
  · intro h
    exact h.trans (List.prefix_append _ _)

/-- A call keeps what is known; a complete request is a POST exactly when the first line says
so. -/
lemma Reading.parseRequest {s chunk : Bytes} (hr : Reading s context buf)
    (h : parseRequest receiveTime context (buf ++ chunk) = .returned p) :
    (p.context.gotAll = false → Reading (s ++ chunk) p.context p.buf) ∧
      (p.context.gotAll = true → ∃ line rest, s ++ chunk = line ++ CR :: LF :: rest ∧
        (p.context.request.method = .kPost ↔ IsPostLine line)) := by
  rcases hr with ⟨hs, rfl⟩ | ⟨hs, line, rest, rfl, hm⟩
  · rcases Delimited.pairFree_or_split CR_ne_LF (buf ++ chunk) with hb | ⟨line, rest, heq, hl⟩
    · rw [parseRequest_requestLine_incomplete hs hb] at h
      cases h
      exact ⟨fun _ => .inl ⟨hs, rfl⟩, fun hg => by simp [gotAll, hs] at hg⟩
    · rw [heq, parseRequest_requestLine hs hl] at h
      rw [heq]
      rcases hline : processRequestLine context.request line with _ | ⟨_ | _, request⟩ <;>
        simp only [hline] at h
      · cases h
      · cases h
        exact ⟨fun _ => .inl ⟨hs, rfl⟩, fun hg => by simp [gotAll, hs] at hg⟩
      · -- an accepted line has set the method
        obtain ⟨hr, hok⟩ := processRequestLine_eq_true hline
        obtain ⟨request', hreq, hpost, -⟩ := processRequestLine_of_isRequestLine hr hok
        obtain rfl : request = request' := by
          rw [hline] at hreq
          exact congrArg Prod.snd (Option.some.inj hreq)
        obtain ⟨hm, -, hstate⟩ := parseRequest_headers_frame rfl h
        have hm' : p.context.request.method = .kPost ↔ IsPostLine line := by
          rw [hm]
          exact hpost
        exact ⟨fun hg => .inr ⟨hstate hg, line, rest, rfl, hm'⟩, fun _ => ⟨line, rest, rfl, hm'⟩⟩
  · obtain ⟨hm', -, hstate⟩ := parseRequest_headers_frame hs h
    rw [← hm'] at hm
    exact ⟨fun hg => .inr ⟨hstate hg, line, rest ++ chunk, by simp, hm⟩,
      fun _ => ⟨line, rest ++ chunk, by simp, hm⟩⟩

end HttpContext

namespace HttpServer

open HttpContext (Reading)

variable {httpCallback : HttpCallback} {conn conn₁ conn₂ conn' : ServerConnection} {msg : Message}

/-! ## Histories -/

/-- A state of a connection that some run from a new connection gets to. -/
def Reachable (httpCallback : HttpCallback) (conn : ServerConnection) : Prop :=
  ∃ run, Path (Step httpCallback) {} run ∧ Paths.last {} run = conn

/-- All requests so far are fully handled: the connection is new, or the last event completed a
request, which was passed on and the context reset. -/
def Handled (httpCallback : HttpCallback) (conn : ServerConnection) : Prop :=
  conn = {} ∨ ∃ before msg, Reachable httpCallback before ∧ Step httpCallback before msg conn ∧
    conn.requests ≠ before.requests

/-- `response_` stays as it was constructed. -/
lemma Reachable.response (h : Reachable httpCallback conn) : conn.context.response = {} := by
  obtain ⟨run, hrun, rfl⟩ := h
  refine (hrun.throughout (I := fun conn => conn.context.response = {}) ?_ rfl).last
  intro before msg after hb hstep
  obtain ⟨p, hp, rfl⟩ := deliver_eq_returned_iff.mp hstep
  have hresp := (HttpContext.parseRequest_response hp).trans hb
  rcases hg : p.context.gotAll with _ | _
  · rw [onParsed_context_of_not_gotAll hg, hresp]
  · rw [onParsed_context_of_gotAll hg]
    exact hresp

/-- After fully handled requests the context is a new one, but for the body. -/
lemma Handled.context_eq (h : Handled httpCallback conn) :
    conn.context = ({} : HttpContext).withBody conn.context.request.body := by
  rcases h with rfl | ⟨before, msg, hbefore, hstep, hne⟩
  · rfl
  · obtain ⟨p, hp, rfl⟩ := deliver_eq_returned_iff.mp hstep
    have hg : p.context.gotAll = true := by
      by_contra hg
      exact hne (onParsed_requests_of_not_gotAll (by simpa using hg))
    have hresp := (HttpContext.parseRequest_response hp).trans hbefore.response
    rw [onParsed_context_of_gotAll hg]
    unfold HttpContext.reset HttpContext.withBody
    rw [hresp]
    rfl

/-- The next request that is passed to the callback while the events `msgs` arrive. -/
def nextRequest (httpCallback : HttpCallback) (conn : ServerConnection) :
    List Message → Option HttpRequest
  | [] => none
  | msg :: msgs =>
    match deliver httpCallback conn msg with
    | .returned conn' =>
      if conn'.requests = conn.requests then nextRequest httpCallback conn' msgs
      else conn'.requests.getLast?
    | _ => none

/-- An event on a connection whose context is `context` with another body is parsed with `context`,
and has that body put in. -/
lemma deliver_withBody {context : HttpContext} {body : Bytes}
    (hs : context.state = .kExpectRequestLine ∨ context.state = .kExpectHeaders)
    (hc : conn.context = context.withBody body) :
    deliver httpCallback conn msg =
      (HttpContext.parseRequest msg.1 context (conn.inputBuffer ++ msg.2)).map fun p =>
        onParsed httpCallback { conn with inputBuffer := conn.inputBuffer ++ msg.2 }
          (HttpContext.replaceBody body p) := by
  unfold deliver onMessage
  simp only [hc]
  rw [HttpContext.parseRequest_withBody hs]
  rcases HttpContext.parseRequest msg.1 context (conn.inputBuffer ++ msg.2) with p | _ | _ <;> rfl

/-- When one event completes the next request, that is the one passed on, with an earlier body if it
is not a POST request. -/
lemma nextRequest_of_gotAll {context : HttpContext} {body : Bytes} {p : Parse Bytes}
    (hs : context.state = .kExpectRequestLine ∨ context.state = .kExpectHeaders)
    (hc : conn.context = context.withBody body)
    (hp : HttpContext.parseRequest msg.1 context (conn.inputBuffer ++ msg.2) = .returned p)
    (hg : p.context.gotAll = true) (msgs : List Message) :
    nextRequest httpCallback conn (msg :: msgs) =
      some (if p.context.request.method = .kPost then p.context.request
        else p.context.request.setBody body) := by
  have hg' : (HttpContext.replaceBody body p).context.gotAll = true := by simpa using hg
  simp only [nextRequest, deliver_withBody hs hc, hp, Outcome.map_returned,
    onParsed_requests_of_gotAll hg', HttpContext.replaceBody_request_of_gotAll hg]
  simp

/-- When one event does not complete the next request, the connection goes on with what is left. -/
lemma nextRequest_of_not_gotAll {context : HttpContext} {body : Bytes} {p : Parse Bytes}
    (hs : context.state = .kExpectRequestLine ∨ context.state = .kExpectHeaders)
    (hc : conn.context = context.withBody body)
    (hp : HttpContext.parseRequest msg.1 context (conn.inputBuffer ++ msg.2) = .returned p)
    (hg : p.context.gotAll = false) (msgs : List Message) :
    ∃ conn', conn'.context = p.context.withBody body ∧ conn'.inputBuffer = p.buf ∧
      nextRequest httpCallback conn (msg :: msgs) = nextRequest httpCallback conn' msgs := by
  have hg' : (HttpContext.replaceBody body p).context.gotAll = false := by simpa using hg
  refine ⟨onParsed httpCallback { conn with inputBuffer := conn.inputBuffer ++ msg.2 }
    (HttpContext.replaceBody body p), ?_, ?_, ?_⟩
  · rw [onParsed_context_of_not_gotAll hg', HttpContext.replaceBody_context_of_not_gotAll hg]
  · simp
  · simp only [nextRequest, deliver_withBody hs hc, hp, Outcome.map_returned,
      onParsed_requests_of_not_gotAll hg', if_true]

/-- Two connections whose contexts differ in the body only pass on the same next request, but
for the body of one that is no POST. -/
lemma nextRequest_withBody {context : HttpContext} {s body₁ body₂ : Bytes}
    (h₁ : conn₁.context = context.withBody body₁) (h₂ : conn₂.context = context.withBody body₂)
    (hbuf : conn₁.inputBuffer = conn₂.inputBuffer) (hr : Reading s context conn₁.inputBuffer)
    (msgs : List Message) :
    (nextRequest httpCallback conn₁ msgs = none ∧ nextRequest httpCallback conn₂ msgs = none) ∨
      ∃ req line rest, s ++ msgs.flatMap Prod.snd = line ++ CR :: LF :: rest ∧
        (req.method = .kPost ↔ IsPostLine line) ∧
        nextRequest httpCallback conn₁ msgs =
          some (if req.method = .kPost then req else req.setBody body₁) ∧
        nextRequest httpCallback conn₂ msgs =
          some (if req.method = .kPost then req else req.setBody body₂) := by
  induction msgs generalizing context s conn₁ conn₂ with
  | nil => exact .inl ⟨rfl, rfl⟩
  | cons msg msgs ih =>
      have hs : context.state = .kExpectRequestLine ∨ context.state = .kExpectHeaders :=
        hr.imp And.left And.left
      rcases hp : HttpContext.parseRequest msg.1 context (conn₁.inputBuffer ++ msg.2) with
        p | _ | _
      · have hp₂ := hp
        rw [hbuf] at hp₂
        obtain ⟨hreading, hmethod⟩ := hr.parseRequest hp
        rcases hg : p.context.gotAll with _ | _
        · obtain ⟨conn₁', hc₁, hb₁, hn₁⟩ :=
            @nextRequest_of_not_gotAll httpCallback _ _ _ _ _ hs h₁ hp hg msgs
          obtain ⟨conn₂', hc₂, hb₂, hn₂⟩ :=
            @nextRequest_of_not_gotAll httpCallback _ _ _ _ _ hs h₂ hp₂ hg msgs
          rw [hn₁, hn₂]
          have hr' : Reading (s ++ msg.2) p.context conn₁'.inputBuffer := hb₁ ▸ hreading hg
          rcases ih hc₁ hc₂ (hb₁.trans hb₂.symm) hr' with hnone | ⟨req, line, rest, heq, hreq⟩
          · exact .inl hnone
          · exact .inr ⟨req, line, rest, by simpa using heq, hreq⟩
        · obtain ⟨line, rest, heq, hm⟩ := hmethod hg
          refine .inr ⟨p.context.request, line, rest ++ msgs.flatMap Prod.snd, ?_, hm,
            nextRequest_of_gotAll hs h₁ hp hg msgs, nextRequest_of_gotAll hs h₂ hp₂ hg msgs⟩
          rw [List.flatMap_cons, ← List.append_assoc, heq]
          simp
      · have hp₂ := hp
        rw [hbuf] at hp₂
        exact .inl ⟨by simp [nextRequest, deliver_withBody hs h₁, hp],
          by simp [nextRequest, deliver_withBody hs h₂, hp₂]⟩
      · have hp₂ := hp
        rw [hbuf] at hp₂
        exact .inl ⟨by simp [nextRequest, deliver_withBody hs h₁, hp],
          by simp [nextRequest, deliver_withBody hs h₂, hp₂]⟩

/-- **When the next request does not depend on the earlier ones.** Take two connections with any
histories of fully handled requests and the same unread bytes, and let the same events arrive.
The next requests that they pass on agree in all but the body; where there is one, they agree in
the body too exactly when the histories left the same body or the bytes start as a POST request
does. After `reset` the state and the request are those of a new context exactly when the body
was empty. -/
theorem nextRequest_eq_iff (httpCallback : HttpCallback)
    (h₁ : Handled httpCallback conn₁) (h₂ : Handled httpCallback conn₂)
    (hbuf : conn₁.inputBuffer = conn₂.inputBuffer) (msgs : List Message) :
    (nextRequest httpCallback conn₁ msgs).map (·.setBody []) =
        (nextRequest httpCallback conn₂ msgs).map (·.setBody []) ∧
      ((nextRequest httpCallback conn₁ msgs).isSome →
        (nextRequest httpCallback conn₁ msgs = nextRequest httpCallback conn₂ msgs ↔
          conn₁.context.request.body = conn₂.context.request.body ∨
            IsPostLine (conn₁.inputBuffer ++ msgs.flatMap Prod.snd))) ∧
      ∀ context : HttpContext,
        context.reset.state = ({} : HttpContext).state ∧
          context.reset.request = ({} : HttpContext).request ↔ context.request.body = [] := by
  have hr : Reading conn₁.inputBuffer {} conn₁.inputBuffer := .inl ⟨rfl, rfl⟩
  have hreset : ∀ context : HttpContext, context.reset.state = ({} : HttpContext).state ∧
      context.reset.request = ({} : HttpContext).request ↔ context.request.body = [] := by
    intro context
    simp [HttpContext.reset, HttpRequest.swap]
  rcases @nextRequest_withBody httpCallback _ _ _ _ _ _ h₁.context_eq h₂.context_eq hbuf hr msgs
    with ⟨hn₁, hn₂⟩ | ⟨req, line, rest, heq, hm, hn₁, hn₂⟩
  · rw [hn₁, hn₂]
    exact ⟨rfl, fun h => by simp at h, hreset⟩
  · rw [hn₁, hn₂, heq, HttpContext.isPostLine_append_iff, ← hm]
    refine ⟨?_, fun _ => ?_, hreset⟩
    · split_ifs <;> rfl
    · split_ifs with hpost
      · simp [hpost]
      · simp [hpost, HttpRequest.setBody]

/-- A connection that has handled one POST request with the body `s`. -/
def afterPost : ServerConnection where
  sent := [lit "HTTP/1.1 200 \r\nContent-Length: 0\r\nConnection: Keep-Alive\r\n\r\n"]
  context := { request := { body := lit "s" } }
  requests :=
    [{ method := .kPost
       version := .kHttp11
       path := lit "/"
       body := lit "s"
       headers := {(lit "Content-Length", lit "1")} }]

/-- The request before was fully handled. -/
lemma handled_afterPost : Handled answerOk afterPost :=
  .inr ⟨{}, ({}, lit "POST / HTTP/1.1\r\nContent-Length: 1\r\n\r\ns"),
    ⟨[], Paths.path_nil, rfl⟩, by decide, by decide⟩

/-- A second POST request is read as on a new connection. -/
theorem nextRequest_post_after_post :
    nextRequest answerOk {} [({}, lit "POST / HTTP/1.1\r\nContent-Length: 1\r\n\r\nt")] =
      nextRequest answerOk afterPost
        [({}, lit "POST / HTTP/1.1\r\nContent-Length: 1\r\n\r\nt")] :=
  ((nextRequest_eq_iff answerOk (.inl rfl) handled_afterPost rfl _).2.1 (by decide)).mpr
    (.inr (by decide))

/-- A GET request has the body of the POST request before it. -/
theorem get_has_the_body_of_the_post_before :
    Handled answerOk afterPost ∧ afterPost.inputBuffer = ({} : ServerConnection).inputBuffer ∧
      (nextRequest answerOk {} [({}, lit "GET / HTTP/1.1\r\n\r\n")]).map (·.body) = some [] ∧
      (nextRequest answerOk afterPost [({}, lit "GET / HTTP/1.1\r\n\r\n")]).map (·.body) =
        some (lit "s") :=
  ⟨handled_afterPost, rfl, by decide, by decide⟩

end HttpServer

end SwiftNetCore
