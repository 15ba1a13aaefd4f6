import SwiftNetCore.Http.Answers
import SwiftNetCore.Http.Isolation
import SwiftNetCore.Http.RequestRoundTrip
import SwiftNetCore.Http.ResponseRoundTrip

/-!
# A client and a server on one connection

`HttpClient` writes requests and reads responses, `HttpServer` reads requests and writes responses;
the two are put at the ends of one connection. The client may make further requests before it has
the answers to the first ones, and may disconnect, behind which its requests are dropped; the server
handles what comes; each message arrives in one readable event of its own. Everything else may come
in any order. The client has no thread pool: it calls `httpResponseCallback_` itself.

* `Sendable`, `PlainAnswer`: the requests that survive being written and read, and the responses.
* `bodies`: what the server reads as their bodies. One that is no post comes with the body of the
  last post before it, since `reset` leaves `body_` alone.
* `deliver_requestText`, `receiveChunk_text`: one message at the server, and one at the client.
* `session_in_order`: the server's callback gets the requests that were made, in order; the client's
  gets the answers to them, in order, each once; the rest is on the way.

A message that arrives with the next one, or in two pieces, is another matter:
`SwiftNetCore.Http.Server`, `SwiftNetCore.Http.Chunks` and `SwiftNetCore.Http.Delivery` tell what
becomes of it.
-/

namespace SwiftNetCore

open Paths (Path Throughout MeetsAll trace path_trace)
open Delimited (PairFree segments)
open HttpContext (IsBody contentLength)
open HttpClient (requestText)
open HttpServer (HttpCallback Heard answer transcript Transcribes respond)

/-- The session of a client and a server. -/
structure HttpSession where
  client : ClientConnection := {}
  server : ServerConnection := {}
  /-- the requests on the way -/
  toServer : List Bytes := []
  /-- the answers on the way -/
  toClient : List Bytes := []
  /-- the requests that were made while the client was connected; others are dropped -/
  made : List HttpRequest := []
  deriving DecidableEq

/-- What happens in a session. -/
inductive SessionEvent where
  /-- `HttpClient::sendRequest` -/
  | request (req : HttpRequest)
  /-- `HttpClient::disconnect` -/
  | disconnect
  /-- a readable event of the server -/
  | serve (receiveTime : Timestamp)
  /-- a readable event of the client -/
  | receive
  deriving DecidableEq

namespace HttpSession

/-- One event. Source: HttpClient.cc 124-165, 194-252, HttpServer.cc 49-86 -/
def step (httpCallback : HttpCallback) (s : HttpSession) : SessionEvent → Option HttpSession
  | .request req =>
    if s.client.toEndpoint.connected then
      some { s with
        client := { s.client with toEndpoint := s.client.toEndpoint.send (requestText req) }
        toServer := s.toServer ++ [requestText req]
        made := s.made ++ [req] }
    else some s
  | .disconnect =>
    some { s with client := { s.client with toEndpoint := s.client.toEndpoint.shutdown } }
  | .serve receiveTime =>
    match s.toServer with
    | [] => none
    | message :: rest =>
      match HttpServer.deliver httpCallback s.server (receiveTime, message) with
      | .returned server =>
        some { s with
          server := server
          toServer := rest
          toClient := s.toClient ++ server.sent.drop s.server.sent.length }
      | _ => none
  | .receive =>
    match s.toClient with
    | [] => none
    | message :: rest =>
      match HttpClient.receiveChunk false s.client message with
      | .returned client => some { s with client := client, toClient := rest }
      | _ => none

/-- The steps of a session. -/
def Step (httpCallback : HttpCallback) (s : HttpSession) (event : SessionEvent) (s' : HttpSession) :
    Prop :=
  s.step httpCallback event = some s'

/-! ## What survives -/

/-- A request that is read back as it was written. -/
structure Sendable (req : HttpRequest) : Prop where
  method : req.method ≠ .kInvalid
  path : SP ∉ req.path
  line : PairFree CR LF req.path
  headers : ∀ h ∈ req.headers.toList, PlainHeader h
  body : IsBody (req.method = .kPost) (contentLength req) req.body []

/-- The requests of `get` are sendable. -/
lemma sendable_getRequest {path : Bytes} (hsp : SP ∉ path) (hline : PairFree CR LF path) :
    Sendable (HttpClient.getRequest path) :=
  ⟨by simp [HttpClient.getRequest], hsp, hline, by simp [HttpClient.getRequest], rfl⟩

/-- The requests of `post` are sendable, with a path and a type as here. -/
lemma sendable_postRequest {path body contentType : Bytes} (hsp : SP ∉ path)
    (hline : PairFree CR LF path) (htype : PairFree CR LF contentType)
    (hspace : NoOuterSpace contentType) (hbody : body.length ≤ 2 ^ 31 - 1) :
    Sendable (HttpClient.postRequest path body contentType) :=
  ⟨show Method.kPost ≠ .kInvalid by decide, hsp, hline, plainHeader_postRequest htype hspace,
    isBody_postRequest hbody⟩

/-- The request `got` that the server's callback gets for the request `req`. -/
structure Received (req got : HttpRequest) : Prop where
  method : got.method = req.method
  version : got.version = .kHttp11
  target : got.path ++ got.query = req.path
  headers : got.headers = req.headers
  /-- the body of a post; other requests have none to send -/
  body : req.method = .kPost → got.body = req.body

/-- The body that is in the server's context behind the request `req`, when `body` was there. -/
def bodyBehind (body : Bytes) (req : HttpRequest) : Bytes :=
  if req.method = .kPost then req.body else body

/-- The bodies that the server reads for some requests, one after the other. -/
def bodies (body : Bytes) : List HttpRequest → List Bytes
  | [] => []
  | req :: reqs => bodyBehind body req :: bodies (bodyBehind body req) reqs

/-- The body that the last of them has left. -/
def bodyLeft (body : Bytes) (read : List Bytes) : Bytes := read.getLast?.getD body

/-- One request more is received with its own body or the one left by those before. -/
lemma bodies_append (body : Bytes) (reqs : List HttpRequest) (req : HttpRequest) :
    bodies body (reqs ++ [req]) =
      bodies body reqs ++ [bodyBehind (bodyLeft body (bodies body reqs)) req] := by
  induction reqs generalizing body with
  | nil => rfl
  | cons x reqs ih =>
      have hleft : bodyLeft body (bodies body (x :: reqs)) =
          bodyLeft (bodyBehind body x) (bodies (bodyBehind body x) reqs) := by
        rw [bodies]
        rcases bodies (bodyBehind body x) reqs with _ | ⟨b, bs⟩
        · rfl
        · simp [bodyLeft, List.getLast?_eq_getLast_of_ne_nil]
      rw [hleft, List.cons_append, bodies, ih, bodies, List.cons_append]

/-- A response whose status and body are read back as they were written. -/
structure PlainAnswer (resp : HttpResponse) : Prop where
  headers : ∀ h ∈ resp.headers.toList, PlainHeader h
  message : ∀ l ∈ (segments CR LF resp.statusMessage).tail, COLON ∈ l

/-- The response `got` that the client's callback gets for the response `resp`. -/
structure ReadBack (resp got : HttpResponse) : Prop where
  statusCode : got.statusCode = resp.statusCode
  body : got.body = resp.body

variable {httpCallback : HttpCallback} {s s' : HttpSession} {event : SessionEvent}
  {req : HttpRequest} {resp : HttpResponse}

/-- **One request at the server**, on a connection with nothing in its buffer and a context that was
reset, is answered. -/
lemma deliver_requestText (httpCallback : HttpCallback) (receiveTime : Timestamp)
    {conn : ServerConnection} {body : Bytes}
    (hbuf : conn.inputBuffer = []) (hcontext : conn.context = ({} : HttpContext).withBody body)
    (hreq : Sendable req) :
    ∃ got conn', Received req got ∧ got.body = bodyBehind body req ∧
      HttpServer.deliver httpCallback conn (receiveTime, requestText req) = .returned conn' ∧
      conn'.requests = conn.requests ++ [got] ∧ conn'.inputBuffer = [] ∧
      conn'.context = ({} : HttpContext).withBody got.body ∧
      conn'.toEndpoint = respond httpCallback conn.toEndpoint (.request got) := by
  obtain ⟨request, hparse, h₁, h₂, h₃, h₄, h₅⟩ := parseRequest_requestText
    hreq.method hreq.path hreq.line hreq.headers hreq.body
  set p : Parse Bytes := ⟨true, { state := .kGotAll, request := request }, []⟩ with hp
  have hgot : p.context.gotAll = true := by simp [hp, HttpContext.gotAll]
  have hgot' : (HttpContext.replaceBody body p).context.gotAll = true := by simpa using hgot
  have hrequest := HttpContext.replaceBody_request_of_gotAll hgot body
  have hdeliver : HttpServer.deliver httpCallback conn (receiveTime, requestText req) =
      .returned (HttpServer.onParsed httpCallback { conn with inputBuffer := requestText req }
        (HttpContext.replaceBody body p)) := by
    rw [HttpServer.deliver_withBody (Or.inl rfl) hcontext, hbuf, List.nil_append, hparse]
    rfl
  refine ⟨_, _, ?_, ?_, hdeliver, HttpServer.onParsed_requests_of_gotAll hgot', ?_, ?_, ?_⟩
  · -- only the body can be another one, and only where there is none to send
    rw [hrequest]
    split
    · exact ⟨h₁, h₂, h₃, h₄, fun _ => h₅⟩
    · rename_i hpost
      exact ⟨h₁, h₂, h₃, h₄, fun hm => absurd (h₁.trans hm) hpost⟩
  · rw [hrequest, bodyBehind, ← h₁]
    split
    · exact h₅
    · rfl
  · rw [HttpServer.onParsed_inputBuffer, HttpContext.replaceBody_buf]
  · rw [HttpServer.onParsed_context_of_gotAll hgot']
    unfold HttpContext.replaceBody
    split <;> rfl
  · have hok : (HttpContext.replaceBody body p).ok = true := by
      unfold HttpContext.replaceBody
      split <;> rfl
    have hendpoint : { conn.toEndpoint with inputBuffer := [] } = conn.toEndpoint := by
      rw [← hbuf]
    rw [HttpServer.onParsed_toEndpoint]
    simp only [hok, hgot', if_true, HttpContext.replaceBody_buf]
    show respond httpCallback { conn.toEndpoint with inputBuffer := [] } _ = _
    rw [hendpoint]

/-- **One answer at the client**, on a connection with nothing in its buffer, is passed on. -/
lemma receiveChunk_text {conn : ClientConnection} (hbuf : conn.inputBuffer = [])
    (hresp : PlainAnswer resp) :
    ∃ got, ReadBack resp got ∧ HttpClient.receiveChunk false conn resp.text =
      .returned { conn with responses := conn.responses ++ [got] } := by
  obtain ⟨ls, heq⟩ := HttpResponse.parseResponse_text_of_colons hresp.headers hresp.message
  have hendpoint : ({ conn.toEndpoint with inputBuffer := [] } : Endpoint) = conn.toEndpoint := by
    rw [← hbuf]
  refine ⟨(HttpContext.addResponseHeaderLines (HttpResponse.withStatus resp.statusCode)
    (ls ++ resp.headers.toList.map headerLine)).setBody resp.body, ⟨?_, rfl⟩, ?_⟩
  · simp [HttpResponse.setBody, HttpResponse.withStatus, HttpResponse.setStatusCode]
  · unfold HttpClient.receiveChunk HttpClient.handleResponse HttpClient.passOn
    simp only [hbuf, List.nil_append, heq, Outcome.map_returned, if_true, HttpContext.gotAll]
    simp [hendpoint]

/-! ## The order of requests and answers -/

/-- The answers to requests: none behind the first that closes the connection. -/
def answered (httpCallback : HttpCallback) : List HttpRequest → List HttpResponse
  | [] => []
  | req :: reqs =>
    answer httpCallback req ::
      if (answer httpCallback req).closeConnection then [] else answered httpCallback reqs

/-- No answer closes the connection. -/
def StaysOpen (httpCallback : HttpCallback) (reqs : List HttpRequest) : Prop :=
  ∀ req ∈ reqs, (answer httpCallback req).closeConnection = false

/-- What the server sends are their texts. -/
lemma transcript_map_request (reqs : List HttpRequest) :
    transcript httpCallback (reqs.map .request) =
      (answered httpCallback reqs).map HttpResponse.text := by
  induction reqs with
  | nil => rfl
  | cons req reqs ih =>
      rw [List.map_cons, transcript, answered, ih, List.map_cons, HttpServer.Heard.ends]
      rcases (answer httpCallback req).closeConnection with _ | _ <;> rfl

/-- Each answer is the answer to one of the requests. -/
lemma exists_of_mem_answered {reqs : List HttpRequest} (h : resp ∈ answered httpCallback reqs) :
    ∃ req, resp = answer httpCallback req := by
  induction reqs with
  | nil => exact absurd h List.not_mem_nil
  | cons req reqs ih =>
      rw [answered] at h
      rcases List.mem_cons.mp h with rfl | h
      · exact ⟨req, rfl⟩
      · split at h
        · exact absurd h List.not_mem_nil
        · exact ih h

/-- All requests are answered where none closes the connection. -/
lemma answered_of_staysOpen {reqs : List HttpRequest} (h : StaysOpen httpCallback reqs) :
    answered httpCallback reqs = reqs.map (answer httpCallback) := by
  induction reqs with
  | nil => rfl
  | cons req reqs ih =>
      obtain ⟨hreq, hreqs⟩ := List.forall_mem_cons.mp h
      rw [answered, hreq, ih hreqs]
      rfl

/-- One request more is answered, or it comes behind the end. -/
lemma answered_append (httpCallback : HttpCallback) (reqs : List HttpRequest) (req : HttpRequest) :
    ∃ more, answered httpCallback (reqs ++ [req]) = answered httpCallback reqs ++ more := by
  induction reqs with
  | nil => exact ⟨_, rfl⟩
  | cons x reqs ih =>
      obtain ⟨more, hmore⟩ := ih
      rw [List.cons_append, answered, answered, hmore]
      split
      · exact ⟨[], rfl⟩
      · exact ⟨more, rfl⟩

/-- Requests and answers are where they should be. -/
structure InOrder (httpCallback : HttpCallback) (s : HttpSession) : Prop where
  /-- the server's callback got the first of the requests made, the others are on the way -/
  requests : ∃ handled waiting, s.made = handled ++ waiting ∧
    List.Forall₂ Received handled s.server.requests ∧
    s.server.requests.map HttpRequest.body = bodies [] handled ∧
    s.toServer = waiting.map requestText
  /-- the client's callback got the first of the answers to these, the others are on the way -/
  answers : ∃ read waiting, answered httpCallback s.server.requests = read ++ waiting ∧
    List.Forall₂ ReadBack read s.client.responses ∧ s.toClient = waiting.map HttpResponse.text

/-- What every step keeps. -/
structure Kept (httpCallback : HttpCallback) (s : HttpSession) : Prop
    extends InOrder httpCallback s where
  sendable : ∀ req ∈ s.made, Sendable req
  serverBuffer : s.server.inputBuffer = []
  serverContext : s.server.context =
    ({} : HttpContext).withBody (bodyLeft [] (s.server.requests.map HttpRequest.body))
  transcribes :
    Transcribes httpCallback (s.server.requests.map .request) s.server.toEndpoint
  clientBuffer : s.client.inputBuffer = []

/-- The client makes sendable requests. -/
def MakesSendable : SessionEvent → Prop
  | .request req => Sendable req
  | _ => True

/-- Handling the first of the requests on the way keeps the session in order. -/
lemma Kept.serve (h : s.Kept httpCallback) {receiveTime : Timestamp} {message : Bytes}
    {rest : List Bytes} {server : ServerConnection} (hfront : s.toServer = message :: rest)
    (hdeliver : HttpServer.deliver httpCallback s.server (receiveTime, message) =
      .returned server) :
    Kept httpCallback { s with
      server := server
      toServer := rest
      toClient := s.toClient ++ server.sent.drop s.server.sent.length } := by
  obtain ⟨handled, waiting, hmade, hhandled, hbodies, hwaiting⟩ := h.requests
  obtain ⟨read, coming, hanswered, hread, hcoming⟩ := h.answers
  rw [hfront] at hwaiting
  obtain ⟨req, waiting, rfl⟩ : ∃ req reqs, waiting = req :: reqs := by
    cases waiting with
    | nil => cases hwaiting
    | cons req reqs => exact ⟨req, reqs, rfl⟩
  obtain ⟨rfl, rfl⟩ := List.cons.inj hwaiting
  have hreq : Sendable req := h.sendable req (by simp [hmade])
  obtain ⟨got, conn', hreceived, hbody, heq, hrequests, hbuf, hcontext', hendpoint⟩ :=
    deliver_requestText httpCallback receiveTime h.serverBuffer h.serverContext hreq
  obtain rfl := Outcome.returned.inj (hdeliver.symm.trans heq)
  have htranscribes : Transcribes httpCallback (server.requests.map .request)
      server.toEndpoint := by
    rw [hrequests, List.map_append, hendpoint]
    exact h.transcribes.respond
  obtain ⟨more, hmore⟩ := answered_append httpCallback s.server.requests got
  rw [← hrequests] at hmore
  have hsent : server.sent.drop s.server.sent.length = more.map HttpResponse.text := by
    rw [htranscribes.sent, h.transcribes.sent, transcript_map_request, transcript_map_request,
      hmore, List.map_append, List.drop_left]
  refine ⟨⟨⟨handled ++ [req], waiting, by simp [hmade], ?_, ?_, rfl⟩, read, coming ++ more, ?_,
    hread, ?_⟩, h.sendable, hbuf, ?_, htranscribes, h.clientBuffer⟩
  · show List.Forall₂ Received _ server.requests
    rw [hrequests]
    exact List.rel_append hhandled (.cons hreceived .nil)
  · show server.requests.map HttpRequest.body = _
    rw [hrequests, List.map_append, hbodies, bodies_append, ← hbodies, ← hbody]
    rfl
  · show answered httpCallback server.requests = _
    rw [hmore, hanswered, List.append_assoc]
  · show s.toClient ++ _ = _
    rw [hsent, hcoming, List.map_append]
  · show server.context = _
    rw [hcontext', hrequests, List.map_append, bodyLeft]
    simp

/-- The client reads the first of the answers on the way. -/
lemma Kept.receive (h : s.Kept httpCallback) (hplain : ∀ req, PlainAnswer (answer httpCallback req))
    {message : Bytes} {rest : List Bytes} {client : ClientConnection}
    (hfront : s.toClient = message :: rest)
    (hreceive : HttpClient.receiveChunk false s.client message = .returned client) :
    Kept httpCallback { s with client := client, toClient := rest } := by
  obtain ⟨read, coming, hanswered, hread, hcoming⟩ := h.answers
  rw [hfront] at hcoming
  obtain ⟨resp, coming, rfl⟩ : ∃ resp resps, coming = resp :: resps := by
    cases coming with
    | nil => cases hcoming
    | cons resp resps => exact ⟨resp, resps, rfl⟩
  obtain ⟨rfl, rfl⟩ := List.cons.inj hcoming
  have hmem : resp ∈ answered httpCallback s.server.requests := by simp [hanswered]
  obtain ⟨req, rfl⟩ := exists_of_mem_answered hmem
  obtain ⟨got, hback, heq⟩ := receiveChunk_text h.clientBuffer (hplain req)
  obtain rfl := Outcome.returned.inj (hreceive.symm.trans heq)
  refine ⟨⟨h.requests, read ++ [answer httpCallback req], coming, ?_, ?_, rfl⟩, h.sendable,
    h.serverBuffer, h.serverContext, h.transcribes, h.clientBuffer⟩
  · rw [hanswered, List.append_assoc, List.singleton_append]
  · exact List.rel_append hread (.cons hback .nil)

/-- Every step with a sendable request keeps the session in order. -/
lemma Kept.step (h : s.Kept httpCallback) (hplain : ∀ req, PlainAnswer (answer httpCallback req))
    (hst : Step httpCallback s event s') (hsendable : MakesSendable event) :
    s'.Kept httpCallback := by
  unfold Step HttpSession.step at hst
  cases event with
  | request req =>
      simp only at hst
      split at hst <;> obtain rfl := Option.some.inj hst
      · obtain ⟨handled, waiting, hmade, hhandled, hbodies, hwaiting⟩ := h.requests
        refine ⟨⟨⟨handled, waiting ++ [req], ?_, hhandled, hbodies, ?_⟩, h.answers⟩, ?_, h.serverBuffer,
          h.serverContext, h.transcribes, ?_⟩
        · simp [hmade]
        · simp [hwaiting]
        · intro x hx
          rcases List.mem_append.mp hx with hx | hx
          · exact h.sendable x hx
          · obtain rfl := List.mem_singleton.mp hx
            exact hsendable
        · simpa using h.clientBuffer
      · exact h
  | disconnect =>
      obtain rfl := Option.some.inj hst
      exact ⟨⟨h.requests, h.answers⟩, h.sendable, h.serverBuffer, h.serverContext, h.transcribes,
        by simpa using h.clientBuffer⟩
  | serve receiveTime =>
      simp only at hst
      split at hst
      · cases hst
      · rename_i message rest hfront
        split at hst
        · rename_i server hdeliver
          obtain rfl := Option.some.inj hst
          exact h.serve hfront hdeliver
        · cases hst
  | receive =>
      simp only at hst
      split at hst
      · cases hst
      · rename_i message rest hfront
        split at hst
        · rename_i client hreceive
          obtain rfl := Option.some.inj hst
          exact h.receive hplain hfront hreceive
        · cases hst

/-- A session that begins is in order. -/
lemma kept_init : Kept httpCallback {} :=
  ⟨⟨⟨[], [], rfl, .nil, rfl, rfl⟩, [], [], rfl, .nil, rfl⟩, by simp, rfl, rfl,
    ⟨rfl, rfl⟩, rfl⟩

/-- Each request made was answered: the client's callback got, for each in turn, what is read back
of the answer to the request that was received for it. -/
def AllAnswered (httpCallback : HttpCallback) (s : HttpSession) : Prop :=
  List.Forall₂ (fun req resp => ∃ got, Received req got ∧ ReadBack (answer httpCallback got) resp)
    s.made s.client.responses

/-- With nothing on the way, and no answer that closes the connection, every request was
answered. -/
lemma InOrder.allAnswered (h : s.InOrder httpCallback) (hserver : s.toServer = [])
    (hclient : s.toClient = []) (hopen : StaysOpen httpCallback s.server.requests) :
    s.AllAnswered httpCallback := by
  obtain ⟨handled, waiting, hmade, hhandled, -, hwaiting⟩ := h.requests
  obtain ⟨read, coming, hanswered, hread, hcoming⟩ := h.answers
  obtain rfl : waiting = [] := List.map_eq_nil_iff.mp (hwaiting.symm.trans hserver)
  obtain rfl : coming = [] := List.map_eq_nil_iff.mp (hcoming.symm.trans hclient)
  rw [List.append_nil] at hmade hanswered
  rw [answered_of_staysOpen hopen] at hanswered
  rw [← hanswered, List.forall₂_map_left_iff] at hread
  rw [← hmade] at hhandled
  unfold AllAnswered
  generalize s.made = made at hhandled ⊢
  generalize s.server.requests = requests at hhandled hread
  generalize s.client.responses = responses at hread ⊢
  -- both relations along one list
  induction hhandled generalizing responses with
  | nil =>
      cases hread
      exact .nil
  | cons hreceived _ ih =>
      cases hread with
      | cons hback hbacks => exact .cons ⟨_, hreceived, hback⟩ (ih _ hbacks)

/-- **A session keeps its order**: over every run of a client that makes sendable requests and of a
server whose answers are plain, the server's callback gets the requests that were made, in the order
in which they were made, each with its own body or that of the last post before it, and the client's
gets the answers to them, in that order, each once; what did not get there is on the way. Once
nothing is, and no answer closed the connection, every request was answered. -/
theorem session_in_order (hplain : ∀ req, PlainAnswer (answer httpCallback req))
    {run : List (SessionEvent × HttpSession)} (hrun : Path (Step httpCallback) {} run)
    (hsendable : ∀ x ∈ run, MakesSendable x.1) :
    Throughout (fun s => InOrder httpCallback s ∧
      (s.toServer = [] → s.toClient = [] → StaysOpen httpCallback s.server.requests →
        s.AllAnswered httpCallback)) {} run := by
  have hguard : MeetsAll (fun _ event => MakesSendable event) {} run :=
    Paths.meetsAll_iff_forall_mem.mpr hsendable
  have hkeep : ∀ s event s', Kept httpCallback s → Step httpCallback s event s' →
      MakesSendable event → Kept httpCallback s' :=
    fun _ _ _ h hstep hmakes => h.step hplain hstep hmakes
  have hkept := hrun.throughout_of_meetsAll hkeep hguard kept_init
  exact hkept.mono fun _ h =>
    ⟨h.toInOrder, fun hserver hclient hopen => h.toInOrder.allAnswered hserver hclient hopen⟩

/-- The page that `answerOk` answers is plain. -/
lemma plainAnswer_answerOk (req : HttpRequest) : PlainAnswer (answer HttpServer.answerOk req) :=
  ⟨by simp [answer, HttpServer.answerOk, HttpResponse.setStatusCode],
    by simp [answer, HttpServer.answerOk, HttpResponse.setStatusCode, segments]⟩

/-- A get, and a post that is made before the get is handled. -/
theorem session_in_order_two : Throughout (fun s => InOrder HttpServer.answerOk s ∧
      (s.toServer = [] → s.toClient = [] → StaysOpen HttpServer.answerOk s.server.requests →
        s.AllAnswered HttpServer.answerOk)) {}
    (trace (step HttpServer.answerOk) {}
      [.request (HttpClient.getRequest (lit "/a")),
        .request (HttpClient.postRequest (lit "/b") (lit "x=1") (lit "text/plain")),
        .serve {}, .receive, .serve {}, .receive]) := by
  apply session_in_order plainAnswer_answerOk (path_trace _ _ _)
  intro x hx
  have hx := Paths.mem_of_mem_trace hx
  rcases x with ⟨event, t⟩
  simp only [List.mem_cons, List.not_mem_nil, or_false] at hx
  rcases hx with rfl | rfl | rfl | rfl | rfl | rfl
  · exact sendable_getRequest (by decide) (by decide)
  · exact sendable_postRequest (by decide) (by decide) (by decide) (by decide) (by decide)
  all_goals exact trivial

end HttpSession

end SwiftNetCore
