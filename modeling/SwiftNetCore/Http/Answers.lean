import SwiftNetCore.Http.Server

/-!
# What a server connection answers

`HttpServer::onMessage` answers as it parses. Seen from the peer, a connection has one transcript:
an answer for each request, in the order the requests came, up to the first answer that closes the
connection or the first input that is no request, which is answered `400`. Behind that nothing is
sent any more, though requests are still parsed and passed to `httpCallback_`.

* `heard`: what the parser makes of the input, from the bytes alone.
* `transcript`: what is to be sent for it. `transcript_append`: one more thing heard is answered
  unless the transcript has ended.
* `answers_throughout`: in every state of every run, with any bytes in any chunks and any callback,
  the callback was called for the requests heard and the transcript of all that was heard was sent.
-/

namespace SwiftNetCore

open Paths (Path last)

namespace HttpServer

/-! ## What is heard -/

/-- Something that the parser makes of the input. -/
inductive Heard where
  /-- a complete request -/
  | request (req : HttpRequest)
  /-- a request line that is refused -/
  | malformed
  deriving DecidableEq

/-- The request, if it is one. -/
def Heard.request? : Heard → Option HttpRequest
  | request req => some req
  | malformed => none

/-- A request that was read is passed to the callback. -/
@[simp] lemma Heard.request?_request (req : HttpRequest) : (request req).request? = some req := rfl

/-- Input that was refused is not passed to the callback. -/
@[simp] lemma Heard.request?_malformed : malformed.request? = none := rfl

/-- What one call of `parseRequest` comes to: a refusal, a complete request, or nothing. -/
def heardOf (p : Parse Bytes) : List Heard :=
  (if p.ok then [] else [.malformed]) ++
    if p.context.gotAll then [.request p.context.request] else []

/-- The context that the next call finds: behind a complete request, one that was reset. -/
def contextBehind (p : Parse Bytes) : HttpContext :=
  if p.context.gotAll then p.context.reset else p.context

/-- What the parser makes of the messages, with one call for each on the bytes that are there by
then. -/
def heard (context : HttpContext) (buf : Bytes) : List Message → List Heard
  | [] => []
  | (receiveTime, chunk) :: msgs =>
    match HttpContext.parseRequest receiveTime context (buf ++ chunk) with
    | .returned p => heardOf p ++ heard (contextBehind p) p.buf msgs
    | _ => []

/-! ## What is sent for it -/

/-- The response that `onRequest` sends. Source: HttpServer.cc 72-80 -/
def answer (httpCallback : HttpCallback) (req : HttpRequest) : HttpResponse :=
  httpCallback req { closeConnection := closes req }

/-- What is sent for it. Source: HttpServer.cc 58-69, 79-81 -/
def Heard.text (httpCallback : HttpCallback) : Heard → Bytes
  | request req => (answer httpCallback req).appendToBuffer []
  | malformed => lit "HTTP/1.1 400 Bad Request\r\n\r\n"

/-- Whether the connection is shut down behind it. Source: HttpServer.cc 62, 82-85 -/
def Heard.ends (httpCallback : HttpCallback) : Heard → Bool
  | request req => (answer httpCallback req).closeConnection
  | malformed => true

/-- What is sent for all that was heard: nothing behind the first that ends the connection. -/
def transcript (httpCallback : HttpCallback) : List Heard → List Bytes
  | [] => []
  | h :: hs =>
    h.text httpCallback :: if h.ends httpCallback then [] else transcript httpCallback hs

/-- Whether the connection goes on. -/
def goesOn (httpCallback : HttpCallback) (hs : List Heard) : Bool :=
  hs.all fun h => !h.ends httpCallback

variable {httpCallback : HttpCallback} {conn conn' : ServerConnection} {msg : Message}
  {p : Parse Bytes} {hs : List Heard} {h : Heard}

/-- Who has heard nothing has sent nothing. -/
@[simp] lemma transcript_nil : transcript httpCallback [] = [] := rfl

/-- A transcript goes on behind something more when it went on before and that does not end it. -/
@[simp] lemma goesOn_append : goesOn httpCallback (hs ++ [h]) =
    (goesOn httpCallback hs && !h.ends httpCallback) := by
  simp [goesOn]

/-- **One thing more** that the parser makes of the input is answered, unless the connection has
ended. -/
lemma transcript_append (hs : List Heard) (h : Heard) :
    transcript httpCallback (hs ++ [h]) =
      if goesOn httpCallback hs then transcript httpCallback hs ++ [h.text httpCallback]
      else transcript httpCallback hs := by
  induction hs with
  | nil => simp [transcript, goesOn]
  | cons x hs ih =>
      rw [List.cons_append, transcript, ih, transcript]
      rcases hx : x.ends httpCallback with _ | _
      · have hgoes : goesOn httpCallback (x :: hs) = goesOn httpCallback hs := by
          simp [goesOn, hx]
        rw [hgoes]
        simp only [Bool.false_eq_true, if_false]
        split <;> rfl
      · simp [goesOn, hx]

/-- What is done with the connection for one thing heard. -/
def respond (httpCallback : HttpCallback) (endpoint : Endpoint) (h : Heard) : Endpoint :=
  if h.ends httpCallback then (endpoint.send (h.text httpCallback)).shutdown
  else endpoint.send (h.text httpCallback)

/-- A response leaves the input alone. -/
@[simp] lemma respond_inputBuffer (endpoint : Endpoint) (h : Heard) :
    (respond httpCallback endpoint h).inputBuffer = endpoint.inputBuffer := by
  unfold respond
  split <;> simp

/-- What an event does: the input that is refused comes first, and a complete request behind it. -/
lemma onParsed_toEndpoint : (onParsed httpCallback conn p).toEndpoint =
    let refused := if p.ok then { conn.toEndpoint with inputBuffer := p.buf }
      else respond httpCallback { conn.toEndpoint with inputBuffer := p.buf } .malformed
    if p.context.gotAll then respond httpCallback refused (.request p.context.request)
    else refused := by
  unfold onParsed onRequest
  rcases p.ok with _ | _ <;> by_cases hg : p.context.gotAll = true <;>
    simp [hg, respond, Heard.ends, Heard.text, answer]

/-- The endpoint has sent the transcript of what was heard, and is open as long as it goes on. -/
structure Transcribes (httpCallback : HttpCallback) (hs : List Heard) (endpoint : Endpoint) :
    Prop where
  sent : endpoint.sent = transcript httpCallback hs
  state : endpoint.state = if goesOn httpCallback hs then .kConnected else .kDisconnecting

/-- The input buffer does not count. -/
lemma Transcribes.congr {endpoint endpoint' : Endpoint}
    (ht : Transcribes httpCallback hs endpoint) (hsent : endpoint'.sent = endpoint.sent)
    (hstate : endpoint'.state = endpoint.state) : Transcribes httpCallback hs endpoint' :=
  ⟨hsent.trans ht.sent, hstate.trans ht.state⟩

/-- **What is sent for one thing more.** -/
lemma Transcribes.respond {endpoint : Endpoint} (ht : Transcribes httpCallback hs endpoint) :
    Transcribes httpCallback (hs ++ [h]) (respond httpCallback endpoint h) := by
  obtain ⟨hsent, hstate⟩ := ht
  rcases hg : goesOn httpCallback hs with _ | _
  · -- the transcript has ended: the connection is not `kConnected`, and nothing changes
    have hclosed : endpoint.state = .kDisconnecting := by simpa [hg] using hstate
    have hsame : HttpServer.respond httpCallback endpoint h = endpoint := by
      simp [HttpServer.respond, Endpoint.send, Endpoint.shutdown, hclosed]
    rw [hsame]
    exact ⟨by rw [transcript_append, hg, hsent]; rfl, by simp [hg, hclosed]⟩
  · have hopen : endpoint.state = .kConnected := by simpa [hg] using hstate
    have hsend : endpoint.send (h.text httpCallback) =
        { endpoint with sent := endpoint.sent ++ [h.text httpCallback] } := if_pos hopen
    rw [HttpServer.respond, hsend]
    refine ⟨?_, ?_⟩
    · rw [transcript_append, hg, ← hsent]
      rcases h.ends httpCallback with _ | _ <;> simp [Endpoint.shutdown, hopen]
    · rcases he : h.ends httpCallback with _ | _ <;> simp [Endpoint.shutdown, hopen, hg, he]

/-- Answering several things more transcribes them. -/
lemma Transcribes.responds {endpoint : Endpoint} (ht : Transcribes httpCallback hs endpoint)
    (more : List Heard) :
    Transcribes httpCallback (hs ++ more) (more.foldl (HttpServer.respond httpCallback) endpoint) := by
  induction more generalizing hs endpoint with
  | nil => simpa using ht
  | cons h more ih =>
      have hmore := ih (ht.respond (h := h))
      rwa [List.append_assoc, List.singleton_append] at hmore

/-- An event responds to what was heard in it. -/
lemma onParsed_toEndpoint_eq_foldl : (onParsed httpCallback conn p).toEndpoint =
    (heardOf p).foldl (respond httpCallback) { conn.toEndpoint with inputBuffer := p.buf } := by
  rw [onParsed_toEndpoint, heardOf]
  rcases p.ok with _ | _ <;> by_cases hg : p.context.gotAll = true <;> simp [hg]

/-- The callback is called for the requests among it. -/
lemma onParsed_requests : (onParsed httpCallback conn p).requests =
    conn.requests ++ (heardOf p).filterMap Heard.request? := by
  by_cases hg : p.context.gotAll = true
  · rw [onParsed_requests_of_gotAll hg, heardOf]
    rcases p.ok with _ | _ <;> simp [hg, List.filterMap_cons]
  · rw [Bool.not_eq_true] at hg
    rw [onParsed_requests_of_not_gotAll hg, heardOf]
    rcases p.ok with _ | _ <;> simp [hg]

/-- The context is the one for the next call. -/
lemma onParsed_context : (onParsed httpCallback conn p).context = contextBehind p := by
  unfold contextBehind
  rcases hg : p.context.gotAll with _ | _
  · exact onParsed_context_of_not_gotAll hg
  · exact onParsed_context_of_gotAll hg

/-- The connection has passed the requests among `hs` to the callback and sent the transcript of
`hs`. -/
structure Answers (httpCallback : HttpCallback) (hs : List Heard) (conn : ServerConnection) :
    Prop where
  requests : conn.requests = hs.filterMap Heard.request?
  transcribes : Transcribes httpCallback hs conn.toEndpoint

/-- An event adds what was heard in it. -/
lemma Answers.onParsed (ha : Answers httpCallback hs conn) (buf : Bytes) (p : Parse Bytes) :
    Answers httpCallback (hs ++ heardOf p)
      (onParsed httpCallback { conn with inputBuffer := buf } p) where
  requests := by rw [onParsed_requests, List.filterMap_append, ha.requests]
  transcribes := by
    rw [onParsed_toEndpoint_eq_foldl]
    have hread : Transcribes httpCallback hs { conn.toEndpoint with inputBuffer := p.buf } :=
      ha.transcribes.congr rfl rfl
    exact hread.responds (heardOf p)

/-- A run adds what is heard in its messages. -/
lemma Answers.last (ha : Answers httpCallback hs conn)
    {run : List (Message × ServerConnection)} (hrun : Path (Step httpCallback) conn run) :
    Answers httpCallback (hs ++ heard conn.context conn.inputBuffer (run.map Prod.fst))
      (last conn run) := by
  induction run generalizing conn hs with
  | nil => simpa [heard, Paths.last] using ha
  | cons x run ih =>
      obtain ⟨⟨receiveTime, chunk⟩, conn'⟩ := x
      obtain ⟨hstep, hrun⟩ := Paths.path_cons.mp hrun
      obtain ⟨p, hp, rfl⟩ := deliver_eq_returned_iff.mp hstep
      have hlast := ih (ha.onParsed (conn.inputBuffer ++ chunk) p) hrun
      rw [onParsed_context, onParsed_inputBuffer, List.append_assoc] at hlast
      simpa [heard, hp, Paths.last] using hlast

/-- **A server connection answers in order**: in every state of every run, with any bytes in any
chunks and any callback, the requests that were passed to the callback are those that the parser
made of the bytes received so far, what was sent is the transcript of these and of the input that
was refused, and the connection is open as long as the transcript goes on. -/
theorem answers_throughout (httpCallback : HttpCallback)
    {run : List (Message × ServerConnection)} (hrun : Path (Step httpCallback) {} run) :
    ∀ done todo, run = done ++ todo →
      Answers httpCallback (heard {} [] (done.map Prod.fst)) (last {} done) := by
  rintro done todo rfl
  have hdone := (Paths.path_append.mp hrun).1
  have hstart : Answers httpCallback [] ({} : ServerConnection) := ⟨rfl, rfl, rfl⟩
  exact hstart.last hdone

/-- The connection behind an event that `onMessage` returns from. -/
def next (httpCallback : HttpCallback) (conn : ServerConnection) (msg : Message) :
    Option ServerConnection :=
  match deliver httpCallback conn msg with
  | .returned conn' => some conn'
  | _ => none

/-- The runs of a connection can be computed. -/
lemma path_next (conn : ServerConnection) (msgs : List Message) :
    Path (Step httpCallback) conn (Paths.trace (next httpCallback) conn msgs) := by
  have heq : (fun s a t => next httpCallback s a = some t) = Step httpCallback := by
    funext s a t
    unfold next Step
    rcases deliver httpCallback s a with c | _ | _ <;> simp
  exact heq ▸ Paths.path_trace (next httpCallback) conn msgs

/-- Three requests, of which the second closes the connection, and input that is refused. -/
def threeAndNonsense : List Message :=
  [({}, lit "GET /a HTTP/1.1\r\n\r\n"), ({}, lit "GET /b HTTP/1.0\r\n\r\n"),
    ({}, lit "GET /c HTTP/1.1\r\n"), ({}, lit "\r\nnonsense\r"), ({}, lit "\n")]

/-- A server whose input closes the connection in the middle answers up to the second request. -/
theorem answers_throughout_close :
    Answers answerOk (heard {} [] threeAndNonsense)
      (last {} (Paths.trace (next answerOk) {} threeAndNonsense)) := by
  have hall : (Paths.trace (next answerOk) {} threeAndNonsense).map Prod.fst = threeAndNonsense := by
    decide
  have hanswers := answers_throughout answerOk (path_next {} threeAndNonsense) _ []
    (List.append_nil _).symm
  rwa [hall] at hanswers

/-- What comes behind the second request is heard, too. -/
example : (heard {} [] threeAndNonsense).map (fun h => h.request?.map HttpRequest.path) =
    [some (lit "/a"), some (lit "/b"), some (lit "/c"), none] := by
  decide

end HttpServer

end SwiftNetCore
