import SwiftNetCore.Http.Calls
import SwiftNetCore.Endpoint
import SwiftNetCore.Lib.Path

/-!
# `HttpServer` on one connection

One readable event of a server connection appends what was read to `inputBuffer_` and calls
`HttpServer::onMessage` once (`deliver`). The user's callback is a parameter.

* `methodUnset_iff_refusesNoMethod`: over every run, `method_` is unset whenever a request line
  is expected, and no assertion fails, exactly when no line that starts with a method name is
  refused.
* `nothing_waits_iff_nothingBehind`: after `onMessage` the buffer of an open connection starts
  with no complete request exactly when the bytes behind the current request did not.
-/

namespace SwiftNetCore

open InputBuffer
open Delimited (PairFree unlines)
open Paths (Path Throughout MeetsAll)
open HttpContext (MethodUnset LineAccepted Completes)

/-! ## The server's side of a connection -/

/-- A connection of `HttpServer`, with the `HttpContext` that `onConnection` stores in it. -/
structure ServerConnection extends Endpoint where
  /-- `context_` -/
  context : HttpContext := {}
  /-- the requests passed to `httpCallback_` so far -/
  requests : List HttpRequest := []
  deriving DecidableEq

/-- One readable event: its time and the bytes read. -/
abbrev Message := Timestamp × Bytes

namespace HttpServer

/-- `httpCallback_`: what the user's function makes of the response it is given. -/
abbrev HttpCallback := HttpRequest → HttpResponse → HttpResponse

/-- `detail::defaultHttpCallback`. Source: HttpServer.cc 13-18 -/
def defaultHttpCallback : HttpCallback := fun _ resp =>
  { resp with
    statusCode := .k404NotFound
    statusMessage := lit "Not Found"
    closeConnection := true }

/-- Whether the request asks for the connection to be closed. Source: HttpServer.cc 74-76 -/
def closes (req : HttpRequest) : Bool :=
  let connection := req.getHeader (lit "Connection")
  connection = lit "close" ∨ (req.version = .kHttp10 ∧ connection ≠ lit "Keep-Alive")

/-- `onRequest(conn, req)`. Source: HttpServer.cc 72-86 -/
def onRequest (httpCallback : HttpCallback) (conn : ServerConnection) (req : HttpRequest) :
    ServerConnection :=
  let response := httpCallback req { closeConnection := closes req }
  let endpoint := conn.toEndpoint.send (response.appendToBuffer [])
  { conn with
    toEndpoint := if response.closeConnection then endpoint.shutdown else endpoint
    requests := conn.requests ++ [req] }

/-- What `onMessage` does with what `parseRequest` returned. Source: HttpServer.cc 58-69 -/
def onParsed (httpCallback : HttpCallback) (conn : ServerConnection) (p : Parse Bytes) :
    ServerConnection :=
  let conn := { conn with inputBuffer := p.buf, context := p.context }
  let conn :=
    if p.ok then conn
    else { conn with
      toEndpoint := (conn.toEndpoint.send (lit "HTTP/1.1 400 Bad Request\r\n\r\n")).shutdown }
  if conn.context.gotAll then
    { onRequest httpCallback conn conn.context.request with context := conn.context.reset }
  else conn

/-- `onMessage(conn, buf, receiveTime)`. Source: HttpServer.cc 49-70 -/
def onMessage (httpCallback : HttpCallback) (conn : ServerConnection) (receiveTime : Timestamp) :
    Outcome ServerConnection :=
  (HttpContext.parseRequest receiveTime conn.context conn.inputBuffer).map
    (onParsed httpCallback conn)

/-- One readable event: the bytes are appended to `inputBuffer_`, and `onMessage` is called.
Source: `TcpConnection::handleRead`, TcpConnection.cpp 59-77 -/
def deliver (httpCallback : HttpCallback) (conn : ServerConnection) (msg : Message) :
    Outcome ServerConnection :=
  onMessage httpCallback { conn with inputBuffer := conn.inputBuffer ++ msg.2 } msg.1

/-- The events of a connection, as a transition system: those that `onMessage` returns from. -/
def Step (httpCallback : HttpCallback) (conn : ServerConnection) (msg : Message)
    (conn' : ServerConnection) : Prop :=
  deliver httpCallback conn msg = .returned conn'

instance (httpCallback : HttpCallback) (conn conn' : ServerConnection) (msg : Message) :
    Decidable (Step httpCallback conn msg conn') :=
  inferInstanceAs (Decidable (_ = _))

variable {httpCallback : HttpCallback} {conn conn' : ServerConnection} {msg : Message}
  {p : Parse Bytes}

/-- An event returns exactly when the parser does, with what `onParsed` makes of it. -/
lemma deliver_eq_returned_iff :
    deliver httpCallback conn msg = .returned conn' ↔
      ∃ p, HttpContext.parseRequest msg.1 conn.context (conn.inputBuffer ++ msg.2) = .returned p ∧
        onParsed httpCallback { conn with inputBuffer := conn.inputBuffer ++ msg.2 } p = conn' := by
  unfold deliver onMessage
  rcases HttpContext.parseRequest msg.1 conn.context (conn.inputBuffer ++ msg.2) with p | _ | _ <;>
    simp

/-- An event aborts exactly when the parser does. -/
lemma deliver_eq_aborted_iff :
    deliver httpCallback conn msg = .aborted ↔
      HttpContext.parseRequest msg.1 conn.context (conn.inputBuffer ++ msg.2) = .aborted := by
  unfold deliver onMessage
  rcases HttpContext.parseRequest msg.1 conn.context (conn.inputBuffer ++ msg.2) with p | _ | _ <;>
    simp

/-- Without a complete request the context is what the parser left. -/
lemma onParsed_context_of_not_gotAll (hg : p.context.gotAll = false) :
    (onParsed httpCallback conn p).context = p.context := by
  unfold onParsed
  rcases p.ok with _ | _ <;> simp [hg]

/-- After a complete request the context is reset. -/
lemma onParsed_context_of_gotAll (hg : p.context.gotAll = true) :
    (onParsed httpCallback conn p).context = p.context.reset := by
  unfold onParsed
  rcases p.ok with _ | _ <;> simp [hg]

/-- Answering a request leaves the input alone. -/
@[simp] lemma onRequest_inputBuffer (req : HttpRequest) :
    (onRequest httpCallback conn req).inputBuffer = conn.inputBuffer := by
  unfold onRequest
  simp only
  split <;> simp

/-- The buffer is what the parser left. -/
@[simp] lemma onParsed_inputBuffer : (onParsed httpCallback conn p).inputBuffer = p.buf := by
  unfold onParsed
  rcases p.ok with _ | _ <;> by_cases hg : p.context.gotAll = true <;> simp [hg]

/-- Without a complete request the callback is not called. -/
lemma onParsed_requests_of_not_gotAll (hg : p.context.gotAll = false) :
    (onParsed httpCallback conn p).requests = conn.requests := by
  unfold onParsed
  rcases p.ok with _ | _ <;> simp [hg]

/-- A complete request is passed to the callback. -/
lemma onParsed_requests_of_gotAll (hg : p.context.gotAll = true) :
    (onParsed httpCallback conn p).requests = conn.requests ++ [p.context.request] := by
  unfold onParsed onRequest
  rcases p.ok with _ | _ <;> simp [hg]

/-- After an error the connection is not in state `kConnected`. -/
lemma onParsed_state_of_not_ok (hok : p.ok = false) (hg : p.context.gotAll = false) :
    (onParsed httpCallback conn p).state ≠ .kConnected := by
  unfold onParsed
  simp only [hok, hg, Bool.false_eq_true, if_false]
  exact Endpoint.shutdown_state_ne _

/-! ## The assertion of `setMethod` -/

/-- `method_` is unset where a request line is expected, and no further event makes the assertion
fail. -/
def AssertionHolds (httpCallback : HttpCallback) (conn : ServerConnection) : Prop :=
  MethodUnset conn.context ∧ ∀ msg, deliver httpCallback conn msg ≠ .aborted

/-- The event gives the parser no line that starts with a method name and is refused. -/
def RefusesNoMethod (conn : ServerConnection) (msg : Message) : Prop :=
  LineAccepted conn.context (conn.inputBuffer ++ msg.2)

/-- The assertion cannot fail where the method is unset. -/
lemma assertionHolds_iff {conn : ServerConnection} :
    AssertionHolds httpCallback conn ↔ MethodUnset conn.context := by
  refine ⟨fun h => h.1, fun h => ⟨h, fun msg habort => ?_⟩⟩
  exact h.parseRequest_ne_aborted _ (deliver_eq_aborted_iff.mp habort)

/-- One event keeps the method unset where it must be exactly when it refuses no method. -/
lemma Step.assertionHolds_iff {conn conn' : ServerConnection} {msg : Message}
    (h : AssertionHolds httpCallback conn) (hstep : Step httpCallback conn msg conn') :
    AssertionHolds httpCallback conn' ↔ RefusesNoMethod conn msg := by
  obtain ⟨p, hp, rfl⟩ := deliver_eq_returned_iff.mp hstep
  rw [HttpServer.assertionHolds_iff, RefusesNoMethod, ← h.1.parseRequest_iff hp]
  rcases hg : p.context.gotAll with _ | _
  · rw [onParsed_context_of_not_gotAll hg]
    simp
  · rw [onParsed_context_of_gotAll hg]
    simp [HttpContext.methodUnset_reset]

/-- **When the method is unset.** Over every run of a connection, whatever the user's callback
and whatever arrives: `method_` is unset whenever a request line is expected and the assertion of
`setMethod` cannot fail, in every state of the run, exactly when no event of the run gives the
parser a line that starts with a method name and is no well formed request line. -/
theorem methodUnset_iff_refusesNoMethod (httpCallback : HttpCallback)
    (run : List (Message × ServerConnection)) (hrun : Path (Step httpCallback) {} run) :
    Throughout (AssertionHolds httpCallback) {} run ↔ MeetsAll RefusesNoMethod {} run :=
  hrun.throughout_iff_meetsAll (fun _ _ _ h hstep => hstep.assertionHolds_iff h)
    (assertionHolds_iff.mpr fun _ => rfl)

/-- A run of one event, with a well formed request line. -/
theorem methodUnset_after_request_line :
    Throughout (AssertionHolds defaultHttpCallback) {}
      [((({}, lit "GET / HTTP/1.1\r\n") : Message), { context :=
        { state := .kExpectHeaders
          request := { method := .kGet, version := .kHttp11, path := lit "/" } } })] := by
  refine (methodUnset_iff_refusesNoMethod defaultHttpCallback _
    (Paths.path_cons.mpr ⟨by decide, Paths.path_nil⟩)).mpr ⟨?_, trivial⟩
  intro _ line rest heq hl _
  have hsplit : lit "GET / HTTP/1.1" = line ∧ [] = rest :=
    Delimited.split_unique CR_ne_LF (by decide) hl heq
  exact hsplit.1 ▸ ⟨lit "GET", lit "/", lit "HTTP/1.1", rfl, by decide, by decide, .inl rfl⟩

/-- A request line with a version that is refused: the method stays set, the line stays in the
buffer, and the next event aborts the process. -/
theorem aborts_after_refused_version :
    ∃ conn, Path (Step defaultHttpCallback) {} [(({}, lit "GET / HTTP/2.0\r\n"), conn)] ∧
      conn.context.state = .kExpectRequestLine ∧ conn.context.request.method = .kGet ∧
      deliver defaultHttpCallback conn ({}, lit "x") = .aborted ∧
      ¬ Throughout (AssertionHolds defaultHttpCallback) {}
        [((({}, lit "GET / HTTP/2.0\r\n") : Message), conn)] := by
  refine ⟨
    { state := .kDisconnecting
      inputBuffer := lit "GET / HTTP/2.0\r\n"
      sent := [lit "HTTP/1.1 400 Bad Request\r\n\r\n"]
      context := { request := { method := .kGet, path := lit "/" } } },
    ⟨by decide, trivial⟩, rfl, rfl, by decide, ?_⟩
  intro h
  exact h.last.2 ({}, lit "x") (by decide)

/-! ## Pipelined requests -/

/-- The bytes start with a complete request. -/
def StartsWithRequest (buf : Bytes) : Prop := ∃ r : RequestText, r.text <+: buf

/-- A buffer without a complete line starts with no complete request. -/
lemma not_startsWithRequest_of_pairFree {buf : Bytes} (h : PairFree CR LF buf) :
    ¬ StartsWithRequest buf := by
  rintro ⟨r, tail, rfl⟩
  have hsplit : r.text ++ tail =
      r.line ++ CR :: LF :: (unlines CR LF r.headers ++ (CR :: LF :: (r.body ++ tail))) := by
    simp [RequestText.text, RequestText.head, headText]
  exact Delimited.not_pairFree_split (hsplit ▸ h)

/-- What follows the current request, if the bytes complete it, starts with no complete
request. -/
def NothingBehind (conn : ServerConnection) (msg : Message) : Prop :=
  ∀ rest, Completes conn.context (conn.inputBuffer ++ msg.2) rest → ¬ StartsWithRequest rest

/-- **When no complete request is left waiting.** For every state of a connection and every bytes
received: when `onMessage` returns and the connection is still in state `kConnected`, the input
buffer starts with no complete request exactly when what follows the request that the bytes
complete, if they complete one, did not start with one. -/
theorem nothing_waits_iff_nothingBehind (httpCallback : HttpCallback) (conn : ServerConnection)
    (msg : Message) {conn' : ServerConnection}
    (h : deliver httpCallback conn msg = .returned conn') (hstate : conn'.state = .kConnected) :
    ¬ StartsWithRequest conn'.inputBuffer ↔ NothingBehind conn msg := by
  obtain ⟨p, hp, rfl⟩ := deliver_eq_returned_iff.mp h
  rw [onParsed_inputBuffer]
  rcases hg : p.context.gotAll with _ | _
  · -- no request was completed: no complete line is left, and none of the bytes complete one
    have hok : p.ok = true := by
      rcases hok : p.ok with _ | _
      · exact absurd hstate (onParsed_state_of_not_ok hok hg)
      · rfl
    refine iff_of_true
      (not_startsWithRequest_of_pairFree (HttpContext.pairFree_of_waits hp hok hg)) ?_
    intro rest hc
    have := (hc.gotAll hp).1
    rw [hg] at this
    cases this
  · constructor
    · intro hrest rest hc
      rw [← (hc.gotAll hp).2]
      exact hrest
    · intro hnothing
      exact hnothing p.buf (HttpContext.completes_of_gotAll hp hg)

/-- A GET request without headers. -/
def getRequest : RequestText where
  line := lit "GET / HTTP/1.1"
  headers := []
  body := []
  pairFree_line := by decide
  isRequestLine := ⟨lit "GET", lit "/", lit "HTTP/1.1", rfl, by decide, by decide, .inl rfl⟩
  isHeaderLine := by simp
  bodyFits := by
    rw [BodyFits, if_neg (by decide)]

/-- A callback that answers `200` and leaves the connection as it is. -/
def answerOk : HttpCallback := fun _ resp => resp.setStatusCode 200

/-- With one request in one event, nothing waits, and the request is answered. -/
theorem nothing_waits_behind_one_request :
    ¬ StartsWithRequest ([] : Bytes) ∧
      deliver answerOk {} ({}, getRequest.text) = .returned
        { sent := [lit "HTTP/1.1 200 \r\nContent-Length: 0\r\nConnection: Keep-Alive\r\n\r\n"]
          requests := [{ method := .kGet, version := .kHttp11, path := lit "/" }] } := by
  have h : deliver answerOk {} ({}, getRequest.text) = .returned
      { sent := [lit "HTTP/1.1 200 \r\nContent-Length: 0\r\nConnection: Keep-Alive\r\n\r\n"]
        requests := [{ method := .kGet, version := .kHttp11, path := lit "/" }] } := by
    decide
  refine ⟨(nothing_waits_iff_nothingBehind answerOk {} _ h rfl).mpr ?_, h⟩
  rintro rest ⟨line, ls, e, body, heq, hl, -, hls, he, -⟩
  -- nothing is behind the request, and nothing starts with no request
  have hsplit := headText_unique getRequest.pairFree_line hl getRequest.isHeaderLine hls
    isEndLine_nil he heq
  obtain ⟨-, rfl⟩ := List.append_eq_nil_iff.mp hsplit.2.2.2.symm
  exact not_startsWithRequest_of_pairFree Delimited.pairFree_nil

/-- Two requests in one event: one is answered, and the other waits in the buffer of a connection
that is still in state `kConnected`. -/
theorem second_request_waits :
    ∃ conn, deliver answerOk {} ({}, getRequest.text ++ getRequest.text) = .returned conn ∧
      conn.state = .kConnected ∧ conn.requests.length = 1 ∧ StartsWithRequest conn.inputBuffer := by
  refine ⟨
    { inputBuffer := getRequest.text
      sent := [lit "HTTP/1.1 200 \r\nContent-Length: 0\r\nConnection: Keep-Alive\r\n\r\n"]
      requests := [{ method := .kGet, version := .kHttp11, path := lit "/" }] },
    by decide, rfl, rfl, getRequest, List.prefix_rfl⟩

end HttpServer

end SwiftNetCore
