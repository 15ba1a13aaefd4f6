import SwiftNetCore.Http.Context
import SwiftNetCore.Endpoint
import SwiftNetCore.Lib.Path

/-!
# `HttpClient`

The client's state is spread over its two flags, its queue and the connections that its
`TcpClient` has made; `get`, `post` and `disconnect` come from any thread, everything else from
the loop thread. A step is what one thread does without letting another in: one of these calls,
under `mutex_`, or one part of a callback of the loop thread, which is at one `LoopPoint` at a
time. Other threads can call between any two parts.

`TcpClient::newConnection` may run whenever the loop thread is idle: when the connector calls it
is the connector's business, so every order that it can bring about is a run here.

Each submitted request is kept with its number, which the sources do not have: it says which
submission a queued or sent request comes from.
-/

namespace SwiftNetCore

open InputBuffer

/-! ## The state -/

/-- A `TcpConnection` of the client, with what `handleResponse` has made of its responses. -/
structure ClientConnection extends Endpoint where
  /-- those that it has called `httpResponseCallback_` with -/
  responses : List HttpResponse := []
  /-- those for which it has submitted a task to `threadPool_` -/
  submitted : List HttpResponse := []
  deriving DecidableEq

/-- Where the loop thread is, in the callbacks of the connection with a number. -/
inductive LoopPoint where
  /-- in no callback -/
  | idle
  /-- in `TcpClient::newConnection`, which has set `connection_` -/
  | created (k : ℕ)
  /-- in `connectEstablished`, which has set `kConnected` and called `onConnection` -/
  | established (k : ℕ)
  /-- in `onConnection`, which has found the connection connected -/
  | up (k : ℕ)
  /-- in `onMessage`, behind `handleResponse` -/
  | message (k : ℕ)
  /-- in `handleClose`, which has set `kDisconnected` -/
  | closing (k : ℕ)
  /-- in `handleClose`, behind `onConnection` -/
  | down (k : ℕ)
  deriving DecidableEq, Repr

/-- `HttpClient`, with the parts of its `TcpClient` that it uses.
Source: HttpClient.h 66-76, TcpClient.h -/
structure HttpClient where
  /-- `useThreadPool_`, which the constructor sets -/
  useThreadPool : Bool := false
  /-- every connection made so far, by number -/
  connections : List ClientConnection := []
  /-- `client_.connection_` -/
  connection : Option ℕ := none
  /-- `connected_` -/
  connected : Bool := false
  /-- `isConnecting_` -/
  isConnecting : Bool := false
  /-- `requests_`, each with the number of its submission -/
  requests : List (HttpRequest × ℕ) := []
  /-- the requests that `get` and `post` were called for -/
  submitted : List HttpRequest := []
  /-- the requests handed to `TcpConnection::send` on a connected connection -/
  handed : List (HttpRequest × ℕ) := []
  /-- where the loop thread is -/
  point : LoopPoint := .idle
  deriving DecidableEq

/-- What a thread does next. -/
inductive ClientEvent where
  /-- `get` or `post`, with the request it builds -/
  | submit (req : HttpRequest)
  /-- `disconnect` -/
  | disconnect
  /-- `TcpClient::newConnection`, up to `connection_ = conn` -/
  | newConnection
  /-- `connectEstablished`, up to the call of `onConnection` -/
  | establish
  /-- `onConnection` asks `conn->connected()` -/
  | ask
  /-- the locked part of `onConnection` -/
  | announce
  /-- a readable event of the connection `k`, up to the end of `handleResponse` -/
  | receive (k : ℕ) (chunk : Bytes)
  /-- the locked part of `onMessage` -/
  | drain
  /-- `handleClose` of the connection `k`, up to `onConnection` -/
  | close (k : ℕ)
  /-- `onConnection` clears the flags -/
  | clear
  /-- `TcpClient::removeConnection` -/
  | remove
  deriving DecidableEq

namespace HttpClient

/-- The constructor. Source: HttpClient.cc 19-48 -/
def new (useThreadPool : Bool) : HttpClient where
  useThreadPool := useThreadPool

/-! ## Requests -/

/-- The request that `get(path)` builds. Source: HttpClient.cc 65-72 -/
def getRequest (path : Bytes) : HttpRequest :=
  { method := .kGet, path := path, version := .kHttp11 }

/-- The request that `post(path, body, contentType)` builds. Source: HttpClient.cc 92-103 -/
def postRequest (path body contentType : Bytes) : HttpRequest :=
  ((({ method := .kPost, path := path, version := .kHttp11 } : HttpRequest).addHeaderString
    (lit "Content-Type") contentType).addHeaderString
      (lit "Content-Length") (decimal body.length)).setBody body

/-- The bytes that `sendRequest` sends. Source: HttpClient.cc 133-156 -/
def requestText (req : HttpRequest) : Bytes :=
  req.methodString ++ lit " " ++ req.path ++ lit " HTTP/1.1\r\n" ++
    req.headers.toList.flatMap HttpResponse.headerText ++ crlf ++ req.body

/-! ## Responses -/

/-- What becomes of a complete response: a task for `threadPool_`, or a call of
`httpResponseCallback_`, which is set. Source: HttpClient.cc 222-241 -/
def passOn (useThreadPool : Bool) (resp : HttpResponse) (conn : ClientConnection) :
    ClientConnection :=
  if useThreadPool then { conn with submitted := conn.submitted ++ [resp] }
  else { conn with responses := conn.responses ++ [resp] }

/-- Passing a response on leaves the connection alone. -/
@[simp] lemma passOn_toEndpoint (useThreadPool : Bool) (resp : HttpResponse)
    (conn : ClientConnection) : (passOn useThreadPool resp conn).toEndpoint = conn.toEndpoint := by
  unfold passOn
  split <;> rfl

/-- `handleResponse(conn, buffer, receiveTime)`: the parser's context is a new one for each call.
Source: HttpClient.cc 212-252 -/
def handleResponse (useThreadPool : Bool) (conn : ClientConnection) : Outcome ClientConnection :=
  (HttpContext.parseResponse {} conn.inputBuffer).map fun p =>
    let conn := { conn with inputBuffer := p.buf }
    if p.ok then
      if p.context.gotAll then passOn useThreadPool p.context.response conn else conn
    else { conn with toEndpoint := conn.toEndpoint.shutdown }

/-- The bytes read are appended to `inputBuffer_` and handled.
Source: `TcpConnection::handleRead`, TcpConnection.cpp 59-77; HttpClient.cc 199-201 -/
def receiveChunk (useThreadPool : Bool) (conn : ClientConnection) (chunk : Bytes) :
    Outcome ClientConnection :=
  handleResponse useThreadPool { conn with inputBuffer := conn.inputBuffer ++ chunk }

/-! ## Steps -/

variable (client : HttpClient)

/-- `conn && conn->connected()`, for `client_.connection()`. Source: HttpClient.cc 129-130 -/
def currentConnected : Bool :=
  match client.connection with
  | some k => (client.connections[k]?.map fun conn => conn.toEndpoint.connected).getD false
  | none => false

/-- Change the endpoint of the connection with the number `k`. -/
def modifyEndpoint (k : ℕ) (f : Endpoint → Endpoint) : HttpClient :=
  { client with
    connections := client.connections.modify k fun conn =>
      { conn with toEndpoint := f conn.toEndpoint } }

/-- `sendRequest(req, cb)`. Source: HttpClient.cc 124-165 -/
def sendRequest (r : HttpRequest × ℕ) : HttpClient :=
  match client.connection with
  | some k =>
    if client.currentConnected then
      { client.modifyEndpoint k (·.send (requestText r.1)) with handed := client.handed ++ [r] }
    else client
  | none => client

/-- Send the front of the queue, if there is one, and drop it from the queue.
Source: HttpClient.cc 182-188, 203-209 -/
def sendFront : HttpClient :=
  match client.requests with
  | [] => client
  | r :: rs => sendRequest { client with requests := rs } r

/-- `get` and `post` behind the building of the request: `connect` is called when the client is
neither connected nor connecting. Source: HttpClient.cc 74-89, 105-121 -/
def submit (req : HttpRequest) : HttpClient :=
  let r := (req, client.submitted.length)
  let client := { client with
    submitted := client.submitted ++ [req]
    isConnecting := client.isConnecting || !client.connected }
  if client.connected then client.sendRequest r
  else { client with requests := client.requests ++ [r] }

/-- `disconnect()`: `shutdown` of the current connection. Source: TcpClient.cpp 98-109 -/
def disconnect : HttpClient :=
  match client.connection with
  | some k => client.modifyEndpoint k Endpoint.shutdown
  | none => client

/-- One step; `none` where the loop thread is not at the point that the step starts from, or the
connection raises no such event. -/
def step : ClientEvent → Option HttpClient
  | .submit req => some (client.submit req)
  | .disconnect => some client.disconnect
  | .newConnection =>
    match client.point with
    | .idle =>
      some { client with
        connections := client.connections ++ [{ state := .kConnecting }]
        connection := some client.connections.length
        point := .created client.connections.length }
    | _ => none
  | .establish =>
    match client.point with
    | .created k =>
      some { client.modifyEndpoint k ({ · with state := .kConnected }) with
        point := .established k }
    | _ => none
  | .ask =>
    match client.point with
    | .established k =>
      if (client.connections[k]?.map fun conn => conn.toEndpoint.connected).getD false then
        some { client with point := .up k }
      else some { client with connected := false, isConnecting := false, point := .idle }
    | _ => none
  | .announce =>
    match client.point with
    | .up _ => some { sendFront { client with connected := true } with point := .idle }
    | _ => none
  | .receive k chunk =>
    match client.point, client.connections[k]? with
    | .idle, some conn =>
      if conn.state = .kConnected ∨ conn.state = .kDisconnecting then
        match receiveChunk client.useThreadPool conn chunk with
        | .returned conn' =>
          some { client with
            connections := client.connections.set k conn'
            point := .message k }
        | _ => none
      else none
    | _, _ => none
  | .drain =>
    match client.point with
    | .message _ => some { client.sendFront with point := .idle }
    | _ => none
  | .close k =>
    match client.point, client.connections[k]? with
    | .idle, some conn =>
      if conn.state = .kConnected ∨ conn.state = .kDisconnecting then
        some { client.modifyEndpoint k ({ · with state := .kDisconnected }) with
          point := .closing k }
      else none
    | _, _ => none
  | .clear =>
    match client.point with
    | .closing k => some { client with connected := false, isConnecting := false, point := .down k }
    | _ => none
  | .remove =>
    match client.point with
    | .down _ => some { client with connection := none, point := .idle }
    | _ => none

/-- The runs of the client are those of this relation. -/
def Step (client : HttpClient) (event : ClientEvent) (client' : HttpClient) : Prop :=
  client.step event = some client'

instance (client client' : HttpClient) (event : ClientEvent) :
    Decidable (Step client event client') :=
  inferInstanceAs (Decidable (_ = _))

end HttpClient

end SwiftNetCore
