import SwiftNetCore.Base

/-!
# `HttpRequest` and `HttpResponse`

The two message records with their setters, as the sources have them. `std::map<string, string>`
is an ordered map from keys to values, so two maps with the same entries are equal and iteration
is in the byte order of the keys.

Two members need care:

* `HttpRequest::setMethod(start, end)` begins with `assert(method_ == kInvalid)`; the build does
  not define `NDEBUG`, so a request whose method is already set aborts the process (`none`).
* `HttpRequest::swap` exchanges every field but `body_`.
-/

namespace SwiftNetCore

/-- `std::map<string, string>`. -/
abbrev HeaderMap := Std.ExtTreeMap Bytes Bytes compare

/-! ## `HttpRequest` -/

/-- `HttpRequest::Method`. Source: HttpRequest.h 13-21 -/
inductive Method where
  | kInvalid
  | kGet
  | kPost
  | kHead
  | kPut
  | kDelete
  deriving DecidableEq, Repr

/-- `HttpRequest::Version`. Source: HttpRequest.h 22-27 -/
inductive Version where
  | kUnknown
  | kHttp10
  | kHttp11
  deriving DecidableEq, Repr

/-- `HttpRequest`, as its constructor leaves it. Source: HttpRequest.h 29-33, 215-221 -/
structure HttpRequest where
  /-- `method_` -/
  method : Method := .kInvalid
  /-- `version_` -/
  version : Version := .kUnknown
  /-- `path_` -/
  path : Bytes := []
  /-- `query_`, with its leading `?` -/
  query : Bytes := []
  /-- `body_` -/
  body : Bytes := []
  /-- `receiveTime_` -/
  receiveTime : Timestamp := {}
  /-- `headers_` -/
  headers : HeaderMap := ∅
  deriving DecidableEq

namespace HttpRequest

/-- The method that a request line's first token names.
Source: the comparisons of `HttpRequest::setMethod`, HttpRequest.h 49-72 -/
def methodOf (m : Bytes) : Method :=
  if m = lit "GET" then .kGet
  else if m = lit "POST" then .kPost
  else if m = lit "HEAD" then .kHead
  else if m = lit "PUT" then .kPut
  else if m = lit "DELETE" then .kDelete
  else .kInvalid

/-- `setMethod(start, end)`: whether the token is a method. `none` is the failed assertion.
Source: HttpRequest.h 45-74 -/
def setMethod (req : HttpRequest) (m : Bytes) : Option (Bool × HttpRequest) :=
  if req.method = .kInvalid then
    some (methodOf m ≠ .kInvalid, { req with method := methodOf m })
  else none

/-- `methodString()`. Source: HttpRequest.h 86-110 -/
def methodString (req : HttpRequest) : Bytes :=
  match req.method with
  | .kGet => lit "GET"
  | .kPost => lit "POST"
  | .kHead => lit "HEAD"
  | .kPut => lit "PUT"
  | .kDelete => lit "DELETE"
  | .kInvalid => lit "UNKNOWN"

/-- `setVersion(v)`. Source: HttpRequest.h 35-38 -/
def setVersion (req : HttpRequest) (v : Version) : HttpRequest := { req with version := v }

/-- `setPath(start, end)`. Source: HttpRequest.h 112-115 -/
def setPath (req : HttpRequest) (path : Bytes) : HttpRequest := { req with path := path }

/-- `setQuery(start, end)`. Source: HttpRequest.h 127-130 -/
def setQuery (req : HttpRequest) (query : Bytes) : HttpRequest := { req with query := query }

/-- `setBody(body)`. Source: HttpRequest.h 142-150 -/
def setBody (req : HttpRequest) (body : Bytes) : HttpRequest := { req with body := body }

/-- `setReceiveTime(t)`. Source: HttpRequest.h 157-160 -/
def setReceiveTime (req : HttpRequest) (t : Timestamp) : HttpRequest :=
  { req with receiveTime := t }

/-- `addHeader(start, colon, end)`: the bytes before the colon name the header, those behind it,
trimmed, are its value. Source: HttpRequest.h 167-181 -/
def addHeader (req : HttpRequest) (field value : Bytes) : HttpRequest :=
  { req with headers := req.headers.insert field (trim value) }

/-- `addHeader(field, value)`. Source: HttpRequest.h 183-186 -/
def addHeaderString (req : HttpRequest) (field value : Bytes) : HttpRequest :=
  { req with headers := req.headers.insert field value }

/-- `getHeader(field)`: the empty string when there is none. Source: HttpRequest.h 188-197 -/
def getHeader (req : HttpRequest) (field : Bytes) : Bytes := req.headers[field]?.getD []

/-- `swap(that)`: both requests afterwards. `body_` is not among the members exchanged.
Source: HttpRequest.h 204-212 -/
def swap (req that : HttpRequest) : HttpRequest × HttpRequest :=
  ({ req with
      method := that.method
      version := that.version
      path := that.path
      query := that.query
      receiveTime := that.receiveTime
      headers := that.headers },
   { that with
      method := req.method
      version := req.version
      path := req.path
      query := req.query
      receiveTime := req.receiveTime
      headers := req.headers })

variable (req : HttpRequest)

/-- The time of receipt leaves the method alone. -/
@[simp] lemma setReceiveTime_method (t : Timestamp) :
    (req.setReceiveTime t).method = req.method := rfl

/-- The time of receipt leaves the body alone. -/
@[simp] lemma setReceiveTime_body (t : Timestamp) : (req.setReceiveTime t).body = req.body := rfl

/-- The time of receipt leaves the headers alone. -/
@[simp] lemma setReceiveTime_headers (t : Timestamp) :
    (req.setReceiveTime t).headers = req.headers := rfl

/-- A method's name names that method. -/
lemma methodOf_methodString (h : req.method ≠ .kInvalid) :
    methodOf req.methodString = req.method := by
  unfold methodString
  rcases hm : req.method with _ | _ | _ | _ | _ | _
  · exact absurd hm h
  all_goals rfl

end HttpRequest

/-! ## `HttpResponse` -/

/-- `HttpResponse::HttpStatusCode`. Source: HttpResponse.h 11-18 -/
inductive HttpStatusCode where
  | kUnknown
  | k200Ok
  | k301MovedPermanently
  | k400BadRequest
  | k404NotFound
  deriving DecidableEq, Repr

/-- The number an enumerator stands for. Source: HttpResponse.h 11-18 -/
def HttpStatusCode.toInt : HttpStatusCode → ℕ
  | .kUnknown => 0
  | .k200Ok => 200
  | .k301MovedPermanently => 301
  | .k400BadRequest => 400
  | .k404NotFound => 404

/-- The enumerator that `HttpResponse::setStatusCode(int)` stores. Source: HttpResponse.h 37-59 -/
def HttpStatusCode.ofInt (code : ℤ) : HttpStatusCode :=
  if code = 200 then .k200Ok
  else if code = 301 then .k301MovedPermanently
  else if code = 400 then .k400BadRequest
  else if code = 404 then .k404NotFound
  else .kUnknown

/-- Reading an enumerator's number back gives the enumerator. -/
@[simp] lemma HttpStatusCode.ofInt_toInt (code : HttpStatusCode) :
    HttpStatusCode.ofInt code.toInt = code := by
  cases code <;> rfl

/-- `HttpResponse`, as its default constructor leaves it.
Source: HttpResponse.h 20-30, 110-115 -/
structure HttpResponse where
  /-- `headers_` -/
  headers : HeaderMap := ∅
  /-- `statusCode_` -/
  statusCode : HttpStatusCode := .kUnknown
  /-- `statusMessage_` -/
  statusMessage : Bytes := []
  /-- `closeConnection_` -/
  closeConnection : Bool := false
  /-- `body_` -/
  body : Bytes := []
  deriving DecidableEq

namespace HttpResponse

/-- `setStatusCode(int)`. Source: HttpResponse.h 37-59 -/
def setStatusCode (resp : HttpResponse) (code : ℤ) : HttpResponse :=
  { resp with statusCode := .ofInt code }

/-- `addHeader(key, value)`. Source: HttpResponse.h 87-90 -/
def addHeader (resp : HttpResponse) (key value : Bytes) : HttpResponse :=
  { resp with headers := resp.headers.insert key value }

/-- `setBody(body)`. Source: HttpResponse.h 97-100 -/
def setBody (resp : HttpResponse) (body : Bytes) : HttpResponse := { resp with body := body }

/-- What `snprintf` leaves in a `char buf[32]`. -/
def snprintf32 (text : Bytes) : Bytes := text.take 31

/-- The bytes that `appendToBuffer` appends before the headers of `headers_`: the status line
and the two lines, or the one, about the connection. Source: HttpResponse.cc 17-32 -/
def preamble (resp : HttpResponse) : Bytes :=
  snprintf32 (lit "HTTP/1.1 " ++ decimal resp.statusCode.toInt ++ lit " ") ++
    resp.statusMessage ++ crlf ++
    if resp.closeConnection then lit "Connection: close" ++ crlf
    else snprintf32 (lit "Content-Length: " ++ decimal resp.body.length ++ crlf) ++
      lit "Connection: Keep-Alive" ++ crlf

/-- One header line as it is sent. Source: HttpResponse.cc 34-40, HttpClient.cc 143-149 -/
def headerText (header : Bytes × Bytes) : Bytes := header.1 ++ lit ": " ++ header.2 ++ crlf

/-- `appendToBuffer(output)`: the output afterwards. Source: HttpResponse.cc 15-44 -/
def appendToBuffer (resp : HttpResponse) (output : Bytes) : Bytes :=
  output ++ resp.preamble ++ resp.headers.toList.flatMap headerText ++ crlf ++ resp.body

end HttpResponse

end SwiftNetCore
