/-
DockerClone.Http.Message — requests and responses on the wire.

Both ends of the protocol are here: the daemon's `parse_http_request`,
`create_http_response` and `send_http_response` (`core/http.c`), and the
client's `create_http_request` and `parse_http_response`
(`core/client.c`). The two translation units have a `MAX_REQUEST_SIZE`
each; the client's is `CLIENT_MAX_REQUEST_SIZE` here.

`parse_http_request` tokenises with `strtok`, and tokenises the first
line while the tokenisation of the whole text is under way. The saved
position is threaded through as `strtok` returns it. An append that does
not fit the `headers` array gives `none`: from there on the program has
no defined behaviour.
-/
import DockerClone.CLib.CString
import DockerClone.CLib.Printf
import DockerClone.CLib.Scanf
import DockerClone.CLib.Search
import DockerClone.CLib.Strtok

namespace DockerClone.Http

open DockerClone.CLib

def MAX_REQUEST_SIZE : Nat := 8192
def MAX_RESPONSE_SIZE : Nat := 8192
def MAX_HEADER_SIZE : Nat := 1024
def MAX_URL_SIZE : Nat := 512
def MAX_METHOD_SIZE : Nat := 16
def MAX_VERSION_SIZE : Nat := 16

/-- `MAX_REQUEST_SIZE` of the client. -/
def CLIENT_MAX_REQUEST_SIZE : Nat := 4096

/-! ## 1. Requests -/

/-- `http_request_t`. -/
structure HttpRequest where
  method : List Char
  url : List Char
  version : List Char
  headers : List Char
  body : List Char
  contentLength : Int32
  deriving DecidableEq, Repr

/-- The four header lines of a request. -/
def headerLines (bodyLength : Int32) : List Char :=
  "Host: localhost\r\nContent-Type: application/json\r\nContent-Length: ".toList
    ++ renderInt bodyLength.toInt ++ "\r\nConnection: close\r\n".toList

/-- The whole expansion of the format of `create_http_request`. -/
def requestText (method url body : List Char) : List Char :=
  method ++ " ".toList ++ url ++ " HTTP/1.1\r\n".toList
    ++ headerLines (Int32.ofNat body.length) ++ "\r\n".toList ++ body

/-- `create_http_request`; `none` is a NULL body. -/
def createHttpRequest (method url : List Char) (body : Option (List Char)) : List Char :=
  snprintf CLIENT_MAX_REQUEST_SIZE (requestText method url (body.getD []))

/-- The header loop of `parse_http_request`: the string saved at its end,
the `headers` array and `content_length`. -/
def readHeaders (saved headers : List Char) (contentLength : Int32) :
    Option (List Char × List Char × Int32) :=
  match _h : strtok saved "\r\n".toList with
  | (none, rest) => some (rest, headers, contentLength)
  | (some headerLine, rest) =>
      if headerLine.length = 0 then some (rest, headers, contentLength)
      else do
        let contentLength :=
          if found headerLine "Content-Length:".toList then
            (scannedInt headerLine "Content-Length: %d".toList).getD contentLength
          else contentLength
        let headers ← strcatWithin MAX_HEADER_SIZE headers headerLine
        let headers ← strcatWithin MAX_HEADER_SIZE headers "\r\n".toList
        readHeaders rest headers contentLength
termination_by saved.length
decreasing_by
  have hlen := strtok_saved_length (s := saved) (w := headerLine) (by rw [_h])
  rwa [_h] at hlen

/-- `parse_http_request`. `copied` says whether `strdup` returned a copy. -/
def parseHttpRequest (copied : Bool) (request : List Char) (parsed : HttpRequest) :
    Option (Int × HttpRequest) :=
  if copied = false then some (-1, parsed)
  else match strtok request "\r\n".toList with
    | (none, _) => some (-1, parsed)
    | (some line, _) =>
        let method := strtok line " ".toList
        let url := strtok method.2 " ".toList
        let version := strtok url.2 " ".toList
        match method.1, url.1, version.1 with
        | some m, some u, some v => do
            let (saved, headers, contentLength) ←
              readHeaders version.2 (clear parsed.headers) parsed.contentLength
            let body :=
              match (strtok saved []).1 with
              | some body => strncpy parsed.body body (MAX_REQUEST_SIZE - 1)
              | none => clear parsed.body
            some (0,
              { method := strncpy parsed.method m (MAX_METHOD_SIZE - 1)
                url := strncpy parsed.url u (MAX_URL_SIZE - 1)
                version := strncpy parsed.version v (MAX_VERSION_SIZE - 1)
                headers := headers
                body := body
                contentLength := contentLength })
        | _, _, _ => some (-1, parsed)

/-! ## 2. Responses -/

/-- `http_response_t`. -/
structure HttpResponse where
  version : List Char
  statusCode : Int32
  statusMessage : List Char
  headers : List Char
  body : List Char
  contentLength : Int32
  deriving DecidableEq, Repr

/-- The header lines of a response. -/
def responseHeaders (contentLength : Int32) : List Char :=
  "Content-Type: application/json\r\nContent-Length: ".toList
    ++ renderInt contentLength.toInt ++ "\r\nConnection: close\r\n".toList

/-- `create_http_response`; no caller passes a NULL body. -/
def createHttpResponse (response : HttpResponse) (statusCode : Int32)
    (statusMessage body : List Char) : HttpResponse where
  version := strcpy response.version "HTTP/1.1".toList
  statusCode := statusCode
  statusMessage := strncpy response.statusMessage statusMessage 63
  headers := printed MAX_HEADER_SIZE response.headers
    (responseHeaders (Int32.ofNat body.length))
  body := strncpy response.body body (MAX_RESPONSE_SIZE - 1)
  contentLength := Int32.ofNat body.length

/-- The text `send_http_response` sends. -/
def sendHttpResponse (response : HttpResponse) : List Char :=
  snprintf MAX_RESPONSE_SIZE
    (cstr response.version ++ " ".toList ++ renderInt response.statusCode.toInt ++ " ".toList
      ++ cstr response.statusMessage ++ "\r\n".toList ++ cstr response.headers ++ "\r\n".toList
      ++ cstr response.body)

/-- `parse_http_response`: the return value, `status_code` and the string
in `body` afterwards. -/
def parseHttpResponse (response : List Char) (statusCode : Int32) (body : List Char) :
    Int × Int32 × List Char :=
  match strstr response "HTTP/1.1 ".toList with
  | none => (-1, statusCode, body)
  | some statusLine =>
      let statusCode := (scannedInt statusLine "HTTP/1.1 %d".toList).getD statusCode
      match strstr response "\r\n\r\n".toList with
      | none => (-1, statusCode, body)
      | some bodyStart => (0, statusCode, bodyStart.drop 4)

end DockerClone.Http
