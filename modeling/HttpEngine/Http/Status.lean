import HttpEngine.Bytes

/-!
# Status codes

The codes that a response can carry, their numbers and their reason phrases.
-/

namespace HttpEngine

inductive Status where
  | continue_
  | switchingProtocols
  | ok
  | created
  | accepted
  | noContent
  | partialContent
  | movedPermanently
  | found
  | seeOther
  | notModified
  | temporaryRedirect
  | permanentRedirect
  | badRequest
  | unauthorized
  | forbidden
  | notFound
  | methodNotAllowed
  | notAcceptable
  | requestTimeout
  | conflict
  | gone
  | lengthRequired
  | payloadTooLarge
  | uriTooLong
  | unsupportedMediaType
  | unprocessableEntity
  | tooManyRequests
  | requestHeaderFieldsTooLarge
  | internalServerError
  | notImplemented
  | badGateway
  | serviceUnavailable
  | gatewayTimeout
  | httpVersionNotSupported
  deriving DecidableEq, Repr

namespace Status

def table : List (Status × Nat × String) :=
  [(.continue_, 100, "Continue"),
   (.switchingProtocols, 101, "Switching Protocols"),
   (.ok, 200, "OK"),
   (.created, 201, "Created"),
   (.accepted, 202, "Accepted"),
   (.noContent, 204, "No Content"),
   (.partialContent, 206, "Partial Content"),
   (.movedPermanently, 301, "Moved Permanently"),
   (.found, 302, "Found"),
   (.seeOther, 303, "See Other"),
   (.notModified, 304, "Not Modified"),
   (.temporaryRedirect, 307, "Temporary Redirect"),
   (.permanentRedirect, 308, "Permanent Redirect"),
   (.badRequest, 400, "Bad Request"),
   (.unauthorized, 401, "Unauthorized"),
   (.forbidden, 403, "Forbidden"),
   (.notFound, 404, "Not Found"),
   (.methodNotAllowed, 405, "Method Not Allowed"),
   (.notAcceptable, 406, "Not Acceptable"),
   (.requestTimeout, 408, "Request Timeout"),
   (.conflict, 409, "Conflict"),
   (.gone, 410, "Gone"),
   (.lengthRequired, 411, "Length Required"),
   (.payloadTooLarge, 413, "Payload Too Large"),
   (.uriTooLong, 414, "URI Too Long"),
   (.unsupportedMediaType, 415, "Unsupported Media Type"),
   (.unprocessableEntity, 422, "Unprocessable Entity"),
   (.tooManyRequests, 429, "Too Many Requests"),
   (.requestHeaderFieldsTooLarge, 431, "Request Header Fields Too Large"),
   (.internalServerError, 500, "Internal Server Error"),
   (.notImplemented, 501, "Not Implemented"),
   (.badGateway, 502, "Bad Gateway"),
   (.serviceUnavailable, 503, "Service Unavailable"),
   (.gatewayTimeout, 504, "Gateway Timeout"),
   (.httpVersionNotSupported, 505, "HTTP Version Not Supported")]

def entry (status : Status) : Nat × String :=
  (table.lookup status).getD (0, "")

def code (status : Status) : Nat :=
  status.entry.1

def reason (status : Status) : String :=
  status.entry.2

def ofCode? (code : Nat) : Option Status :=
  (table.find? fun (_, n, _) => n == code).map Prod.fst

def capitalized : List Char -> List Char
  | [] => []
  | c :: rest => c.toUpper :: rest.map Char.toLower

/-- The name of a status in diagnoses: the words of its phrase run together. -/
def name (status : Status) : String :=
  String.ofList ((status.reason.toList.splitOn ' ').flatMap capitalized)

def line (status : Status) : String :=
  s!"HTTP/1.1 {status.code} {status.reason}\r\n"

end Status
end HttpEngine
