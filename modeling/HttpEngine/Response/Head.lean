import HttpEngine.Response.Basic

/-!
# The head of a response

A cross-origin policy lists the origins that may read responses, with the methods and headers they
may use.  An origin is allowed if it is exactly one of those listed.

The head is a status line, header fields and a blank line.  The fields are the content type, the
length of the body, its hash as an entity tag, those of the response, the one that ends the
connection, and those of the cross-origin policy where it applies.
-/

namespace HttpEngine

structure Cors where
  origins : List String := []
  methods : String := "GET, POST, PUT, DELETE, OPTIONS"
  headers : String := "Content-Type"
  deriving DecidableEq, Repr

namespace Cors

def allowed? (cors : Cors) (origin : Option String) : Option String :=
  origin.filter fun o => cors.origins.contains o

def fields (cors : Cors) (origin : String) : List (String × String) :=
  [("Access-Control-Allow-Origin", origin),
   ("Access-Control-Allow-Methods", cors.methods),
   ("Access-Control-Allow-Headers", cors.headers)]

def applied? (policy : Option Cors) (origin : Option String) : Option (Cors × String) :=
  policy.bind fun cors => (cors.allowed? origin).map (cors, ·)

end Cors

namespace Response

def etag (r : Response) : String :=
  "\"" ++ Decimal.hex8 (djb2 r.body) ++ "\""

def textField (name value : String) : Bytes × Bytes :=
  (Utf8.encode name, Utf8.encode value)

def fields (r : Response) (policy : Option (Cors × String)) : List (Bytes × Bytes) :=
  [textField "Content-Type" r.contentType,
   (Utf8.encode "Content-Length", Decimal.natural r.body.length),
   textField "ETag" r.etag] ++
  r.headers ++
  [textField "Connection" "close"] ++
  match policy with
  | some (cors, origin) => (cors.fields origin).map fun (n, v) => textField n v
  | none => []

def fieldLine (field : Bytes × Bytes) : Bytes :=
  field.1 ++ [58, 32] ++ field.2 ++ Bytes.crlf

def encodeHead (r : Response) (policy : Option (Cors × String)) : Bytes :=
  Utf8.encode r.status.line ++ (r.fields policy).flatMap fieldLine ++ Bytes.crlf

end Response

end HttpEngine
