import HttpEngine.Decimal.Integer
import HttpEngine.Event
import HttpEngine.Http.MediaType
import HttpEngine.Json.Printer
import HttpEngine.Storage

/-!
# Responses

A status, a content type, further header fields in the order in which they were added, and a body.
Header names, header values and bodies are given as texts, bytes, numbers, truth values or single
characters.  Responses are built from the outside in: a constructor chooses status, type and body,
and the setters replace one part each.
-/

namespace HttpEngine

/-! # Content -/

inductive Content where
  | text (value : String)
  | bytes (value : Bytes)
  | natural (value : Nat)
  | integer (value : Int)
  | flag (value : Bool)
  | character (value : Char)

namespace Content

def encode : Content -> Bytes
  | .text value => Utf8.encode value
  | .bytes value => value
  | .natural value => Decimal.natural value
  | .integer value => Decimal.integer value
  | .flag true => Utf8.encode "true"
  | .flag false => Utf8.encode "false"
  | .character value => Utf8.encodeChar value

end Content

instance : Coe String Content := ⟨.text⟩

instance : Coe Bytes Content := ⟨.bytes⟩

/-! # Responses -/

structure Response where
  status : Status
  contentType : String
  headers : List (Bytes × Bytes)
  body : Bytes
  deriving DecidableEq, Repr

namespace Response

def new (status : Status) : Response :=
  { status, contentType := MediaType.text, headers := [], body := [] }

/-! # Changing parts -/

def setStatus (r : Response) (status : Status) : Response :=
  { r with status }

def setContentType (r : Response) (contentType : String) : Response :=
  { r with contentType }

def addHeader (r : Response) (name value : Content) : Response :=
  { r with headers := r.headers ++ [(name.encode, value.encode)] }

def setBody (r : Response) (body : Content) : Response :=
  { r with body := body.encode }

def setBodyParts (r : Response) (parts : List Content) : Response :=
  { r with body := parts.flatMap Content.encode }

def inheritHeaders (r earlier : Response) : Response :=
  { r with headers := earlier.headers ++ r.headers }

/-! # Kinds of responses -/

def plain (status : Status) (body : Content) : Response :=
  (new status).setBody body

def html (status : Status) (body : Content) : Response :=
  ((new status).setContentType MediaType.html).setBody body

def json (status : Status) (body : Content) : Response :=
  ((new status).setContentType MediaType.json).setBody body

def error (status : Status) (message : String) : Response :=
  json status s!"\x7b\"error\": {JsonText.string message}\x7d"

def internalError : Response :=
  error .internalServerError "internal server error"

def noContent : Response :=
  new .noContent

/-- A value as JSON.  A value without a JSON form is reported, and the answer is an error. -/
def jsonValue (status : Status) : Option Json -> Response × List Event
  | some value => (json status value.render, [])
  | none => (internalError, [.notSerialized])

/--
The file that a reference leads to from a directory, with the type of its extension.  A file that
cannot be read is reported.
-/
def file (storage : Storage) (status : Status) (directory : Path) (reference : Bytes) :
    Response × List Event :=
  match storage.readReference directory reference with
  | .ok (path, content) =>
      let name := Utf8.decode? (path.getLast?.getD [])
      (((new status).setContentType (MediaType.ofPath (name.getD ""))).setBody content, [])
  | .error _ => (error .notFound "not found", [.fileNotServed])

def ofFault? (fault : Fault) : Option Response :=
  fault.answer?.map fun (status, message) => error status message

end Response

end HttpEngine
