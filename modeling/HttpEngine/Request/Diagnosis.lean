import HttpEngine.Request.Basic
import HttpEngine.Text.Quoted

/-!
# A request in diagnoses

The parts of a request by name, with texts in quotes.
-/

namespace HttpEngine

def bracketed (items : List String) : String :=
  "[" ++ ", ".intercalate items ++ "]"

def recordText (name : String) (parts : List (String × String)) (isWhole : Bool) : String :=
  let shown := parts.map fun (n, v) => s!"{n}: {v}"
  let shown := if isWhole then shown else shown ++ [".."]
  name ++ " \x7b " ++ ", ".intercalate shown ++ " \x7d"

def pairText (pair : Pair) : String :=
  s!"({Text.quoted pair.1}, {Text.quoted pair.2})"

def optionText {α : Type} (text : α -> String) : Option α -> String
  | some value => s!"Some({text value})"
  | none => "None"

def Header.diagnosis (h : Header) : String :=
  recordText "Header" [("name", Text.quoted h.name), ("value", Text.quoted h.value)] true

def Path.text (path : Path) : String :=
  "/" ++ "/".intercalate (path.map Utf8.decodeLossy)

def Upload.diagnosis (u : Upload) : String :=
  recordText "Upload"
    [("path", Text.quoted u.path.text), ("filename", optionText Text.quoted u.filename),
     ("size", toString u.size), ("content_type", Text.quoted u.contentType)] true

def Request.diagnosis (r : Request) : String :=
  recordText "Request"
    [("method", r.method.name),
     ("path", Text.quoted r.path),
     ("version", r.version.name),
     ("headers", bracketed (r.headers.map Header.diagnosis)),
     ("query", bracketed (r.query.map pairText)),
     ("params", bracketed (r.params.map pairText)),
     ("cookies", bracketed (r.cookies.map pairText)),
     ("content_length", toString r.contentLength),
     ("upload", optionText Upload.diagnosis r.upload),
     ("client_ip", Text.quoted r.clientIp)] false

end HttpEngine
