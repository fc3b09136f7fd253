import HttpEngine.Bytes
import HttpEngine.Http.MediaType
import HttpEngine.Text.Cut

/-!
# Taking the first part out of a form

The content type of a form names the boundary that stands between its parts, with or without quotes.

A form arrives in chunks of any size.  The scanner waits for the blank line that ends the header of
the first part, then gives out bytes up to the next boundary.  It holds back as many bytes as could
be the beginning of the boundary, and gives them out once they are not.
-/

namespace HttpEngine
namespace Multipart

def boundary? (contentType : String) : Option String :=
  if MediaType.contains contentType MediaType.multipart then
    match cut? "boundary=".toList contentType.toList with
    | some (_, value) =>
        let name := Text.trimBy (· == '"') (Text.trim (before [';'] value))
        if name.isEmpty then none else some (String.ofList name)
    | none => none
  else none

/-! # The scanner -/

inductive Stage where
  /-- Before the end of the header; what has arrived stands latest byte first. -/
  | header (received : Bytes)
  | payload (held : Bytes)
  | done
  deriving DecidableEq, Repr

structure Scanner where
  marker : Bytes
  stage : Stage
  filename : Option String
  deriving DecidableEq, Repr

/-- What ends a part: the end of a line, two dashes and the boundary. -/
def marker (boundary : String) : Bytes :=
  [13, 10, 45, 45] ++ Utf8.encode boundary

def filename? (header : Bytes) : Option String := do
  let (_, value) <- cut? (Utf8.encode "filename=\"") header
  let (name, _) <- cut? Bytes.quote value
  return Utf8.decodeLossy name

namespace Scanner

def new (boundary : String) : Scanner :=
  { marker := Multipart.marker boundary, stage := .header [], filename := none }

def pending (s : Scanner) : Bytes :=
  match s.stage with
  | .header received => received.reverse
  | .payload held => held
  | .done => []

def release (s : Scanner) (text : Bytes) : Bytes × Scanner :=
  match cut? s.marker text with
  | some (front, _) => (front, { s with stage := .done })
  | none =>
      let ready := text.length - (s.marker.length - 1)
      (text.take ready, { s with stage := .payload (text.drop ready) })

def partialBlank : Nat := Bytes.blankLine.length - 1

/--
Takes a chunk of the header, of which some has been received.  Only in the last bytes before the
chunk can a blank line begin that the chunk completes.
-/
def feedHeader (s : Scanner) (received chunk : Bytes) : Bytes × Scanner :=
  match cut? Bytes.blankLine ((received.take partialBlank).reverse ++ chunk) with
  | none => ([], { s with stage := .header (chunk.reverse ++ received) })
  | some (front, rest) =>
      let header := (received.drop partialBlank).reverse ++ front
      release { s with filename := filename? header } rest

def feed (s : Scanner) (chunk : Bytes) : Bytes × Scanner :=
  match s.stage with
  | .header received => s.feedHeader received chunk
  | .payload held => s.release (held ++ chunk)
  | .done => ([], s)

def finish (s : Scanner) : Bytes × Scanner :=
  match s.stage with
  | .payload held => (held, { s with stage := .done })
  | _ => ([], { s with stage := .done })

end Scanner
end Multipart

end HttpEngine
