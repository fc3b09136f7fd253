import HttpEngine.Machine.Basic
import HttpEngine.Upload.Receive

/-!
# Uploads in a machine

A form is searched in a buffer to which each chunk is added and from which what is certain is taken
away.  A body goes through one buffer of a bounded size, into which every read goes from its
beginning on, and what is written is counted.  What writing to the file does is left out: where it
fails a run ends, and what comes later does not come.
-/

namespace HttpEngine
namespace Machine

/-! # The boundary of a form -/

def boundary? (contentType : String) : Except Slip (Option String) :=
  if MediaType.contains contentType MediaType.multipart then
    match find? (Utf8.encode "boundary=") (Utf8.encode contentType) with
    | some place => do
        let start <- add place (Utf8.encode "boundary=").length
        let value <- textSlice contentType.toList start (textLength contentType.toList)
        let name := Text.trimBy (· == '"') (Text.trim (before [';'] value))
        return if name.isEmpty then none else some (String.ofList name)
    | none => return none
  else return none

def filename? (header : Bytes) : Except Slip (Option String) :=
  let opening := Utf8.encode "filename=\""
  match find? opening header with
  | some place => do
      let start <- add place opening.length
      let value <- slice header start header.length
      match find? Bytes.quote value with
      | some length =>
          let stop <- add start length
          let name <- slice header start stop
          return some (Utf8.decodeLossy name)
      | none => return none
  | none => return none

/-! # Scanning a form -/

inductive Phase where
  | preamble
  | payload
  | done
  deriving DecidableEq, Repr

structure FormScanner where
  marker : Bytes
  phase : Phase
  pending : Bytes
  filename : Option String
  deriving DecidableEq, Repr

namespace FormScanner

def new (boundary : String) : Except Slip FormScanner := do
  let marker <- extend [13, 10, 45, 45] (Utf8.encode boundary)
  return { marker, phase := .preamble, pending := [], filename := none }

def feedPayload (s : FormScanner) (chunk out : Bytes) : Except Slip (Bytes × FormScanner) := do
  let pending <- extend s.pending chunk
  match find? s.marker pending with
  | some place =>
      let ready <- slice pending 0 place
      let out <- extend out ready
      return (out, { s with phase := .done, pending := [] })
  | none =>
      let most <- sub s.marker.length 1
      let ready <- sub pending.length (min pending.length most)
      let (given, kept) <- split pending ready
      let out <- extend out given
      return (out, { s with pending := kept })

def feed (s : FormScanner) (chunk out : Bytes) : Except Slip (Bytes × FormScanner) :=
  match s.phase with
  | .preamble => do
      let pending <- extend s.pending chunk
      match find? Bytes.blankLine pending with
      | some place =>
          let header <- slice pending 0 place
          let filename <- filename? header
          let start <- add place 4
          let (_, rest) <- split pending start
          feedPayload { s with phase := .payload, pending := [], filename } rest out
      | none => return (out, { s with pending })
  | .payload => s.feedPayload chunk out
  | .done => return (out, s)

def finish (s : FormScanner) (out : Bytes) : Except Slip (Bytes × FormScanner) :=
  match s.phase with
  | .payload => do
      let out <- extend out s.pending
      return (out, { s with phase := .done, pending := [] })
  | _ => return (out, { s with phase := .done })

inductive Call where
  | feed (chunk : Bytes)
  | finish
  deriving DecidableEq, Repr

def answer (s : FormScanner) (out : Bytes) : Call -> Except Slip (Bytes × FormScanner)
  | .feed chunk => s.feed chunk out
  | .finish => s.finish out

def answerAll (s : FormScanner) (out : Bytes) : List Call -> Except Slip (Bytes × Option String)
  | [] => return (out, s.filename)
  | call :: rest => do
      let (out, s) <- s.answer out call
      answerAll s out rest

end FormScanner

/-! # Receiving a body -/

/-- What has been written of a body: the pieces latest first, and how many bytes they are. -/
structure Written where
  scanner : Option FormScanner
  pieces : List Bytes
  size : Nat

namespace Written

def new (contentType : String) : Except Slip Written := do
  match <- boundary? contentType with
  | some boundary =>
      let scanner <- FormScanner.new boundary
      return { scanner := some scanner, pieces := [], size := 0 }
  | none => return { scanner := none, pieces := [], size := 0 }

def write (w : Written) (scanner : Option FormScanner) (piece : Bytes) : Except Slip Written := do
  let size <- add w.size piece.length
  return { scanner, pieces := piece :: w.pieces, size }

def take (w : Written) (data : Bytes) : Except Slip Written :=
  match w.scanner with
  | some scanner => do
      let (kept, scanner) <- scanner.feed data []
      w.write (some scanner) kept
  | none => w.write none data

def finish (w : Written) : Except Slip Written :=
  match w.scanner with
  | some scanner => do
      let (kept, scanner) <- scanner.finish []
      w.write (some scanner) kept
  | none => return w

def filename? (w : Written) : Option String :=
  w.scanner.bind FormScanner.filename

end Written

def receiveWithin (timeout : Nat) : Nat -> Nat -> Written -> Bytes -> Bytes -> Incoming ->
    Except Slip (Except Fault Written × Incoming)
  | fuel, remaining, w, next, buffer, source => do
      let w <- w.take next
      if remaining = 0 then return (.ok w, source)
      else
        match fuel with
        | 0 => .error .endless
        | fuel + 1 =>
            let room <- slice buffer 0 (min remaining buffer.length)
            let (received, source) := source.read room.length timeout
            match received.result with
            | .ok bytes =>
                let buffer <- overwrite buffer 0 bytes
                let remaining <- sub remaining bytes.length
                let next <- slice buffer 0 bytes.length
                receiveWithin timeout fuel remaining w next buffer source
            | .error fault => return (.error fault, source)

structure Saved where
  size : Nat
  filename : Option String
  content : Bytes
  deriving DecidableEq, Repr

def receive (buffered : Bytes) (contentType : String) (length fileChunk timeout : Nat)
    (source : Incoming) : Except Slip (Except Fault Saved × Incoming) := do
  let w <- Written.new contentType
  let head <- slice buffered 0 (min buffered.length length)
  let remaining <- sub length head.length
  let size <- clamp fileChunk 1 (max remaining 1)
  let size <- allocate size
  let (result, source) <-
    receiveWithin timeout remaining remaining w head (List.replicate size 0) source
  match result with
  | .ok w =>
      let w <- w.finish
      return (.ok ⟨w.size, w.filename?, w.pieces.reverse.flatten⟩, source)
  | .error fault => return (.error fault, source)

end Machine

namespace Multipart.Scanner

def answer (s : Scanner) : Machine.FormScanner.Call -> Bytes × Scanner
  | .feed chunk => s.feed chunk
  | .finish => s.finish

def answerAll (s : Scanner) : List Machine.FormScanner.Call -> Bytes × Option String
  | [] => ([], s.filename)
  | call :: rest =>
      let (given, s) := s.answer call
      let (more, filename) := answerAll s rest
      (given ++ more, filename)

end Multipart.Scanner

def Intake.saved (i : Intake) : Machine.Saved :=
  ⟨i.content.length, i.filename?, i.content⟩

end HttpEngine
