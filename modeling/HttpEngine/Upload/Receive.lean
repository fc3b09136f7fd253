import HttpEngine.Event
import HttpEngine.Multipart.Scanner
import HttpEngine.Outcome
import HttpEngine.Request.Basic
import HttpEngine.Stream.Incoming

/-!
# Receiving a body into a file

A streamed body goes into a new file of its own.  Of a form only the payload of the first part is
kept.  The body is read in pieces of a bounded size; if it does not arrive whole, or if the file
cannot be made, whatever stands at the file's path is removed.  If there is no buffer for a piece,
this is a panic, and the new file stays as it is.
-/

namespace HttpEngine

/-! # What is kept of a body -/

/-- A body on its way into a file: the pieces to keep, latest first. -/
structure Intake where
  scanner : Option Multipart.Scanner
  pieces : List Bytes

namespace Intake

def new (contentType : String) : Intake :=
  { scanner := (Multipart.boundary? contentType).map Multipart.Scanner.new, pieces := [] }

def take (i : Intake) (data : Bytes) : Intake :=
  match i.scanner with
  | some scanner =>
      let (kept, scanner) := scanner.feed data
      { scanner := some scanner, pieces := kept :: i.pieces }
  | none => { i with pieces := data :: i.pieces }

def finish (i : Intake) : Intake :=
  match i.scanner with
  | some scanner =>
      let (kept, scanner) := scanner.finish
      { scanner := some scanner, pieces := kept :: i.pieces }
  | none => i

def content (i : Intake) : Bytes :=
  i.pieces.reverse.flatten

def filename? (i : Intake) : Option String :=
  i.scanner.bind Multipart.Scanner.filename

end Intake

/-! # Receiving -/

namespace Upload

def receiveWithin (chunk timeout : Nat) :
    Nat -> Nat -> Intake -> Incoming -> Except Fault Intake × Incoming
  | fuel, remaining, intake, source =>
      match fuel with
      | 0 => (.ok intake, source)
      | fuel + 1 =>
          if remaining = 0 then (.ok intake, source)
          else
            let (received, source) := source.read (min remaining chunk) timeout
            match received.result with
            | .ok bytes =>
                receiveWithin chunk timeout fuel (remaining - bytes.length) (intake.take bytes)
                  source
            | .error fault => (.error fault, source)

def pieceSize (fileChunk remaining : Nat) : Nat :=
  max 1 (min fileChunk (max remaining 1))

/--
Takes a whole body: first what has been received already, then the rest in pieces.  Every read
brings a byte at least, so that there are at most as many as bytes remain.
-/
def receive (buffered : Bytes) (contentType : String) (length fileChunk timeout : Nat)
    (source : Incoming) : Outcome (Except Fault Intake) × Incoming :=
  let head := buffered.take length
  let remaining := length - head.length
  match Buffer.allocate (pieceSize fileChunk remaining) with
  | .panicked panic => (.panicked panic, source)
  | .done chunk =>
      let intake := (Intake.new contentType).take head
      let (result, source) := receiveWithin chunk timeout remaining remaining intake source
      (.done (result.map Intake.finish), source)

structure Stored where
  result : Outcome (Except Fault Upload)
  storage : Storage
  source : Incoming
  events : List Event

def withoutFile (storage : Storage) (path : Path) : Storage :=
  match storage.remove path with
  | .ok storage => storage
  | .error _ => storage

def store (storage : Storage) (serial : UInt64) (buffered : Bytes) (contentType : String)
    (length : Nat) (limits : RequestLimits) (timeout : Nat) (source : Incoming) : Stored :=
  let extension := MediaType.extensionFor contentType
  let path := limits.uploadDirectory ++ [fileName serial extension]
  match storage.createNew path with
  | .error _ =>
      { result := .done (.error .upload), storage := withoutFile storage path, source,
        events := [.uploadFailed] }
  | .ok created =>
      match receive buffered contentType length limits.fileChunk timeout source with
      | (.done (.ok intake), source) =>
          let content := intake.content
          let upload : Upload :=
            { directory := limits.uploadDirectory, serial, extension,
              filename := intake.filename?, size := content.length, contentType }
          { result := .done (.ok upload), storage := created.put path (.ofContent content),
            source, events := [.bodySaved content.length] }
      | (.done (.error fault), source) =>
          { result := .done (.error fault), storage := withoutFile created path, source,
            events := [] }
      | (.panicked panic, source) =>
          { result := .panicked panic, storage := created, source, events := [] }

end Upload
end HttpEngine
