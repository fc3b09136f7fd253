import HttpEngine.Machine.Basic
import HttpEngine.Stream.Reader

/-!
# The reader of a machine

One buffer, of which the bytes up to some place have been received and those up to an earlier place
are the head.  All reads go into the part behind.
-/

namespace HttpEngine
namespace Machine

structure ReadBuffer where
  room : Bytes
  length : Nat
  headLength : Nat
  deriving DecidableEq, Repr

namespace ReadBuffer

def new (size : Nat) : Except Slip ReadBuffer := do
  let size <- allocate size
  return ⟨List.replicate size 0, 0, 0⟩

def buffered (b : ReadBuffer) : Except Slip Bytes :=
  slice b.room b.headLength b.length

def fill (b : ReadBuffer) (source : Incoming) (timeout : Nat) :
    Except Slip (Except Fault Unit × ReadBuffer × Incoming) := do
  let free <- slice b.room b.length b.room.length
  let (received, source) := source.read free.length (min timeout Reader.longestWait)
  match received.result with
  | .ok bytes =>
      let room <- overwrite b.room b.length bytes
      let length <- add b.length bytes.length
      return (.ok (), { b with room, length }, source)
  | .error fault => return (.error fault, b, source)

def readHeadWithin (later : Nat) : Nat -> ReadBuffer -> Nat -> Incoming -> Nat ->
    Except Slip (Except Fault Bytes × ReadBuffer × Incoming)
  | fuel, b, scanned, source, timeout => do
      let searched <- slice b.room scanned b.length
      match find? Bytes.blankLine searched with
      | some place =>
          let start <- add scanned place
          let length <- add start Bytes.blankLine.length
          let head <- slice b.room 0 length
          return (.ok head, { b with headLength := length }, source)
      | none =>
          if b.length = b.room.length then return (.error .headersTooLarge, b, source)
          else
            match fuel with
            | 0 => .error .endless
            | fuel + 1 =>
                let scanned := b.length - (Bytes.blankLine.length - 1)
                let (result, filled, source) <- b.fill source timeout
                match result with
                | .ok _ => readHeadWithin later fuel filled scanned source later
                | .error fault => return (.error fault, filled, source)

def readHead (b : ReadBuffer) (source : Incoming) (first later : Nat) :
    Except Slip (Except Fault Bytes × ReadBuffer × Incoming) :=
  readHeadWithin later (b.room.length - b.length) b 0 source first

def fillTo (stop timeout : Nat) : Nat -> ReadBuffer -> Incoming ->
    Except Slip (Except Fault Unit × ReadBuffer × Incoming)
  | fuel, b, source =>
      if stop ≤ b.length then return (.ok (), b, source)
      else
        match fuel with
        | 0 => .error .endless
        | fuel + 1 => do
            let (result, filled, source) <- b.fill source timeout
            match result with
            | .ok _ => fillTo stop timeout fuel filled source
            | .error fault => return (.error fault, filled, source)

def readBody (b : ReadBuffer) (source : Incoming) (length timeout : Nat) :
    Except Slip (Except Fault Bytes × ReadBuffer × Incoming) :=
  match (add b.headLength length).toOption.filter (· ≤ b.room.length) with
  | none => return (.error .bodyTooLarge, b, source)
  | some stop => do
      let (result, filled, source) <- fillTo stop timeout (stop - b.length) b source
      match result with
      | .ok _ =>
          let body <- slice filled.room filled.headLength stop
          return (.ok body, filled, source)
      | .error fault => return (.error fault, filled, source)

/-! # Runs -/

inductive Call where
  | head (first later : Nat)
  | body (length timeout : Nat)
  | buffered
  deriving DecidableEq, Repr

abbrev Answer := Except Fault Bytes

def answer (b : ReadBuffer) (source : Incoming) :
    Call -> Except Slip (Answer × ReadBuffer × Incoming)
  | .head first later => b.readHead source first later
  | .body length timeout => b.readBody source length timeout
  | .buffered => do
      let bytes <- b.buffered
      return (.ok bytes, b, source)

def answerAll (b : ReadBuffer) (source : Incoming) : List Call -> Except Slip (List Answer)
  | [] => return []
  | call :: rest => do
      let (first, b, source) <- b.answer source call
      let later <- answerAll b source rest
      return first :: later

end ReadBuffer
end Machine

namespace Reader

def answer (r : Reader) (source : Incoming) : Machine.ReadBuffer.Call -> Reading Bytes
  | .head first later => r.readHead source first later
  | .body length timeout => r.readBody source length timeout
  | .buffered => ⟨.ok r.buffered, r, source⟩

def answerAll (r : Reader) (source : Incoming) :
    List Machine.ReadBuffer.Call -> List (Except Fault Bytes)
  | [] => []
  | call :: rest =>
      let step := r.answer source call
      step.result :: answerAll step.reader step.source rest

end Reader
end HttpEngine
