import HttpEngine.Outcome
import HttpEngine.Stream.Incoming
import HttpEngine.Text.Cut

/-!
# Receiving a head and a body

A reader collects bytes up to a capacity.  It reads until they hold a blank line, which ends the
head; the first read has a time limit of its own.  A body in memory is read after the head into the
same room.  However long the time limit is, no read here waits longer than thirty years.
-/

namespace HttpEngine

structure Reader where
  capacity : Nat
  received : Array UInt8
  headLength : Nat
  deriving DecidableEq, Repr

structure Reading (α : Type) where
  result : Except Fault α
  reader : Reader
  source : Incoming

namespace Reader

def new (capacity : Nat) : Reader := ⟨capacity, #[], 0⟩

def allocate (capacity : Nat) : Outcome Reader :=
  (Buffer.allocate capacity).map new

/--
Thirty years of 365 days, in milliseconds.  This is a limit of the timers: no alarm is set further
ahead.  Each read of a reader is a race between the bytes and an alarm, and so it waits no longer,
whatever its own time limit is.  `Upload.receive` sets no alarm: its reads have a deadline instead,
which may lie any time ahead.
-/
def longestWait : Nat := 30 * 365 * 24 * 60 * 60 * 1000

def slice (r : Reader) (start stop : Nat) : Bytes :=
  (r.received.extract start stop).toList

def buffered (r : Reader) : Bytes :=
  r.slice r.headLength r.received.size

def headEnd? (r : Reader) (start : Nat) : Option Nat :=
  (cut? Bytes.blankLine (r.slice start r.received.size)).map fun (front, _) =>
    start + front.length + Bytes.blankLine.length

def searched (r : Reader) : Nat :=
  r.received.size - (Bytes.blankLine.length - 1)

def fill (r : Reader) (source : Incoming) (timeout : Nat) : Reading Unit :=
  let (received, source) :=
    source.read (r.capacity - r.received.size) (min timeout longestWait)
  match received.result with
  | .ok bytes => ⟨.ok (), { r with received := r.received ++ bytes }, source⟩
  | .error fault => ⟨.error fault, r, source⟩

/--
Reads until the head is complete, as often as the given number allows.  No blank line begins before
the place from which the search goes on.
-/
def readHeadWithin (later : Nat) : Nat -> Reader -> Nat -> Incoming -> Nat -> Reading Bytes
  | fuel, r, start, source, timeout =>
      match r.headEnd? start with
      | some length => ⟨.ok (r.slice 0 length), { r with headLength := length }, source⟩
      | none =>
          match fuel with
          | 0 => ⟨.error .headersTooLarge, r, source⟩
          | fuel + 1 =>
              if r.capacity ≤ r.received.size then ⟨.error .headersTooLarge, r, source⟩
              else
                let start := r.searched
                let step := r.fill source timeout
                match step.result with
                | .ok _ => readHeadWithin later fuel step.reader start step.source later
                | .error fault => ⟨.error fault, step.reader, step.source⟩

/--
Reads a head, with a time limit for the first read and one for each later read.  Every read brings
a byte at least, so that there are at most as many as there is free room.
-/
def readHead (r : Reader) (source : Incoming) (first later : Nat) : Reading Bytes :=
  readHeadWithin later (r.capacity - r.received.size) r 0 source first

def fillTo (length timeout : Nat) : Nat -> Reader -> Incoming -> Reading Unit
  | fuel, r, source =>
      if length ≤ r.received.size then ⟨.ok (), r, source⟩
      else
        match fuel with
        | 0 => ⟨.ok (), r, source⟩
        | fuel + 1 =>
            let step := r.fill source timeout
            match step.result with
            | .ok _ => fillTo length timeout fuel step.reader step.source
            | .error fault => ⟨.error fault, step.reader, step.source⟩

def readBody (r : Reader) (source : Incoming) (length timeout : Nat) : Reading Bytes :=
  let stop := r.headLength + length
  if r.capacity < stop then ⟨.error .bodyTooLarge, r, source⟩
  else
    let start := r.headLength
    let step := fillTo stop timeout (stop - r.received.size) r source
    match step.result with
    | .ok _ => ⟨.ok (step.reader.slice start stop), step.reader, step.source⟩
    | .error fault => ⟨.error fault, step.reader, step.source⟩

end Reader
end HttpEngine
