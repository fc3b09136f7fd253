import HttpEngine.Fault

/-!
# The sending side of a connection

What has been written so far, and how much the other side takes: at most so many bytes in one
write, and only so many in all before writes fail or wait for ever.
-/

namespace HttpEngine

structure Outgoing where
  written : Bytes
  chunk : Option Nat
  failAfter : Option Nat
  stallAfter : Option Nat
  isClosed : Bool
  deriving DecidableEq, Repr

inductive Accepted where
  | bytes (count : Nat)
  | failure (error : WireError)
  | stalled
  deriving DecidableEq, Repr

namespace Outgoing

def unbounded : Outgoing := ⟨[], none, none, none, false⟩

def roomBefore (bound : Option Nat) (held wanted : Nat) : Nat :=
  match bound with
  | some n => n - held
  | none => wanted

def accept (out : Outgoing) (held wanted : Nat) : Accepted :=
  if out.failAfter.any (· ≤ held) then .failure .brokenPipe
  else if out.stallAfter.any (· ≤ held) then .stalled
  else
    let room := min (roomBefore out.failAfter held wanted) (roomBefore out.stallAfter held wanted)
    let count := min wanted (min room (out.chunk.getD wanted))
    if count = 0 then .failure .writeZero else .bytes count

inductive Sent where
  | all
  | failure (error : WireError)
  | stalled
  deriving DecidableEq, Repr

/--
Writes as often as the first number allows, until all that is wanted is written; gives how many
bytes are held then.
-/
def sendWithin (out : Outgoing) : Nat -> Nat -> Nat -> Sent × Nat
  | _, held, 0 => (.all, held)
  | 0, held, _ => (.failure .writeZero, held)
  | fuel + 1, held, wanted =>
      match out.accept held wanted with
      | .bytes count => sendWithin out fuel (held + count) (wanted - count)
      | .failure error => (.failure error, held)
      | .stalled => (.stalled, held)

def send (out : Outgoing) (data : Bytes) : Sent × Outgoing :=
  let before := out.written.length
  let (sent, held) := out.sendWithin data.length before data.length
  (sent, { out with written := out.written ++ data.take (held - before) })

def close (out : Outgoing) : Outgoing :=
  { out with isClosed := true }

end Outgoing
end HttpEngine
