import HttpEngine.Fault

/-!
# The receiving side of a connection

What a client sends is a list of steps with the current time: data, pauses, and how it ends.  A
read takes at most one piece of data, cut to the room there is.  It may wait until its time limit;
data that comes exactly then is still taken.  A pause that has begun ends at a fixed time, whether
or not the read that began it is still waiting.
-/

namespace HttpEngine

inductive Arrival where
  | data (bytes : Bytes)
  /-- Nothing arrives for some time, which begins when a read comes here. -/
  | pause (duration : Nat)
  | pauseUntil (time : Nat)
  | stall
  | failure (error : WireError)
  | ended
  deriving DecidableEq, Repr

structure Incoming where
  arrivals : List Arrival
  now : Nat
  deriving DecidableEq, Repr

inductive Received where
  | data (first : UInt8) (rest : Bytes)
  | ended
  | failure (error : WireError)
  | timedOut
  deriving DecidableEq, Repr

namespace Incoming

def take (first : UInt8) (bytes : Bytes) (room : Nat) (rest : List Arrival) (now : Nat) :
    Received × Incoming :=
  let left := bytes.drop (room - 1)
  (.data first (bytes.take (room - 1)),
    ⟨if left.isEmpty then rest else .data left :: rest, now⟩)

def waitUntil (time limit now : Nat) (rest : List Arrival)
    (go : Nat -> Received × Incoming) : Received × Incoming :=
  if time ≤ limit then go (max now time)
  else (.timedOut, ⟨.pauseUntil time :: rest, max now limit⟩)

def readUntil (room limit : Nat) : List Arrival -> Nat -> Received × Incoming
  | [], now => (.ended, ⟨[], now⟩)
  | .data [] :: rest, now => readUntil room limit rest now
  | .data (first :: bytes) :: rest, now => take first bytes room rest now
  | .pause duration :: rest, now =>
      waitUntil (now + duration) limit now rest (readUntil room limit rest)
  | .pauseUntil time :: rest, now =>
      waitUntil time limit now rest (readUntil room limit rest)
  | .stall :: rest, now => (.timedOut, ⟨.stall :: rest, max now limit⟩)
  | .failure error :: rest, now => (.failure error, ⟨.failure error :: rest, now⟩)
  | .ended :: rest, now => (.ended, ⟨.ended :: rest, now⟩)

def read (source : Incoming) (room timeout : Nat) : Received × Incoming :=
  readUntil room (source.now + timeout) source.arrivals source.now

def unread (source : Incoming) : Bytes :=
  source.arrivals.flatMap fun
    | .data bytes => bytes
    | _ => []

end Incoming

namespace Received

def result : Received -> Except Fault Bytes
  | .data first rest => .ok (first :: rest)
  | .ended => .error .connectionClosed
  | .failure error => .error (.ofWire error)
  | .timedOut => .error .timeout

end Received
end HttpEngine
