import HttpEngine.AccessLog.Time
import HttpEngine.Event

/-!
# Lines of the access log and their queue

One line says who asked for what and what the answer was.  Lines wait in a queue of bounded length.
A line that finds no room, or nobody to take it, is dropped and reported.
-/

namespace HttpEngine

/-- What is said about an answered request; the time that it took is in microseconds. -/
structure LogEntry where
  clientIp : String
  method : String
  path : String
  protocol : String
  status : Nat
  bodySize : Nat
  userAgent : String
  elapsed : Nat
  deriving DecidableEq, Repr

structure LogLine where
  day : String
  text : String
  deriving DecidableEq, Repr

namespace LogEntry

def text (e : LogEntry) (time : UtcTime) : String :=
  s!"{e.clientIp} [{time.text} +0000] \"{e.method} {e.path} {e.protocol}\" " ++
  s!"{e.status} {e.bodySize} \"{e.userAgent}\" {e.elapsed / 1000}ms\n"

def line (e : LogEntry) (time : UtcTime) : LogLine :=
  ⟨time.dayName, e.text time⟩

end LogEntry

structure LogQueue where
  capacity : Nat
  lines : List LogLine
  isOpen : Bool
  deriving DecidableEq, Repr

namespace LogQueue

def standardCapacity : Nat := 4096

def new (capacity : Nat) : LogQueue := ⟨capacity, [], true⟩

def record (q : LogQueue) (entry : LogEntry) (time : Nat) : LogQueue × List Event :=
  if !q.isOpen then (q, [.logStopped])
  else if q.capacity ≤ q.lines.length then (q, [.logQueueFull entry.path])
  else ({ q with lines := q.lines ++ [entry.line (.ofUnix time)] }, [])

def take? (q : LogQueue) : Option (LogLine × LogQueue) :=
  match q.lines with
  | line :: rest => some (line, { q with lines := rest })
  | [] => none

end LogQueue

end HttpEngine
