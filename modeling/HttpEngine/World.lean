import HttpEngine.AccessLog.Queue
import HttpEngine.Event
import HttpEngine.Storage

/-!
# The world around a connection

What a request can change beside its own connection: the time, the store of files, the numbers that
name uploads, what has been reported, the queue of log lines, and the state of the application,
which the engine does not look at.

Time limits and pauses are measured by the clock of the timers.  The machine has clocks of its own,
one that counts on and one for the calendar, which need not keep pace with it: the timers' clock may
leap over a time in which nothing is to be done.  Times are in milliseconds, and only the Unix time
is in seconds.
-/

namespace HttpEngine

structure MachineTime where
  uptime : Nat
  unix : Nat
  deriving DecidableEq, Repr

structure World (σ : Type) where
  clock : Nat
  machineTime : Nat -> MachineTime
  storage : Storage
  serials : Nat -> UInt64
  events : List Event
  log : LogQueue
  app : σ

namespace World

variable {σ : Type}

def uptime (w : World σ) : Nat :=
  (w.machineTime w.clock).uptime

def unixTime (w : World σ) : Nat :=
  (w.machineTime w.clock).unix

def report (w : World σ) (events : List Event) : World σ :=
  { w with events := w.events ++ events }

def nextSerial (w : World σ) : UInt64 × World σ :=
  (w.serials 0, { w with serials := fun n => w.serials (n + 1) })

end World
end HttpEngine
