import HttpEngine.Event
import HttpEngine.Outcome

/-!
# Letting connections in

A server has as many permits as it may have connections.  To take a connection it first needs a
permit, which then goes to the task that serves the connection; if the connection cannot be taken,
the server rests for a moment before it gives the permit back.  A task that ends, or that a panic
breaks off, gives up its place among the live connections first and its permit after that.  Once the
server has been told to stop it takes nothing any more and gives back the permit that it may hold.
It has stopped when it could get all permits.
-/

namespace HttpEngine

inductive GatePhase where
  | seeking
  | listening
  | resting
  | taken
  | draining
  | stopped
  deriving DecidableEq, Repr

namespace GatePhase

def held : GatePhase -> Nat
  | .listening | .resting | .taken => 1
  | .seeking | .draining | .stopped => 0

/-- Whether the server can be told to stop now; it serves a client that it has taken. -/
def isWaiting : GatePhase -> Bool
  | .seeking | .listening | .resting => true
  | .taken | .draining | .stopped => false

end GatePhase

inductive GateTask where
  | running
  /-- It does not count as live any more, but still has its permit. -/
  | leaving
  deriving DecidableEq, Repr

structure Gate where
  capacity : Nat
  available : Nat
  tasks : List GateTask
  live : Nat
  phase : GatePhase
  deriving DecidableEq, Repr

namespace Gate

def start (capacity : Nat) : Gate :=
  { capacity, available := capacity, tasks := [], live := 0, phase := .seeking }

def maxRequest : Nat := 0xffffffff

def drainPermits (capacity : Nat) : Nat :=
  min capacity maxRequest

/-! # Steps -/

inductive Action where
  | acquire
  | accept
  | spawn
  | fail
  | retry
  | leave (panic : Option Panic)
  | release
  | signal
  | stop
  deriving DecidableEq, Repr

def Action.events : Action -> List Event
  | .signal => [.serverDraining]
  | .stop => [.serverStopped]
  | _ => []

def startEvents (routes middlewares maxConnections : Nat) : List Event :=
  [.serverStarted routes middlewares maxConnections]

inductive Step : Gate -> Action -> Gate -> Prop where
  | acquire {g : Gate} : g.phase = .seeking -> 0 < g.available ->
      Step g .acquire { g with available := g.available - 1, phase := .listening }
  | accept {g : Gate} : g.phase = .listening -> Step g .accept { g with phase := .taken }
  | spawn {g : Gate} : g.phase = .taken ->
      Step g .spawn
        { g with tasks := g.tasks ++ [.running], live := g.live + 1, phase := .seeking }
  | fail {g : Gate} : g.phase = .listening -> Step g .fail { g with phase := .resting }
  | retry {g : Gate} : g.phase = .resting ->
      Step g .retry { g with available := g.available + 1, phase := .seeking }
  | leave {g : Gate} {before after : List GateTask} {panic : Option Panic} :
      g.tasks = before ++ .running :: after ->
      Step g (.leave panic)
        { g with tasks := before ++ .leaving :: after, live := g.live - 1 }
  | release {g : Gate} {before after : List GateTask} :
      g.tasks = before ++ .leaving :: after ->
      Step g .release { g with tasks := before ++ after, available := g.available + 1 }
  | signal {g : Gate} : g.phase.isWaiting = true ->
      Step g .signal { g with available := g.available + g.phase.held, phase := .draining }
  /-- All permits could be had at once; they are given back again. -/
  | stop {g : Gate} : g.phase = .draining -> drainPermits g.capacity ≤ g.available ->
      Step g .stop { g with phase := .stopped }

inductive Run (capacity : Nat) : List Action -> Gate -> Prop where
  | start : Run capacity [] (Gate.start capacity)
  | step {actions : List Action} {action : Action} {g h : Gate} :
      Run capacity actions g -> Step g action h -> Run capacity (actions ++ [action]) h

end Gate
end HttpEngine
