import HttpEngine.Net.Host
import HttpEngine.Pipeline
import HttpEngine.Response.Head
import HttpEngine.Route.Table

/-!
# Servers and how they are built

A server is all that connections share: the routes, the middlewares, the cross-origin policy and
the limits.  A builder collects what a server consists of.  Building checks the number of
connections first, then takes the listener that is there or binds an address, and drops the
middlewares beyond the limit, which is reported.
-/

namespace HttpEngine

structure ServerLimits where
  maxConnections : Nat := 255
  backlog : Nat := 128
  maxMiddlewares : Nat := 32
  trustForwardedFor : Bool := false

/-- In milliseconds, for the first read, for each later one and for each write. -/
structure ConnectionLimits where
  idleTimeout : Nat := 90000
  readTimeout : Nat := 300000
  writeTimeout : Nat := 300000

structure Server (σ : Type) where
  routes : RouteTable (Handler σ)
  middlewares : List (Middleware σ)
  cors : Option Cors
  keepsLog : Bool
  limits : ServerLimits
  connectionLimits : ConnectionLimits
  requestLimits : RequestLimits

structure ServerBuilder (σ : Type) where
  bind : Option SocketAddress := none
  listener : Option SocketAddress := none
  items : List (RouteItem (Handler σ)) := []
  middlewares : List (Middleware σ) := []
  cors : Option Cors := none
  keepsLog : Bool := false
  limits : ServerLimits := {}
  connectionLimits : ConnectionLimits := {}
  requestLimits : RequestLimits := {}

inductive BuildError where
  | maxConnections (value : Nat)
  | missingListener
  | bind (address : SocketAddress) (reason : BindRefusal)
  deriving DecidableEq, Repr

structure BuiltServer (σ : Type) where
  address : SocketAddress
  server : Server σ

namespace ServerBuilder

def maxConnections : Nat := 0xffffffff

def address {σ : Type} (b : ServerBuilder σ) (host : Host) : Except BuildError SocketAddress :=
  match b.listener, b.bind with
  | some address, _ => .ok address
  | none, some address =>
      match host.refusal? address with
      | some reason => .error (.bind address reason)
      | none => .ok address
  | none, none => .error .missingListener

def droppedEvents (registered max : Nat) : List Event :=
  if max < registered then [.middlewaresIgnored registered max] else []

def build {σ : Type} (b : ServerBuilder σ) (host : Host) :
    Except BuildError (BuiltServer σ) × List Event :=
  let connections := b.limits.maxConnections
  if connections < 1 ∨ maxConnections < connections then
    (.error (.maxConnections connections), [])
  else
    match b.address host with
    | .error e => (.error e, [])
    | .ok address =>
        let server : Server σ :=
          { routes := RouteTable.ofItems b.items
            middlewares := b.middlewares.take b.limits.maxMiddlewares
            cors := b.cors
            keepsLog := b.keepsLog
            limits := b.limits
            connectionLimits := b.connectionLimits
            requestLimits := b.requestLimits }
        (.ok ⟨address, server⟩, droppedEvents b.middlewares.length b.limits.maxMiddlewares)

end ServerBuilder

def BuildError.name : BuildError -> String
  | .maxConnections _ => "MaxConnections"
  | .missingListener => "MissingListener"
  | .bind .. => "Bind"

def BuildError.message : BuildError -> String
  | .maxConnections value =>
      s!"max_connections must be between 1 and {ServerBuilder.maxConnections}, got {value}"
  | .missingListener => "the \x60bind\x60 or \x60listener\x60 method must be called before \x60build\x60"
  | .bind address reason => s!"failed to bind {address.text}: {reason.message}"

end HttpEngine
