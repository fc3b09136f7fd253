import HttpEngine.Outcome
import HttpEngine.Request.Basic
import HttpEngine.Response.Basic
import HttpEngine.World

/-!
# The pipeline

Middlewares look at a request before its handler does.  Each may change the request, the response
prepared so far and the world, and says whether to go on.  The handler then makes the response,
behind the header fields of the prepared one.  Middlewares and handlers may panic.  From a recovery
middleware on, a panic becomes a response; before it, a panic leaves the pipeline.
-/

namespace HttpEngine

inductive Flow where
  | proceed
  | abort
  deriving DecidableEq, Repr

structure Exchange (σ : Type) where
  request : Request
  slot : Response
  world : World σ

inductive Middleware (σ : Type) where
  | recovery
  | step (run : Exchange σ -> Outcome Flow × Exchange σ)

abbrev Handler (σ : Type) := Request -> World σ -> Outcome Response × Request × World σ

structure Run (σ : Type) where
  outcome : Outcome Response
  /-- The middlewares that ran, by their number. -/
  calls : List Nat
  handlerInvoked : Bool
  request : Request
  world : World σ

namespace Run

variable {σ : Type}

def afterCall (r : Run σ) (index : Nat) : Run σ :=
  { r with calls := index :: r.calls }

def recovered (r : Run σ) : Run σ :=
  match r.outcome with
  | .done _ => r
  | .panicked panic =>
      { r with
        outcome := .done .internalError
        world := r.world.report
          [.panicRecovered r.request.method r.request.path panic.text] }

end Run

namespace Pipeline

variable {σ : Type}

/-- The response of the handler behind the header fields of the prepared one. -/
def callHandler (handler : Handler σ) (x : Exchange σ) : Run σ :=
  let (outcome, request, world) := handler x.request x.world
  { outcome := outcome.map (·.inheritHeaders x.slot), calls := [], handlerInvoked := true,
    request, world }

def stop (outcome : Outcome Response) (x : Exchange σ) : Run σ :=
  { outcome, calls := [], handlerInvoked := false, request := x.request, world := x.world }

def chain (handler : Handler σ) : Nat -> List (Middleware σ) -> Exchange σ -> Run σ
  | _, [], x => callHandler handler x
  | index, .recovery :: rest, x => (chain handler (index + 1) rest x).afterCall index
  | index, .step run :: rest, x =>
      (match run x with
        | (.done .proceed, x) => chain handler (index + 1) rest x
        | (.done .abort, x) => stop (.done x.slot) x
        | (.panicked panic, x) => stop (.panicked panic) x).afterCall index

/-- Runs middlewares, numbered from an index on; from a recovery on, panics become responses. -/
def guarded (handler : Handler σ) : Nat -> List (Middleware σ) -> Exchange σ -> Run σ
  | _, [], x => callHandler handler x
  | index, .recovery :: rest, x => (chain handler (index + 1) rest x).recovered.afterCall index
  | index, .step run :: rest, x =>
      (match run x with
        | (.done .proceed, x) => guarded handler (index + 1) rest x
        | (.done .abort, x) => stop (.done x.slot) x
        | (.panicked panic, x) => stop (.panicked panic) x).afterCall index

def run (middlewares : List (Middleware σ)) (handler : Handler σ) (request : Request)
    (world : World σ) : Run σ :=
  guarded handler 0 middlewares { request, slot := .new .ok, world }

end Pipeline
end HttpEngine
