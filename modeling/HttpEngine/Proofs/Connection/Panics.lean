import HttpEngine.Proofs.Connection.Admission
import HttpEngine.Proofs.Pipeline.Plain

/-!
# Panics

A panic ends a run at the step where it comes up.  Behind a recovery it becomes a fixed response, in
which nothing is left of what has been prepared.  Without one it leaves the pipeline and breaks the
connection off, so that nothing is written any more, neither to the client nor into the access log.
-/

namespace HttpEngine

variable {σ : Type}

theorem Response.internalError_eq :
    internalError =
      { status := .internalServerError, contentType := "application/json", headers := [],
        body := Utf8.encode "\x7b\"error\": \"internal server error\"\x7d" } := by
  decide +kernel

namespace Connection

/-! # Coming to the pipeline -/

/-- A connection whose request has been received and has a route: it comes to run the pipeline. -/
inductive EntersPipeline (server : Server σ) (peer : SocketAddress) (arrivals : List Arrival)
    (start : World σ) : Handler σ -> Request -> World σ -> Prop where
  | intro {head whole : Request} {handler : Handler σ} {params : List Pair} :
      server.requestLimits.bufferSize ≤ Buffer.maxSize ->
      (firstReading server peer ⟨arrivals, start.clock⟩).result = .ok head ->
      head.method ≠ .options ->
      (bodyReceipt server peer ⟨arrivals, start.clock⟩ head start).result = .done (.ok whole) ->
      server.routes.find? server.requestLimits.maxParams whole.method whole.path =
        some (handler, params) ->
      EntersPipeline server peer arrivals start handler { whole with params }
        (bodyReceipt server peer ⟨arrivals, start.clock⟩ head start).world

def Answer.ofRun (run : Run σ) : Answer σ where
  outcome := run.outcome.map some
  calls := run.calls
  handlerInvoked := run.handlerInvoked
  request := run.request
  world := run.world

variable {server : Server σ} {peer : SocketAddress} {arrivals : List Arrival} {start world : World σ}
  {handler : Handler σ} {request : Request}

theorem EntersPipeline.serve_eq (h : EntersPipeline server peer arrivals start handler request world)
    (out : Outgoing) :
    serve server peer arrivals out start =
      finish server
        (discardUnclaimed (.ofRun (Pipeline.run server.middlewares handler request world)))
        start.uptime out := by
  cases h with
  | intro hbuffer hhead hmethod hwhole hroute =>
      rw [serve_of_le hbuffer, serveWith]
      simp only [hhead]
      rw [respond, if_neg hmethod]
      simp only [hwhole]
      rw [dispatch, hroute]
      rfl

theorem receiveBody_log (server : Server σ) (reader : Reader) (source : Incoming)
    (request : Request) (world : World σ) :
    (receiveBody server reader source request world).world.log = world.log := by
  unfold receiveBody
  simp only
  split
  · rfl
  · split
    · split
      · rfl
      · rfl
    · rfl

theorem EntersPipeline.log_eq
    (h : EntersPipeline server peer arrivals start handler request world) :
    world.log = start.log := by
  cases h with
  | intro hbuffer hhead hmethod hwhole hroute => exact receiveBody_log _ _ _ _ _

theorem EntersPipeline.serve_of_panicked
    (h : EntersPipeline server peer arrivals start handler request world) {panic : Panic}
    (hpanic : (Pipeline.run server.middlewares handler request world).outcome = .panicked panic)
    (out : Outgoing) :
    (serve server peer arrivals out start).response = none ∧
      (serve server peer arrivals out start).panic = some panic ∧
      (serve server peer arrivals out start).out = out ∧
      (serve server peer arrivals out start).world =
        (Pipeline.run server.middlewares handler request world).world := by
  have houtcome : (Answer.ofRun
      (Pipeline.run server.middlewares handler request world)).outcome = .panicked panic := by
    rw [Answer.ofRun, hpanic]
    rfl
  rw [h.serve_eq, discardUnclaimed, houtcome]
  simp only [finish, houtcome]
  exact ⟨rfl, rfl, rfl, rfl⟩

/-! # What a panic comes to -/

/--
A run that comes to a step that panics has called the steps before it, each once and in order, that
step, and nothing else.  Behind a recovery it ends with the fixed response; otherwise the panic
leaves it, and a connection that has come to the run writes no response and no line of the log.
-/
theorem run_of_breaksDown {middlewares : List (Middleware σ)} {b : Pipeline.Breakdown σ}
    (h : Pipeline.BreaksDown handler ⟨request, .new .ok, world⟩ middlewares b) :
    let run := Pipeline.run middlewares handler request world
    run.calls = List.range b.called ∧ run.handlerInvoked = b.inHandler ∧
    run.request = b.request ∧
    (.recovery ∈ b.passed ->
      run.outcome = .done
        { status := .internalServerError, contentType := "application/json", headers := [],
          body := Utf8.encode "\x7b\"error\": \"internal server error\"\x7d" } ∧
      run.world = b.world.report
        [.panicRecovered b.request.method b.request.path b.panic.text]) ∧
    (.recovery ∉ b.passed ->
      run.outcome = .panicked b.panic ∧ run.world = b.world ∧
      forall (server : Server σ) (peer : SocketAddress) (arrivals : List Arrival)
        (out : Outgoing) (start : World σ), server.middlewares = middlewares ->
        EntersPipeline server peer arrivals start handler request world ->
        let served := serve server peer arrivals out start
        served.response = none ∧ served.panic = some b.panic ∧ served.out = out ∧
          served.world = b.world ∧ world.log = start.log) := by
  have hrun := h.run_eq
  -- Only the recoveries that went on count; one behind the panic is never called.
  by_cases hrecovery : .recovery ∈ b.passed
  · rw [if_pos (Middleware.any_isRecovery_iff.mpr hrecovery)] at hrun
    rw [hrun, ← Response.internalError_eq]
    refine ⟨rfl, rfl, rfl, ?_, fun hnone => absurd hrecovery hnone⟩
    intro _
    exact ⟨rfl, rfl⟩
  · rw [if_neg (fun hany => hrecovery (Middleware.any_isRecovery_iff.mp hany))] at hrun
    refine ⟨by rw [hrun]; rfl, by rw [hrun]; rfl, by rw [hrun]; rfl,
      fun hsome => absurd hsome hrecovery, ?_⟩
    intro _
    refine ⟨by rw [hrun]; rfl, by rw [hrun]; rfl, ?_⟩
    intro server peer arrivals out start hsame henters
    rw [← hsame] at hrun
    have hpanic := congrArg Run.outcome hrun
    rcases henters.serve_of_panicked hpanic out with ⟨hresponse, hleft, hout, hworld⟩
    rw [hrun] at hworld
    exact ⟨hresponse, hleft, hout, hworld, henters.log_eq⟩

/-! # A middleware that panics, behind a recovery and before one -/

abbrev stamp : Middleware Unit := Pipeline.stamp "x-id"

def fail : Middleware Unit :=
  .step fun x => (.panicked (.message "boom"), x)

def idle : Handler Unit := fun request world => (.done .noContent, request, world)

def failingServer : Server Unit :=
  { bareServer 64 with routes := [⟨.get, "/x", idle⟩], middlewares := [stamp, fail, .recovery] }

def failingArrivals : List Arrival :=
  Arrival.script [Utf8.encode "GET /x HTTP/1.1\r\n\r\n"]

def failingRequest : Request :=
  { Pipeline.bareRequest with path := "/x" }

def failingWorld : World Unit :=
  (bodyReceipt failingServer ⟨.v4 127 0 0 1, 50000, 0⟩ ⟨failingArrivals, 0⟩ failingRequest
    bareWorld).world

theorem failingServer_enters :
    EntersPipeline failingServer ⟨.v4 127 0 0 1, 50000, 0⟩ failingArrivals bareWorld idle
      failingRequest failingWorld := by
  have hhead : (firstReading failingServer ⟨.v4 127 0 0 1, 50000, 0⟩
      ⟨failingArrivals, 0⟩).result = .ok failingRequest := by
    decide +kernel
  have hwhole : (bodyReceipt failingServer ⟨.v4 127 0 0 1, 50000, 0⟩ ⟨failingArrivals, 0⟩
      failingRequest bareWorld).result = .done (.ok failingRequest) := by
    decide +kernel
  exact @EntersPipeline.intro _ _ _ _ _ failingRequest failingRequest idle [] (by decide) hhead
    (by decide) hwhole rfl

theorem run_of_breaksDown_fail :
    let start : Exchange Unit := ⟨failingRequest, .new .ok, failingWorld⟩
    let covered : Pipeline.Breakdown Unit :=
      ⟨[.recovery, stamp], false, .message "boom", failingRequest, failingWorld⟩
    let bare : Pipeline.Breakdown Unit :=
      ⟨[stamp], false, .message "boom", failingRequest, failingWorld⟩
    let served := serve failingServer ⟨.v4 127 0 0 1, 50000, 0⟩ failingArrivals .unbounded bareWorld
    (Pipeline.BreaksDown idle start [.recovery, stamp, fail] covered ∧
      .recovery ∈ covered.passed ∧
      (Pipeline.run [.recovery, stamp, fail] idle failingRequest failingWorld).calls =
        [0, 1, 2] ∧
      (Pipeline.run [.recovery, stamp, fail] idle failingRequest failingWorld).outcome =
        .done .internalError) ∧
    (Pipeline.BreaksDown idle start failingServer.middlewares bare ∧ .recovery ∉ bare.passed ∧
      EntersPipeline failingServer ⟨.v4 127 0 0 1, 50000, 0⟩ failingArrivals bareWorld idle
        failingRequest failingWorld ∧
      (Pipeline.run failingServer.middlewares idle failingRequest failingWorld).calls = [0, 1] ∧
      served.response = none ∧ served.panic = some (.message "boom") ∧ served.out = .unbounded ∧
      served.world = failingWorld) := by
  intro start covered bare served
  have hcovered : Pipeline.BreaksDown idle start [.recovery, stamp, fail] covered :=
    @Pipeline.BreaksDown.middleware _ _ _ [.recovery, stamp] [] _ _ _ _
      (.cons rfl (.cons rfl .nil)) rfl
  have hbare : Pipeline.BreaksDown idle start failingServer.middlewares bare :=
    @Pipeline.BreaksDown.middleware _ _ _ [stamp] [.recovery] _ _ _ _ (.cons rfl .nil) rfl
  have hmem : Middleware.recovery ∈ covered.passed := List.mem_cons_self
  have hnone : Middleware.recovery ∉ bare.passed := by simp [bare, stamp, Pipeline.stamp]
  rcases run_of_breaksDown hcovered with ⟨hcalls, _, _, hrecovered, _⟩
  rcases run_of_breaksDown hbare with ⟨hbareCalls, _, _, _, hleft⟩
  rcases (hleft hnone).right.right failingServer ⟨.v4 127 0 0 1, 50000, 0⟩ failingArrivals
    .unbounded bareWorld rfl failingServer_enters with ⟨hresponse, hpanic, hout, hworld, _⟩
  refine ⟨⟨hcovered, hmem, hcalls, ?_⟩, hbare, hnone, failingServer_enters, hbareCalls, hresponse,
    hpanic, hout, hworld⟩
  rw [Response.internalError_eq]
  exact (hrecovered hmem).left

end Connection
end HttpEngine
