import HttpEngine.Proofs.Connection.Framing
import HttpEngine.Proofs.Pipeline.Invariants
import HttpEngine.Proofs.Upload.Storing

/-!
# Who sees a request

The middlewares and the handler of a route see a request only if all of it has been received, if it
is no preflight request and if the route matches it.  Every other connection ends before them: with
a fixed response, with none because the client is gone, or with a panic because a buffer cannot be
had.
-/

namespace HttpEngine

def Fault.fixed? : Fault -> Option (Nat × String)
  | .timeout => some (408, "\x7b\"error\": \"read timeout\"\x7d")
  | .bodyTooLarge => some (413, "\x7b\"error\": \"request body too large\"\x7d")
  | .headersTooLarge => some (431, "\x7b\"error\": \"request headers too large\"\x7d")
  | .badRequest => some (400, "\x7b\"error\": \"bad request\"\x7d")
  | .invalidMethod => some (400, "\x7b\"error\": \"invalid method\"\x7d")
  | .unsupportedVersion => some (505, "\x7b\"error\": \"http version not supported\"\x7d")
  | .upload => some (500, "\x7b\"error\": \"upload failed\"\x7d")
  | .notFound => some (404, "\x7b\"error\": \"not found\"\x7d")
  | .connectionClosed => none
  | .wire _ => none

/-- A request with the whole of its body: in memory, or in a file that holds what is kept of it. -/
inductive Request.Complete (request : Request) (body : Bytes) (storage : Storage) :
    Request -> Prop where
  | bodiless : request.contentLength = 0 -> Complete request body storage request
  | inMemory : request.isKeptInMemory = true ->
      Complete request body storage { request with body := some body }
  | inFile {contentType : String} {upload : Upload} :
      request.contentType? = some contentType -> request.isKeptInMemory = false ->
      Upload.Kept storage contentType body upload ->
      Complete request body storage { request with upload := some upload }

theorem Request.Complete.head {request whole : Request} {body : Bytes} {storage : Storage}
    (h : request.Complete body storage whole) :
    whole.method = request.method ∧ whole.path = request.path ∧
      whole.headers = request.headers := by
  cases h with
  | bodiless hempty => exact ⟨rfl, rfl, rfl⟩
  | inMemory hmemory => exact ⟨rfl, rfl, rfl⟩
  | inFile hcontent hmemory hkept => exact ⟨rfl, rfl, rfl⟩

namespace Connection

variable {σ : Type}

/-! # Ways to end -/

inductive Stop where
  | rejected (fault : Fault)
  | preflight
  | incomplete (fault : Fault)
  | unrouted

def Stop.response? : Stop -> Option Response
  | .rejected fault => Response.ofFault? fault
  | .preflight => some .noContent
  | .incomplete fault => Response.ofFault? fault
  | .unrouted => Response.ofFault? .notFound

def Stop.fixed? : Stop -> Option (Nat × String)
  | .rejected fault => fault.fixed?
  | .preflight => some (204, "")
  | .incomplete fault => fault.fixed?
  | .unrouted => Fault.notFound.fixed?

structure Ending (σ : Type) where
  outcome : Outcome (Option Response)
  calls : List Nat
  handlerInvoked : Bool
  app : σ

def Answer.ending (answer : Answer σ) : Ending σ :=
  ⟨answer.outcome, answer.calls, answer.handlerInvoked, answer.world.app⟩

def Served.ending (served : Served σ) : Ending σ where
  outcome :=
    match served.panic with
    | some panic => .panicked panic
    | none => .done served.response
  calls := served.calls
  handlerInvoked := served.handlerInvoked
  app := served.world.app

def Ending.untouched (world : World σ) (outcome : Outcome (Option Response)) : Ending σ :=
  ⟨outcome, [], false, world.app⟩

def Ending.ofRun (run : Run σ) : Ending σ :=
  ⟨run.outcome.map some, run.calls, run.handlerInvoked, run.world.app⟩

/-! # What leads there -/

section

variable (server : Server σ) (peer : SocketAddress) (source : Incoming)

abbrev firstReading : Reading Request :=
  readRequest server peer (.new server.requestLimits.bufferSize) source

abbrev bodyReceipt (request : Request) (world : World σ) : Receipt σ :=
  receiveBody server (firstReading server peer source).reader
    (firstReading server peer source).source request
    { world with clock := (firstReading server peer source).source.now }

/--
A request whose head came within the time limits and the room of the reader, with its whole body
behind the head.
-/
structure Received (request : Request) (body : Bytes) : Prop where
  result : (firstReading server peer source).result = .ok request
  sent : exists head : Bytes,
    head ++ body <+: source.unread ∧ head.length ≤ server.requestLimits.bufferSize ∧
      headLength? head = some head.length ∧
      Request.decode head peer server.requestLimits server.limits.trustForwardedFor = .ok request
  length : body.length = request.contentLength

inductive Stop.Occurs (world : World σ) : Stop -> Prop where
  | rejected {fault : Fault} : (firstReading server peer source).result = .error fault ->
      Occurs world (.rejected fault)
  | preflight {request : Request} : (firstReading server peer source).result = .ok request ->
      request.method = .options -> Occurs world .preflight
  | incomplete {request : Request} {fault : Fault} :
      (firstReading server peer source).result = .ok request -> request.method ≠ .options ->
      (bodyReceipt server peer source request world).result = .done (.error fault) ->
      Occurs world (.incomplete fault)
  | unrouted {request : Request} {body : Bytes} : Received server peer source request body ->
      request.method ≠ .options ->
      (forall route, route ∈ server.routes -> route.method = request.method ->
        Template.match? server.requestLimits.maxParams route.template request.path = none) ->
      Occurs world .unrouted

/-- Whether the reader or the body of an upload would need a buffer that cannot be had. -/
def Unbuffered : Prop :=
  Buffer.maxSize < server.requestLimits.bufferSize ∨
    exists request : Request, (firstReading server peer source).result = .ok request ∧
      request.method ≠ .options ∧ request.isKeptInMemory = false ∧
      Buffer.maxSize < min server.requestLimits.fileChunk request.contentLength

inductive Course (world : World σ) : Ending σ -> Prop where
  | unbuffered : Unbuffered server peer source ->
      Course world (.untouched world (.panicked .capacityOverflow))
  | stopped {stop : Stop} : stop.Occurs server peer source world ->
      Course world (.untouched world (.done stop.response?))
  | admitted {request whole : Request} {body : Bytes} {route : Route (Handler σ)}
      {params : List Pair} {before : World σ} :
      Received server peer source request body -> request.method ≠ .options ->
      request.Complete body before.storage whole -> before.app = world.app ->
      route ∈ server.routes -> route.method = request.method ->
      Template.match? server.requestLimits.maxParams route.template request.path = some params ->
      Course world
        (.ofRun (Pipeline.run server.middlewares route.handler { whole with params } before))

end

/-! # The end of a connection is the end of its answer -/

theorem enterLog_app (server : Server σ) (entry : LogEntry) (world : World σ) :
    (enterLog server entry world).app = world.app := by
  unfold enterLog
  split
  · rfl
  · rfl

theorem reject_ending (server : Server σ) (peer : SocketAddress) (fault : Fault) (started : Nat)
    (out : Outgoing) (world : World σ) :
    (reject server peer fault started out world).ending =
      .untouched world (.done (Response.ofFault? fault)) := by
  unfold reject
  simp only
  cases Response.ofFault? fault with
  | none => rfl
  | some response =>
      simp only [Served.ending, Ending.untouched, enterLog_app, World.report]

theorem finish_ending (server : Server σ) (answer : Answer σ) (started : Nat) (out : Outgoing) :
    (finish server answer started out).ending = answer.ending := by
  unfold finish Answer.ending
  cases answer.outcome with
  | panicked panic => rfl
  | done response =>
      cases response with
      | none => rfl
      | some response =>
          simp only [conclude, Served.ending, enterLog_app, World.report]

theorem discardUnclaimed_ending (answer : Answer σ) :
    (discardUnclaimed answer).ending = answer.ending := by
  unfold discardUnclaimed
  cases houtcome : answer.outcome with
  | panicked panic => rfl
  | done response =>
      simp only
      split
      · rfl
      · unfold discardUpload Answer.ending
        cases answer.request.upload with
        | none => simp only [houtcome]
        | some upload =>
            simp only
            cases answer.world.storage.remove upload.path with
            | ok storage => simp only [houtcome, World.report]
            | error reason => simp only [houtcome, World.report]

/-! # The body -/

variable {server : Server σ} {bytes : Bytes} {length : Nat} {request : Request}
  {reading : Reading Request}

structure BodySpec (server : Server σ) (bytes : Bytes) (length : Nat) (request : Request)
    (world : World σ) (receipt : Receipt σ) : Prop where
  app : receipt.world.app = world.app
  ok : forall whole, receipt.result = .done (.ok whole) ->
    length + request.contentLength ≤ bytes.length ∧
      request.Complete ((bytes.drop length).take request.contentLength) receipt.world.storage whole
  panicked : forall panic, receipt.result = .panicked panic ->
    panic = .capacityOverflow ∧ request.isKeptInMemory = false ∧
      Buffer.maxSize < min server.requestLimits.fileChunk request.contentLength

theorem receiveInMemory_spec (h : AtBody server bytes length reading)
    (hmemory : request.isKeptInMemory = true) (world : World σ) :
    BodySpec server bytes length request world
      (receiveInMemory server reading.reader reading.source request world) := by
  have hspec := h.holds.readBody request.contentLength server.connectionLimits.readTimeout
  refine ⟨rfl, ?_, ?_⟩
  · intro whole hwhole
    unfold receiveInMemory at hwhole
    simp only at hwhole
    cases hresult : (reading.reader.readBody reading.source request.contentLength
        server.connectionLimits.readTimeout).result with
    | error fault =>
        rw [hresult] at hwhole
        cases hwhole
    | ok body =>
        rw [hresult] at hwhole
        rcases hspec.ok body hresult with ⟨_, henough, hbody⟩
        rw [h.headLength] at henough hbody
        cases hwhole
        rw [hbody]
        exact ⟨henough, .inMemory hmemory⟩
  · intro panic hpanic
    cases hpanic

theorem receiveUpload_spec {contentType : String} (h : AtBody server bytes length reading)
    (hcontent : request.contentType? = some contentType)
    (hmemory : request.isKeptInMemory = false) (world : World σ) :
    BodySpec server bytes length request world
      (receiveUpload server reading.reader reading.source request contentType world) := by
  have hbytes := h.length_le
  unfold receiveUpload
  simp only [World.nextSerial]
  cases hstored : (Upload.store world.storage (world.serials 0) reading.reader.buffered contentType
      request.contentLength server.requestLimits server.connectionLimits.readTimeout
      reading.source).result with
  | panicked reason =>
      refine ⟨rfl, ?_, ?_⟩
      · intro whole hwhole
        cases hwhole
      · intro panic hpanic
        cases hpanic
        rcases Upload.store_panicked hstored with ⟨hsize, hreason⟩
        exact ⟨hreason, hmemory, hsize⟩
  | done result =>
      refine ⟨rfl, ?_, ?_⟩
      · intro whole hwhole
        cases result with
        | error fault => cases hwhole
        | ok upload =>
            rcases Upload.store_ok hstored with ⟨henough, hkept⟩
            rw [h.rest] at henough hkept
            rw [List.length_drop] at henough
            cases hwhole
            exact ⟨by omega, .inFile hcontent hmemory hkept⟩
      · intro panic hpanic
        cases hpanic

theorem receiveBody_spec (h : AtBody server bytes length reading) (world : World σ) :
    BodySpec server bytes length request world
      (receiveBody server reading.reader reading.source request world) := by
  have hclock : forall {receipt : Receipt σ}, BodySpec server bytes length request world receipt ->
      BodySpec server bytes length request world
        { receipt with world := { receipt.world with clock := receipt.source.now } } := by
    intro receipt hspec
    exact ⟨hspec.app, hspec.ok, hspec.panicked⟩
  unfold receiveBody
  apply hclock
  split
  · next hempty =>
    refine ⟨rfl, ?_, ?_⟩
    · intro whole hwhole
      cases hwhole
      rw [hempty]
      exact ⟨h.length_le, .bodiless hempty⟩
    · intro panic hpanic
      cases hpanic
  · split
    · next contentType hcontent =>
      cases hkept : staysInMemory contentType with
      | true =>
          have hmemory := (Request.isKeptInMemory_of_some hcontent).trans hkept
          exact receiveInMemory_spec h hmemory world
      | false =>
          have hmemory := (Request.isKeptInMemory_of_some hcontent).trans hkept
          exact receiveUpload_spec h hcontent hmemory world
    · next hcontent => exact receiveInMemory_spec h (Request.isKeptInMemory_of_none hcontent) world

/-! # The route -/

theorem dispatch_course {peer : SocketAddress} {source : Incoming} {whole : Request}
    {body : Bytes} {world before : World σ}
    (hreceived : Received server peer source request body) (hmethod : request.method ≠ .options)
    (hcomplete : request.Complete body before.storage whole) (happ : before.app = world.app) :
    Course server peer source world (dispatch server whole before).ending := by
  have hroute : server.routes.find? server.requestLimits.maxParams whole.method whole.path =
      server.routes.find? server.requestLimits.maxParams request.method request.path := by
    rw [hcomplete.head.left, hcomplete.head.right.left]
  unfold dispatch
  rw [hroute]
  cases hfind : server.routes.find? server.requestLimits.maxParams request.method
      request.path with
  | none =>
      have hstop : Stop.Occurs server peer source world .unrouted :=
        .unrouted hreceived hmethod (RouteTable.find?_eq_none_iff.mp hfind)
      have hcourse := Course.stopped hstop
      rw [Ending.untouched, ← happ] at hcourse
      exact hcourse
  | some found =>
      rcases found with ⟨handler, params⟩
      rcases RouteTable.exists_route_of_find? hfind with
        ⟨route, hmem, hsame, hhandler, hmatch⟩
      rw [← hhandler]
      exact .admitted hreceived hmethod hcomplete happ hmem hsame hmatch

theorem AtBody.received {peer : SocketAddress} {source : Incoming} {length : Nat}
    (h : AtBody server source.unread length (firstReading server peer source))
    (hresult : (firstReading server peer source).result = .ok request)
    (hdecode : decodeFirst server peer source.unread length = .ok request)
    (henough : length + request.contentLength ≤ source.unread.length) :
    Received server peer source request
      ((source.unread.drop length).take request.contentLength) := by
  have hroom := headLength?_le h.found
  rw [List.length_take] at hroom
  have hhead := headLength?_take h.found
  rw [List.take_take, Nat.min_eq_left (by omega)] at hhead
  have hlength : (source.unread.take length).length = length := by
    rw [List.length_take]
    omega
  refine ⟨hresult, ⟨source.unread.take length, ?_, ?_, ?_, hdecode⟩, ?_⟩
  · rw [← List.take_add]
    exact List.take_prefix _ _
  · rw [hlength]
    omega
  · rw [hlength]
    exact hhead
  · rw [List.length_take, List.length_drop]
    omega

theorem respond_course {peer : SocketAddress} {source : Incoming} (world : World σ)
    (h : (firstReading server peer source).result = .ok request) :
    Course server peer source world
      (respond server (firstReading server peer source).reader
        (firstReading server peer source).source request
        { world with clock := (firstReading server peer source).source.now }).ending := by
  rcases readRequest_ok server peer source h with ⟨length, hdecode, hbody⟩
  have hspec : BodySpec server source.unread length request
      { world with clock := (firstReading server peer source).source.now }
      (bodyReceipt server peer source request world) :=
    receiveBody_spec hbody _
  unfold respond
  split
  · next hoptions => exact .stopped (.preflight h hoptions)
  · next hmethod =>
    simp only
    cases hreceipt : (bodyReceipt server peer source request world).result with
    | panicked panic =>
        rcases hspec.panicked panic hreceipt with ⟨hpanic, hmemory, hsize⟩
        have hcourse : Course server peer source world
            (.untouched world (.panicked .capacityOverflow)) :=
          .unbuffered (Or.inr ⟨request, h, hmethod, hmemory, hsize⟩)
        rw [Ending.untouched, ← hspec.app, ← hpanic] at hcourse
        exact hcourse
    | done result =>
        cases result with
        | error fault =>
            have hcourse := Course.stopped (Stop.Occurs.incomplete h hmethod hreceipt)
            rw [Ending.untouched, ← hspec.app] at hcourse
            exact hcourse
        | ok whole =>
            rcases hspec.ok whole hreceipt with ⟨henough, hcomplete⟩
            have hreceived := hbody.received h hdecode henough
            rw [discardUnclaimed_ending]
            exact dispatch_course hreceived hmethod hcomplete hspec.app

theorem serveWith_course (server : Server σ) (peer : SocketAddress) (arrivals : List Arrival)
    (out : Outgoing) (world : World σ) :
    Course server peer ⟨arrivals, world.clock⟩ world
      (serveWith (.new server.requestLimits.bufferSize) server peer arrivals out world).ending := by
  unfold serveWith
  simp only
  cases hresult : (firstReading server peer ⟨arrivals, world.clock⟩).result with
  | error fault =>
      rw [reject_ending]
      exact .stopped (.rejected hresult)
  | ok request =>
      rw [finish_ending]
      exact respond_course world hresult

/-! # The response that is due -/

theorem Stop.fixed?_eq (stop : Stop) :
    stop.response?.map (fun response => (response.status.code, response.body)) =
      stop.fixed?.map fun (code, text) => (code, Utf8.encode text) := by
  have hfault : forall fault : Fault,
      (Response.ofFault? fault).map (fun response => (response.status.code, response.body)) =
        fault.fixed?.map fun (code, text) => (code, Utf8.encode text) := by
    intro fault
    cases fault with
    | wire error => rfl
    | _ => decide +kernel
  cases stop with
  | rejected fault => exact hfault fault
  | preflight => decide +kernel
  | incomplete fault => exact hfault fault
  | unrouted => exact hfault .notFound

theorem Stop.response?_eq_none_iff (stop : Stop) :
    stop.response? = none ↔
      exists fault : Fault, (stop = .rejected fault ∨ stop = .incomplete fault) ∧
        (fault = .connectionClosed ∨ exists error, fault = .wire error) := by
  have hfault : forall fault : Fault, Response.ofFault? fault = none ↔
      fault = .connectionClosed ∨ exists error, fault = .wire error := by
    intro fault
    cases fault <;> simp [Response.ofFault?, Fault.answer?]
  cases stop with
  | rejected fault => simp [Stop.response?, hfault]
  | preflight => simp [Stop.response?]
  | incomplete fault => simp [Stop.response?, hfault]
  | unrouted => simp [Stop.response?, hfault]

theorem Course.counted {peer : SocketAddress} {source : Incoming} {world : World σ}
    {ending : Ending σ} (h : Course server peer source world ending) {count : σ -> Nat}
    (hmiddlewares : forall m, m ∈ server.middlewares -> m.Keeps count)
    (hroutes : forall route, route ∈ server.routes -> route.handler.Raises count) :
    count ending.app = count world.app + if ending.handlerInvoked then 1 else 0 := by
  cases h with
  | unbuffered hbuffer => rfl
  | stopped hstop => rfl
  | admitted hreceived hmethod hcomplete happ hmem hroute hmatch =>
      rw [← happ]
      exact Pipeline.run_counted (hroutes _ hmem) hmiddlewares _ _

/--
Every connection comes to one of these ends: it has no buffer and breaks off; it stops before the
pipeline, with the response that is due then; or its request has been received as a whole, is no
preflight request, and goes through the pipeline to a route that matches.  The handler is called at
most once.
-/
theorem serve_course (server : Server σ) (peer : SocketAddress) (arrivals : List Arrival)
    (out : Outgoing) (world : World σ) :
    Course server peer ⟨arrivals, world.clock⟩ world
        (serve server peer arrivals out world).ending ∧
      (forall stop : Stop,
        (stop.response?.map (fun response => (response.status.code, response.body)) =
          stop.fixed?.map fun (code, text) => (code, Utf8.encode text)) ∧
        (stop.response? = none ↔
          exists fault : Fault, (stop = .rejected fault ∨ stop = .incomplete fault) ∧
            (fault = .connectionClosed ∨ exists error, fault = .wire error))) ∧
      forall count : σ -> Nat, (forall m, m ∈ server.middlewares -> m.Keeps count) ->
        (forall route, route ∈ server.routes -> route.handler.Raises count) ->
        count (serve server peer arrivals out world).world.app =
          count world.app + if (serve server peer arrivals out world).handlerInvoked then 1 else 0
    := by
  have hcourse : Course server peer ⟨arrivals, world.clock⟩ world
      (serve server peer arrivals out world).ending := by
    by_cases hbuffer : server.requestLimits.bufferSize ≤ Buffer.maxSize
    · rw [serve_of_le hbuffer]
      exact serveWith_course server peer arrivals out world
    · rw [serve_of_lt (Nat.lt_of_not_le hbuffer)]
      exact .unbuffered (Or.inl (Nat.lt_of_not_le hbuffer))
  refine ⟨hcourse, ?_, ?_⟩
  · intro stop
    exact ⟨stop.fixed?_eq, stop.response?_eq_none_iff⟩
  · intro count hmiddlewares hroutes
    exact hcourse.counted hmiddlewares hroutes

def bareServer (bufferSize : Nat) : Server Unit where
  routes := []
  middlewares := []
  cors := none
  keepsLog := false
  limits := {}
  connectionLimits := {}
  requestLimits := { bufferSize }

def bareWorld : World Unit where
  clock := 0
  machineTime := fun clock => ⟨clock, clock⟩
  storage := .empty
  serials := UInt64.ofNat
  events := []
  log := .new 1
  app := ()

theorem serve_unanswered_without_buffer :
    (serve (bareServer 64) ⟨.v4 127 0 0 1, 50000, 0⟩
        (Arrival.script [Utf8.encode "GET /x HTTP/1.1\r\n\r\n"]) .unbounded bareWorld).response =
      Response.ofFault? .notFound ∧
    (serve (bareServer (Buffer.maxSize + 1)) ⟨.v4 127 0 0 1, 50000, 0⟩
        (Arrival.script [Utf8.encode "GET /x HTTP/1.1\r\n\r\n"]) .unbounded bareWorld).ending =
      .untouched bareWorld (.panicked .capacityOverflow) := by
  constructor
  · decide +kernel
  · rw [serve_of_lt (Nat.lt_succ_self _)]
    rfl

end Connection
end HttpEngine
