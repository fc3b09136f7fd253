import HttpEngine.Request.Decode
import HttpEngine.Response.Head
import HttpEngine.Server.Build
import HttpEngine.Stream.Outgoing
import HttpEngine.Stream.Reader
import HttpEngine.Upload.Receive

/-!
# Serving a connection

A connection carries one request.  Its head is received and read; a preflight request is answered
at once; otherwise the body is received, the route is found, and the pipeline runs.  Whatever the
answer is, it is written, reported and entered into the access log, and the connection is closed.
A request that is lost, or a panic that nothing recovers, leaves no answer.  A panic also comes
where there is no buffer for the head or for the pieces of an upload; it breaks the connection off
before it is closed.
-/

namespace HttpEngine
namespace Connection

variable {σ : Type}

/-! # Receiving the head -/

def readRequest (server : Server σ) (peer : SocketAddress) (reader : Reader)
    (source : Incoming) : Reading Request :=
  let reading := reader.readHead source server.connectionLimits.idleTimeout
    server.connectionLimits.readTimeout
  { result := reading.result.bind fun head =>
      Request.decode head peer server.requestLimits server.limits.trustForwardedFor
    reader := reading.reader
    source := reading.source }

/-! # Receiving the body -/

structure Receipt (σ : Type) where
  result : Outcome (Except Fault Request)
  source : Incoming
  world : World σ

def staysInMemory (contentType : String) : Bool :=
  MediaType.contains contentType MediaType.json

def receiveUpload (server : Server σ) (reader : Reader) (source : Incoming) (request : Request)
    (contentType : String) (world : World σ) : Receipt σ :=
  let (serial, world) := world.nextSerial
  let stored := Upload.store world.storage serial reader.buffered contentType
    request.contentLength server.requestLimits server.connectionLimits.readTimeout source
  { result := stored.result.map fun received =>
      received.map fun upload => { request with upload := some upload }
    source := stored.source
    world := { world with storage := stored.storage }.report stored.events }

def receiveInMemory (server : Server σ) (reader : Reader) (source : Incoming)
    (request : Request) (world : World σ) : Receipt σ :=
  let reading := reader.readBody source request.contentLength server.connectionLimits.readTimeout
  { result := .done (reading.result.map fun body => { request with body := some body })
    source := reading.source
    world }

def receiveBody (server : Server σ) (reader : Reader) (source : Incoming) (request : Request)
    (world : World σ) : Receipt σ :=
  let receipt :=
    if request.contentLength = 0 then { result := .done (.ok request), source, world }
    else
      match request.contentType? with
      | some contentType =>
          if staysInMemory contentType then receiveInMemory server reader source request world
          else receiveUpload server reader source request contentType world
      | none => receiveInMemory server reader source request world
  { receipt with world := { receipt.world with clock := receipt.source.now } }

/-! # Answering a request -/

structure Answer (σ : Type) where
  outcome : Outcome (Option Response)
  calls : List Nat
  handlerInvoked : Bool
  request : Request
  world : World σ

def dispatch (server : Server σ) (request : Request) (world : World σ) : Answer σ :=
  match server.routes.find? server.requestLimits.maxParams request.method request.path with
  | none =>
      { outcome := .done (Response.ofFault? .notFound), calls := [], handlerInvoked := false,
        request, world }
  | some (handler, params) =>
      let run := Pipeline.run server.middlewares handler { request with params } world
      { outcome := run.outcome.map some
        calls := run.calls
        handlerInvoked := run.handlerInvoked
        request := run.request
        world := run.world }

def discardUpload (request : Request) (world : World σ) : Request × World σ :=
  match request.upload with
  | none => (request, world)
  | some upload =>
      let request := { request with upload := none }
      match world.storage.remove upload.path with
      | .ok storage => (request, { world with storage }.report [.uploadRemoved])
      | .error _ => (request, world.report [.uploadNotRemoved])

def discardUnclaimed (answer : Answer σ) : Answer σ :=
  match answer.outcome with
  | .panicked _ => answer
  | .done _ =>
      if answer.handlerInvoked then answer
      else
        let (request, world) := discardUpload answer.request answer.world
        { answer with request, world }

def respond (server : Server σ) (reader : Reader) (source : Incoming) (request : Request)
    (world : World σ) : Answer σ :=
  if request.method = .options then
    { outcome := .done (some .noContent), calls := [], handlerInvoked := false, request, world }
  else
    let receipt := receiveBody server reader source request world
    match receipt.result with
    | .panicked panic =>
        { outcome := .panicked panic, calls := [], handlerInvoked := false, request,
          world := receipt.world }
    | .done (.error fault) =>
        { outcome := .done (Response.ofFault? fault), calls := [], handlerInvoked := false,
          request, world := receipt.world.report [.bodyFailed request.path fault] }
    | .done (.ok request) => discardUnclaimed (dispatch server request receipt.world)

/-! # Writing -/

structure Delivery where
  error : Option WireError
  out : Outgoing
  now : Nat

def sendWithin (timeout : Nat) (out : Outgoing) (data : Bytes) (now : Nat) : Delivery :=
  match out.send data with
  | (.all, out) => ⟨none, out, now⟩
  | (.failure error, out) => ⟨some error, out, now⟩
  | (.stalled, out) => ⟨some .timedOut, out, now + timeout⟩

def deliver (response : Response) (policy : Option (Cors × String)) (headOnly : Bool)
    (timeout : Nat) (out : Outgoing) (now : Nat) : Delivery :=
  let head := sendWithin timeout out (response.encodeHead policy) now
  match head.error with
  | some _ => head
  | none =>
      if headOnly || response.body.isEmpty then head
      else sendWithin timeout head.out response.body head.now

/-! # The access log -/

def rejectedEntry (peer : SocketAddress) (response : Response) (elapsed : Nat) : LogEntry :=
  { clientIp := peer.ip.text, method := "-", path := "-", protocol := "-"
    status := response.status.code, bodySize := response.body.length, userAgent := "-"
    elapsed := elapsed * 1000 }

def servedEntry (request : Request) (response : Response) (elapsed : Nat) : LogEntry :=
  { clientIp := request.clientIp, method := request.method.token, path := request.path
    protocol := request.version.token, status := response.status.code
    bodySize := response.body.length, userAgent := request.userAgent?.getD "-"
    elapsed := elapsed * 1000 }

def enterLog (server : Server σ) (entry : LogEntry) (world : World σ) : World σ :=
  if server.keepsLog then
    let (log, events) := world.log.record entry world.unixTime
    { world with log }.report events
  else world

/-! # The whole connection -/

structure Served (σ : Type) where
  response : Option Response
  request : Option Request
  panic : Option Panic
  calls : List Nat
  handlerInvoked : Bool
  out : Outgoing
  world : World σ

def closeSilently (answer : Answer σ) (out : Outgoing) (event : Event) : Served σ :=
  { response := none, request := some answer.request, panic := none, calls := answer.calls,
    handlerInvoked := answer.handlerInvoked, out := out.close
    world := answer.world.report [event] }

def breakOff (answer : Answer σ) (panic : Panic) (out : Outgoing) : Served σ :=
  { response := none, request := some answer.request, panic := some panic, calls := answer.calls,
    handlerInvoked := answer.handlerInvoked, out, world := answer.world }

def reject (server : Server σ) (peer : SocketAddress) (fault : Fault) (started : Nat)
    (out : Outgoing) (world : World σ) : Served σ :=
  let world := world.report [.headRejected fault]
  match Response.ofFault? fault with
  | none =>
      { response := none, request := none, panic := none, calls := [], handlerInvoked := false,
        out := out.close, world }
  | some response =>
      let sent := deliver response none false server.connectionLimits.writeTimeout out world.clock
      let world := { world with clock := sent.now }
      { response := some response, request := none, panic := none, calls := [],
        handlerInvoked := false, out := sent.out.close,
        world := enterLog server (rejectedEntry peer response (world.uptime - started)) world }

def conclude (server : Server σ) (answer : Answer σ) (response : Response) (started : Nat)
    (out : Outgoing) : Served σ :=
  let request := answer.request
  let policy := Cors.applied? server.cors (request.header? "origin")
  let sent := deliver response policy (request.method = .head)
    server.connectionLimits.writeTimeout out answer.world.clock
  let world := { answer.world with clock := sent.now }.report
    ((sent.error.map Event.writeFailed).toList ++
      [Event.served request.clientIp request.method request.path response.status])
  { response := some response, request := some request, panic := none, calls := answer.calls,
    handlerInvoked := answer.handlerInvoked, out := sent.out.close,
    world := enterLog server (servedEntry request response (world.uptime - started)) world }

def finish (server : Server σ) (answer : Answer σ) (started : Nat) (out : Outgoing) : Served σ :=
  match answer.outcome with
  | .panicked panic => breakOff answer panic out
  | .done none => closeSilently answer out (.connectionLost answer.request.path)
  | .done (some response) => conclude server answer response started out

def serveWith (reader : Reader) (server : Server σ) (peer : SocketAddress)
    (arrivals : List Arrival) (out : Outgoing) (world : World σ) : Served σ :=
  let started := world.uptime
  let reading := readRequest server peer reader ⟨arrivals, world.clock⟩
  let world := { world with clock := reading.source.now }
  match reading.result with
  | .error fault => reject server peer fault started out world
  | .ok request =>
      finish server (respond server reading.reader reading.source request world) started out

def serve (server : Server σ) (peer : SocketAddress) (arrivals : List Arrival) (out : Outgoing)
    (world : World σ) : Served σ :=
  match Reader.allocate server.requestLimits.bufferSize with
  | .done reader => serveWith reader server peer arrivals out world
  | .panicked panic =>
      { response := none, request := none, panic := some panic, calls := [],
        handlerInvoked := false, out, world }

end Connection
end HttpEngine
