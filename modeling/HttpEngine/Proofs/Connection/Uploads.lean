import HttpEngine.Proofs.Connection.Admission
import HttpEngine.Proofs.Connection.Segmentation
import HttpEngine.Proofs.Pipeline.Plain
import HttpEngine.Proofs.Upload.Cleanup

/-!
# Whose an upload is

The file of an upload is made while the body of a request is received.  It passes to the handler as
soon as the handler is called, whatever the handler comes to.  As long as it is not called the file
belongs to the connection, which removes it before it answers.
-/

namespace HttpEngine
namespace Connection

variable {σ : Type}

/-! # Leaving uploads alone -/

def Holding (upload : Upload) (content : Bytes) : Condition σ :=
  fun request world =>
    request.upload = some upload ∧ world.storage.file? upload.path = some content

def InFile (upload : Upload) (content : Bytes) : Condition σ :=
  fun _ world => world.storage.file? upload.path = some content

/--
The upload of a request can be seen by middlewares and handlers and not be taken from it, and they
leave its file as it is.
-/
structure HandsOff (server : Server σ) : Prop where
  middlewares : forall m, m ∈ server.middlewares -> forall (upload : Upload) (content : Bytes),
    m.Maintains (Holding upload content)
  handlers : forall route, route ∈ server.routes -> forall (upload : Upload) (content : Bytes),
    route.handler.Leads (Holding upload content) (InFile upload content)

theorem Holding.ignoresReports (upload : Upload) (content : Bytes) :
    Condition.IgnoresReports (Holding (σ := σ) upload content) :=
  fun _ _ _ h => h

theorem InFile.ignoresReports (upload : Upload) (content : Bytes) :
    Condition.IgnoresReports (InFile (σ := σ) upload content) :=
  fun _ _ _ h => h

variable {server : Server σ} {request : Request} {world : World σ} {upload : Upload}
  {content : Bytes}

/-! # With and without the handler -/

def ReachesHandler (server : Server σ) (request : Request) (world : World σ) : Prop :=
  exists (handler : Handler σ) (params : List Pair) (y : Exchange σ),
    server.routes.find? server.requestLimits.maxParams request.method request.path =
      some (handler, params) ∧
    Pipeline.Passes server.middlewares ⟨{ request with params }, .new .ok, world⟩ y

/-- A request is answered without a handler: no route matches it, or a middleware ends the run. -/
inductive IsDeclined (server : Server σ) (request : Request) (world : World σ) : Prop where
  | unrouted :
      server.routes.find? server.requestLimits.maxParams request.method request.path = none ->
      IsDeclined server request world
  | declined {handler : Handler σ} {params : List Pair} :
      server.routes.find? server.requestLimits.maxParams request.method request.path =
        some (handler, params) ->
      Pipeline.Declines server.middlewares ⟨{ request with params }, .new .ok, world⟩ ->
      IsDeclined server request world

theorem ReachesHandler.handlerInvoked (h : ReachesHandler server request world) :
    (dispatch server request world).handlerInvoked = true := by
  rcases h with ⟨handler, params, y, hfind, hpasses⟩
  rw [dispatch, hfind]
  exact (hpasses.run_eq handler).left

theorem IsDeclined.handlerInvoked (h : IsDeclined server request world) :
    (dispatch server request world).handlerInvoked = false := by
  cases h with
  | unrouted hfind => rw [dispatch, hfind]
  | @declined handler params hfind hdeclines =>
      rw [dispatch, hfind]
      exact hdeclines.handlerInvoked handler

theorem reachesHandler_or_isDeclined {response : Option Response}
    (h : (dispatch server request world).outcome = .done response) :
    ReachesHandler server request world ∨ IsDeclined server request world := by
  cases hfind : server.routes.find? server.requestLimits.maxParams request.method
      request.path with
  | none => exact Or.inr (.unrouted hfind)
  | some found =>
      rcases found with ⟨handler, params⟩
      rw [dispatch, hfind] at h
      simp only at h
      cases houtcome : (Pipeline.run server.middlewares handler { request with params }
          world).outcome with
      | panicked panic =>
          rw [houtcome] at h
          cases h
      | done answer =>
          rcases Pipeline.passes_or_declines houtcome with ⟨y, hpasses⟩ | hdeclines
          · exact Or.inl ⟨handler, params, y, hfind, hpasses⟩
          · exact Or.inr (.declined hfind hdeclines)

theorem dispatch_handlerInvoked_iff {response : Option Response}
    (h : (dispatch server request world).outcome = .done response) :
    ((dispatch server request world).handlerInvoked = true ↔
        ReachesHandler server request world) ∧
      ((dispatch server request world).handlerInvoked = false ↔
        IsDeclined server request world) := by
  rcases reachesHandler_or_isDeclined h with hreaches | hdeclined
  · have hinvoked := hreaches.handlerInvoked
    refine ⟨iff_of_true hinvoked hreaches, iff_of_false (by simp [hinvoked]) ?_⟩
    intro hdeclined
    rw [hdeclined.handlerInvoked] at hinvoked
    cases hinvoked
  · have hinvoked := hdeclined.handlerInvoked
    refine ⟨iff_of_false (by simp [hinvoked]) ?_, iff_of_true hinvoked hdeclined⟩
    intro hreaches
    rw [hreaches.handlerInvoked] at hinvoked
    cases hinvoked

/-! # Until the answer -/

theorem dispatch_holding (hserver : HandsOff server) (h : Holding upload content request world) :
    let answer := dispatch server request world
    if answer.handlerInvoked then InFile upload content answer.request answer.world
    else Holding upload content answer.request answer.world := by
  unfold dispatch
  cases hfind : server.routes.find? server.requestLimits.maxParams request.method
      request.path with
  | none => exact h
  | some found =>
      rcases found with ⟨handler, params⟩
      rcases RouteTable.exists_route_of_find? hfind with ⟨route, hmem, _, hhandler, _⟩
      have hleads := hserver.handlers route hmem upload content
      have hmaintains : forall m, m ∈ server.middlewares -> m.Maintains (Holding upload content) :=
        fun m hm => hserver.middlewares m hm upload content
      have hrouted : Holding upload content { request with params } world := h
      rw [hhandler] at hleads
      exact Pipeline.run_meets hleads hmaintains (Holding.ignoresReports upload content)
        (InFile.ignoresReports upload content) hrouted

theorem discardUpload_of_holding (h : Holding upload content request world) :
    (discardUpload request world).1.upload = none ∧
      (discardUpload request world).2.storage.file? upload.path = none := by
  rw [discardUpload, h.left]
  simp only [Storage.remove_of_file? h.right]
  exact ⟨trivial, Storage.file?_eq_none_of_get? (Or.inl (Storage.get?_erase_self _ _))⟩

theorem discardUnclaimed_of_invoked {answer : Answer σ} (h : answer.handlerInvoked = true) :
    discardUnclaimed answer = answer := by
  unfold discardUnclaimed
  split
  · rfl
  · rw [if_pos h]

theorem discardUnclaimed_of_not_invoked {answer : Answer σ} {response : Option Response}
    (hdone : answer.outcome = .done response) (h : answer.handlerInvoked = false) :
    discardUnclaimed answer =
      { answer with
        request := (discardUpload answer.request answer.world).1
        world := (discardUpload answer.request answer.world).2 } := by
  rw [discardUnclaimed, hdone]
  simp only
  rw [h, if_neg (by decide)]

structure Released (server : Server σ) (request : Request) (world : World σ) (upload : Upload)
    (content : Bytes) (answer : Answer σ) : Prop where
  invoked : answer.handlerInvoked = true ↔ ReachesHandler server request world
  declined : answer.handlerInvoked = false ↔ IsDeclined server request world
  kept : answer.handlerInvoked = true -> answer.world.storage.file? upload.path = some content
  removed : answer.handlerInvoked = false ->
    answer.world.storage.file? upload.path = none ∧ answer.request.upload = none

theorem discardUnclaimed_released (hserver : HandsOff server)
    (h : Holding upload content request world) {response : Option Response}
    (hdone : (discardUnclaimed (dispatch server request world)).outcome = .done response) :
    Released server request world upload content
      (discardUnclaimed (dispatch server request world)) := by
  have hholding := dispatch_holding hserver h
  have hending := discardUnclaimed_ending (dispatch server request world)
  have houtcome := (congrArg Ending.outcome hending).symm.trans hdone
  have hflag : (discardUnclaimed (dispatch server request world)).handlerInvoked =
      (dispatch server request world).handlerInvoked :=
    congrArg Ending.handlerInvoked hending
  rcases dispatch_handlerInvoked_iff houtcome with ⟨hinvoked, hdeclined⟩
  rw [← hflag] at hinvoked hdeclined
  refine ⟨hinvoked, hdeclined, ?_, ?_⟩
  · intro hcalled
    rw [hflag] at hcalled
    rw [discardUnclaimed_of_invoked hcalled]
    simp only [hcalled, if_true] at hholding
    exact hholding
  · intro hnot
    rw [hflag] at hnot
    rw [discardUnclaimed_of_not_invoked houtcome hnot]
    simp only [hnot, Bool.false_eq_true, if_false] at hholding
    exact (discardUpload_of_holding hholding).symm

/-! # After the answer -/

theorem enterLog_storage (server : Server σ) (entry : LogEntry) (world : World σ) :
    (enterLog server entry world).storage = world.storage := by
  unfold enterLog
  split
  · rfl
  · rfl

theorem finish_eq (server : Server σ) (answer : Answer σ) (started : Nat) (out : Outgoing) :
    (finish server answer started out).handlerInvoked = answer.handlerInvoked ∧
      (finish server answer started out).request = some answer.request ∧
      (finish server answer started out).world.storage = answer.world.storage := by
  unfold finish
  split
  · exact ⟨rfl, rfl, rfl⟩
  · exact ⟨rfl, rfl, rfl⟩
  · refine ⟨rfl, rfl, ?_⟩
    simp only [conclude, enterLog_storage, World.report]

theorem outcome_of_finish {answer : Answer σ} {started : Nat} {out : Outgoing}
    (h : (finish server answer started out).panic = none) :
    exists response, answer.outcome = .done response := by
  unfold finish at h
  split at h
  · cases h
  · next hdone => exact ⟨none, hdone⟩
  · next response hdone => exact ⟨some response, hdone⟩

theorem serve_eq_finish {peer : SocketAddress} {arrivals : List Arrival} {start : World σ}
    {out : Outgoing}
    (hrequest : (firstReading server peer ⟨arrivals, start.clock⟩).result = .ok request)
    (hreturns : (serve server peer arrivals out start).panic = none) :
    serve server peer arrivals out start =
      finish server
        (respond server (firstReading server peer ⟨arrivals, start.clock⟩).reader
          (firstReading server peer ⟨arrivals, start.clock⟩).source request
          { start with clock := (firstReading server peer ⟨arrivals, start.clock⟩).source.now })
        start.uptime out := by
  by_cases hbuffer : server.requestLimits.bufferSize ≤ Buffer.maxSize
  · rw [serve_of_le hbuffer, serveWith]
    simp only [hrequest]
  · rw [serve_of_lt (Nat.lt_of_not_le hbuffer)] at hreturns
    cases hreturns

/-! # The file of a body -/

/-- A request that declares a body which is not kept in memory. -/
structure Streams (request : Request) (contentType : String) : Prop where
  length : request.contentLength ≠ 0
  declared : request.contentType? = some contentType
  stays : staysInMemory contentType = false

variable {peer : SocketAddress} {source : Incoming} {start : World σ} {contentType : String}

theorem Streams.receipt_eq (h : Streams request contentType) (server : Server σ)
    (peer : SocketAddress) (source : Incoming) (start : World σ) :
    let reading := firstReading server peer source
    let stored := Upload.store start.storage (start.serials 0) reading.reader.buffered contentType
      request.contentLength server.requestLimits server.connectionLimits.readTimeout
      reading.source
    let receipt := bodyReceipt server peer source request start
    receipt.result = (stored.result.map fun received =>
      received.map fun upload => { request with upload := some upload }) ∧
    receipt.world.storage = stored.storage := by
  unfold bodyReceipt receiveBody
  rw [if_neg h.length, h.declared]
  simp only [h.stays]
  exact ⟨rfl, rfl⟩

theorem Streams.storage_of_error (h : Streams request contentType) {fault : Fault}
    (hresult : (bodyReceipt server peer source request start).result = .done (.error fault)) :
    let path := Upload.place server.requestLimits (start.serials 0) contentType
    let storage := (bodyReceipt server peer source request start).world.storage
    storage.file? path = none ∧
      forall other, other ≠ path -> storage.get? other = start.storage.get? other := by
  rcases h.receipt_eq server peer source start with ⟨hreceipt, hstorage⟩
  have hafter := Upload.store_aftermath start.storage (start.serials 0)
    (firstReading server peer source).reader.buffered contentType request.contentLength
    server.requestLimits server.connectionLimits.readTimeout
    (firstReading server peer source).source
  rw [hresult] at hreceipt
  simp only at hafter hreceipt ⊢
  rw [hstorage]
  generalize Upload.store start.storage (start.serials 0) _ _ _ _ _ _ = stored at *
  rcases hafter with ⟨helsewhere, haftermath, _⟩
  cases hstored : stored.result with
  | panicked panic =>
      rw [hstored] at hreceipt
      cases hreceipt
  | done result =>
      cases result with
      | ok upload =>
          rw [hstored] at hreceipt
          cases hreceipt
      | error reason =>
          rw [hstored] at haftermath
          exact ⟨haftermath.file?_eq_none, helsewhere⟩

theorem Streams.upload_of_ok (h : Streams request contentType)
    (hrequest : (firstReading server peer source).result = .ok request) {whole : Request}
    (hresult : (bodyReceipt server peer source request start).result = .done (.ok whole)) :
    exists upload body, Received server peer source request body ∧
      whole = { request with upload := some upload } ∧
      upload.path = Upload.place server.requestLimits (start.serials 0) contentType ∧
      Upload.Kept (bodyReceipt server peer source request start).world.storage contentType body
        upload := by
  rcases readRequest_ok server peer source hrequest with ⟨length, hdecode, hbody⟩
  rcases h.receipt_eq server peer source start with ⟨hreceipt, hstorage⟩
  have hafter := Upload.store_aftermath start.storage (start.serials 0)
    (firstReading server peer source).reader.buffered contentType request.contentLength
    server.requestLimits server.connectionLimits.readTimeout
    (firstReading server peer source).source
  have hspec : BodySpec server source.unread length request _
      (bodyReceipt server peer source request start) :=
    receiveBody_spec hbody _
  have henough := (hspec.ok whole hresult).left
  rw [hresult] at hreceipt
  simp only at hafter hreceipt
  rw [hstorage]
  cases hstored : (Upload.store start.storage (start.serials 0)
      (firstReading server peer source).reader.buffered contentType request.contentLength
      server.requestLimits server.connectionLimits.readTimeout
      (firstReading server peer source).source).result with
  | panicked panic =>
      rw [hstored] at hreceipt
      cases hreceipt
  | done result =>
      cases result with
      | error reason =>
          rw [hstored] at hreceipt
          cases hreceipt
      | ok upload =>
          rcases hafter with ⟨_, haftermath, _⟩
          rw [hstored] at hreceipt haftermath
          have hkept := (Upload.store_ok hstored).right
          rw [hbody.rest] at hkept
          cases hreceipt
          cases haftermath with
          | kept hfree hpath hfile hsize =>
              exact ⟨upload, _, hbody.received hrequest hdecode henough, rfl, hpath, hkept⟩

theorem Streams.released_of_ok (h : Streams request contentType) (hserver : HandsOff server)
    (hrequest : (firstReading server peer source).result = .ok request) {whole : Request}
    (hresult : (bodyReceipt server peer source request start).result = .done (.ok whole))
    {response : Option Response}
    (hdone : (discardUnclaimed (dispatch server whole
      (bodyReceipt server peer source request start).world)).outcome = .done response) :
    exists upload body, Received server peer source request body ∧
      whole = { request with upload := some upload } ∧
      upload.path = Upload.place server.requestLimits (start.serials 0) contentType ∧
      (bodyReceipt server peer source request start).world.storage.file? upload.path =
        some (Upload.kept contentType body).1 ∧
      Released server whole (bodyReceipt server peer source request start).world upload
        (Upload.kept contentType body).1
        (discardUnclaimed (dispatch server whole
          (bodyReceipt server peer source request start).world)) := by
  rcases h.upload_of_ok hrequest hresult with ⟨upload, body, hreceived, hwhole, hpath, hkept⟩
  have hholding : Holding upload (Upload.kept contentType body).1 whole
      (bodyReceipt server peer source request start).world := by
    rw [hwhole]
    exact ⟨rfl, hkept.content⟩
  exact ⟨upload, body, hreceived, hwhole, hpath, hkept.content,
    discardUnclaimed_released hserver hholding hdone⟩

/-! # The end of a connection -/

/-- What has become of the file of a streamed body when its connection has been served. -/
inductive FileEnd (server : Server σ) (peer : SocketAddress) (arrivals : List Arrival)
    (start : World σ) (request : Request) (contentType : String) (served : Served σ) : Prop where
  | preflight : request.method = .options -> served.handlerInvoked = false ->
      served.request = some request -> served.world.storage = start.storage ->
      FileEnd server peer arrivals start request contentType served
  | incomplete {fault : Fault} : request.method ≠ .options ->
      (bodyReceipt server peer ⟨arrivals, start.clock⟩ request start).result =
        .done (.error fault) ->
      served.handlerInvoked = false -> served.request = some request ->
      (let path := Upload.place server.requestLimits (start.serials 0) contentType
       served.world.storage.file? path = none ∧
         forall other, other ≠ path ->
          served.world.storage.get? other = start.storage.get? other) ->
      FileEnd server peer arrivals start request contentType served
  | complete {upload : Upload} {body : Bytes} : request.method ≠ .options ->
      Received server peer ⟨arrivals, start.clock⟩ request body ->
      upload.path = Upload.place server.requestLimits (start.serials 0) contentType ->
      (let receipt := bodyReceipt server peer ⟨arrivals, start.clock⟩ request start
       let whole := { request with upload := some upload }
       let content := (Upload.kept contentType body).1
       receipt.result = .done (.ok whole) ∧
       receipt.world.storage.file? upload.path = some content ∧
       (served.handlerInvoked = true ↔ ReachesHandler server whole receipt.world) ∧
       (served.handlerInvoked = false ↔ IsDeclined server whole receipt.world) ∧
       (served.world.storage.file? upload.path = some content ↔
         served.handlerInvoked = true) ∧
       (served.handlerInvoked = false ->
         served.world.storage.file? upload.path = none ∧
         exists answered, served.request = some answered ∧ answered.upload = none)) ->
      FileEnd server peer arrivals start request contentType served

theorem Released.file?_eq_iff {answer : Answer σ}
    (h : Released server request world upload content answer) :
    answer.world.storage.file? upload.path = some content ↔ answer.handlerInvoked = true := by
  constructor
  · intro hfile
    cases hinvoked : answer.handlerInvoked with
    | true => rfl
    | false =>
        rw [(h.removed hinvoked).left] at hfile
        cases hfile
  · exact h.kept

/--
The file of a streamed body is there with what has been received, once the connection has been
served, if and only if the handler was called, which may have panicked behind a recovery.  Where no
route matches, where a middleware aborts and where one panics behind a recovery the file is gone and
the request holds no upload.  A body that was not received as a whole leaves no file, and neither
does a preflight request.
-/
theorem serve_fileEnd (hserver : HandsOff server) {arrivals : List Arrival} {out : Outgoing}
    (hrequest : (firstReading server peer ⟨arrivals, start.clock⟩).result = .ok request)
    (hstreams : Streams request contentType)
    (hreturns : (serve server peer arrivals out start).panic = none) :
    FileEnd server peer arrivals start request contentType
      (serve server peer arrivals out start) := by
  have hserve := serve_eq_finish hrequest hreturns
  rw [hserve] at hreturns ⊢
  rcases outcome_of_finish hreturns with ⟨response, hdone⟩
  generalize hanswer : respond server _ _ request _ = answer at *
  rcases finish_eq server answer start.uptime out with ⟨hinvoked, hanswered, hstorage⟩
  generalize finish server answer start.uptime out = served at *
  by_cases hmethod : request.method = .options
  · rw [respond, if_pos hmethod] at hanswer
    rw [← hanswer] at hinvoked hanswered hstorage
    exact .preflight hmethod hinvoked hanswered hstorage
  · rw [respond, if_neg hmethod] at hanswer
    simp only at hanswer
    cases hresult : (bodyReceipt server peer ⟨arrivals, start.clock⟩ request start).result with
    | panicked panic =>
        rw [hresult] at hanswer
        rw [← hanswer] at hdone
        cases hdone
    | done result =>
        cases result with
        | error fault =>
            rw [hresult] at hanswer
            rw [← hanswer] at hinvoked hanswered hstorage
            refine .incomplete hmethod hresult hinvoked hanswered ?_
            rw [hstorage]
            exact hstreams.storage_of_error hresult
        | ok whole =>
            rw [hresult] at hanswer
            rw [← hanswer] at hdone
            rcases hstreams.released_of_ok hserver hrequest hresult hdone with
              ⟨upload, body, hreceived, hwhole, hpath, hfile, hreleased⟩
            simp only at hanswer
            rw [hanswer, hwhole] at hreleased
            rw [hwhole] at hresult
            refine .complete hmethod hreceived hpath ⟨hresult, hfile, ?_⟩
            rw [hinvoked, hanswered, hstorage]
            refine ⟨hreleased.invoked, hreleased.declined, hreleased.file?_eq_iff, ?_⟩
            intro hnot
            exact ⟨(hreleased.removed hnot).left, _, rfl, (hreleased.removed hnot).right⟩

/-! # An upload that a middleware turns away, and one that comes to its handler -/

def refuse : Middleware Nat :=
  .step fun x => (.done .abort, x)

def refusingServer : Server Nat :=
  { uploadServer with middlewares := [.recovery, refuse] }

theorem describeUpload_leads (upload : Upload) (content : Bytes) :
    Handler.Leads (Holding upload content) (InFile upload content) describeUpload :=
  fun _ _ h => h.right

theorem uploadServer_handsOff : HandsOff uploadServer := by
  refine ⟨?_, ?_⟩
  · intro m hm upload content
    rw [List.mem_singleton.mp hm]
    trivial
  · intro route hroute upload content
    rw [List.mem_singleton.mp hroute]
    exact describeUpload_leads upload content

theorem refusingServer_handsOff : HandsOff refusingServer := by
  refine ⟨?_, uploadServer_handsOff.handlers⟩
  intro m hm upload content
  simp only [refusingServer, List.mem_cons, List.not_mem_nil, or_false] at hm
  rcases hm with rfl | rfl
  · trivial
  · intro x hx
    exact hx

def smallRequest : Request :=
  { Pipeline.bareRequest with
    method := .post
    path := "/u"
    headers := [⟨"Content-Type", "a"⟩, ⟨"Content-Length", "1"⟩]
    contentLength := 1 }

theorem smallRequest_streams : Streams smallRequest "a" :=
  ⟨by decide, by decide, by decide⟩

theorem serve_fileEnd_refused :
    let arrivals := Arrival.script [smallUpload]
    let path := Upload.place uploadServer.requestLimits (uploadWorld.serials 0) "a"
    let refused := serve refusingServer localPeer arrivals .unbounded uploadWorld
    let served := serve uploadServer localPeer arrivals .unbounded uploadWorld
    (HandsOff refusingServer ∧
      (firstReading refusingServer localPeer ⟨arrivals, 0⟩).result = .ok smallRequest ∧
      Streams smallRequest "a" ∧ refused.panic = none ∧
      FileEnd refusingServer localPeer arrivals uploadWorld smallRequest "a" refused ∧
      refused.handlerInvoked = false ∧ refused.world.storage.file? path = none) ∧
    (HandsOff uploadServer ∧
      (firstReading uploadServer localPeer ⟨arrivals, 0⟩).result = .ok smallRequest ∧
      served.panic = none ∧
      FileEnd uploadServer localPeer arrivals uploadWorld smallRequest "a" served ∧
      served.handlerInvoked = true ∧
      served.world.storage.file? path = some (Utf8.encode "x")) := by
  intro arrivals path refused served
  have hrefused : (firstReading refusingServer localPeer ⟨arrivals, 0⟩).result =
        .ok smallRequest ∧ refused.panic = none ∧
      refused.handlerInvoked = false ∧ refused.world.storage.file? path = none := by
    decide +kernel
  have hserved : (firstReading uploadServer localPeer ⟨arrivals, 0⟩).result =
        .ok smallRequest ∧ served.panic = none ∧
      served.handlerInvoked = true ∧
      served.world.storage.file? path = some (Utf8.encode "x") := by
    decide +kernel
  exact ⟨⟨refusingServer_handsOff, hrefused.left, smallRequest_streams, hrefused.right.left,
      serve_fileEnd refusingServer_handsOff hrefused.left smallRequest_streams
        hrefused.right.left, hrefused.right.right⟩,
    uploadServer_handsOff, hserved.left, hserved.right.left,
    serve_fileEnd uploadServer_handsOff hserved.left smallRequest_streams hserved.right.left,
    hserved.right.right⟩

end Connection
end HttpEngine
