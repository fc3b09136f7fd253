import HttpEngine.Proofs.Connection.Panics
import HttpEngine.Proofs.Connection.Uploads
import HttpEngine.Proofs.Multipart.Forms

/-!
# Forms on their way to a handler

A client that does not wait sends a head and a form behind it.  However it cuts them, the handler of
the route gets the file of the form as an upload, byte by byte as the client has written it, with
its size and its name.  For this a buffer for the head and one for the pieces of the body must be
had, and the upload's own file must be new.
-/

namespace HttpEngine

variable {σ : Type}

theorem Pipeline.Passes.maintained {p : Condition σ} {middlewares : List (Middleware σ)}
    {x y : Exchange σ} (h : Passes middlewares x y)
    (hmiddlewares : forall m, m ∈ middlewares -> m.Maintains p) (hx : p x.request x.world) :
    p y.request y.world := by
  induction h with
  | nil => exact hx
  | @cons m rest x y z hcall _ ih =>
      have hrest : forall m, m ∈ rest -> m.Maintains p :=
        fun m hm => hmiddlewares m (List.mem_cons_of_mem _ hm)
      have hm := hmiddlewares m List.mem_cons_self
      apply ih hrest
      cases m with
      | recovery =>
          cases hcall
          exact hx
      | step run =>
          have hnext := hm x hx
          rw [show run x = (.done .proceed, y) from hcall] at hnext
          exact hnext

namespace Connection

variable {server : Server σ} {peer : SocketAddress} {request : Request} {contentType : String}
  {start : World σ} {pieces : List Bytes}

/-! # What a client sends -/

/-- Some pieces hold a head, which a server reads as a request, and some bytes behind it. -/
structure Sends (server : Server σ) (peer : SocketAddress) (pieces : List Bytes)
    (request : Request) (head rest : Bytes) : Prop where
  split : pieces.flatten = head ++ rest
  ends : headLength? head = some head.length
  room : head.length ≤ server.requestLimits.bufferSize
  decode : Request.decode head peer server.requestLimits server.limits.trustForwardedFor =
    .ok request

structure HasRoom (server : Server σ) (request : Request) (contentType : String)
    (start : World σ) : Prop where
  chunk : min server.requestLimits.fileChunk request.contentLength ≤ Buffer.maxSize
  directory : start.storage.get? server.requestLimits.uploadDirectory = some .directory
  free : start.storage.get?
    (Upload.place server.requestLimits (start.serials 0) contentType) = none

variable {head rest : Bytes}

theorem Sends.found (h : Sends server peer pieces request head rest) :
    headLength? (pieces.flatten.take server.requestLimits.bufferSize) = some head.length := by
  have hshort : headLength? (pieces.flatten.take head.length) = some head.length := by
    rw [h.split, List.take_left]
    exact h.ends
  exact headLength?_take_of_le hshort h.room

theorem Sends.result (h : Sends server peer pieces request head rest) (now : Nat) :
    (firstReading server peer ⟨Arrival.script pieces, now⟩).result = .ok request := by
  have houtcome := readRequest_script server peer pieces now
  rw [headOutcome, h.found] at houtcome
  simp only [decodeFirst, h.split, List.take_left, h.decode] at houtcome
  exact houtcome

theorem Sends.body_eq (h : Sends server peer pieces request head rest) {now : Nat} {body : Bytes}
    (hreceived : Received server peer ⟨Arrival.script pieces, now⟩ request body) :
    body = rest.take request.contentLength := by
  rcases hreceived.sent with ⟨other, hprefix, _, hother, _⟩
  rw [Incoming.unread_script, h.split] at hprefix
  have hfirst := headLength?_append h.ends rest
  have hlength : other.length = head.length := by
    rcases hprefix with ⟨more, hmore⟩
    rw [List.append_assoc] at hmore
    have hsecond := headLength?_append hother (body ++ more)
    rw [hmore, hfirst] at hsecond
    exact (Option.some.inj hsecond).symm
  rcases hprefix with ⟨more, hmore⟩
  rw [List.append_assoc] at hmore
  rw [← (List.append_inj hmore hlength).right, ← hreceived.length, List.take_left]

theorem Streams.exists_ok (h : Streams request contentType)
    (hroom : HasRoom server request contentType start)
    (hsends : Sends server peer pieces request head rest)
    (henough : request.contentLength ≤ rest.length) :
    exists whole,
      (bodyReceipt server peer ⟨Arrival.script pieces, start.clock⟩ request start).result =
        .done (.ok whole) := by
  have hp : Incoming.Prompt ⟨Arrival.script pieces, start.clock⟩ := ⟨pieces, rfl⟩
  have hprompt := (readRequest_prompt server peer hp).right.left
  rcases readRequest_ok server peer _ (hsends.result start.clock) with ⟨length, _, hbody⟩
  have hlength : length = head.length := by
    have hfound := hbody.found
    rw [Incoming.unread_script, hsends.found] at hfound
    exact (Option.some.inj hfound).symm
  have hrest := hbody.rest
  rw [Incoming.unread_script, hsends.split, hlength, List.drop_left] at hrest
  rcases Upload.exists_store_ok hroom.directory hroom.free hroom.chunk hprompt
    (hrest ▸ henough) server.connectionLimits.readTimeout with ⟨upload, hupload⟩
  rw [(h.receipt_eq server peer _ start).left, hupload]
  exact ⟨_, rfl⟩

/-! # What the handler gets -/

/--
Some pieces hold a head, which a server reads as a request for a form, and the form behind it.  The
content type of the request is the form's and is not taken for JSON, its length is the form's, and
it is no preflight request.
-/
structure SendsForm (server : Server σ) (peer : SocketAddress) (pieces : List Bytes)
    (request : Request) (form : Multipart.Form) (quoted : Bool) : Prop where
  wellFormed : form.WellFormed
  sends : exists head more, Sends server peer pieces request head (form.render ++ more)
  method : request.method ≠ .options
  contentType : request.contentType? = some (form.contentType quoted)
  stays : staysInMemory (form.contentType quoted) = false
  length : request.contentLength = form.render.length

theorem SendsForm.streams {form : Multipart.Form} {quoted : Bool}
    (h : SendsForm server peer pieces request form quoted) :
    Streams request (form.contentType quoted) :=
  ⟨h.length ▸ form.render_length_ne_zero, h.contentType, h.stays⟩

structure HoldsFile (upload : Upload) (form : Multipart.Form) (storage : Storage) : Prop where
  size : upload.size = form.payload.length
  filename : upload.filename = some form.filename
  content : storage.file? upload.path = some form.payload

theorem SendsForm.exists_upload {form : Multipart.Form} {quoted : Bool}
    (h : SendsForm server peer pieces request form quoted)
    (hroom : HasRoom server request (form.contentType quoted) start) :
    let receipt := bodyReceipt server peer ⟨Arrival.script pieces, start.clock⟩ request start
    exists upload, receipt.result = .done (.ok { request with upload := some upload }) ∧
      HoldsFile upload form receipt.world.storage := by
  rcases h.sends with ⟨head, more, hsends⟩
  have henough : request.contentLength ≤ (form.render ++ more).length := by
    rw [h.length, List.length_append]
    exact Nat.le_add_right _ _
  rcases h.streams.exists_ok hroom hsends henough with ⟨whole, hwhole⟩
  rcases h.streams.upload_of_ok (hsends.result start.clock) hwhole with
    ⟨upload, body, hreceived, hsame, _, hkept⟩
  have hbody : body = form.render := by
    rw [hsends.body_eq hreceived, h.length, List.take_left]
  have hextract : Upload.kept (form.contentType quoted) body =
      (form.payload, some form.filename) := by
    rw [Upload.kept, h.wellFormed.boundary?, hbody]
    exact h.wellFormed.extract_render
  rw [hsame] at hwhole
  have hsize := hkept.size
  have hname := hkept.filename
  have hfile := hkept.content
  rw [hextract] at hsize hname hfile
  exact ⟨upload, hwhole, hsize, hname, hfile⟩

/--
A form that a client sends behind a head, in any pieces, comes to the handler of its route as an
upload with its file, its size and its name.  Behind middlewares that go on the handler is called
with the request as they have left it, and that request still holds the upload if they leave uploads
alone.
-/
theorem serve_form {form : Multipart.Form} {quoted : Bool}
    (hform : SendsForm server peer pieces request form quoted)
    (hbuffer : server.requestLimits.bufferSize ≤ Buffer.maxSize)
    (hroom : HasRoom server request (form.contentType quoted) start) {handler : Handler σ}
    {params : List Pair}
    (hroute : server.routes.find? server.requestLimits.maxParams request.method request.path =
      some (handler, params)) (out : Outgoing) :
    exists (upload : Upload) (world : World σ),
      let whole := { request with upload := some upload, params }
      let served := serve server peer (Arrival.script pieces) out start
      HoldsFile upload form world.storage ∧
      EntersPipeline server peer (Arrival.script pieces) start handler whole world ∧
      forall y : Exchange σ, Pipeline.Passes server.middlewares ⟨whole, .new .ok, world⟩ y ->
        served.handlerInvoked = true ∧
        served.request = some (handler y.request y.world).2.1 ∧
        ((forall m, m ∈ server.middlewares ->
            m.Maintains (Holding upload form.payload)) ->
          y.request.upload = some upload ∧ HoldsFile upload form y.world.storage) := by
  rcases hform.sends with ⟨head, more, hsends⟩
  rcases hform.exists_upload hroom with ⟨upload, hwhole, hholds⟩
  have henters := EntersPipeline.intro hbuffer (hsends.result start.clock) hform.method hwhole
    hroute
  refine ⟨upload, _, hholds, henters, ?_⟩
  intro y hpasses
  rcases hpasses.run_eq handler with ⟨hinvoked, hrequest⟩
  rw [henters.serve_eq, discardUnclaimed_of_invoked hinvoked]
  rcases finish_eq server (.ofRun (Pipeline.run server.middlewares handler
    { request with upload := some upload, params } _)) start.uptime out with ⟨hcalled, hanswered, _⟩
  refine ⟨hcalled.trans hinvoked, hanswered.trans (congrArg some hrequest), ?_⟩
  intro hmaintains
  have hholding := hpasses.maintained hmaintains ⟨rfl, hholds.content⟩
  exact ⟨hholding.left, hholds.size, hholds.filename, hholding.right⟩

/-! # Where there is no room -/

theorem Streams.panicked (h : Streams request contentType)
    (hsends : Sends server peer pieces request head rest)
    (hdirectory : start.storage.get? server.requestLimits.uploadDirectory = some .directory)
    (hfree : start.storage.get?
      (Upload.place server.requestLimits (start.serials 0) contentType) = none)
    (hlong : Buffer.maxSize < min server.requestLimits.fileChunk
      (request.contentLength - server.requestLimits.bufferSize)) :
    (bodyReceipt server peer ⟨Arrival.script pieces, start.clock⟩ request start).result =
      .panicked .capacityOverflow := by
  rcases readRequest_ok server peer _ (hsends.result start.clock) with ⟨length, _, hbody⟩
  have hroom : (firstReading server peer
      ⟨Arrival.script pieces, start.clock⟩).reader.bytes.length ≤
        server.requestLimits.bufferSize := by
    rw [← hbody.capacity]
    exact hbody.holds.room
  have hbuffered : (firstReading server peer
      ⟨Arrival.script pieces, start.clock⟩).reader.buffered.length ≤
        server.requestLimits.bufferSize := by
    rw [Reader.buffered_eq, List.length_drop]
    omega
  have hunbuffered : Buffer.maxSize < min server.requestLimits.fileChunk
      (request.contentLength - (firstReading server peer
        ⟨Arrival.script pieces, start.clock⟩).reader.buffered.length) := by
    omega
  rw [(h.receipt_eq server peer _ start).left,
    Upload.store_of_ok (Upload.createNew_place hdirectory hfree),
    Upload.receive_unbuffered hunbuffered]
  rfl

theorem serve_of_receipt_panicked {arrivals : List Arrival} {panic : Panic}
    (hbuffer : server.requestLimits.bufferSize ≤ Buffer.maxSize)
    (hrequest : (firstReading server peer ⟨arrivals, start.clock⟩).result = .ok request)
    (hmethod : request.method ≠ .options)
    (hpanic : (bodyReceipt server peer ⟨arrivals, start.clock⟩ request start).result =
      .panicked panic) (out : Outgoing) :
    (serve server peer arrivals out start).panic = some panic ∧
      (serve server peer arrivals out start).handlerInvoked = false := by
  rw [serve_of_le hbuffer, serveWith]
  simp only [hrequest]
  rw [respond, if_neg hmethod]
  simp only [hpanic]
  exact ⟨rfl, rfl⟩

/-! # A form with a boundary that almost comes, and the same form without room -/

def plainForm : Multipart.Form where
  boundary := "b"
  filename := "a.txt"
  lines := [Utf8.encode "Content-Type: text/plain"]
  payload := Utf8.encode "one\r\n\r\n--a\r\n-"
  rest := Utf8.encode "--\r\n"

theorem plainForm_wellFormed : plainForm.WellFormed where
  nonempty := by decide +kernel
  boundary := by decide +kernel
  first := by
    rintro c ⟨⟩
    decide +kernel
  last := by
    rintro c ⟨⟩
    decide +kernel
  filename := by decide +kernel
  lines := by decide +kernel
  payload := by decide +kernel

def formHead (length : String) : Bytes :=
  Utf8.encode ("POST /u HTTP/1.1\r\nContent-Type: multipart/form-data; boundary=b\r\n" ++
    "Content-Length: " ++ length ++ "\r\n\r\n")

def formRequest (length : Nat) : Request :=
  { Pipeline.bareRequest with
    method := .post
    path := "/u"
    headers := [⟨"Content-Type", "multipart/form-data; boundary=b"⟩,
      ⟨"Content-Length", toString length⟩]
    contentLength := length }

def formPieces : List Bytes :=
  [formHead "105", plainForm.render.take 90, plainForm.render.drop 90]

def broadServer : Server Nat :=
  { uploadServer with requestLimits := { bufferSize := Buffer.maxSize + 1 } }

theorem plainForm_sent :
    SendsForm uploadServer localPeer formPieces (formRequest 105) plainForm false := by
  refine ⟨plainForm_wellFormed, ⟨formHead "105", [], ?_, ?_, ?_, ?_⟩, ?_, ?_, ?_, ?_⟩ <;>
    decide +kernel

theorem plainForm_sent_broad :
    SendsForm broadServer localPeer formPieces (formRequest 105) plainForm false := by
  refine ⟨plainForm_wellFormed, ⟨formHead "105", [], ?_, ?_, ?_, ?_⟩, ?_, ?_, ?_, ?_⟩ <;>
    decide +kernel

theorem plainForm_room :
    HasRoom uploadServer (formRequest 105) (plainForm.contentType false) uploadWorld := by
  refine ⟨?_, ?_, ?_⟩ <;> decide +kernel

theorem uploadServer_passes (x : Exchange Nat) :
    Pipeline.Passes uploadServer.middlewares x x :=
  .cons rfl .nil

theorem serve_form_plain :
    SendsForm uploadServer localPeer formPieces (formRequest 105) plainForm false ∧
    uploadServer.requestLimits.bufferSize ≤ Buffer.maxSize ∧
    HasRoom uploadServer (formRequest 105) (plainForm.contentType false) uploadWorld ∧
    uploadServer.routes.find? uploadServer.requestLimits.maxParams .post "/u" =
      some (describeUpload, []) ∧
    exists (upload : Upload) (world : World Nat),
      let whole := { formRequest 105 with upload := some upload, params := [] }
      let served := serve uploadServer localPeer (Arrival.script formPieces) .unbounded uploadWorld
      HoldsFile upload plainForm world.storage ∧
      EntersPipeline uploadServer localPeer (Arrival.script formPieces) uploadWorld
        describeUpload whole world ∧
      served.handlerInvoked = true ∧ served.request = some whole ∧
      served.response.map (·.body) = some (Utf8.encode "a.txt 13") := by
  have hbuffer : uploadServer.requestLimits.bufferSize ≤ Buffer.maxSize := by decide
  have hroute : uploadServer.routes.find? uploadServer.requestLimits.maxParams
      (formRequest 105).method (formRequest 105).path = some (describeUpload, []) := rfl
  rcases serve_form plainForm_sent hbuffer plainForm_room hroute .unbounded with
    ⟨upload, world, hholds, henters, hserved⟩
  rcases hserved _ (uploadServer_passes _) with ⟨hinvoked, hrequest, _⟩
  refine ⟨plainForm_sent, hbuffer, plainForm_room, hroute, upload, world, hholds, henters,
    hinvoked, hrequest, ?_⟩
  decide +kernel

/-! # The same form where there is no room -/

def longForm (payload : Bytes) : Multipart.Form :=
  { plainForm with payload }

theorem longForm_wellFormed {payload : Bytes} (h : 13 ∉ payload) :
    (longForm payload).WellFormed :=
  { plainForm_wellFormed with
    payload := fun hmark => h (hmark.subset List.mem_cons_self) }

def longPieces (payload : Bytes) : List Bytes :=
  [formHead "9223372036854841436", (longForm payload).render]

theorem longForm_sent {payload : Bytes} (hfree : 13 ∉ payload)
    (hlength : payload.length = 9223372036854841344) :
    SendsForm (uploadServer.withFileChunk (Buffer.maxSize + 1)) localPeer (longPieces payload)
      (formRequest 9223372036854841436) (longForm payload) false where
  wellFormed := longForm_wellFormed hfree
  sends := by
    refine ⟨formHead "9223372036854841436", [], ?_, ?_, ?_, ?_⟩
    · rw [longPieces, List.flatten_cons, List.flatten_singleton, List.append_nil]
    · decide +kernel
    · decide +kernel
    · decide +kernel
  method := by decide
  contentType := by
    change (formRequest 9223372036854841436).contentType? = some (plainForm.contentType false)
    decide +kernel
  stays := by
    change staysInMemory (plainForm.contentType false) = false
    decide +kernel
  length := by
    have hheader : (Bytes.crlf.intercalate plainForm.headerLines).length = 79 := by
      decide +kernel
    have hmark : (Multipart.marker plainForm.boundary).length = 5 := by decide +kernel
    have hrest : plainForm.rest.length = 4 := by decide +kernel
    rw [Multipart.Form.length_render]
    change 9223372036854841436 = (Bytes.crlf.intercalate plainForm.headerLines).length + 4 +
      payload.length + (Multipart.marker plainForm.boundary).length + plainForm.rest.length
    rw [hheader, hlength, hmark, hrest]

theorem serve_longForm {payload : Bytes} (hfree : 13 ∉ payload)
    (hlength : payload.length = 9223372036854841344) :
    let served := serve (uploadServer.withFileChunk (Buffer.maxSize + 1)) localPeer
      (Arrival.script (longPieces payload)) .unbounded uploadWorld
    served.panic = some .capacityOverflow ∧ served.handlerInvoked = false := by
  have hsent := longForm_sent hfree hlength
  rcases hsent.sends with ⟨head, more, hsends⟩
  have hlong : Buffer.maxSize < min (uploadServer.withFileChunk
      (Buffer.maxSize + 1)).requestLimits.fileChunk (9223372036854841436 - 16384) := by
    decide +kernel
  have hpanic := hsent.streams.panicked hsends (by decide +kernel)
    (uploadWorld_unused 0 _) hlong
  have hbuffer : (uploadServer.withFileChunk (Buffer.maxSize + 1)).requestLimits.bufferSize ≤
      Buffer.maxSize := by
    decide +kernel
  exact serve_of_receipt_panicked hbuffer (hsends.result uploadWorld.clock) hsent.method hpanic
    .unbounded

/--
Without a buffer for the head or for the pieces, without a directory for the file, and where a file
of its name is there already, a form does not come to the handler.
-/
theorem serve_form_without_room :
    (forall x : Exchange Nat, Pipeline.Passes uploadServer.middlewares x x) ∧
    uploadServer.routes.find? uploadServer.requestLimits.maxParams .post "/u" =
      some (describeUpload, []) ∧
    (let served := serve broadServer localPeer (Arrival.script formPieces) .unbounded uploadWorld
     SendsForm broadServer localPeer formPieces (formRequest 105) plainForm false ∧
       served.panic = some .capacityOverflow ∧ served.handlerInvoked = false) ∧
    (exists payload : Bytes,
      let server := uploadServer.withFileChunk (Buffer.maxSize + 1)
      let served := serve server localPeer (Arrival.script (longPieces payload)) .unbounded
        uploadWorld
      SendsForm server localPeer (longPieces payload) (formRequest 9223372036854841436)
          (longForm payload) false ∧
        served.panic = some .capacityOverflow ∧ served.handlerInvoked = false) ∧
    SendsForm uploadServer localPeer formPieces (formRequest 105) plainForm false ∧
    (let served := serve uploadServer localPeer (Arrival.script formPieces) .unbounded
      { uploadWorld with storage := .empty }
     served.handlerInvoked = false ∧
       served.response.map (·.status) = some .internalServerError) ∧
    (let served := serve uploadServer localPeer (Arrival.script formPieces) .unbounded
      { uploadWorld with
        storage := uploadWorld.storage.put (Path.ofNames ["tmp", "upload_0.bin"]) (.file []) }
     served.handlerInvoked = false ∧
       served.response.map (·.status) = some .internalServerError) := by
  have hfree : (13 : UInt8) ∉ List.replicate 9223372036854841344 0 := by
    intro hmem
    exact absurd (List.eq_of_mem_replicate hmem) (by decide)
  refine ⟨uploadServer_passes, rfl, ⟨plainForm_sent_broad, ?_⟩,
    ⟨List.replicate 9223372036854841344 0, longForm_sent hfree List.length_replicate,
      serve_longForm hfree List.length_replicate⟩, plainForm_sent, ?_, ?_⟩
  · exact ⟨by decide +kernel, by decide +kernel⟩
  · decide +kernel
  · decide +kernel

end Connection
end HttpEngine
