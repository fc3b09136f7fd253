import HttpEngine.Proofs.Connection.Framing
import HttpEngine.Proofs.Request.Decoding
import HttpEngine.Proofs.Upload.Storing

/-!
# A request in other pieces

A client that does not wait may cut its bytes into any pieces, and the server may read the body of
an upload in pieces of any size.  Neither changes what the connection comes to: two connections with
the same request bytes are alike in every respect but the number in the name of the upload's file.
The proof follows the connection stage by stage; each stage is alike if the one before it was.
-/

namespace HttpEngine

variable {σ : Type} {ρ : Equiv.Perm Path}

def Server.withFileChunk (server : Server σ) (chunk : Nat) : Server σ :=
  { server with requestLimits := { server.requestLimits with fileChunk := chunk } }

/-- Middlewares and handlers do not look at which of two numbers stands in the name of an upload. -/
def Server.Ignores (server : Server σ) (number other : UInt64) : Prop :=
  forall extension : String,
    (forall m, m ∈ server.middlewares -> m.Respects
      (Upload.exchange server.requestLimits.uploadDirectory extension number other)) ∧
    forall route, route ∈ server.routes -> route.handler.Respects
      (Upload.exchange server.requestLimits.uploadDirectory extension number other)

def Storage.Unused (storage : Storage) (directory : Path) (number : UInt64) : Prop :=
  forall extension : String,
    storage.get? (directory ++ [Upload.fileName number extension]) = none

namespace Connection

/-! # What is alike -/

structure Receipt.Alike (ρ : Equiv.Perm Path) (a b : Receipt σ) : Prop where
  result : (exists fault : Fault, a.result = .done (.error fault) ∧
      b.result = .done (.error fault)) ∨
    exists r q : Request, a.result = .done (.ok r) ∧ b.result = .done (.ok q) ∧ r.Alike ρ q
  world : a.world.Alike ρ b.world

theorem Receipt.Alike.setClock {a b : Receipt σ} (h : a.Alike ρ b)
    (hnow : b.source.now = a.source.now) :
    Receipt.Alike ρ { a with world := { a.world with clock := a.source.now } }
      { b with world := { b.world with clock := b.source.now } } := by
  rw [hnow]
  exact ⟨h.result, h.world.setClock _⟩

structure Answer.Alike (ρ : Equiv.Perm Path) (a b : Answer σ) : Prop where
  outcome : b.outcome = a.outcome
  calls : b.calls = a.calls
  handlerInvoked : b.handlerInvoked = a.handlerInvoked
  request : a.request.Alike ρ b.request
  world : a.world.Alike ρ b.world

structure Served.Alike (ρ : Equiv.Perm Path) (a b : Served σ) : Prop where
  response : b.response = a.response
  request : Option.Rel (Request.Alike ρ) a.request b.request
  panic : b.panic = a.panic
  calls : b.calls = a.calls
  handlerInvoked : b.handlerInvoked = a.handlerInvoked
  out : b.out = a.out
  world : a.world.Alike ρ b.world

/-! # The body -/

theorem AtBody.readBody {server : Server σ} {bytes : Bytes} {length : Nat}
    {reading : Reading Request} (h : AtBody server bytes length reading)
    (hp : reading.source.Prompt) (count timeout : Nat) :
    (reading.reader.readBody reading.source count timeout).source.now = reading.source.now ∧
      (reading.reader.readBody reading.source count timeout).result =
        if server.requestLimits.bufferSize < length + count then .error .bodyTooLarge
        else if length + count ≤ bytes.length then .ok ((bytes.drop length).take count)
        else .error .connectionClosed := by
  have hspec := h.holds.readBody count timeout
  rcases hspec.prompt hp with ⟨hnow, hfail⟩
  refine ⟨hnow, ?_⟩
  split
  · next hlarge =>
    apply hspec.tooLarge
    rw [h.capacity, h.headLength]
    exact hlarge
  · next hfits =>
    cases hresult : (reading.reader.readBody reading.source count timeout).result with
    | ok body =>
        rcases hspec.ok body hresult with ⟨_, henough, hbody⟩
        rw [h.headLength] at henough hbody
        rw [if_pos henough, hbody]
    | error fault =>
        rcases hfail fault hresult with ⟨_, hlarge⟩ | ⟨hclosed, hless⟩
        · rw [h.capacity, h.headLength] at hlarge
          exact absurd hlarge hfits
        · rw [h.headLength] at hless
          rw [if_neg (Nat.not_le_of_lt hless), hclosed]

structure SameBody (server : Server σ) (bytes others : Bytes) (length : Nat) (request : Request)
    (first second : Reading Request) : Prop where
  left : AtBody server bytes length first
  right : AtBody server others length second
  prompt : first.source.Prompt ∧ second.source.Prompt
  now : second.source.now = first.source.now
  same : (bytes.drop length).take (awaited server length request) =
    (others.drop length).take (awaited server length request)

variable {server : Server σ} {bytes others : Bytes} {length : Nat} {request : Request}
  {first second : Reading Request} {w v : World σ}

theorem SameBody.enough_iff (h : SameBody server bytes others length request first second) :
    length + awaited server length request ≤ others.length ↔
      length + awaited server length request ≤ bytes.length := by
  have hfirst := h.left.length_le
  have hsecond := h.right.length_le
  have hlengths := congrArg List.length h.same
  simp only [List.length_take, List.length_drop] at hlengths
  omega

theorem receiveInMemory_alike (h : SameBody server bytes others length request first second)
    (hmethod : request.method ≠ .options) (hupload : request.upload = none)
    (hworld : w.Alike ρ v) :
    Receipt.Alike ρ
        (receiveInMemory server first.reader first.source request w)
        (receiveInMemory server second.reader second.source request v) ∧
      (receiveInMemory server second.reader second.source request v).source.now =
        (receiveInMemory server first.reader first.source request w).source.now := by
  rcases h.left.readBody h.prompt.left request.contentLength
    server.connectionLimits.readTimeout with ⟨hnow, hresult⟩
  rcases h.right.readBody h.prompt.right request.contentLength
    server.connectionLimits.readTimeout with ⟨hnow', hresult'⟩
  have hresults : (second.reader.readBody second.source request.contentLength
      server.connectionLimits.readTimeout).result =
      (first.reader.readBody first.source request.contentLength
        server.connectionLimits.readTimeout).result := by
    rw [hresult, hresult']
    split
    · rfl
    · next hfits =>
      have hawaited : awaited server length request = request.contentLength := by
        rw [awaited, if_neg hmethod, if_neg (fun hlarge => hfits hlarge.right)]
      have hsame := h.same
      have henough := h.enough_iff
      rw [hawaited] at hsame henough
      rw [hsame]
      simp only [henough]
  refine ⟨⟨?_, hworld⟩, ?_⟩
  · unfold receiveInMemory
    simp only
    rw [hresults]
    cases (first.reader.readBody first.source request.contentLength
        server.connectionLimits.readTimeout).result with
    | error fault => exact Or.inl ⟨fault, rfl, rfl⟩
    | ok body => exact Or.inr ⟨_, _, rfl, rfl, Request.Alike.of_upload_none hupload⟩
  · exact hnow'.trans (h.now.trans hnow.symm)

def exchangeNext (server : Server σ) (extension : String) (w v : World σ) : Equiv.Perm Path :=
  Upload.exchange server.requestLimits.uploadDirectory extension (w.serials 0) (v.serials 0)

def fileExtension (request : Request) : String :=
  MediaType.extensionFor (request.contentType?.getD "")

def HasPieces (fileChunk : Nat) (request : Request) : Prop :=
  request.method = .options ∨ request.isKeptInMemory ∨
    min fileChunk request.contentLength ≤ Buffer.maxSize

theorem HasPieces.fits {size : Nat} (h : HasPieces size request)
    (hmethod : request.method ≠ .options) (hupload : request.isKeptInMemory = false) :
    min size request.contentLength ≤ Buffer.maxSize := by
  rcases h with hoptions | hmemory | hle
  · exact absurd hoptions hmethod
  · rw [hupload] at hmemory
    cases hmemory
  · exact hle

theorem receiveUpload_alike {chunk : Nat} {contentType : String}
    (h : SameBody server bytes others length request first second)
    (hmethod : request.method ≠ .options) (hcontent : request.contentType? = some contentType)
    (hupload : request.isKeptInMemory = false)
    (hpieces : HasPieces server.requestLimits.fileChunk request)
    (hothers : HasPieces chunk request)
    (hworld : w.Alike (exchangeNext server (fileExtension request) w v) v) :
    Receipt.Alike (exchangeNext server (fileExtension request) w v)
        (receiveUpload server first.reader first.source request contentType w)
        (receiveUpload (server.withFileChunk chunk) second.reader second.source request
          contentType v) ∧
      (receiveUpload (server.withFileChunk chunk) second.reader second.source request
        contentType v).source.now =
        (receiveUpload server first.reader first.source request contentType w).source.now := by
  have hawaited : awaited server length request = request.contentLength := by
    rw [awaited, if_neg hmethod, if_neg (by rw [hupload]; simp)]
  have hsame := h.same
  rw [hawaited, ← h.left.rest, ← h.right.rest] at hsame
  have hfits := hpieces.fits hmethod hupload
  have hfits' := hothers.fits hmethod hupload
  have hstored := Upload.store_alike w.storage (w.serials 0) (v.serials 0) contentType
    server.requestLimits server.connectionLimits.readTimeout h.prompt.left h.prompt.right hsame
    hfits hfits'
  have hρ : Upload.exchange server.requestLimits.uploadDirectory
      (MediaType.extensionFor contentType) (w.serials 0) (v.serials 0) =
      exchangeNext server (fileExtension request) w v := by
    rw [exchangeNext, fileExtension, hcontent]
    rfl
  simp only [hρ] at hstored
  rw [← hworld.storage] at hstored
  have hnow := Upload.store_now w.storage (w.serials 0) first.reader.buffered contentType hfits
    server.connectionLimits.readTimeout h.prompt.left
  have hlimits : min ({ server.requestLimits with fileChunk := chunk } : RequestLimits).fileChunk
      request.contentLength ≤ Buffer.maxSize := hfits'
  have hnow' := Upload.store_now v.storage (v.serials 0) second.reader.buffered contentType
    hlimits server.connectionLimits.readTimeout h.prompt.right
  unfold receiveUpload Server.withFileChunk
  simp only [World.nextSerial]
  refine ⟨⟨?_, ?_⟩, hnow'.trans (h.now.trans hnow.symm)⟩
  · rcases hstored.result with ⟨fault, hleft, hright⟩ | ⟨u, u', hleft, hright, halike⟩
    · exact Or.inl ⟨fault, by rw [hleft]; rfl, by rw [hright]; rfl⟩
    · refine Or.inr ⟨{ request with upload := some u }, { request with upload := some u' }, ?_,
        ?_, rfl, Option.Rel.some halike⟩
      · rw [hleft]
        rfl
      · rw [hright]
        rfl
  · rw [hstored.events]
    apply World.Alike.report
    exact ⟨hworld.clock, hworld.machineTime, hstored.storage, hworld.events, hworld.log,
      hworld.app⟩

theorem receiveBody_alike {chunk : Nat}
    (h : SameBody server bytes others length request first second)
    (hmethod : request.method ≠ .options) (hnone : request.upload = none)
    (hpieces : HasPieces server.requestLimits.fileChunk request)
    (hothers : HasPieces chunk request)
    (hworld : w.Alike (exchangeNext server (fileExtension request) w v) v) :
    Receipt.Alike (exchangeNext server (fileExtension request) w v)
      (receiveBody server first.reader first.source request w)
      (receiveBody (server.withFileChunk chunk) second.reader second.source request v) := by
  have hmemory := receiveInMemory_alike h hmethod hnone hworld
  unfold receiveBody
  simp only
  split
  · rw [h.now]
    exact ⟨Or.inr ⟨request, request, rfl, rfl, Request.Alike.of_upload_none hnone⟩,
      hworld.setClock _⟩
  · split
    · next contentType hcontent =>
      cases hkept : staysInMemory contentType with
      | true => exact hmemory.left.setClock hmemory.right
      | false =>
          have hupload := (Request.isKeptInMemory_of_some hcontent).trans hkept
          have halike := receiveUpload_alike h hmethod hcontent hupload hpieces hothers hworld
          exact halike.left.setClock halike.right
    · exact hmemory.left.setClock hmemory.right

/-! # The answer -/

theorem dispatch_alike {r q : Request} (chunk : Nat)
    (hmiddlewares : forall m, m ∈ server.middlewares -> m.Respects ρ)
    (hroutes : forall route, route ∈ server.routes -> route.handler.Respects ρ)
    (hrequest : r.Alike ρ q) (hworld : w.Alike ρ v) :
    Answer.Alike ρ (dispatch server r w) (dispatch (server.withFileChunk chunk) q v) := by
  rcases hrequest.head with ⟨hmethod, hpath, _⟩
  have hroute : server.routes.find? server.requestLimits.maxParams q.method q.path =
      server.routes.find? server.requestLimits.maxParams r.method r.path := by
    rw [hmethod, hpath]
  unfold dispatch Server.withFileChunk
  simp only
  rw [hroute]
  cases hfind : server.routes.find? server.requestLimits.maxParams r.method r.path with
  | none => exact ⟨rfl, rfl, rfl, hrequest, hworld⟩
  | some found =>
      rcases found with ⟨handler, params⟩
      rcases RouteTable.exists_route_of_find? hfind with ⟨route, hmem, _, hhandler, _⟩
      have hrespects := hroutes route hmem
      rw [hhandler] at hrespects
      have hmatched : Request.Alike ρ { r with params } { q with params } := by
        refine ⟨?_, hrequest.upload⟩
        rw [hrequest.same]
      have hrun := Pipeline.run_alike hrespects hmiddlewares hmatched hworld
      refine ⟨?_, hrun.calls, hrun.handlerInvoked, hrun.request, hrun.world⟩
      simp only
      rw [hrun.outcome]

theorem discardUpload_alike {r q : Request} (hrequest : r.Alike ρ q) (hworld : w.Alike ρ v) :
    (discardUpload r w).1.Alike ρ (discardUpload q v).1 ∧
      (discardUpload r w).2.Alike ρ (discardUpload q v).2 := by
  have hupload := hrequest.upload
  unfold discardUpload
  cases hr : r.upload with
  | none =>
      cases hq : q.upload with
      | none => exact ⟨hrequest, hworld⟩
      | some u' =>
          rw [hr, hq] at hupload
          cases hupload
  | some u =>
      cases hq : q.upload with
      | none =>
          rw [hr, hq] at hupload
          cases hupload
      | some u' =>
          rw [hr, hq] at hupload
          cases hupload with
          | some halike =>
              have htaken : Request.Alike ρ { r with upload := none }
                  { q with upload := none } := by
                refine ⟨?_, Option.Rel.none⟩
                rw [hrequest.same]
              simp only
              rw [hworld.storage, halike.path, Storage.remove_rename]
              cases w.storage.remove u.path with
              | ok rest =>
                  exact ⟨htaken, (hworld.setStorage rfl).report _⟩
              | error reason => exact ⟨htaken, hworld.report _⟩

theorem discardUnclaimed_alike {a b : Answer σ} (h : a.Alike ρ b) :
    Answer.Alike ρ (discardUnclaimed a) (discardUnclaimed b) := by
  unfold discardUnclaimed
  rw [h.outcome, h.handlerInvoked]
  cases a.outcome with
  | panicked panic => exact h
  | done response =>
      simp only
      split
      · exact h
      · rcases discardUpload_alike h.request h.world with ⟨hrequest, hworld⟩
        exact ⟨rfl, h.calls, rfl, hrequest, hworld⟩

theorem respond_alike {chunk : Nat}
    (h : SameBody server bytes others length request first second)
    (hnone : request.upload = none)
    (hpieces : HasPieces server.requestLimits.fileChunk request)
    (hothers : HasPieces chunk request)
    (hignores : server.Ignores (w.serials 0) (v.serials 0))
    (hworld : w.Alike (exchangeNext server (fileExtension request) w v) v) :
    Answer.Alike (exchangeNext server (fileExtension request) w v)
      (respond server first.reader first.source request w)
      (respond (server.withFileChunk chunk) second.reader second.source request v) := by
  unfold respond
  split
  · exact ⟨rfl, rfl, rfl, Request.Alike.of_upload_none hnone, hworld⟩
  · next hmethod =>
    have hbody := receiveBody_alike h hmethod hnone hpieces hothers hworld
    simp only
    rcases hbody.result with ⟨fault, hleft, hright⟩ | ⟨r, q, hleft, hright, hrequest⟩
    · rw [hleft, hright]
      exact ⟨rfl, rfl, rfl, Request.Alike.of_upload_none hnone, hbody.world.report _⟩
    · rw [hleft, hright]
      rcases hignores (fileExtension request) with
        ⟨hmiddlewares, hroutes⟩
      exact discardUnclaimed_alike
        (dispatch_alike chunk hmiddlewares hroutes hrequest hbody.world)

/-! # The end of the connection -/

theorem enterLog_alike (server : Server σ) (entry : LogEntry) (hworld : w.Alike ρ v) :
    (enterLog server entry w).Alike ρ (enterLog server entry v) := by
  unfold enterLog
  rw [hworld.log, hworld.unixTime]
  split
  · apply World.Alike.report
    exact ⟨hworld.clock, hworld.machineTime, hworld.storage, hworld.events, rfl, hworld.app⟩
  · exact hworld

theorem reject_alike (server : Server σ) (peer : SocketAddress) (fault : Fault) (started : Nat)
    (out : Outgoing) (hworld : w.Alike ρ v) :
    (reject server peer fault started out w).Alike ρ (reject server peer fault started out v) := by
  have hreported := hworld.report [.headRejected fault]
  unfold reject
  simp only
  cases Response.ofFault? fault with
  | none => exact ⟨rfl, Option.Rel.none, rfl, rfl, rfl, rfl, hreported⟩
  | some response =>
      simp only
      rw [hreported.clock]
      have hsent := hreported.setClock (deliver response none false
        server.connectionLimits.writeTimeout out (w.report [.headRejected fault]).clock).now
      rw [hsent.uptime]
      exact ⟨rfl, Option.Rel.none, rfl, rfl, rfl, rfl, enterLog_alike server _ hsent⟩

theorem servedEntry_alike {r q : Request} (h : r.Alike ρ q) (response : Response)
    (elapsed : Nat) : servedEntry q response elapsed = servedEntry r response elapsed := by
  rw [h.same]
  rfl

theorem conclude_alike (server : Server σ) {a b : Answer σ} (h : a.Alike ρ b)
    (response : Response) (started : Nat) (out : Outgoing) :
    (conclude server a response started out).Alike ρ (conclude server b response started out) := by
  rcases h.request.head with ⟨hmethod, hpath, _, hheaders, hclient⟩
  have hpolicy : Cors.applied? server.cors (b.request.header? "origin") =
      Cors.applied? server.cors (a.request.header? "origin") := by
    rw [Request.header?, Request.header?, hheaders]
  unfold conclude
  simp only
  rw [hpolicy, hmethod, hpath, hclient, h.world.clock]
  have hsent := (h.world.setClock (deliver response
    (Cors.applied? server.cors (a.request.header? "origin")) (a.request.method = .head)
    server.connectionLimits.writeTimeout out a.world.clock).now).report
    (((deliver response
      (Cors.applied? server.cors (a.request.header? "origin")) (a.request.method = .head)
      server.connectionLimits.writeTimeout out a.world.clock).error.map Event.writeFailed).toList ++
      [Event.served a.request.clientIp a.request.method a.request.path response.status])
  rw [hsent.uptime, servedEntry_alike h.request]
  exact ⟨rfl, Option.Rel.some h.request, rfl, h.calls, h.handlerInvoked, rfl,
    enterLog_alike server _ hsent⟩

theorem readRequest_withFileChunk (server : Server σ) (chunk : Nat) (peer : SocketAddress)
    (reader : Reader) (source : Incoming) :
    readRequest (server.withFileChunk chunk) peer reader source =
      readRequest server peer reader source :=
  rfl

theorem finish_alike (server : Server σ) {a b : Answer σ} (h : a.Alike ρ b) (started : Nat)
    (out : Outgoing) : (finish server a started out).Alike ρ (finish server b started out) := by
  unfold finish
  rw [h.outcome]
  cases a.outcome with
  | panicked panic =>
      exact ⟨rfl, Option.Rel.some h.request, rfl, h.calls, h.handlerInvoked, rfl, h.world⟩
  | done response =>
      cases response with
      | none =>
          rcases h.request.head with ⟨_, hpath, _⟩
          simp only
          rw [hpath]
          exact ⟨rfl, Option.Rel.some h.request, rfl, h.calls, h.handlerInvoked, rfl,
            h.world.report _⟩
      | some response => exact conclude_alike server h response started out

theorem alike_of_serials {extension : String} {numbers : Nat -> UInt64}
    (h : w.serials 0 = numbers 0 ∨
      w.storage.Unused server.requestLimits.uploadDirectory (w.serials 0) ∧
        w.storage.Unused server.requestLimits.uploadDirectory (numbers 0)) :
    w.Alike (exchangeNext server extension w { w with serials := numbers })
      { w with serials := numbers } := by
  refine ⟨rfl, rfl, ?_, rfl, rfl, rfl⟩
  rcases h with hequal | ⟨hnext, hother⟩
  · symm
    apply Storage.rename_eq_self
    intro path _
    show Equiv.swap _ (server.requestLimits.uploadDirectory ++
      [Upload.fileName (numbers 0) extension]) path = path
    rw [← hequal, Equiv.swap_self]
    rfl
  · exact (Storage.rename_swap (hnext extension) (hother extension)).symm

theorem serveWith_alike {peer : SocketAddress} {pieces others : List Bytes} (chunk : Nat)
    (out : Outgoing)
    (hsame : requestBytes server peer pieces.flatten = requestBytes server peer others.flatten)
    (hpieces : forall request, headOutcome server peer pieces.flatten = .ok request ->
      HasPieces server.requestLimits.fileChunk request ∧ HasPieces chunk request)
    (hignores : server.Ignores (w.serials 0) (v.serials 0))
    (hworld : forall extension, w.Alike (exchangeNext server extension w v) v) :
    exists extension : String, Served.Alike (exchangeNext server extension w v)
      (serveWith (.new server.requestLimits.bufferSize) server peer (Arrival.script pieces) out w)
      (serveWith (.new server.requestLimits.bufferSize) (server.withFileChunk chunk) peer
        (Arrival.script others) out v) := by
  have hclock : v.clock = w.clock := (hworld "").clock
  have hprompt : Incoming.Prompt ⟨Arrival.script pieces, w.clock⟩ := ⟨pieces, rfl⟩
  have hprompt' : Incoming.Prompt ⟨Arrival.script others, w.clock⟩ := ⟨others, rfl⟩
  rcases readRequest_prompt server peer hprompt with ⟨hresult, hrest, hnow⟩
  rcases readRequest_prompt server peer hprompt' with ⟨hresult', hrest', hnow'⟩
  rw [Incoming.unread_script] at hresult hresult'
  rw [headOutcome_eq hsame] at hresult'
  have hafter : { v with clock := w.clock } = v := by
    rw [← hclock]
  unfold serveWith
  simp only
  rw [readRequest_withFileChunk, hclock, (hworld "").uptime, hresult, hresult', hnow, hnow', hafter]
  cases houtcome : headOutcome server peer pieces.flatten with
  | error fault =>
      refine ⟨"", ?_⟩
      exact reject_alike server peer fault w.uptime out (hworld "")
  | ok request =>
      refine ⟨fileExtension request, ?_⟩
      rw [houtcome] at hresult hresult'
      rcases readRequest_ok server peer _ hresult with ⟨length, hdecode, hbody⟩
      rcases readRequest_ok server peer _ hresult' with ⟨length', hdecode', hbody'⟩
      rw [Incoming.unread_script] at hdecode hbody hdecode' hbody'
      have hlength : length' = length := by
        have hfound := headLength?_of_requestBytes_eq hsame
        rw [hbody.found, hbody'.found] at hfound
        exact Option.some.inj hfound
      rw [hlength] at hbody'
      rcases hpieces request houtcome with ⟨hleft, hright⟩
      have halike := respond_alike
        ⟨hbody, hbody', ⟨hrest, hrest'⟩, hnow'.trans hnow.symm,
          take_awaited_eq hsame hbody.found hdecode⟩
        (Request.fresh_of_decode hdecode).upload hleft hright hignores (hworld (fileExtension request))
      exact finish_alike server halike w.uptime out

/--
Two clients that do not wait and send the same request come to the same, however they cut it, and
whatever the size of the pieces in which uploads are read: the same is read from the head, the same
is answered, written and logged, and the same files are stored, but for the number in the name of
one of them.
-/
theorem serve_alike_of_same_request (server : Server σ) (chunk : Nat) (peer : SocketAddress)
    (pieces others : List Bytes) (out : Outgoing) (world : World σ) (numbers : Nat -> UInt64)
    (hsame : requestBytes server peer pieces.flatten = requestBytes server peer others.flatten)
    (hpieces : forall request, headOutcome server peer pieces.flatten = .ok request ->
      HasPieces server.requestLimits.fileChunk request ∧ HasPieces chunk request)
    (hnumbers : world.serials 0 = numbers 0 ∨
      world.storage.Unused server.requestLimits.uploadDirectory (world.serials 0) ∧
        world.storage.Unused server.requestLimits.uploadDirectory (numbers 0))
    (hignores : server.Ignores (world.serials 0) (numbers 0)) :
    (readRequest (server.withFileChunk chunk) peer (.new server.requestLimits.bufferSize)
        ⟨Arrival.script others, world.clock⟩).result =
      (readRequest server peer (.new server.requestLimits.bufferSize)
        ⟨Arrival.script pieces, world.clock⟩).result ∧
    exists extension : String,
      Served.Alike
        (Upload.exchange server.requestLimits.uploadDirectory extension (world.serials 0)
          (numbers 0))
        (serve server peer (Arrival.script pieces) out world)
        (serve (server.withFileChunk chunk) peer (Arrival.script others) out
          { world with serials := numbers }) := by
  constructor
  · rw [readRequest_withFileChunk, readRequest_script, readRequest_script]
    exact headOutcome_eq hsame
  · have hworld : forall extension, world.Alike
        (exchangeNext server extension world { world with serials := numbers })
        { world with serials := numbers } := by
      intro extension
      exact alike_of_serials hnumbers
    by_cases hbuffer : server.requestLimits.bufferSize ≤ Buffer.maxSize
    · have hchunk : (server.withFileChunk chunk).requestLimits.bufferSize ≤ Buffer.maxSize :=
        hbuffer
      rw [serve_of_le hbuffer, serve_of_le hchunk]
      exact serveWith_alike (w := world) (v := { world with serials := numbers }) chunk out hsame
        hpieces hignores hworld
    · have hchunk : Buffer.maxSize < (server.withFileChunk chunk).requestLimits.bufferSize :=
        Nat.lt_of_not_le hbuffer
      rw [serve_of_lt (Nat.lt_of_not_le hbuffer), serve_of_lt hchunk]
      exact ⟨"", rfl, Option.Rel.none, rfl, rfl, rfl, rfl, hworld ""⟩

/-! # A form in other pieces -/

def describeUpload : Handler Nat := fun request world =>
  (.done (.plain .ok (.text (match request.upload with
      | some upload => upload.filename.getD "" ++ " " ++ toString upload.size
      | none => ""))),
    request, { world with app := world.app + 1 })

theorem describeUpload_respects (ρ : Equiv.Perm Path) : Handler.Respects ρ describeUpload := by
  intro r q w v hrequest hworld
  refine ⟨?_, hrequest, ?_⟩
  · have hupload := hrequest.upload
    unfold describeUpload
    cases hr : r.upload with
    | none =>
        rw [hr] at hupload
        cases hq : q.upload with
        | none => rfl
        | some u' =>
            rw [hq] at hupload
            cases hupload
    | some u =>
        rw [hr] at hupload
        cases hq : q.upload with
        | none =>
            rw [hq] at hupload
            cases hupload
        | some u' =>
            rw [hq] at hupload
            cases hupload with
            | some halike => rw [halike.same]
  · refine ⟨hworld.clock, hworld.machineTime, hworld.storage, hworld.events, hworld.log, ?_⟩
    change v.app + 1 = w.app + 1
    rw [hworld.app]

def uploadServer : Server Nat where
  routes := [⟨.post, "/u", describeUpload⟩]
  middlewares := [.recovery]
  cors := none
  keepsLog := true
  limits := {}
  connectionLimits := {}
  requestLimits := {}

theorem uploadServer_ignores (number other : UInt64) : uploadServer.Ignores number other := by
  intro extension
  constructor
  · intro m hm
    rw [List.mem_singleton.mp hm]
    trivial
  · intro route hroute
    rw [List.mem_singleton.mp hroute]
    exact describeUpload_respects _

def uploadWorld : World Nat where
  clock := 0
  machineTime := fun clock => ⟨clock, clock⟩
  storage := Storage.empty.put (Path.ofNames ["tmp"]) .directory
  serials := UInt64.ofNat
  events := []
  log := .new 16
  app := 0

theorem uploadWorld_unused (number : UInt64) :
    uploadWorld.storage.Unused uploadServer.requestLimits.uploadDirectory number := by
  intro extension
  apply Storage.get?_put_of_ne
  change Path.ofNames ["tmp"] ++ [_] ≠ Path.ofNames ["tmp"]
  simp

def localPeer : SocketAddress := ⟨.v4 127 0 0 1, 50000, 0⟩

def formUpload : Bytes :=
  Utf8.encode ("POST /u HTTP/1.1\r\nContent-Type: multipart/form-data; boundary=b\r\n" ++
    "Content-Length: 72\r\n\r\n" ++
    "--b\r\nContent-Disposition: form-data; filename=\"a.txt\"\r\n\r\nseven!\r\n--b--\r\n")

/-- The form cut in its head or in its file, with more bytes behind it, in pieces of seven bytes. -/
theorem serve_alike_of_formUpload :
    let pieces := [formUpload.take 40, formUpload.drop 40]
    let others := [formUpload.take 150, formUpload.drop 150 ++ formUpload]
    let numbers : Nat -> UInt64 := fun _ => 77
    (requestBytes uploadServer localPeer pieces.flatten =
        requestBytes uploadServer localPeer others.flatten ∧
      (forall request, headOutcome uploadServer localPeer pieces.flatten = .ok request ->
        HasPieces uploadServer.requestLimits.fileChunk request ∧ HasPieces 7 request) ∧
      uploadWorld.storage.Unused uploadServer.requestLimits.uploadDirectory
        (uploadWorld.serials 0) ∧
      uploadWorld.storage.Unused uploadServer.requestLimits.uploadDirectory (numbers 0) ∧
      uploadServer.Ignores (uploadWorld.serials 0) (numbers 0)) ∧
    (readRequest (uploadServer.withFileChunk 7) localPeer
        (.new uploadServer.requestLimits.bufferSize)
        ⟨Arrival.script others, uploadWorld.clock⟩).result =
      (readRequest uploadServer localPeer (.new uploadServer.requestLimits.bufferSize)
        ⟨Arrival.script pieces, uploadWorld.clock⟩).result ∧
    exists extension : String,
      Served.Alike
        (Upload.exchange uploadServer.requestLimits.uploadDirectory extension
          (uploadWorld.serials 0) (numbers 0))
        (serve uploadServer localPeer (Arrival.script pieces) .unbounded uploadWorld)
        (serve (uploadServer.withFileChunk 7) localPeer (Arrival.script others) .unbounded
          { uploadWorld with serials := numbers }) := by
  intro pieces others numbers
  have hsame : requestBytes uploadServer localPeer pieces.flatten =
      requestBytes uploadServer localPeer others.flatten := by
    decide +kernel
  have hpieces : forall request, headOutcome uploadServer localPeer pieces.flatten = .ok request ->
      HasPieces uploadServer.requestLimits.fileChunk request ∧ HasPieces 7 request := by
    intro request _
    have hfirst : uploadServer.requestLimits.fileChunk ≤ Buffer.maxSize := by decide
    have hsecond : 7 ≤ Buffer.maxSize := by decide
    exact ⟨Or.inr (Or.inr (Nat.le_trans (Nat.min_le_left _ _) hfirst)),
      Or.inr (Or.inr (Nat.le_trans (Nat.min_le_left _ _) hsecond))⟩
  have hunused := uploadWorld_unused
  have hignores := uploadServer_ignores (uploadWorld.serials 0) (numbers 0)
  exact ⟨⟨hsame, hpieces, hunused _, hunused _, hignores⟩,
    serve_alike_of_same_request uploadServer 7 localPeer pieces others .unbounded uploadWorld
      numbers hsame hpieces (Or.inr ⟨hunused _, hunused _⟩) hignores⟩

def smallUpload : Bytes :=
  Utf8.encode "POST /u HTTP/1.1\r\nContent-Type: a\r\nContent-Length: 1\r\n\r\nx"

def vastUpload : Bytes :=
  Utf8.encode
    "POST /u HTTP/1.1\r\nContent-Type: a\r\nContent-Length: 9223372036854775808\r\n\r\n"

/--
Without a buffer for the pieces of an upload, and under a number that is taken, a connection comes
to something else: a panic, or a server error.
-/
theorem serve_not_alike_without_room :
    (forall number other : UInt64, uploadServer.Ignores number other) ∧
    (serve uploadServer localPeer (Arrival.script [vastUpload]) .unbounded
        uploadWorld).panic = none ∧
    (serve (uploadServer.withFileChunk (Buffer.maxSize + 1)) localPeer
        (Arrival.script [vastUpload]) .unbounded uploadWorld).panic = some .capacityOverflow ∧
    (serve uploadServer localPeer (Arrival.script [smallUpload]) .unbounded
        { uploadWorld with
          storage := uploadWorld.storage.put
            (Path.ofNames ["tmp", "upload_77.tmp"]) (.file []) }).response.map (·.status) =
      some .ok ∧
    (serve uploadServer localPeer (Arrival.script [smallUpload]) .unbounded
        { uploadWorld with
          storage := uploadWorld.storage.put
            (Path.ofNames ["tmp", "upload_77.tmp"]) (.file [])
          serials := fun _ => 77 }).response.map (·.status) = some .internalServerError := by
  refine ⟨uploadServer_ignores, ?_, ?_, ?_, ?_⟩ <;> decide +kernel

end Connection
end HttpEngine
