import HttpEngine.Proofs.Connection.Panics
import HttpEngine.Proofs.Pipeline.Invariants
import HttpEngine.Proofs.Response.Policy
import HttpEngine.Proofs.Stream.Sending

/-!
# What a response leaves behind

A connection has one response at most.  The client gets a beginning of its head and its body, and all
of them unless no further byte can be written; the response to a request for the head only has no
body.  The head shows the cross-origin policy where it applies to the request, whatever the response
is, and never where no request could be read.  The response comes into the access log once, also if
the client does not get it; where there is none, nothing is written and nothing logged.
-/

namespace HttpEngine
namespace Connection

variable {σ : Type}

/-! # Writing -/

/-- A part of some data has been written: all of it, unless nothing more can be written. -/
structure Delivery.Carries (out : Outgoing) (data part : Bytes) (d : Delivery) : Prop where
  after : d.out = { out with written := out.written ++ part }
  begins : part <+: data
  all : d.error = none -> part = data
  blocked : forall error, d.error = some error ->
    out.Blocked (out.written.length + part.length) error

theorem sendWithin_carries (timeout : Nat) (out : Outgoing) (data : Bytes) (now : Nat) :
    exists part : Bytes, (sendWithin timeout out data now).Carries out data part := by
  have hreaches := out.reaches_sendWithin out.written.length (Nat.le_refl data.length)
  unfold sendWithin Outgoing.send
  simp only
  generalize out.sendWithin data.length out.written.length data.length = ended at *
  rcases ended with ⟨sent, held⟩
  have hle : held - out.written.length ≤ data.length := by
    have hend := hreaches.le_end
    omega
  have hlength : out.written.length + (data.take (held - out.written.length)).length = held := by
    rw [List.length_take, Nat.min_eq_left hle]
    exact Nat.add_sub_cancel' hreaches.start_le
  refine ⟨data.take (held - out.written.length), ?_⟩
  cases sent with
  | all =>
      have hall : held = out.written.length + data.length := hreaches.all rfl
      refine ⟨rfl, List.take_prefix _ _, ?_, nofun⟩
      intro _
      rw [hall, Nat.add_sub_cancel_left, List.take_length]
  | failure error =>
      refine ⟨rfl, List.take_prefix _ _, nofun, ?_⟩
      intro found hfound
      cases hfound
      rw [hlength]
      exact hreaches.failure error rfl
  | stalled =>
      refine ⟨rfl, List.take_prefix _ _, nofun, ?_⟩
      intro found hfound
      cases hfound
      rw [hlength]
      exact hreaches.stalled rfl

theorem Delivery.Carries.next {out : Outgoing} {first second part rest : Bytes} {d e : Delivery}
    (h : d.Carries out first part) (hdone : d.error = none) (hnext : e.Carries d.out second rest) :
    e.Carries out (first ++ second) (first ++ rest) := by
  have hout := h.after
  rw [h.all hdone] at hout
  rw [hout] at hnext
  refine ⟨?_, ?_, ?_, ?_⟩
  · rw [hnext.after, List.append_assoc]
  · exact (List.prefix_append_right_inj first).mpr hnext.begins
  · intro hall
    rw [hnext.all hall]
  · intro error herror
    have hblocked := (hnext.blocked error herror).of_written
    rwa [List.length_append, Nat.add_assoc, ← List.length_append] at hblocked

theorem Delivery.Carries.more {out : Outgoing} {data part : Bytes} {d : Delivery}
    (h : d.Carries out data part) {error : WireError} (herror : d.error = some error)
    (more : Bytes) : d.Carries out (data ++ more) part := by
  refine ⟨h.after, h.begins.trans (List.prefix_append _ _), ?_, h.blocked⟩
  intro hnone
  rw [herror] at hnone
  cases hnone

def due (response : Response) (policy : Option (Cors × String)) (headOnly : Bool) : Bytes :=
  response.encodeHead policy ++ if headOnly then [] else response.body

theorem deliver_carries (response : Response) (policy : Option (Cors × String)) (headOnly : Bool)
    (timeout : Nat) (out : Outgoing) (now : Nat) :
    exists part : Bytes, (deliver response policy headOnly timeout out now).Carries out
      (due response policy headOnly) part := by
  unfold deliver due
  rcases sendWithin_carries timeout out (response.encodeHead policy) now with ⟨part, hhead⟩
  generalize sendWithin timeout out (response.encodeHead policy) now = head at *
  simp only
  cases herror : head.error with
  | some error => exact ⟨part, hhead.more herror _⟩
  | none =>
      cases headOnly with
      | true =>
          refine ⟨part, ?_⟩
          rw [if_pos rfl, List.append_nil]
          exact hhead
      | false =>
          simp only [Bool.false_or, Bool.false_eq_true, if_false]
          cases hbody : response.body with
          | nil =>
              refine ⟨part, ?_⟩
              rw [List.append_nil]
              exact hhead
          | cons byte rest =>
              rcases sendWithin_carries timeout head.out (byte :: rest) head.now with
                ⟨later, hlater⟩
              exact ⟨_, hhead.next herror hlater⟩

/-! # The request and the log until then -/

structure Kept (request : Request) (log : LogQueue) (later : Request) (world : World σ) : Prop where
  method : later.method = request.method
  headers : later.headers = request.headers
  log : world.log = log

/--
The method and the header fields of a request can be seen by middlewares and handlers and not be
changed by them, and the access log is out of their reach.
-/
structure Restrained (server : Server σ) : Prop where
  middlewares : forall m, m ∈ server.middlewares -> forall (request : Request) (log : LogQueue),
    m.Maintains (Kept request log)
  handlers : forall route, route ∈ server.routes -> forall (request : Request) (log : LogQueue),
    route.handler.Leads (Kept request log) (Kept request log)

variable {server : Server σ} {request later : Request} {log : LogQueue} {world : World σ}

theorem Kept.report (h : Kept request log later world) (events : List Event) :
    Kept request log later (world.report events) :=
  ⟨h.method, h.headers, h.log⟩

theorem dispatch_kept (hserver : Restrained server) (h : Kept request log later world) :
    Kept request log (dispatch server later world).request
      (dispatch server later world).world := by
  unfold dispatch
  cases hfind : server.routes.find? server.requestLimits.maxParams later.method later.path with
  | none => exact h
  | some found =>
      rcases found with ⟨handler, params⟩
      rcases RouteTable.exists_route_of_find? hfind with ⟨route, hmem, _, hhandler, _⟩
      have hleads := hserver.handlers route hmem request log
      have hmaintains : forall m, m ∈ server.middlewares -> m.Maintains (Kept request log) := by
        intro m hm
        exact hserver.middlewares m hm request log
      have hreport : Condition.IgnoresReports (Kept (σ := σ) request log) := by
        intro later world events hkept
        exact hkept.report events
      have hrouted : Kept request log { later with params } world :=
        ⟨h.method, h.headers, h.log⟩
      rw [hhandler] at hleads
      exact (Pipeline.run_meets hleads hmaintains hreport hreport hrouted).same

theorem discardUpload_kept (h : Kept request log later world) :
    Kept request log (discardUpload later world).1 (discardUpload later world).2 := by
  unfold discardUpload
  split
  · exact h
  · simp only
    split
    · exact ⟨h.method, h.headers, h.log⟩
    · exact ⟨h.method, h.headers, h.log⟩

theorem discardUnclaimed_kept {answer : Answer σ}
    (h : Kept request log answer.request answer.world) :
    Kept request log (discardUnclaimed answer).request (discardUnclaimed answer).world := by
  unfold discardUnclaimed
  split
  · exact h
  · split
    · exact h
    · exact discardUpload_kept h

theorem respond_kept (hserver : Restrained server) {peer : SocketAddress} {source : Incoming}
    (h : (firstReading server peer source).result = .ok request) (world : World σ)
    (hlog : world.log = log) :
    let answer := respond server (firstReading server peer source).reader
      (firstReading server peer source).source request world
    Kept request log answer.request answer.world := by
  rcases readRequest_ok server peer source h with ⟨length, _, hbody⟩
  have hspec : BodySpec server source.unread length request world _ :=
    receiveBody_spec hbody world
  have hreceived := (receiveBody_log server (firstReading server peer source).reader
    (firstReading server peer source).source request world).trans hlog
  unfold respond
  split
  · exact ⟨rfl, rfl, hlog⟩
  · simp only
    split
    · exact ⟨rfl, rfl, hreceived⟩
    · exact ⟨rfl, rfl, hreceived⟩
    · next whole hwhole =>
      rcases (hspec.ok whole hwhole).right.head with ⟨hmethod, _, hheaders⟩
      exact discardUnclaimed_kept (dispatch_kept hserver ⟨hmethod, hheaders, hreceived⟩)

/-! # The response and the log -/

/-- A policy applies: the server has it, and the first field for the origin of the request that was
read has one of its origins. -/
structure Applies (server : Server σ) (read : Except Fault Request) (cors : Cors)
    (origin : String) : Prop where
  configured : server.cors = some cors
  first : exists request : Request,
    read = .ok request ∧ Header.IsFirst request.headers "origin" origin
  listed : origin ∈ cors.origins

def asksForHead (read : Except Fault Request) : Bool :=
  match read with
  | .ok request => request.method = .head
  | .error _ => false

structure Answered (server : Server σ) (read : Except Fault Request) (out : Outgoing)
    (world : World σ) (response : Response) (policy : Option (Cors × String)) (part : Bytes)
    (served : Served σ) : Prop where
  applies : forall (cors : Cors) (origin : String),
    policy = some (cors, origin) ↔ Applies server read cors origin
  head : response.encodeHead policy = response.opening ++ Cors.linesOf policy ++ Bytes.crlf
  written : served.out.written = out.written ++ part
  begins : part <+: due response policy (asksForHead read)
  headFirst : (response.encodeHead policy).length < part.length ->
    response.encodeHead policy <+: part
  complete : part = due response policy (asksForHead read) ∨
    exists error : WireError, out.Blocked (out.written.length + part.length) error
  logged : exists (entry : LogEntry) (before : World σ),
    served.world = enterLog server entry before ∧ before.log = world.log ∧
      entry.status = response.status.code ∧ entry.bodySize = response.body.length

variable {read : Except Fault Request} {out : Outgoing} {response : Response}
  {policy : Option (Cors × String)} {part : Bytes} {served : Served σ}

theorem Delivery.Carries.answered {d : Delivery}
    (h : d.Carries out (due response policy (asksForHead read)) part)
    (hpolicy : forall (cors : Cors) (origin : String),
      policy = some (cors, origin) ↔ Applies server read cors origin)
    (hout : served.out = d.out.close)
    (hlogged : exists (entry : LogEntry) (before : World σ),
      served.world = enterLog server entry before ∧ before.log = world.log ∧
        entry.status = response.status.code ∧ entry.bodySize = response.body.length) :
    Answered server read out world response policy part served := by
  refine ⟨hpolicy, response.encodeHead_eq policy, ?_, h.begins, ?_, ?_, hlogged⟩
  · rw [hout, h.after]
    rfl
  · intro hlonger
    exact List.prefix_of_prefix_length_le (List.prefix_append _ _) h.begins
      (Nat.le_of_lt hlonger)
  · cases herror : d.error with
    | none => exact Or.inl (h.all herror)
    | some error => exact Or.inr ⟨error, h.blocked error herror⟩

theorem Answered.written_unbounded
    (h : Answered server read .unbounded world response policy part served) :
    served.out.written = due response policy (asksForHead read) := by
  rcases h.complete with hall | ⟨error, hblocked⟩
  · rw [h.written, hall]
    exact List.nil_append _
  · exact absurd hblocked (Outgoing.not_blocked_unbounded _ error)

theorem Answered.exists_line (h : Answered server read out world response policy part served)
    (hkeeps : server.keepsLog = true) (hopen : world.log.isOpen = true)
    (hroom : world.log.lines.length < world.log.capacity) :
    exists line : LogLine, served.world.log.lines = world.log.lines ++ [line] := by
  rcases h.logged with ⟨entry, before, hworld, hlog, _, _⟩
  rw [hworld, enterLog, if_pos hkeeps, hlog, LogQueue.record, hopen,
    if_neg (by decide), if_neg (Nat.not_le_of_lt hroom)]
  exact ⟨_, rfl⟩

theorem not_applies_of_error {fault : Fault} {cors : Cors} {origin : String} :
    ¬ Applies server (.error fault) cors origin := by
  intro h
  rcases h.first with ⟨request, hread, _⟩
  cases hread

theorem applied?_eq_some_iff {cors : Cors} {origin : String}
    (hheaders : later.headers = request.headers) :
    Cors.applied? server.cors (later.header? "origin") = some (cors, origin) ↔
      Applies server (.ok request) cors origin := by
  rw [Request.header?, hheaders, Cors.applied?_eq_some_iff]
  constructor
  · intro h
    exact ⟨h.left, ⟨request, rfl, h.right.left⟩, h.right.right⟩
  · intro h
    rcases h.first with ⟨found, hread, hfirst⟩
    cases hread
    exact ⟨h.configured, hfirst, h.listed⟩

/-- What a connection has done in the end: nothing without a response, and else all that is due. -/
def Accounted (server : Server σ) (read : Except Fault Request) (out : Outgoing) (world : World σ)
    (served : Served σ) : Prop :=
  match served.response with
  | none => served.out.written = out.written ∧ served.world.log = world.log
  | some response => exists (policy : Option (Cors × String)) (part : Bytes),
      Answered server read out world response policy part served

theorem reject_accounted (server : Server σ) (peer : SocketAddress) (fault : Fault)
    (started : Nat) (out : Outgoing) {world start : World σ} (hlog : world.log = start.log) :
    Accounted server (.error fault) out start (reject server peer fault started out world) := by
  unfold reject
  simp only
  cases Response.ofFault? fault with
  | none => exact ⟨rfl, hlog⟩
  | some response =>
      rcases deliver_carries response none false server.connectionLimits.writeTimeout out
        (world.report [.headRejected fault]).clock with ⟨part, hpart⟩
      refine ⟨none, part, Delivery.Carries.answered hpart ?_ rfl ⟨_, _, rfl, hlog, rfl, rfl⟩⟩
      intro cors origin
      exact iff_of_false nofun not_applies_of_error

theorem conclude_answered {answer : Answer σ} {start : World σ}
    (h : Kept request start.log answer.request answer.world) (response : Response) (started : Nat)
    (out : Outgoing) :
    exists part : Bytes, Answered server (.ok request) out start response
      (Cors.applied? server.cors (answer.request.header? "origin")) part
      (conclude server answer response started out) := by
  have hpolicy : forall (cors : Cors) (origin : String),
      Cors.applied? server.cors (answer.request.header? "origin") = some (cors, origin) ↔
        Applies server (.ok request) cors origin := by
    intro cors origin
    exact applied?_eq_some_iff h.headers
  -- The request as the pipeline has left it stands for the one that was read.
  have hhead : decide (answer.request.method = .head) = asksForHead (.ok request) := by
    rw [h.method]
    rfl
  unfold conclude
  simp only
  generalize Cors.applied? server.cors (answer.request.header? "origin") = policy at *
  rw [hhead]
  rcases deliver_carries response policy (asksForHead (.ok request))
    server.connectionLimits.writeTimeout out answer.world.clock with ⟨part, hpart⟩
  generalize deliver response policy (asksForHead (.ok request))
    server.connectionLimits.writeTimeout out answer.world.clock = sent at *
  exact ⟨part, hpart.answered hpolicy rfl ⟨_, _, rfl, h.log, rfl, rfl⟩⟩

theorem finish_accounted {answer : Answer σ} (start : World σ)
    (h : Kept request start.log answer.request answer.world) (started : Nat) (out : Outgoing) :
    Accounted server (.ok request) out start (finish server answer started out) := by
  unfold finish
  split
  · exact ⟨rfl, h.log⟩
  · exact ⟨rfl, h.log⟩
  · next response _ => exact ⟨_, conclude_answered h response started out⟩

/--
A connection without a response writes nothing and logs nothing.  One that has a response writes a
beginning of its head and its body, all of it unless no further byte can be written, and no byte of
the body before the head; of the response to a request for the head it writes no body.  The head
shows the policy exactly where it applies to the request that was read.  Whatever has been written,
the response is logged once, with its status and the length of its whole body.
-/
theorem serve_accounted (hserver : Restrained server) (peer : SocketAddress)
    (arrivals : List Arrival) (out : Outgoing) (world : World σ) :
    Accounted server (firstReading server peer ⟨arrivals, world.clock⟩).result out world
      (serve server peer arrivals out world) := by
  by_cases hbuffer : server.requestLimits.bufferSize ≤ Buffer.maxSize
  · rw [serve_of_le hbuffer, serveWith]
    cases hresult : (firstReading server peer ⟨arrivals, world.clock⟩).result with
    | error fault => exact reject_accounted server peer fault _ out rfl
    | ok request =>
        have hkept := respond_kept hserver hresult
          { world with clock := (firstReading server peer ⟨arrivals, world.clock⟩).source.now } rfl
        exact finish_accounted world hkept world.uptime out
  · rw [serve_of_lt (Nat.lt_of_not_le hbuffer)]
    exact ⟨rfl, rfl⟩

/-! # A response of which a client takes twenty bytes -/

def listingServer : Server Unit :=
  { bareServer 64 with
    routes := [⟨.get, "/x", idle⟩]
    middlewares := [stamp]
    cors := some { origins := ["http://a"] }
    keepsLog := true }

theorem listingServer_restrained : Restrained listingServer := by
  refine ⟨?_, ?_⟩
  · intro m hmem request log
    rw [List.mem_singleton.mp hmem]
    intro x hkept
    exact hkept
  · intro route hmem request log
    rw [List.mem_singleton.mp hmem]
    intro later world hkept
    exact hkept

def listingArrivals : List Arrival :=
  Arrival.script [Utf8.encode "GET /x HTTP/1.1\r\nOrigin: http://a\r\n\r\n"]

def shortClient : Outgoing :=
  { Outgoing.unbounded with failAfter := some 20 }

def listingServed : Served Unit :=
  serve listingServer ⟨.v4 127 0 0 1, 50000, 0⟩ listingArrivals shortClient bareWorld

theorem serve_accounted_cut :
    Restrained listingServer ∧
      Accounted listingServer
        (firstReading listingServer ⟨.v4 127 0 0 1, 50000, 0⟩ ⟨listingArrivals, 0⟩).result
        shortClient bareWorld listingServed ∧
      listingServed.response.map (·.status) = some .noContent ∧
      listingServed.out.written.length = 20 ∧ listingServed.world.log.lines.length = 1 := by
  have haccounted := serve_accounted listingServer_restrained ⟨.v4 127 0 0 1, 50000, 0⟩
    listingArrivals shortClient bareWorld
  have hserved : listingServed.response.map (·.status) = some .noContent ∧
      listingServed.out.written.length = 20 ∧ listingServed.world.log.lines.length = 1 := by
    decide +kernel
  exact ⟨listingServer_restrained, haccounted, hserved⟩

end Connection
end HttpEngine
