import HttpEngine.Connection
import HttpEngine.Proofs.Stream.Receiving

/-!
# Where a request ends

How many of the bytes that a client sends belong to its request follows from these bytes: the head
goes up to the first blank line within the room of the reader, and the body is as long as the head
says, unless the server does not wait for it.  Two clients whose requests consist of the same bytes
have the same head and the same body, whatever else they send.
-/

namespace HttpEngine

/-! # The length of a head -/

theorem headLength?_take {bytes : Bytes} {length : Nat} (h : headLength? bytes = some length) :
    headLength? (bytes.take length) = some length := by
  rcases Option.map_eq_some_iff.mp h with ⟨⟨front, rest⟩, hcut, hlength⟩
  have hsplit := eq_append_of_cut? hcut
  simp only at hlength
  have htake : bytes.take length = front ++ Bytes.blankLine := by
    rw [hsplit, ← hlength, ← List.length_append, List.take_left]
  have hmark : (cut? Bytes.blankLine (bytes.take length)).isSome :=
    cut?_isSome_iff.mpr (htake ▸ (List.suffix_append front Bytes.blankLine).isInfix)
  rcases Option.isSome_iff_exists.mp hmark with ⟨⟨front', rest'⟩, hcut'⟩
  have hwhole := cut?_append_of_some hcut' (bytes.drop length)
  rw [List.take_append_drop, hcut] at hwhole
  cases hwhole
  rw [headLength?, hcut']
  exact congrArg some hlength

theorem headLength?_take_of_le {bytes : Bytes} {short long length : Nat}
    (h : headLength? (bytes.take short) = some length) (hle : short ≤ long) :
    headLength? (bytes.take long) = some length := by
  have hgrown := headLength?_append h ((bytes.take long).drop short)
  have hfirst : bytes.take short = (bytes.take long).take short := by
    rw [List.take_take, Nat.min_eq_left hle]
  rwa [hfirst, List.take_append_drop] at hgrown

theorem headLength?_of_take_eq {bytes others : Bytes} {room length stop stop' : Nat}
    (h : headLength? (bytes.take room) = some length) (hstop : length ≤ stop)
    (hsame : bytes.take stop = others.take stop') :
    headLength? (others.take room) = some length ∧ bytes.take length = others.take length := by
  have hroom : length ≤ room ∧ length ≤ bytes.length := by
    have hle := headLength?_le h
    rw [List.length_take] at hle
    omega
  have hstop' : length ≤ stop' := by
    have hlengths := congrArg List.length hsame
    simp only [List.length_take] at hlengths
    omega
  have htake : bytes.take length = others.take length := by
    have hinner := congrArg (List.take length) hsame
    rwa [List.take_take, List.take_take, Nat.min_eq_left hstop, Nat.min_eq_left hstop'] at hinner
  refine ⟨?_, htake⟩
  have hhead := headLength?_take h
  rw [List.take_take, Nat.min_eq_left hroom.left, htake] at hhead
  exact headLength?_take_of_le hhead hroom.left

theorem Reader.HeadRead.found {r : Reader} {source : Incoming} {stream head : Bytes}
    {reading : Reading Bytes} (h : HeadRead r source stream reading)
    (hok : reading.result = .ok head) :
    headLength? (stream.take r.capacity) = some head.length := by
  have hfound := (h.ok head hok).left
  rw [h.holds.bytes_eq_take] at hfound
  apply headLength?_take_of_le hfound
  rw [← h.capacity]
  exact h.holds.room

theorem Reader.HeadRead.missing {r : Reader} {source : Incoming} {stream : Bytes}
    {reading : Reading Bytes} (h : HeadRead r source stream reading) (hp : source.Prompt)
    {fault : Fault} (herror : reading.result = .error fault) :
    headLength? (stream.take r.capacity) = none ∧
      fault = if r.capacity ≤ stream.length then .headersTooLarge else .connectionClosed := by
  have hnone := h.error fault herror
  rcases (h.prompt hp).right.right fault herror with ⟨hfault, hfull⟩ | ⟨hfault, hroom, hempty⟩
  · have hle := h.holds.length_le
    rw [hfull] at hle
    rw [h.holds.bytes_eq_take, hfull] at hnone
    rw [if_pos hle]
    exact ⟨hnone, hfault⟩
  · have hall := h.holds.bytes
    rw [hempty, List.append_nil] at hall
    rw [hall] at hnone hroom
    rw [List.take_of_length_le (Nat.le_of_lt hroom), if_neg (Nat.not_le_of_lt hroom)]
    exact ⟨hnone, hfault⟩

def Request.isKeptInMemory (request : Request) : Bool :=
  match request.contentType? with
  | some contentType => Connection.staysInMemory contentType
  | none => true

theorem Request.isKeptInMemory_of_some {request : Request} {contentType : String}
    (h : request.contentType? = some contentType) :
    request.isKeptInMemory = Connection.staysInMemory contentType := by
  rw [isKeptInMemory, h]

theorem Request.isKeptInMemory_of_none {request : Request} (h : request.contentType? = none) :
    request.isKeptInMemory = true := by
  rw [isKeptInMemory, h]

namespace Connection

variable {σ : Type}

/-! # The end of a request -/

/-- The length of the body that is awaited behind a head: none for a preflight request, and none for
a body that has no room in memory. -/
def awaited (server : Server σ) (headLength : Nat) (request : Request) : Nat :=
  if request.method = .options then 0
  else if request.isKeptInMemory ∧
      server.requestLimits.bufferSize < headLength + request.contentLength then 0
  else request.contentLength

def decodeFirst (server : Server σ) (peer : SocketAddress) (bytes : Bytes) (headLength : Nat) :
    Except Fault Request :=
  Request.decode (bytes.take headLength) peer server.requestLimits
    server.limits.trustForwardedFor

/-- How many of the bytes that a client sends belong to its request. -/
def requestEnd (server : Server σ) (peer : SocketAddress) (bytes : Bytes) : Nat :=
  match headLength? (bytes.take server.requestLimits.bufferSize) with
  | none => server.requestLimits.bufferSize
  | some length =>
      match decodeFirst server peer bytes length with
      | .ok request => length + awaited server length request
      | .error _ => length

def requestBytes (server : Server σ) (peer : SocketAddress) (bytes : Bytes) : Bytes :=
  bytes.take (requestEnd server peer bytes)

variable {server : Server σ} {peer : SocketAddress} {bytes others : Bytes}

theorem le_requestEnd {length : Nat}
    (h : headLength? (bytes.take server.requestLimits.bufferSize) = some length) :
    length ≤ requestEnd server peer bytes := by
  unfold requestEnd
  rw [h]
  simp only
  split
  · exact Nat.le_add_right _ _
  · exact Nat.le_refl _

theorem headLength?_of_requestBytes_eq
    (hsame : requestBytes server peer bytes = requestBytes server peer others) :
    headLength? (others.take server.requestLimits.bufferSize) =
      headLength? (bytes.take server.requestLimits.bufferSize) := by
  cases hbytes : headLength? (bytes.take server.requestLimits.bufferSize) with
  | some length => exact (headLength?_of_take_eq hbytes (le_requestEnd hbytes) hsame).left
  | none =>
      cases hothers : headLength? (others.take server.requestLimits.bufferSize) with
      | none => rfl
      | some length =>
          have hfound := headLength?_of_take_eq hothers (le_requestEnd hothers) hsame.symm
          rw [hbytes] at hfound
          cases hfound.left

theorem take_headLength_eq {length : Nat}
    (hsame : requestBytes server peer bytes = requestBytes server peer others)
    (h : headLength? (bytes.take server.requestLimits.bufferSize) = some length) :
    bytes.take length = others.take length :=
  (headLength?_of_take_eq h (le_requestEnd h) hsame).right

theorem take_awaited_eq {length : Nat} {request : Request}
    (hsame : requestBytes server peer bytes = requestBytes server peer others)
    (h : headLength? (bytes.take server.requestLimits.bufferSize) = some length)
    (hdecode : decodeFirst server peer bytes length = .ok request) :
    (bytes.drop length).take (awaited server length request) =
      (others.drop length).take (awaited server length request) := by
  have hothers := headLength?_of_requestBytes_eq hsame
  rw [h] at hothers
  have hdecode' : decodeFirst server peer others length = .ok request := by
    rw [← hdecode, decodeFirst, decodeFirst, take_headLength_eq hsame h]
  unfold requestBytes requestEnd at hsame
  rw [h, hothers] at hsame
  simp only [hdecode, hdecode'] at hsame
  have hdrop := congrArg (List.drop length) hsame
  rwa [List.drop_take, List.drop_take, Nat.add_sub_cancel_left] at hdrop

theorem bufferSize_le_iff
    (hsame : requestBytes server peer bytes = requestBytes server peer others)
    (h : headLength? (bytes.take server.requestLimits.bufferSize) = none) :
    server.requestLimits.bufferSize ≤ others.length ↔
      server.requestLimits.bufferSize ≤ bytes.length := by
  have hothers := headLength?_of_requestBytes_eq hsame
  rw [h] at hothers
  unfold requestBytes requestEnd at hsame
  rw [h, hothers] at hsame
  have hlengths := congrArg List.length hsame
  simp only [List.length_take] at hlengths
  omega

/-! # The buffer for the head -/

theorem serve_of_le {server : Server σ} (h : server.requestLimits.bufferSize ≤ Buffer.maxSize)
    (peer : SocketAddress) (arrivals : List Arrival) (out : Outgoing) (world : World σ) :
    serve server peer arrivals out world =
      serveWith (.new server.requestLimits.bufferSize) server peer arrivals out world := by
  unfold serve Reader.allocate
  rw [Buffer.allocate_eq_done_iff.mpr ⟨h, rfl⟩]
  rfl

theorem serve_of_lt {server : Server σ} (h : Buffer.maxSize < server.requestLimits.bufferSize)
    (peer : SocketAddress) (arrivals : List Arrival) (out : Outgoing) (world : World σ) :
    serve server peer arrivals out world =
      { response := none, request := none, panic := some .capacityOverflow, calls := [],
        handlerInvoked := false, out, world } := by
  unfold serve Reader.allocate Buffer.allocate
  rw [if_neg (Nat.not_le_of_lt h)]
  rfl

/-! # Heads of clients that do not wait -/

def headOutcome (server : Server σ) (peer : SocketAddress) (bytes : Bytes) :
    Except Fault Request :=
  match headLength? (bytes.take server.requestLimits.bufferSize) with
  | some length => decodeFirst server peer bytes length
  | none =>
      .error (if server.requestLimits.bufferSize ≤ bytes.length then .headersTooLarge
        else .connectionClosed)

theorem headOutcome_eq
    (hsame : requestBytes server peer bytes = requestBytes server peer others) :
    headOutcome server peer others = headOutcome server peer bytes := by
  unfold headOutcome
  rw [headLength?_of_requestBytes_eq hsame]
  cases h : headLength? (bytes.take server.requestLimits.bufferSize) with
  | some length =>
      simp only [decodeFirst]
      rw [take_headLength_eq hsame h]
  | none =>
      simp only [bufferSize_le_iff hsame h]

structure AtBody (server : Server σ) (bytes : Bytes) (length : Nat) (reading : Reading Request) :
    Prop where
  holds : reading.reader.Holds reading.source bytes
  capacity : reading.reader.capacity = server.requestLimits.bufferSize
  headLength : reading.reader.headLength = length
  found : headLength? (bytes.take server.requestLimits.bufferSize) = some length
  le : length ≤ reading.reader.bytes.length

theorem AtBody.length_le {length : Nat} {reading : Reading Request}
    (h : AtBody server bytes length reading) : length ≤ bytes.length :=
  Nat.le_trans h.le h.holds.length_le

theorem AtBody.rest {length : Nat} {reading : Reading Request}
    (h : AtBody server bytes length reading) :
    reading.reader.buffered ++ reading.source.unread = bytes.drop length := by
  rw [Reader.buffered_eq, h.headLength, ← h.holds.bytes, List.drop_append_of_le_length h.le]

theorem readRequest_ok (server : Server σ) (peer : SocketAddress) (source : Incoming)
    {request : Request}
    (h : (readRequest server peer (.new server.requestLimits.bufferSize) source).result =
      .ok request) :
    exists length : Nat, decodeFirst server peer source.unread length = .ok request ∧
      AtBody server source.unread length
        (readRequest server peer (.new server.requestLimits.bufferSize) source) := by
  have hspec := Reader.readHead_spec server.requestLimits.bufferSize source
    server.connectionLimits.idleTimeout server.connectionLimits.readTimeout
  unfold readRequest at h ⊢
  generalize (Reader.new server.requestLimits.bufferSize).readHead source
    server.connectionLimits.idleTimeout server.connectionLimits.readTimeout = reading at *
  simp only at h ⊢
  cases hresult : reading.result with
  | error fault =>
      rw [hresult] at h
      cases h
  | ok head =>
      rw [hresult] at h
      rcases hspec.ok head hresult with ⟨hfound, hlength, hhead⟩
      refine ⟨head.length, ?_, hspec.holds, hspec.capacity, hlength, hspec.found hresult,
        headLength?_le hfound⟩
      rw [decodeFirst, ← hhead]
      exact h

theorem readRequest_prompt (server : Server σ) (peer : SocketAddress) {source : Incoming}
    (hp : source.Prompt) :
    (readRequest server peer (.new server.requestLimits.bufferSize) source).result =
        headOutcome server peer source.unread ∧
      (readRequest server peer (.new server.requestLimits.bufferSize) source).source.Prompt ∧
      (readRequest server peer (.new server.requestLimits.bufferSize) source).source.now =
        source.now := by
  have hspec := Reader.readHead_spec server.requestLimits.bufferSize source
    server.connectionLimits.idleTimeout server.connectionLimits.readTimeout
  unfold readRequest
  generalize (Reader.new server.requestLimits.bufferSize).readHead source
    server.connectionLimits.idleTimeout server.connectionLimits.readTimeout = reading at *
  rcases hspec.prompt hp with ⟨hprompt, hnow, _⟩
  refine ⟨?_, hprompt, hnow⟩
  unfold headOutcome
  cases hresult : reading.result with
  | ok head =>
      have hfound : headLength? (source.unread.take server.requestLimits.bufferSize) =
          some head.length := hspec.found hresult
      rw [hfound]
      simp only [hresult]
      rw [decodeFirst, ← (hspec.ok head hresult).right.right]
      rfl
  | error fault =>
      rcases hspec.missing hp hresult with ⟨hnone, hfault⟩
      have hnone' : headLength? (source.unread.take server.requestLimits.bufferSize) = none :=
        hnone
      rw [hnone']
      simp only [hresult, hfault]
      rfl

theorem readRequest_script (server : Server σ) (peer : SocketAddress) (pieces : List Bytes)
    (now : Nat) :
    (readRequest server peer (.new server.requestLimits.bufferSize)
      ⟨Arrival.script pieces, now⟩).result = headOutcome server peer pieces.flatten := by
  have hprompt : Incoming.Prompt ⟨Arrival.script pieces, now⟩ := ⟨pieces, rfl⟩
  rw [(readRequest_prompt server peer hprompt).left, Incoming.unread_script]

end Connection
end HttpEngine
