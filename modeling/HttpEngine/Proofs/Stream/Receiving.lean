import HttpEngine.Proofs.Stream.Arrivals
import HttpEngine.Proofs.Text.Search
import HttpEngine.Stream.Reader

/-!
# What a reader receives

The bytes that a reader holds and those that are still to come are always the whole of what the
client sends.  So a head is the beginning of these bytes up to their first blank line, and a body
kept in memory is what follows it, however the bytes were cut into reads.  For a client that does
not wait, the bytes alone decide which of the outcomes comes about.
-/

namespace HttpEngine

def headLength? (bytes : Bytes) : Option Nat :=
  (cut? Bytes.blankLine bytes).map fun (front, _) => front.length + Bytes.blankLine.length

theorem headLength?_eq_none_iff {bytes : Bytes} :
    headLength? bytes = none ↔ cut? Bytes.blankLine bytes = none := by
  simp [headLength?]

theorem headLength?_le {bytes : Bytes} {length : Nat} (h : headLength? bytes = some length) :
    length ≤ bytes.length := by
  rcases Option.map_eq_some_iff.mp h with ⟨⟨front, rest⟩, hcut, hlength⟩
  have hsplit := congrArg List.length (eq_append_of_cut? hcut)
  simp only [List.length_append] at hsplit hlength
  omega

theorem headLength?_append {bytes : Bytes} {length : Nat} (h : headLength? bytes = some length)
    (more : Bytes) : headLength? (bytes ++ more) = some length := by
  rcases Option.map_eq_some_iff.mp h with ⟨⟨front, rest⟩, hcut, hlength⟩
  exact Option.map_eq_some_iff.mpr ⟨(front, rest ++ more), cut?_append_of_some hcut more, hlength⟩

namespace Reader

def bytes (r : Reader) : Bytes :=
  r.received.toList

theorem slice_eq (r : Reader) (start stop : Nat) :
    r.slice start stop = (r.bytes.take stop).drop start := by
  simp [slice, bytes, List.drop_take]

theorem slice_to_end (r : Reader) (start : Nat) :
    r.slice start r.received.size = r.bytes.drop start := by
  rw [slice_eq, List.take_of_length_le (by simp [bytes])]

theorem buffered_eq (r : Reader) : r.buffered = r.bytes.drop r.headLength :=
  slice_to_end r r.headLength

@[simp] theorem size_received (r : Reader) : r.received.size = r.bytes.length := by
  simp [bytes]

@[simp] theorem bytes_extend (r : Reader) (data : Bytes) :
    bytes { r with received := r.received ++ data } = r.bytes ++ data := by
  simp [bytes]

/-! # The search for the blank line -/

theorem headEnd?_zero (r : Reader) : r.headEnd? 0 = headLength? r.bytes := by
  simp [headEnd?, headLength?, slice_to_end, -size_received]

theorem headEnd?_searched {r : Reader} (h : headLength? r.bytes = none) (data : Bytes) :
    headEnd? { r with received := r.received ++ data } r.searched =
      headLength? (r.bytes ++ data) := by
  have hsearched : r.searched ≤ r.bytes.length + 1 - Bytes.blankLine.length := by
    simp only [searched, size_received, Bytes.blankLine, List.length_cons, List.length_nil]
    omega
  have hle : r.searched ≤ r.bytes.length := by
    rw [searched, size_received]
    exact Nat.sub_le _ _
  rw [headLength?, cut?_append_of_none (headLength?_eq_none_iff.mp h) hsearched, headEnd?,
    slice_to_end, bytes_extend, List.drop_append_of_le_length hle, Option.map_map]
  congr 1
  funext cut
  simp only [Function.comp, List.length_append, List.length_take_of_le hle]

/-! # Holding what was sent -/

structure Holds (r : Reader) (source : Incoming) (stream : Bytes) : Prop where
  bytes : r.bytes ++ source.unread = stream
  room : r.bytes.length ≤ r.capacity

variable {r : Reader} {source : Incoming} {stream : Bytes}

theorem Holds.bytes_eq_take (h : r.Holds source stream) :
    r.bytes = stream.take r.bytes.length := by
  rw [← h.bytes, List.take_left]

theorem Holds.length_le (h : r.Holds source stream) : r.bytes.length ≤ stream.length := by
  have hlength := congrArg List.length h.bytes
  simp only [List.length_append] at hlength
  omega

structure Filled (r : Reader) (source : Incoming) (stream : Bytes) (step : Reading Unit) :
    Prop where
  holds : step.reader.Holds step.source stream
  ok : step.result = .ok () -> exists data : Bytes, data ≠ [] ∧
    step.reader = { r with received := r.received ++ data }
  error : forall fault, step.result = .error fault -> step.reader = r
  prompt : source.Prompt -> step.source.Prompt ∧ step.source.now = source.now ∧
    forall fault, step.result = .error fault ->
      fault = .connectionClosed ∧ step.source.unread = []

theorem Holds.fill (h : r.Holds source stream) (hroom : r.bytes.length < r.capacity)
    (timeout : Nat) : Filled r source stream (r.fill source timeout) := by
  have hleft : 0 < r.capacity - r.received.size := by
    rw [size_received]
    omega
  have hspec := source.read_spec hleft (min timeout longestWait)
  have hprompt := fun hp : source.Prompt =>
    hp.read (r.capacity - r.received.size) (min timeout longestWait)
  unfold Reader.fill
  generalize source.read (r.capacity - r.received.size) (min timeout longestWait) = outcome at *
  rcases outcome with ⟨received, after⟩
  simp only at hspec hprompt ⊢
  cases hresult : received.result with
  | ok data =>
      rcases Received.bytes_of_ok hresult with ⟨hbytes, hne⟩
      rw [hbytes] at hspec
      constructor
      · constructor
        · rw [bytes_extend, List.append_assoc, hspec.right, h.bytes]
        · rw [size_received] at hspec
          rw [bytes_extend, List.length_append]
          show r.bytes.length + data.length ≤ r.capacity
          omega
      · intro _
        exact ⟨data, hne, rfl⟩
      · intro fault herror
        cases herror
      · intro hp
        refine ⟨(hprompt hp).prompt, (hprompt hp).now, ?_⟩
        intro fault herror
        cases herror
  | error fault =>
      have hbytes := Received.bytes_of_error hresult
      rw [hbytes, List.nil_append] at hspec
      constructor
      · constructor
        · show r.bytes ++ after.unread = stream
          rw [hspec.right, h.bytes]
        · exact h.room
      · intro hok
        cases hok
      · intro _ _
        rfl
      · intro hp
        refine ⟨(hprompt hp).prompt, (hprompt hp).now, ?_⟩
        intro other herror
        cases herror
        rcases (hprompt hp).ended fault hresult with ⟨hclosed, hempty⟩
        exact ⟨hclosed, hspec.right.trans hempty⟩

/-! # Receiving a head -/

/--
What receiving a head comes to: the beginning of the bytes up to the blank line, or a failure while
no blank line had come.  If the client does not wait, there is a failure only when the room is used
up, or when all has come and there is still room.
-/
structure HeadRead (r : Reader) (source : Incoming) (stream : Bytes) (reading : Reading Bytes) :
    Prop where
  holds : reading.reader.Holds reading.source stream
  capacity : reading.reader.capacity = r.capacity
  ok : forall head, reading.result = .ok head ->
    headLength? reading.reader.bytes = some head.length ∧
      reading.reader.headLength = head.length ∧ head = stream.take head.length
  error : forall fault, reading.result = .error fault -> headLength? reading.reader.bytes = none
  prompt : source.Prompt -> reading.source.Prompt ∧ reading.source.now = source.now ∧
    forall fault, reading.result = .error fault ->
      (fault = .headersTooLarge ∧ reading.reader.bytes.length = r.capacity) ∨
      (fault = .connectionClosed ∧ reading.reader.bytes.length < r.capacity ∧
        reading.source.unread = [])

theorem Holds.head_found (h : r.Holds source stream) {length : Nat}
    (hfound : headLength? r.bytes = some length) :
    HeadRead r source stream ⟨.ok (r.slice 0 length), { r with headLength := length }, source⟩ := by
  have hle : length ≤ r.bytes.length := headLength?_le hfound
  have hhead : r.slice 0 length = stream.take length := by
    rw [slice_eq, List.drop_zero, ← h.bytes, List.take_append_of_le_length hle]
  have hlength : (r.slice 0 length).length = length := by
    rw [hhead, List.length_take, Nat.min_eq_left (Nat.le_trans hle h.length_le)]
  constructor
  · exact ⟨h.bytes, h.room⟩
  · rfl
  · intro head hok
    cases hok
    rw [hlength]
    exact ⟨hfound, rfl, hhead⟩
  · intro fault herror
    cases herror
  · intro hp
    refine ⟨hp, rfl, ?_⟩
    intro fault herror
    cases herror

theorem Holds.head_full (h : r.Holds source stream) (hnone : headLength? r.bytes = none)
    (hfull : r.capacity ≤ r.bytes.length) :
    HeadRead r source stream ⟨.error .headersTooLarge, r, source⟩ := by
  constructor
  · exact h
  · rfl
  · intro head hok
    cases hok
  · intro _ _
    exact hnone
  · intro hp
    refine ⟨hp, rfl, ?_⟩
    intro fault herror
    cases herror
    exact Or.inl ⟨rfl, Nat.le_antisymm h.room hfull⟩

theorem Filled.head_lost {step : Reading Unit} {fault : Fault} (h : Filled r source stream step)
    (hnone : headLength? r.bytes = none) (hroom : r.bytes.length < r.capacity)
    (hlost : step.result = .error fault) :
    HeadRead r source stream ⟨.error fault, step.reader, step.source⟩ := by
  have hreader : step.reader = r := h.error fault hlost
  constructor
  · exact h.holds
  · exact congrArg Reader.capacity hreader
  · intro head hok
    cases hok
  · intro _ _
    rw [hreader]
    exact hnone
  · intro hp
    rcases h.prompt hp with ⟨hp, hnow, hfail⟩
    refine ⟨hp, hnow, ?_⟩
    intro other herror
    cases herror
    rcases hfail fault hlost with ⟨hclosed, hempty⟩
    rw [hreader]
    exact Or.inr ⟨hclosed, hroom, hempty⟩

theorem HeadRead.of_filled {step : Reading Unit} {reading : Reading Bytes}
    (h : HeadRead step.reader step.source stream reading)
    (hfilled : Filled r source stream step) (hok : step.result = .ok ()) :
    HeadRead r source stream reading := by
  rcases hfilled.ok hok with ⟨data, _, hreader⟩
  have hcapacity : step.reader.capacity = r.capacity := by rw [hreader]
  constructor
  · exact h.holds
  · exact h.capacity.trans hcapacity
  · exact h.ok
  · exact h.error
  · intro hp
    rcases hfilled.prompt hp with ⟨hp, hnow, _⟩
    rcases h.prompt hp with ⟨hp, hlate, hfail⟩
    rw [hcapacity] at hfail
    exact ⟨hp, hlate.trans hnow, hfail⟩

theorem readHeadWithin_spec (later fuel : Nat) {r : Reader} {source : Incoming}
    (h : r.Holds source stream) (hfuel : r.capacity ≤ r.bytes.length + fuel) {start : Nat}
    (hstart : r.headEnd? start = headLength? r.bytes) (timeout : Nat) :
    HeadRead r source stream (readHeadWithin later fuel r start source timeout) := by
  -- The search goes on where no blank line can have begun before, so it finds what a search from
  -- the front would find.
  induction fuel generalizing r source start timeout with
  | zero =>
      unfold readHeadWithin
      rw [hstart]
      cases hfound : headLength? r.bytes with
      | some length => exact h.head_found hfound
      | none => exact h.head_full hfound hfuel
  | succ fuel ih =>
      unfold readHeadWithin
      rw [hstart]
      cases hfound : headLength? r.bytes with
      | some length => exact h.head_found hfound
      | none =>
          simp only [size_received]
          split
          · next hfull => exact h.head_full hfound hfull
          · next hroom =>
            have hfilled := h.fill (Nat.lt_of_not_le hroom) timeout
            cases hresult : (r.fill source timeout).result with
            | ok _ =>
                rcases hfilled.ok hresult with ⟨data, hne, hreader⟩
                have hpos : 0 < data.length := List.length_pos_iff.mpr hne
                have hnext : (r.fill source timeout).reader.headEnd? r.searched =
                    headLength? (r.fill source timeout).reader.bytes := by
                  rw [hreader, bytes_extend]
                  exact headEnd?_searched hfound data
                have hless : (r.fill source timeout).reader.capacity ≤
                    (r.fill source timeout).reader.bytes.length + fuel := by
                  rw [hreader, bytes_extend, List.length_append]
                  show r.capacity ≤ _
                  omega
                exact (ih hfilled.holds hless hnext later).of_filled hfilled hresult
            | error fault =>
                exact hfilled.head_lost hfound (Nat.lt_of_not_le hroom) hresult

theorem holds_new (capacity : Nat) (source : Incoming) :
    (new capacity).Holds source source.unread :=
  ⟨rfl, Nat.zero_le capacity⟩

theorem readHead_spec (capacity : Nat) (source : Incoming) (first later : Nat) :
    HeadRead (new capacity) source source.unread
      ((new capacity).readHead source first later) :=
  readHeadWithin_spec later _ (holds_new capacity source)
    (by simp [new, bytes]) (headEnd?_zero _) first

/-! # Receiving a body into memory -/

structure FilledTo (r : Reader) (source : Incoming) (stream : Bytes) (stop : Nat)
    (step : Reading Unit) : Prop where
  holds : step.reader.Holds step.source stream
  headLength : step.reader.headLength = r.headLength
  ok : step.result = .ok () -> stop ≤ step.reader.bytes.length
  prompt : source.Prompt -> step.source.Prompt ∧ step.source.now = source.now ∧
    forall fault, step.result = .error fault ->
      fault = .connectionClosed ∧ stream.length < stop

theorem FilledTo.of_filled {stop : Nat} {step last : Reading Unit}
    (h : FilledTo step.reader step.source stream stop last)
    (hfilled : Filled r source stream step) (hok : step.result = .ok ()) :
    FilledTo r source stream stop last := by
  rcases hfilled.ok hok with ⟨data, _, hreader⟩
  constructor
  · exact h.holds
  · rw [h.headLength, hreader]
  · exact h.ok
  · intro hp
    rcases hfilled.prompt hp with ⟨hp, hnow, _⟩
    rcases h.prompt hp with ⟨hp, hlate, hfail⟩
    exact ⟨hp, hlate.trans hnow, hfail⟩

theorem fillTo_spec {stop : Nat} (timeout fuel : Nat) {r : Reader} {source : Incoming}
    (h : r.Holds source stream) (hstop : stop ≤ r.capacity)
    (hfuel : stop ≤ r.bytes.length + fuel) :
    FilledTo r source stream stop (fillTo stop timeout fuel r source) := by
  have hdone : forall {r : Reader} {source : Incoming}, r.Holds source stream ->
      stop ≤ r.bytes.length -> FilledTo r source stream stop ⟨.ok (), r, source⟩ := by
    intro r source h hle
    refine ⟨h, rfl, fun _ => hle, fun hp => ⟨hp, rfl, ?_⟩⟩
    intro fault herror
    cases herror
  induction fuel generalizing r source with
  | zero =>
      have hle : stop ≤ r.bytes.length := hfuel
      unfold fillTo
      rw [size_received, if_pos hle]
      exact hdone h hle
  | succ fuel ih =>
      unfold fillTo
      rw [size_received]
      split
      · next hle => exact hdone h hle
      · next hless =>
        have hfilled := h.fill (by omega) timeout
        simp only
        cases hresult : (r.fill source timeout).result with
        | ok _ =>
            rcases hfilled.ok hresult with ⟨data, hne, hreader⟩
            have hpos : 0 < data.length := List.length_pos_iff.mpr hne
            have hcapacity : stop ≤ (r.fill source timeout).reader.capacity := by
              rw [hreader]
              exact hstop
            have hnext : stop ≤ (r.fill source timeout).reader.bytes.length + fuel := by
              rw [hreader, bytes_extend, List.length_append]
              omega
            exact (ih hfilled.holds hcapacity hnext).of_filled hfilled hresult
        | error fault =>
            have hreader := hfilled.error fault hresult
            constructor
            · exact hfilled.holds
            · rw [hreader]
            · intro hok
              cases hok
            · intro hp
              rcases hfilled.prompt hp with ⟨hp, hnow, hfail⟩
              refine ⟨hp, hnow, ?_⟩
              intro other herror
              cases herror
              rcases hfail fault hresult with ⟨hclosed, hempty⟩
              have hall := hfilled.holds.bytes
              rw [hempty, List.append_nil, hreader] at hall
              rw [← hall]
              exact ⟨hclosed, Nat.lt_of_not_le hless⟩

structure BodyRead (r : Reader) (source : Incoming) (stream : Bytes) (length : Nat)
    (reading : Reading Bytes) : Prop where
  ok : forall body, reading.result = .ok body ->
    r.headLength + length ≤ r.capacity ∧ r.headLength + length ≤ stream.length ∧
      body = (stream.drop r.headLength).take length
  tooLarge : r.capacity < r.headLength + length -> reading.result = .error .bodyTooLarge
  prompt : source.Prompt -> reading.source.now = source.now ∧
    forall fault, reading.result = .error fault ->
      (fault = .bodyTooLarge ∧ r.capacity < r.headLength + length) ∨
      (fault = .connectionClosed ∧ stream.length < r.headLength + length)

theorem Holds.readBody (h : r.Holds source stream) (length timeout : Nat) :
    BodyRead r source stream length (r.readBody source length timeout) := by
  unfold Reader.readBody
  simp only
  split
  · next hlarge =>
    constructor
    · intro body hok
      cases hok
    · intro _
      rfl
    · intro hp
      refine ⟨rfl, ?_⟩
      intro fault herror
      cases herror
      exact Or.inl ⟨rfl, hlarge⟩
  · next hfits =>
    have hfuel : r.headLength + length ≤
        r.bytes.length + (r.headLength + length - r.received.size) := by
      rw [size_received]
      omega
    have hspec := fillTo_spec timeout _ h (Nat.le_of_not_lt hfits) hfuel
    cases hresult : (fillTo (r.headLength + length) timeout
        (r.headLength + length - r.received.size) r source).result with
    | ok _ =>
        have hstop := hspec.ok hresult
        constructor
        · intro body hok
          cases hok
          refine ⟨Nat.le_of_not_lt hfits, Nat.le_trans hstop hspec.holds.length_le, ?_⟩
          rw [slice_eq, hspec.holds.bytes_eq_take, List.take_take, Nat.min_eq_left hstop,
            List.drop_take, Nat.add_sub_cancel_left]
        · intro hlarge
          exact absurd hlarge hfits
        · intro hp
          refine ⟨(hspec.prompt hp).right.left, ?_⟩
          intro fault herror
          cases herror
    | error fault =>
        constructor
        · intro body hok
          cases hok
        · intro hlarge
          exact absurd hlarge hfits
        · intro hp
          rcases hspec.prompt hp with ⟨_, hnow, hfail⟩
          refine ⟨hnow, ?_⟩
          intro other herror
          cases herror
          exact Or.inr (hfail fault hresult)

end Reader
end HttpEngine
