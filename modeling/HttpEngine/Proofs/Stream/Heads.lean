import HttpEngine.Proofs.Stream.Collecting

/-!
# Which head a reader receives

What comes in time decides what receiving a head comes to.  If its first blank line ends within the
room, this is the end of the head; if the room is filled before that, the head is too large; and
otherwise the fault is that of the first event that lets a read fail.  Nothing is read once the room
is used up, and what has been read beyond the head is still there for the body.
-/

namespace HttpEngine

theorem headLength?_eq_some_iff {bytes : Bytes} {length : Nat} :
    headLength? bytes = some length ↔
      exists front rest : Bytes, FirstAt Bytes.blankLine bytes front rest ∧
        length = (front ++ Bytes.blankLine).length := by
  unfold headLength?
  rw [Option.map_eq_some_iff]
  constructor
  · rintro ⟨⟨front, rest⟩, hcut, hlength⟩
    exact ⟨front, rest, cut?_eq_some_iff.mp hcut, by rw [List.length_append, ← hlength]⟩
  · rintro ⟨front, rest, hfirst, hlength⟩
    exact ⟨(front, rest), cut?_eq_some_iff.mpr hfirst, by rw [hlength, List.length_append]⟩

theorem headLength?_eq_none_iff_not_infix {bytes : Bytes} :
    headLength? bytes = none ↔ ¬ Bytes.blankLine <:+: bytes :=
  headLength?_eq_none_iff.trans cut?_eq_none_iff

namespace Supply

/-- The head within some room: up to the first blank line there, or the reason why there is none. -/
def head (s : Supply) (capacity : Nat) : Except Fault Bytes :=
  match headLength? (s.bytes.take capacity) with
  | some length => .ok (s.bytes.take length)
  | none => .error (if capacity ≤ s.bytes.length then .headersTooLarge else s.fault)

variable {s : Supply} {capacity : Nat}

/-! # One step of the search -/

theorem head_behind_of_found {data : Bytes} {length : Nat} (h : headLength? data = some length)
    (hroom : data.length ≤ capacity) (s : Supply) :
    (s.behind data).head capacity = .ok (data.take length) := by
  have hle := headLength?_le h
  have htake : (data ++ s.bytes).take capacity =
      data ++ s.bytes.take (capacity - data.length) := by
    rw [List.take_append, List.take_of_length_le hroom]
  rw [head, behind_bytes, htake, headLength?_append h]
  simp only [List.take_append_of_le_length hle]

theorem head_behind_of_full {data : Bytes} (h : headLength? data = none)
    (hfull : data.length = capacity) (s : Supply) :
    (s.behind data).head capacity = .error .headersTooLarge := by
  have htake : (data ++ s.bytes).take capacity = data := by
    rw [← hfull, List.take_left]
  have hle : capacity ≤ (data ++ s.bytes).length := by
    rw [← hfull, List.length_append]
    exact Nat.le_add_right _ _
  rw [head, behind_bytes, htake, h]
  simp only [if_pos hle]

theorem head_behind_of_fault {data : Bytes} (h : headLength? data = none)
    (hroom : data.length < capacity) (fault : Fault) :
    (behind data ⟨[], fault⟩).head capacity = .error fault := by
  rw [head, behind_bytes, List.append_nil, List.take_of_length_le (Nat.le_of_lt hroom), h]
  simp only [if_neg (Nat.not_le_of_lt hroom), behind_fault]

/-! # What a head is -/

theorem head_eq_ok_iff {bytes : Bytes} :
    s.head capacity = .ok bytes ↔
      exists front rest : Bytes, FirstAt Bytes.blankLine s.bytes front rest ∧
        bytes = front ++ Bytes.blankLine ∧ bytes.length ≤ capacity := by
  unfold head
  constructor
  · intro h
    cases hfound : headLength? (s.bytes.take capacity) with
    | none =>
        rw [hfound] at h
        cases h
    | some length =>
        rw [hfound] at h
        rcases headLength?_eq_some_iff.mp hfound with ⟨front, rest, hfirst, hlength⟩
        have hbytes : bytes = s.bytes.take length := (Except.ok.inj h).symm
        rw [hfirst.of_take.split, List.append_assoc _ _ (_ ++ _), ← List.append_assoc, hlength,
          List.take_left] at hbytes
        refine ⟨front, _, hfirst.of_take, hbytes, ?_⟩
        have hle := headLength?_le hfound
        rw [List.length_take] at hle
        rw [hbytes, ← hlength]
        omega
  · rintro ⟨front, rest, hfirst, hbytes, hroom⟩
    rw [hbytes] at hroom
    have hfound : headLength? (s.bytes.take capacity) = some bytes.length :=
      headLength?_eq_some_iff.mpr ⟨front, _, hfirst.take hroom, by rw [hbytes]⟩
    rw [hfound]
    simp only
    rw [hfirst.split, ← hbytes, List.take_left]

theorem head_eq_tooLarge_iff (hfault : s.fault ≠ .headersTooLarge) :
    s.head capacity = .error .headersTooLarge ↔
      capacity ≤ s.bytes.length ∧ ¬ Bytes.blankLine <:+: s.bytes.take capacity := by
  rw [← headLength?_eq_none_iff_not_infix, head]
  cases headLength? (s.bytes.take capacity) with
  | some length => simp
  | none =>
      by_cases hle : capacity ≤ s.bytes.length
      · simp [hle]
      · simp [hle, hfault]

theorem head_eq_error_iff {fault : Fault} (hfault : fault ≠ .headersTooLarge) :
    s.head capacity = .error fault ↔
      fault = s.fault ∧ s.bytes.length < capacity ∧ ¬ Bytes.blankLine <:+: s.bytes := by
  rw [← headLength?_eq_none_iff_not_infix, head]
  by_cases hle : capacity ≤ s.bytes.length
  · cases headLength? (s.bytes.take capacity) with
    | some length => simp [Nat.not_lt.mpr hle]
    | none => simp [hle, Nat.not_lt.mpr hle, hfault.symm]
  · have hless := Nat.lt_of_not_le hle
    rw [List.take_of_length_le (Nat.le_of_lt hless)]
    cases headLength? s.bytes with
    | some length => simp
    | none => simp [hle, hless, eq_comm]

end Supply

namespace Reader

/-! # The search and what comes in time -/

theorem readHeadWithin_result (later fuel : Nat) {r : Reader} {source : Incoming} {stream : Bytes}
    (h : r.Holds source stream) (hfuel : r.capacity ≤ r.bytes.length + fuel) {start : Nat}
    (hstart : r.headEnd? start = headLength? r.bytes) (timeout : Nat) :
    (readHeadWithin later fuel r start source timeout).result =
      (r.prospect source timeout later).head r.capacity := by
  -- What is searched is always the front of one prospect.
  induction fuel generalizing r source start timeout with
  | zero =>
      unfold readHeadWithin
      rw [hstart, prospect]
      cases hfound : headLength? r.bytes with
      | some length =>
          rw [Supply.head_behind_of_found hfound h.room]
          simp only [slice_eq, List.drop_zero]
      | none =>
          rw [Supply.head_behind_of_full hfound (Nat.le_antisymm h.room hfuel)]
  | succ fuel ih =>
      unfold readHeadWithin
      rw [hstart]
      cases hfound : headLength? r.bytes with
      | some length =>
          rw [prospect, Supply.head_behind_of_found hfound h.room]
          simp only [slice_eq, List.drop_zero]
      | none =>
          simp only [size_received]
          by_cases hfull : r.capacity ≤ r.bytes.length
          · rw [if_pos hfull, prospect,
              Supply.head_behind_of_full hfound (Nat.le_antisymm h.room hfull)]
          · rw [if_neg hfull]
            have hroom := Nat.lt_of_not_le hfull
            have hfilled := h.fill hroom timeout
            cases hresult : (r.fill source timeout).result with
            | ok _ =>
                rcases hfilled.ok hresult with ⟨data, hne, hreader⟩
                have hpos : 0 < data.length := List.length_pos_iff.mpr hne
                have hnext : (r.fill source timeout).reader.headEnd? r.searched =
                    headLength? (r.fill source timeout).reader.bytes := by
                  rw [hreader, bytes_extend]
                  exact headEnd?_searched hfound data
                have hcapacity : (r.fill source timeout).reader.capacity = r.capacity := by
                  rw [hreader]
                have hless : (r.fill source timeout).reader.capacity ≤
                    (r.fill source timeout).reader.bytes.length + fuel := by
                  rw [hcapacity, hreader, bytes_extend, List.length_append]
                  omega
                rw [prospect_fill, hresult, ← hcapacity]
                exact ih hfilled.holds hless hnext later
            | error fault =>
                rw [prospect_fill, hresult]
                exact (Supply.head_behind_of_fault hfound hroom fault).symm

theorem readHead_result (capacity : Nat) (source : Incoming) (first later : Nat) :
    ((new capacity).readHead source first later).result =
      (source.supply (min first longestWait) (min later longestWait)).head capacity :=
  readHeadWithin_result later _ (holds_new capacity source) (by simp [new, bytes])
    (headEnd?_zero _) first

/-! # Reads into no room -/

/-- The search for a head with another way of reading in the place of the usual one. -/
def readHeadThrough (read : Reader -> Incoming -> Nat -> Reading Unit) (later : Nat) :
    Nat -> Reader -> Nat -> Incoming -> Nat -> Reading Bytes
  | fuel, r, start, source, timeout =>
      match r.headEnd? start with
      | some length => ⟨.ok (r.slice 0 length), { r with headLength := length }, source⟩
      | none =>
          match fuel with
          | 0 => ⟨.error .headersTooLarge, r, source⟩
          | fuel + 1 =>
              if r.capacity ≤ r.received.size then ⟨.error .headersTooLarge, r, source⟩
              else
                let step := read r source timeout
                match step.result with
                | .ok _ => readHeadThrough read later fuel step.reader r.searched step.source later
                | .error fault => ⟨.error fault, step.reader, step.source⟩

theorem readHeadThrough_eq {read : Reader -> Incoming -> Nat -> Reading Unit}
    (hread : forall r source timeout, r.received.size < r.capacity ->
      read r source timeout = r.fill source timeout)
    (later fuel : Nat) (r : Reader) (start : Nat) (source : Incoming) (timeout : Nat) :
    readHeadThrough read later fuel r start source timeout =
      readHeadWithin later fuel r start source timeout := by
  induction fuel generalizing r start source timeout with
  | zero =>
      unfold readHeadThrough readHeadWithin
      rfl
  | succ fuel ih =>
      unfold readHeadThrough readHeadWithin
      cases r.headEnd? start with
      | some length => rfl
      | none =>
          simp only
          by_cases hfull : r.capacity ≤ r.received.size
          · rw [if_pos hfull, if_pos hfull]
          · rw [if_neg hfull, if_neg hfull, hread r source timeout (Nat.lt_of_not_le hfull)]
            cases (r.fill source timeout).result with
            | ok _ => exact ih _ _ _ _
            | error fault => rfl

/-! # Receiving a head -/

/--
What receiving a head into some room comes to: the bytes up to the first blank line, if it ends
within the room; that the head is too large, if the room is filled without one; or else the fault
behind what comes in time.
-/
structure HeadOutcome (capacity : Nat) (s : Supply) (result : Except Fault Bytes) : Prop where
  ok : forall head, result = .ok head ↔
    exists front rest : Bytes, FirstAt Bytes.blankLine s.bytes front rest ∧
      head = front ++ Bytes.blankLine ∧ head.length ≤ capacity
  tooLarge : result = .error .headersTooLarge ↔
    capacity ≤ s.bytes.length ∧ ¬ Bytes.blankLine <:+: s.bytes.take capacity
  lost : forall fault, fault ≠ .headersTooLarge -> (result = .error fault ↔
    fault = s.fault ∧ s.bytes.length < capacity ∧ ¬ Bytes.blankLine <:+: s.bytes)

/--
What is there behind a head: all that was sent behind it, and a body as long as the room allows.  A
body that is longer is refused, and nothing is read for it.
-/
structure BehindHead (head stream : Bytes) (r : Reader) (source : Incoming) : Prop where
  split : head ++ (r.buffered ++ source.unread) = stream
  tooLarge : forall length timeout,
    (r.readBody source length timeout).result = .error .bodyTooLarge ↔
      r.capacity < head.length + length
  refused : forall length timeout, r.capacity < head.length + length ->
    r.readBody source length timeout = ⟨.error .bodyTooLarge, r, source⟩
  body : forall length timeout, head.length + length ≤ r.capacity ->
    (r.readBody source length timeout).result =
      ((source.supply (min timeout longestWait) (min timeout longestWait)).behind
        r.buffered).gather length

theorem headOutcome_head (capacity : Nat) {s : Supply} (h : s.fault.Lost) :
    HeadOutcome capacity s (s.head capacity) where
  ok _ := Supply.head_eq_ok_iff
  tooLarge := Supply.head_eq_tooLarge_iff h.ne_headersTooLarge
  lost _ := Supply.head_eq_error_iff

theorem HeadRead.behind {capacity : Nat} {source : Incoming} {stream head : Bytes}
    {reading : Reading Bytes} (h : HeadRead (new capacity) source stream reading)
    (hok : reading.result = .ok head) :
    BehindHead head stream reading.reader reading.source := by
  rcases h.ok head hok with ⟨hfound, hlength, hhead⟩
  have hle := headLength?_le hfound
  have hheadLength : reading.reader.headLength ≤ reading.reader.bytes.length := by
    rw [hlength]
    exact hle
  have hbody : forall length timeout, head.length + length ≤ reading.reader.capacity ->
      (reading.reader.readBody reading.source length timeout).result =
        ((reading.source.supply (min timeout longestWait) (min timeout longestWait)).behind
          reading.reader.buffered).gather length := by
    intro length timeout hfits
    rw [← hlength] at hfits
    exact readBody_gather h.holds hheadLength hfits timeout
  have hrefused : forall length timeout, reading.reader.capacity < head.length + length ->
      reading.reader.readBody reading.source length timeout =
        ⟨.error .bodyTooLarge, reading.reader, reading.source⟩ := by
    intro length timeout hlarge
    rw [← hlength] at hlarge
    exact readBody_of_lt hlarge reading.source timeout
  constructor
  · have hfront : head = reading.reader.bytes.take head.length := by
      rw [hhead, ← h.holds.bytes, List.take_append_of_le_length hle, List.length_take,
        Nat.min_eq_left hle]
    have hwhole := List.take_append_drop head.length reading.reader.bytes
    rw [← hfront] at hwhole
    rw [buffered_eq, hlength, ← List.append_assoc, hwhole, h.holds.bytes]
  · intro length timeout
    constructor
    · intro hresult
      apply Nat.lt_of_not_le
      intro hfits
      have hlost := reading.source.supply_lost (min timeout longestWait) (min timeout longestWait)
      rw [hbody length timeout hfits] at hresult
      exact Supply.gather_behind_ne_error hlost.ne_bodyTooLarge hresult
    · intro hlarge
      rw [hrefused length timeout hlarge]
  · exact hrefused
  · exact hbody

/--
Receiving a head: what comes in time is the beginning of what is sent, and decides the outcome.
With no room nothing is read, and whatever a read into no room would do does not matter.  All that
is sent behind the head is there for the body.  No read waits for longer than the longest wait.
-/
theorem readHead_outcome (capacity : Nat) (source : Incoming) (first later : Nat) :
    let s := source.supply (min first longestWait) (min later longestWait)
    let reading := (new capacity).readHead source first later
    s.bytes <+: source.unread ∧
    HeadOutcome capacity s reading.result ∧
    (capacity = 0 -> reading = ⟨.error .headersTooLarge, new 0, source⟩) ∧
    (forall read : Reader -> Incoming -> Nat -> Reading Unit,
      (forall r source timeout, r.received.size < r.capacity ->
        read r source timeout = r.fill source timeout) ->
      readHeadThrough read later capacity (new capacity) 0 source first = reading) ∧
    forall head, reading.result = .ok head ->
      BehindHead head source.unread reading.reader reading.source := by
  intro s reading
  refine ⟨source.supply_prefix _ _, ?_, ?_, ?_, ?_⟩
  · simp only [reading, readHead_result]
    exact headOutcome_head capacity (source.supply_lost _ _)
  · intro hzero
    subst hzero
    rfl
  · intro read hread
    exact readHeadThrough_eq hread later capacity (new capacity) 0 source first
  · intro head hok
    exact (readHead_spec capacity source first later).behind hok

/-! # A wait that is longer than the longest one -/

theorem readHead_cut_short :
    let source : Incoming :=
      ⟨[.pause 600000000000, .pause 600000000000, .data Bytes.blankLine], 0⟩
    source.supply 1500000000000 0 = ⟨Bytes.blankLine, .connectionClosed⟩ ∧
    ((new 16).readHead source 1500000000000 0).result = .error .timeout := by
  exact ⟨by decide +kernel, rfl⟩

end Reader
end HttpEngine
