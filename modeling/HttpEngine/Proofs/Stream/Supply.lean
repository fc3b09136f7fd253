import HttpEngine.Proofs.Stream.Arrivals

/-!
# What comes in time

A client sends some bytes in time and then lets a read fail: it ends, its connection breaks, or a
read waits for longer than it may.  These bytes and this failure do not depend on how the bytes are
read, so that they say what any loop of reads comes to: it gets the bytes that it asks for if there
are as many, and otherwise the failure.
-/

namespace HttpEngine

/-- The bytes that come before the first event that lets a read fail, and the fault that this is. -/
structure Supply where
  bytes : Bytes
  fault : Fault
  deriving DecidableEq, Repr

inductive Fault.Lost : Fault -> Prop where
  | timeout : Lost .timeout
  | closed : Lost .connectionClosed
  | wire (error : WireError) : Lost (.wire error)

theorem Fault.Lost.ne_headersTooLarge {fault : Fault} (h : fault.Lost) :
    fault ≠ .headersTooLarge := by
  rintro rfl
  cases h

theorem Fault.Lost.ne_bodyTooLarge {fault : Fault} (h : fault.Lost) : fault ≠ .bodyTooLarge := by
  rintro rfl
  cases h

namespace Supply

def behind (data : Bytes) (s : Supply) : Supply :=
  { s with bytes := data ++ s.bytes }

def gather (s : Supply) (count : Nat) : Except Fault Bytes :=
  if count ≤ s.bytes.length then .ok (s.bytes.take count) else .error s.fault

@[simp] theorem behind_bytes (data : Bytes) (s : Supply) :
    (s.behind data).bytes = data ++ s.bytes :=
  rfl

@[simp] theorem behind_fault (data : Bytes) (s : Supply) : (s.behind data).fault = s.fault :=
  rfl

@[simp] theorem behind_behind (data more : Bytes) (s : Supply) :
    (s.behind more).behind data = s.behind (data ++ more) := by
  simp [behind]

/-! # Asking for some bytes -/

theorem gather_of_le {s : Supply} {count : Nat} (h : count ≤ s.bytes.length) :
    s.gather count = .ok (s.bytes.take count) :=
  if_pos h

theorem gather_of_lt {s : Supply} {count : Nat} (h : s.bytes.length < count) :
    s.gather count = .error s.fault :=
  if_neg (Nat.not_le_of_lt h)

theorem gather_zero (s : Supply) : s.gather 0 = .ok [] := by
  rw [gather_of_le (Nat.zero_le _), List.take_zero]

theorem gather_of_ne_fault {fault : Fault} {count : Nat}
    (h : gather ⟨[], fault⟩ count ≠ .error fault) (s : Supply) :
    s.gather count = gather ⟨[], fault⟩ count := by
  cases count with
  | zero => rw [gather_zero, gather_zero]
  | succ count => exact absurd (gather_of_lt (Nat.zero_lt_succ count)) h

theorem gather_behind_of_le {data : Bytes} {count : Nat} (h : count ≤ data.length) (s : Supply) :
    (s.behind data).gather count = .ok (data.take count) := by
  have hall : count ≤ (s.behind data).bytes.length := by
    rw [behind_bytes, List.length_append]
    exact Nat.le_add_right_of_le h
  rw [gather_of_le hall, behind_bytes, List.take_append_of_le_length h]

theorem gather_behind {data : Bytes} {count : Nat} (h : data.length ≤ count) (s : Supply) :
    (s.behind data).gather count = (s.gather (count - data.length)).map (data ++ ·) := by
  have hlength : (s.behind data).bytes.length = data.length + s.bytes.length :=
    List.length_append
  rcases Nat.lt_or_ge s.bytes.length (count - data.length) with hless | henough
  · rw [gather_of_lt hless, gather_of_lt (by omega)]
    rfl
  · rw [gather_of_le henough, gather_of_le (by omega), behind_bytes, List.take_append,
      List.take_of_length_le h]
    rfl

theorem gather_behind_congr {s t : Supply} {data : Bytes} {count : Nat}
    (h : t.gather (count - data.length) = s.gather (count - data.length)) :
    (t.behind data).gather count = (s.behind data).gather count := by
  rcases Nat.le_total count data.length with hle | hle
  · rw [gather_behind_of_le hle, gather_behind_of_le hle]
  · rw [gather_behind hle, gather_behind hle, h]

theorem gather_behind_of_ne {s t : Supply} {fault : Fault} {data : Bytes} {count : Nat}
    (h : forall {count : Nat}, s.gather count ≠ .error fault -> t.gather count = s.gather count)
    (hne : (s.behind data).gather count ≠ .error fault) :
    (t.behind data).gather count = (s.behind data).gather count := by
  rcases Nat.le_total count data.length with hle | hle
  · rw [gather_behind_of_le hle, gather_behind_of_le hle]
  · apply gather_behind_congr
    apply h
    intro hfault
    rw [gather_behind hle, hfault] at hne
    exact hne rfl

theorem gather_fault {data : Bytes} {count : Nat} (h : data.length < count) (fault : Fault) :
    (behind data ⟨[], fault⟩).gather count = .error fault := by
  apply gather_of_lt
  rw [behind_bytes, List.append_nil]
  exact h

theorem gather_behind_ne_error {s : Supply} {fault : Fault} (h : s.fault ≠ fault) {data : Bytes}
    {count : Nat} : (s.behind data).gather count ≠ .error fault := by
  intro herror
  rcases Nat.lt_or_ge (s.behind data).bytes.length count with hless | henough
  · rw [gather_of_lt hless] at herror
    exact h (Except.error.inj herror)
  · rw [gather_of_le henough] at herror
    cases herror

theorem length_of_gather {s : Supply} {count : Nat} {bytes : Bytes}
    (h : s.gather count = .ok bytes) : bytes.length = count := by
  rcases Nat.lt_or_ge s.bytes.length count with hless | henough
  · rw [gather_of_lt hless] at h
    cases h
  · rw [gather_of_le henough] at h
    cases h
    rw [List.length_take, Nat.min_eq_left henough]

theorem gather_behind_take (data : Bytes) (count : Nat) (s : Supply) :
    (s.behind (data.take count)).gather count = (s.behind data).gather count := by
  rcases Nat.le_total count data.length with hle | hle
  · have hlength : count ≤ (data.take count).length := by
      rw [List.length_take]
      omega
    rw [gather_behind_of_le hle, gather_behind_of_le hlength, List.take_take, Nat.min_self]
  · rw [List.take_of_length_le hle]

theorem gather_drop {data : Bytes} {skipped : Nat} (h : skipped ≤ data.length) (count : Nat)
    (s : Supply) :
    ((s.behind data).gather (skipped + count)).map (List.drop skipped) =
      (s.behind (data.drop skipped)).gather count := by
  have hlength : (s.behind data).bytes.length = data.length + s.bytes.length :=
    List.length_append
  have hrest : (s.behind (data.drop skipped)).bytes.length =
      data.length - skipped + s.bytes.length := by
    rw [behind_bytes, List.length_append, List.length_drop]
  rcases Nat.lt_or_ge (s.behind data).bytes.length (skipped + count) with hless | henough
  · rw [gather_of_lt hless, gather_of_lt (by omega)]
    rfl
  · rw [gather_of_le henough, gather_of_le (by omega), behind_bytes, behind_bytes,
      ← List.drop_append_of_le_length h, List.take_drop, Nat.add_comm skipped count]
    rfl

/-! # Faults -/

def faultOf : WireError -> Fault
  | .timedOut => .timeout
  | .unexpectedEof => .connectionClosed
  | error => .wire error

theorem lost_faultOf (error : WireError) : (faultOf error).Lost := by
  cases error <;> constructor

theorem ofWire_eq_faultOf (error : WireError) : Fault.ofWire error = faultOf error := by
  cases error <;> rfl

end Supply

namespace Incoming

/--
What comes until a read fails.  The read that is waiting may wait until the first time given, and a
read that begins behind some data for as long as the duration.
-/
def supplyUntil (later : Nat) : List Arrival -> Nat -> Nat -> Supply
  | [], _, _ => ⟨[], .connectionClosed⟩
  | .data [] :: rest, limit, now => supplyUntil later rest limit now
  | .data (first :: bytes) :: rest, _, now =>
      (supplyUntil later rest (now + later) now).behind (first :: bytes)
  | .pause duration :: rest, limit, now =>
      if now + duration ≤ limit then supplyUntil later rest limit (now + duration)
      else ⟨[], .timeout⟩
  | .pauseUntil time :: rest, limit, now =>
      if time ≤ limit then supplyUntil later rest limit (max now time) else ⟨[], .timeout⟩
  | .stall :: _, _, _ => ⟨[], .timeout⟩
  | .failure error :: _, _, _ => ⟨[], Supply.faultOf error⟩
  | .ended :: _, _, _ => ⟨[], .connectionClosed⟩

def supply (source : Incoming) (first later : Nat) : Supply :=
  supplyUntil later source.arrivals (source.now + first) source.now

theorem supplyUntil_data {bytes : Bytes} (h : bytes ≠ []) (later : Nat) (rest : List Arrival)
    (limit now : Nat) :
    supplyUntil later (.data bytes :: rest) limit now =
      (supplyUntil later rest (now + later) now).behind bytes := by
  cases bytes with
  | nil => exact absurd rfl h
  | cons first bytes => rfl

/-! # One read -/

inductive Draws (later : Nat) (s : Supply) (received : Received) (after : Incoming) : Prop where
  | data {bytes : Bytes} : received.result = .ok bytes ->
      s = (after.supply later later).behind bytes -> Draws later s received after
  | fault {fault : Fault} : received.result = .error fault -> s = ⟨[], fault⟩ ->
      Draws later s received after

theorem take_draws (later : Nat) (first : UInt8) (bytes : Bytes) (room : Nat)
    (rest : List Arrival) (now : Nat) :
    Draws later ((supplyUntil later rest (now + later) now).behind (first :: bytes))
      (take first bytes room rest now).1 (take first bytes room rest now).2 := by
  apply Draws.data rfl
  simp only [take]
  cases hleft : bytes.drop (room - 1) with
  | nil =>
      have htake : bytes.take (room - 1) = bytes :=
        List.take_of_length_le (List.drop_eq_nil_iff.mp hleft)
      rw [htake]
      rfl
  | cons c left =>
      have hsplit : first :: bytes.take (room - 1) ++ c :: left = first :: bytes := by
        rw [← hleft, List.cons_append, List.take_append_drop]
      simp only [List.isEmpty_cons, Bool.false_eq_true, if_false, supply, supplyUntil,
        Supply.behind]
      rw [← List.append_assoc, hsplit]

theorem readUntil_draws (later room limit : Nat) (arrivals : List Arrival) (now : Nat) :
    Draws later (supplyUntil later arrivals limit now) (readUntil room limit arrivals now).1
      (readUntil room limit arrivals now).2 := by
  induction arrivals generalizing now with
  | nil => exact .fault rfl rfl
  | cons arrival rest ih =>
      cases arrival with
      | data bytes =>
          cases bytes with
          | nil => exact ih now
          | cons first bytes => exact take_draws later first bytes room rest now
      | pause duration =>
          have hend : max now (now + duration) = now + duration :=
            Nat.max_eq_right (Nat.le_add_right now duration)
          simp only [readUntil, waitUntil, supplyUntil, hend]
          split
          · exact ih _
          · exact .fault rfl rfl
      | pauseUntil time =>
          simp only [readUntil, waitUntil, supplyUntil]
          split
          · exact ih _
          · exact .fault rfl rfl
      | stall => exact .fault rfl rfl
      | failure error =>
          apply Draws.fault rfl
          rw [Supply.ofWire_eq_faultOf]
          rfl
      | ended => exact .fault rfl rfl

theorem read_draws (source : Incoming) (room timeout later : Nat) :
    Draws later (source.supply timeout later) (source.read room timeout).1
      (source.read room timeout).2 :=
  readUntil_draws later room _ source.arrivals source.now

/-! # What can come -/

theorem supplyUntil_prefix (later : Nat) (arrivals : List Arrival) (limit now : Nat) :
    (supplyUntil later arrivals limit now).bytes <+: unread ⟨arrivals, now⟩ := by
  induction arrivals generalizing limit now with
  | nil => exact List.nil_prefix
  | cons arrival rest ih =>
      cases arrival with
      | data bytes =>
          cases bytes with
          | nil => exact ih limit now
          | cons first bytes =>
              rw [unread_data]
              exact (List.prefix_append_right_inj _).mpr (ih (now + later) now)
      | pause duration =>
          simp only [supplyUntil]
          split
          · exact ih limit _
          · exact List.nil_prefix
      | pauseUntil time =>
          simp only [supplyUntil]
          split
          · exact ih limit _
          · exact List.nil_prefix
      | stall => exact List.nil_prefix
      | failure error => exact List.nil_prefix
      | ended => exact List.nil_prefix

theorem supply_prefix (source : Incoming) (first later : Nat) :
    (source.supply first later).bytes <+: source.unread :=
  supplyUntil_prefix later source.arrivals _ source.now

theorem supplyUntil_lost (later : Nat) (arrivals : List Arrival) (limit now : Nat) :
    (supplyUntil later arrivals limit now).fault.Lost := by
  induction arrivals generalizing limit now with
  | nil => exact .closed
  | cons arrival rest ih =>
      cases arrival with
      | data bytes =>
          cases bytes with
          | nil => exact ih limit now
          | cons first bytes => exact ih (now + later) now
      | pause duration =>
          simp only [supplyUntil]
          split
          · exact ih limit _
          · exact .timeout
      | pauseUntil time =>
          simp only [supplyUntil]
          split
          · exact ih limit _
          · exact .timeout
      | stall => exact .timeout
      | failure error => exact Supply.lost_faultOf error
      | ended => exact .closed

theorem supply_lost (source : Incoming) (first later : Nat) :
    (source.supply first later).fault.Lost :=
  supplyUntil_lost later source.arrivals _ source.now

/-! # Longer limits -/

theorem supplyUntil_gather_of_le {later longer : Nat} (hlater : later ≤ longer)
    (arrivals : List Arrival) {limit farther : Nat} (hlimit : limit ≤ farther) (now : Nat)
    {count : Nat}
    (h : (supplyUntil later arrivals limit now).gather count ≠ .error .timeout) :
    (supplyUntil longer arrivals farther now).gather count =
      (supplyUntil later arrivals limit now).gather count := by
  induction arrivals generalizing limit farther now count with
  | nil => rfl
  | cons arrival rest ih =>
      cases arrival with
      | data bytes =>
          cases bytes with
          | nil => exact ih hlimit now h
          | cons first bytes =>
              simp only [supplyUntil] at h ⊢
              exact Supply.gather_behind_of_ne (ih (Nat.add_le_add_left hlater now) now) h
      | pause duration =>
          simp only [supplyUntil] at h ⊢
          by_cases hle : now + duration ≤ limit
          · rw [if_pos hle] at h
            rw [if_pos hle, if_pos (Nat.le_trans hle hlimit)]
            exact ih hlimit (now + duration) h
          · rw [if_neg hle] at h
            rw [if_neg hle]
            exact Supply.gather_of_ne_fault h _
      | pauseUntil time =>
          simp only [supplyUntil] at h ⊢
          by_cases hle : time ≤ limit
          · rw [if_pos hle] at h
            rw [if_pos hle, if_pos (Nat.le_trans hle hlimit)]
            exact ih hlimit (max now time) h
          · rw [if_neg hle] at h
            rw [if_neg hle]
            exact Supply.gather_of_ne_fault h _
      | stall => rfl
      | failure error => rfl
      | ended => rfl

theorem supply_gather_of_le {first later longer farther : Nat} (source : Incoming)
    (hfirst : first ≤ farther) (hlater : later ≤ longer) {count : Nat}
    (h : (source.supply first later).gather count ≠ .error .timeout) :
    (source.supply farther longer).gather count = (source.supply first later).gather count :=
  supplyUntil_gather_of_le hlater source.arrivals (Nat.add_le_add_left hfirst source.now)
    source.now h

end Incoming

/-! # Bytes that nobody asks for -/

def Arrival.upTo : List Arrival -> Nat -> List Arrival
  | [], _ => []
  | .data bytes :: rest, count =>
      if count = 0 then [] else .data (bytes.take count) :: upTo rest (count - bytes.length)
  | arrival :: rest, count => if count = 0 then [] else arrival :: upTo rest count

namespace Incoming

theorem supplyUntil_gather_upTo (later : Nat) (arrivals : List Arrival) (limit now count : Nat) :
    (supplyUntil later (Arrival.upTo arrivals count) limit now).gather count =
      (supplyUntil later arrivals limit now).gather count := by
  induction arrivals generalizing limit now count with
  | nil => rfl
  | cons arrival rest ih =>
      by_cases hzero : count = 0
      · rw [hzero, Supply.gather_zero, Supply.gather_zero]
      · cases arrival with
        | data bytes =>
            rw [Arrival.upTo, if_neg hzero]
            cases bytes with
            | nil =>
                rw [List.take_nil]
                exact ih limit now count
            | cons first bytes =>
                have hne : (first :: bytes).take count ≠ [] := by
                  simp [hzero]
                rw [supplyUntil_data hne, supplyUntil_data (List.cons_ne_nil first bytes),
                  Supply.gather_behind_take]
                exact Supply.gather_behind_congr (ih _ _ _)
        | pause duration =>
            simp only [Arrival.upTo, if_neg hzero, supplyUntil]
            split
            · exact ih _ _ _
            · rfl
        | pauseUntil time =>
            simp only [Arrival.upTo, if_neg hzero, supplyUntil]
            split
            · exact ih _ _ _
            · rfl
        | stall =>
            simp only [Arrival.upTo, if_neg hzero, supplyUntil]
        | failure error =>
            simp only [Arrival.upTo, if_neg hzero, supplyUntil]
        | ended =>
            simp only [Arrival.upTo, if_neg hzero, supplyUntil]

end Incoming
end HttpEngine
