import HttpEngine.Proofs.Stream.Receiving
import HttpEngine.Proofs.Stream.Supply

/-!
# What a reader collects

A reader that reads until it holds enough bytes collects what comes in time: the bytes that it asks
for if there are as many, and otherwise the fault behind those that there are.  A body in memory is
collected in this way behind the head.
-/

namespace HttpEngine
namespace Reader

variable {r : Reader} {source : Incoming} {stream : Bytes}

/-- What a reader can hold in the end: what it holds, and what comes in time. -/
def prospect (r : Reader) (source : Incoming) (first later : Nat) : Supply :=
  (source.supply (min first longestWait) (min later longestWait)).behind r.bytes

/-! # A single read -/

theorem prospect_fill (r : Reader) (source : Incoming) (timeout later : Nat) :
    r.prospect source timeout later =
      match (r.fill source timeout).result with
      | .ok _ => (r.fill source timeout).reader.prospect (r.fill source timeout).source later later
      | .error fault => Supply.behind r.bytes ⟨[], fault⟩ := by
  have hdraws := source.read_draws (r.capacity - r.received.size) (min timeout longestWait)
    (min later longestWait)
  unfold fill prospect
  generalize source.read (r.capacity - r.received.size) (min timeout longestWait) = outcome at *
  rcases outcome with ⟨received, after⟩
  simp only at hdraws ⊢
  cases hdraws with
  | data hresult hsupply =>
      simp only [hresult, hsupply, bytes_extend, Supply.behind_behind]
  | fault hresult hsupply =>
      simp only [hresult, hsupply]

/-! # Reading until there is enough -/

theorem fillTo_gather {stop : Nat} (timeout fuel : Nat) {r : Reader} {source : Incoming}
    (h : r.Holds source stream) (hstop : stop ≤ r.capacity)
    (hfuel : stop ≤ r.bytes.length + fuel) :
    (fillTo stop timeout fuel r source).result.map
        (fun _ => (fillTo stop timeout fuel r source).reader.bytes.take stop) =
      (r.prospect source timeout timeout).gather stop := by
  -- Every read draws from the same prospect.
  induction fuel generalizing r source with
  | zero =>
      have hle : stop ≤ r.bytes.length := hfuel
      unfold fillTo
      rw [size_received, if_pos hle, prospect, Supply.gather_behind_of_le hle]
      rfl
  | succ fuel ih =>
      unfold fillTo
      rw [size_received]
      by_cases hle : stop ≤ r.bytes.length
      · rw [if_pos hle, prospect, Supply.gather_behind_of_le hle]
        rfl
      · rw [if_neg hle]
        have hless := Nat.lt_of_not_le hle
        have hfilled := h.fill (Nat.lt_of_lt_of_le hless hstop) timeout
        simp only
        cases hresult : (r.fill source timeout).result with
        | ok _ =>
            rcases hfilled.ok hresult with ⟨data, hne, hreader⟩
            have hpos : 0 < data.length := List.length_pos_iff.mpr hne
            have hcapacity : stop ≤ (r.fill source timeout).reader.capacity := by
              rw [hreader]
              exact hstop
            have hnext : stop ≤ (r.fill source timeout).reader.bytes.length + fuel := by
              rw [hreader, bytes_extend, List.length_append]
              omega
            rw [prospect_fill, hresult]
            exact ih hfilled.holds hcapacity hnext
        | error fault =>
            rw [prospect_fill, hresult]
            exact (Supply.gather_fault hless fault).symm

theorem readBody_gather (h : r.Holds source stream) (hhead : r.headLength ≤ r.bytes.length)
    {length : Nat} (hfits : r.headLength + length ≤ r.capacity) (timeout : Nat) :
    (r.readBody source length timeout).result =
      ((source.supply (min timeout longestWait) (min timeout longestWait)).behind
        r.buffered).gather length := by
  have hfuel : r.headLength + length ≤
      r.bytes.length + (r.headLength + length - r.received.size) := by
    rw [size_received]
    omega
  have hfill := fillTo_gather timeout _ h hfits hfuel
  rw [buffered_eq, ← Supply.gather_drop hhead, ← prospect, ← hfill]
  unfold Reader.readBody
  simp only
  rw [if_neg (Nat.not_lt.mpr hfits)]
  cases (fillTo (r.headLength + length) timeout
      (r.headLength + length - r.received.size) r source).result with
  | ok _ =>
      simp only [slice_eq]
      rfl
  | error fault => rfl

theorem readBody_of_lt {length : Nat} (h : r.capacity < r.headLength + length)
    (source : Incoming) (timeout : Nat) :
    r.readBody source length timeout = ⟨.error .bodyTooLarge, r, source⟩ := by
  unfold Reader.readBody
  simp only
  rw [if_pos h]

end Reader
end HttpEngine
