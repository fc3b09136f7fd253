import HttpEngine.Machine.Reader
import HttpEngine.Proofs.Stream.Receiving

/-!
# The reader of a machine goes the way of the reader

In the buffer, what has been received lies in front, and the head ends within it.  So each read has
some room, no place is ever outside of the buffer, and what is given is what the reader gives.
-/

namespace HttpEngine
namespace Machine
namespace ReadBuffer

structure Mirrors (b : ReadBuffer) (r : Reader) : Prop where
  size : b.room.length = r.capacity
  fits : r.capacity ≤ Buffer.maxSize
  length : b.length = r.bytes.length
  bytes : b.room.take b.length = r.bytes
  room : r.bytes.length ≤ r.capacity
  headLength : b.headLength = r.headLength
  head : r.headLength ≤ r.bytes.length

theorem mirrors_new {size : Nat} (h : size ≤ Buffer.maxSize) :
    Mirrors ⟨List.replicate size 0, 0, 0⟩ (Reader.new size) where
  size := List.length_replicate
  fits := h
  length := rfl
  bytes := rfl
  room := Nat.zero_le size
  headLength := rfl
  head := Nat.le_refl 0

variable {b : ReadBuffer} {r : Reader}

theorem Mirrors.slice_eq (h : Mirrors b r) {start stop : Nat} (hstart : start ≤ stop)
    (hstop : stop ≤ r.bytes.length) : slice b.room start stop = .ok (r.slice start stop) := by
  have hlength : stop ≤ b.room.length := by
    rw [h.size]
    exact Nat.le_trans hstop h.room
  rw [slice_eq_ok hstart hlength, Reader.slice_eq, ← h.bytes, List.take_take, h.length,
    Nat.min_eq_left hstop]

theorem Mirrors.buffered (h : Mirrors b r) : b.buffered = .ok r.buffered := by
  rw [ReadBuffer.buffered, h.headLength, h.length, h.slice_eq h.head (Nat.le_refl _),
    Reader.buffered, Reader.size_received]

theorem Mirrors.extend (h : Mirrors b r) {bytes : Bytes}
    (hroom : r.bytes.length + bytes.length ≤ r.capacity) :
    exists room, overwrite b.room b.length bytes = .ok room ∧
      add b.length bytes.length = .ok (b.length + bytes.length) ∧
      Mirrors { b with room, length := b.length + bytes.length }
        { r with received := r.received ++ bytes } := by
  have hlength : b.length + bytes.length ≤ b.room.length := by
    rw [h.length, h.size]
    exact hroom
  have hfront : (b.room.take b.length ++ bytes).length = b.length + bytes.length := by
    rw [List.length_append, List.length_take_of_le (Nat.le_trans (Nat.le_add_right _ _) hlength)]
  have hfits : b.length + bytes.length ≤ Buffer.maxSize := by
    rw [h.size] at hlength
    exact Nat.le_trans hlength h.fits
  refine ⟨_, overwrite_eq_ok hlength, ?_, ?_⟩
  · exact add_eq_ok_of_le (Nat.le_of_add_right_le hfits) (Nat.le_refl _)
      (Nat.le_trans (Nat.le_add_left _ _) hfits)
  · constructor
    case size =>
      rw [List.length_append, hfront, List.length_drop, Nat.add_sub_cancel' hlength]
      exact h.size
    case fits => exact h.fits
    case length =>
      rw [Reader.bytes_extend, List.length_append, h.length]
    case bytes =>
      rw [List.take_left' hfront, h.bytes, Reader.bytes_extend]
    case room =>
      rw [Reader.bytes_extend, List.length_append]
      exact hroom
    case headLength => exact h.headLength
    case head =>
      rw [Reader.bytes_extend, List.length_append]
      exact Nat.le_trans h.head (Nat.le_add_right _ _)

theorem Mirrors.fill (h : Mirrors b r) (hroom : r.bytes.length < r.capacity) (source : Incoming)
    (timeout : Nat) :
    exists filled, b.fill source timeout =
        .ok ((r.fill source timeout).result, filled, (r.fill source timeout).source) ∧
      Mirrors filled (r.fill source timeout).reader := by
  have hplace : b.length ≤ b.room.length := by
    rw [h.length, h.size]
    exact h.room
  have hfree : (b.room.drop b.length).length = r.capacity - r.received.size := by
    rw [List.length_drop, h.size, h.length, Reader.size_received]
  have hleft : 0 < r.capacity - r.received.size := by
    rw [Reader.size_received]
    exact Nat.sub_pos_of_lt hroom
  have hspec := (source.read_spec hleft (min timeout Reader.longestWait)).left
  unfold ReadBuffer.fill Reader.fill
  rw [slice_to_end hplace, ok_bind, hfree]
  generalize source.read (r.capacity - r.received.size) (min timeout Reader.longestWait) = outcome
    at hspec
  rcases outcome with ⟨received, after⟩
  simp only at hspec ⊢
  cases hresult : received.result with
  | error fault => exact ⟨b, rfl, h⟩
  | ok bytes =>
      rw [(Received.bytes_of_ok hresult).left, Reader.size_received] at hspec
      have hmore : r.bytes.length + bytes.length ≤ r.capacity := by
        omega
      rcases h.extend hmore with ⟨room, hput, hadd, hmirrors⟩
      refine ⟨_, ?_, hmirrors⟩
      simp only [hput, hadd, ok_bind]
      rfl

theorem fill_grows (hroom : r.bytes.length < r.capacity) {source : Incoming} {timeout : Nat}
    (hok : (r.fill source timeout).result = .ok ()) :
    (r.fill source timeout).reader.capacity = r.capacity ∧
      r.bytes.length < (r.fill source timeout).reader.bytes.length := by
  have hholds : r.Holds source (r.bytes ++ source.unread) := ⟨rfl, Nat.le_of_lt hroom⟩
  rcases (hholds.fill hroom timeout).ok hok with ⟨data, hne, hreader⟩
  rw [hreader, Reader.bytes_extend, List.length_append]
  have hpos := List.length_pos_iff.mpr hne
  exact ⟨rfl, by omega⟩

/-! # Heads -/

theorem Mirrors.find_some (h : Mirrors b r) {scanned length : Nat}
    (hfound : r.headEnd? scanned = some length) :
    exists place, find? Bytes.blankLine (r.slice scanned r.received.size) = some place ∧
      add scanned place = .ok (scanned + place) ∧
      add (scanned + place) Bytes.blankLine.length = .ok length ∧ length ≤ r.bytes.length := by
  rcases Option.map_eq_some_iff.mp hfound with ⟨⟨front, rest⟩, hcut, hlength⟩
  have hsplit := congrArg List.length (eq_append_of_cut? hcut)
  rw [Reader.slice_to_end, List.length_drop, List.length_append, List.length_append] at hsplit
  have hmark : 0 < Bytes.blankLine.length := by decide
  have hlarge : Buffer.maxSize + Buffer.maxSize < Decimal.sizeLimit := by decide
  have hroom := h.room
  have hfits := h.fits
  simp only at hlength
  refine ⟨front.length, ?_, add_eq_ok (by omega), ?_, by omega⟩
  · rw [find?, hcut]
    rfl
  · rw [← hlength]
    exact add_eq_ok (by omega)

theorem find_none {scanned : Nat} (hfound : r.headEnd? scanned = none) :
    find? Bytes.blankLine (r.slice scanned r.received.size) = none := by
  rw [find?, Option.map_eq_none_iff]
  exact Option.map_eq_none_iff.mp hfound

theorem Mirrors.searched (h : Mirrors b r) {scanned : Nat} (hscanned : scanned ≤ r.bytes.length) :
    slice b.room scanned b.length = .ok (r.slice scanned r.received.size) := by
  rw [h.length, Reader.size_received]
  exact h.slice_eq hscanned (Nat.le_refl _)

def Ends {α : Type} (outcome : Except Slip (Except Fault α × ReadBuffer × Incoming))
    (reading : Reading α) : Prop :=
  exists after, outcome = .ok (reading.result, after, reading.source) ∧
    Mirrors after reading.reader

section

variable (later fuel : Nat) (source : Incoming) (timeout : Nat)

theorem Mirrors.readHead_found (h : Mirrors b r) {scanned length : Nat}
    (hscanned : scanned ≤ r.bytes.length) (hfound : r.headEnd? scanned = some length) :
    Ends (b.readHeadWithin later fuel scanned source timeout)
      (r.readHeadWithin later fuel scanned source timeout) := by
  rcases h.find_some hfound with ⟨place, hplace, hstart, hlength, hle⟩
  unfold ReadBuffer.readHeadWithin Reader.readHeadWithin
  rw [h.searched hscanned, ok_bind, hplace, hfound]
  refine ⟨{ b with headLength := length }, ?_, { h with headLength := rfl, head := hle }⟩
  simp only [hstart, hlength, ok_bind, h.slice_eq (Nat.zero_le length) hle]
  rfl

theorem Mirrors.readHead_full (h : Mirrors b r) {scanned : Nat}
    (hscanned : scanned ≤ r.bytes.length) (hfound : r.headEnd? scanned = none)
    (hfull : r.capacity ≤ r.bytes.length) :
    Ends (b.readHeadWithin later fuel scanned source timeout)
      (r.readHeadWithin later fuel scanned source timeout) := by
  have hlength : b.length = b.room.length := by
    rw [h.length, h.size]
    exact Nat.le_antisymm h.room hfull
  unfold ReadBuffer.readHeadWithin Reader.readHeadWithin
  rw [h.searched hscanned, ok_bind, find_none hfound, hfound]
  refine ⟨b, ?_, ?_⟩
  · simp only [hlength, if_true]
    cases fuel with
    | zero => rfl
    | succ fuel =>
        simp only [Reader.size_received, hfull, if_true]
        rfl
  · cases fuel with
    | zero => exact h
    | succ fuel => simpa [hfull] using h

theorem Mirrors.readHeadWithin (h : Mirrors b r) {scanned : Nat}
    (hscanned : scanned ≤ r.bytes.length) (hfuel : r.capacity ≤ r.bytes.length + fuel) :
    Ends (b.readHeadWithin later fuel scanned source timeout)
      (r.readHeadWithin later fuel scanned source timeout) := by
  induction fuel generalizing b r scanned source timeout with
  | zero =>
      cases hfound : r.headEnd? scanned with
      | some length => exact h.readHead_found later 0 source timeout hscanned hfound
      | none => exact h.readHead_full later 0 source timeout hscanned hfound hfuel
  | succ fuel ih =>
      cases hfound : r.headEnd? scanned with
      | some length => exact h.readHead_found later (fuel + 1) source timeout hscanned hfound
      | none =>
          by_cases hfull : r.capacity ≤ r.bytes.length
          · exact h.readHead_full later (fuel + 1) source timeout hscanned hfound hfull
          · have hroom := Nat.lt_of_not_le hfull
            have hlength : b.length ≠ b.room.length := by
              rw [h.length, h.size]
              exact Nat.ne_of_lt hroom
            rcases h.fill hroom source timeout with ⟨filled, hfill, hmirrors⟩
            unfold ReadBuffer.readHeadWithin Reader.readHeadWithin
            rw [h.searched hscanned, ok_bind, find_none hfound, hfound]
            simp only [if_neg hlength, hfill, ok_bind, Reader.size_received, if_neg hfull]
            cases hresult : (r.fill source timeout).result with
            | error fault => exact ⟨filled, rfl, hmirrors⟩
            | ok _ =>
                have hgrown := fill_grows hroom hresult
                have hsearched : r.searched = b.length - (Bytes.blankLine.length - 1) := by
                  rw [Reader.searched, Reader.size_received, h.length]
                simp only
                rw [← hsearched]
                have hle : r.searched ≤ r.bytes.length := by
                  rw [Reader.searched, Reader.size_received]
                  exact Nat.sub_le _ _
                apply ih _ _ hmirrors (Nat.le_trans hle (Nat.le_of_lt hgrown.right))
                omega

theorem Mirrors.readHead (h : Mirrors b r) (source : Incoming) (first later : Nat) :
    Ends (b.readHead source first later) (r.readHead source first later) := by
  have hroom := h.room
  unfold ReadBuffer.readHead Reader.readHead
  rw [h.size, h.length, Reader.size_received]
  exact h.readHeadWithin later _ source first (Nat.zero_le _) (by omega)

/-! # Bodies -/

theorem Mirrors.fillTo (h : Mirrors b r) {stop : Nat} (hstop : stop ≤ r.capacity)
    (hfuel : stop ≤ r.bytes.length + fuel) :
    Ends (b.fillTo stop timeout fuel source) (r.fillTo stop timeout fuel source) := by
  induction fuel generalizing b r source with
  | zero =>
      have hle : stop ≤ r.bytes.length := hfuel
      unfold ReadBuffer.fillTo Reader.fillTo
      rw [h.length, if_pos hle, Reader.size_received, if_pos hle]
      exact ⟨b, rfl, h⟩
  | succ fuel ih =>
      unfold ReadBuffer.fillTo Reader.fillTo
      rw [Reader.size_received, h.length]
      by_cases hle : stop ≤ r.bytes.length
      · rw [if_pos hle, if_pos hle]
        exact ⟨b, rfl, h⟩
      · rw [if_neg hle, if_neg hle]
        have hroom : r.bytes.length < r.capacity := by
          omega
        rcases h.fill hroom source timeout with ⟨filled, hfill, hmirrors⟩
        simp only [hfill, ok_bind]
        cases hresult : (r.fill source timeout).result with
        | error fault => exact ⟨filled, rfl, hmirrors⟩
        | ok _ =>
            rcases fill_grows hroom hresult with ⟨hcapacity, hgrown⟩
            apply ih _ hmirrors
            · rw [hcapacity]
              exact hstop
            · omega

theorem Mirrors.readBody (h : Mirrors b r) (source : Incoming) (length timeout : Nat) :
    Ends (b.readBody source length timeout) (r.readBody source length timeout) := by
  have hfits := h.fits
  have hlarge : Buffer.maxSize < Decimal.sizeLimit := by decide
  unfold ReadBuffer.readBody Reader.readBody
  rw [h.size, h.headLength, h.length]
  by_cases hstop : r.headLength + length ≤ r.capacity
  · have hadd : add r.headLength length = .ok (r.headLength + length) := add_eq_ok (by omega)
    have hholds : r.Holds source (r.bytes ++ source.unread) := ⟨rfl, h.room⟩
    have hspec := Reader.fillTo_spec timeout (r.headLength + length - r.received.size) hholds hstop
      (by rw [Reader.size_received]; omega)
    rcases h.fillTo (r.headLength + length - r.received.size) source timeout hstop
      (by rw [Reader.size_received]; omega) with ⟨filled, hfill, hmirrors⟩
    rw [Reader.size_received] at hspec hfill hmirrors
    simp only [hadd, Except.toOption, Option.filter_some, decide_eq_true hstop, if_true,
      Nat.not_lt.mpr hstop, if_false, Reader.size_received, hfill, ok_bind]
    cases hresult : (r.fillTo (r.headLength + length) timeout
        (r.headLength + length - r.bytes.length) source).result with
    | error fault => exact ⟨filled, rfl, hmirrors⟩
    | ok _ =>
        have hhead : filled.headLength = r.headLength := by
          rw [hmirrors.headLength, hspec.headLength]
        refine ⟨filled, ?_, hmirrors⟩
        simp only [hhead, hmirrors.slice_eq (Nat.le_add_right _ _) (hspec.ok hresult), ok_bind]
        rfl
  · have hnone : (add r.headLength length).toOption.filter (· ≤ r.capacity) = none := by
      unfold add word
      by_cases hword : r.headLength + length < Decimal.sizeLimit
      · rw [if_pos hword]
        simp [Except.toOption, Nat.lt_of_not_le hstop]
      · rw [if_neg hword]
        rfl
    simp only [hnone, Nat.lt_of_not_le hstop, if_true]
    exact ⟨b, rfl, h⟩

end

/-! # Runs -/

theorem Mirrors.answer (h : Mirrors b r) (source : Incoming) (call : Call) :
    Ends (b.answer source call) (r.answer source call) := by
  cases call with
  | head first later => exact h.readHead source first later
  | body length timeout => exact h.readBody source length timeout
  | buffered =>
      refine ⟨b, ?_, h⟩
      simp only [ReadBuffer.answer, h.buffered, ok_bind]
      rfl

theorem Mirrors.answerAll (h : Mirrors b r) (source : Incoming) (calls : List Call) :
    b.answerAll source calls = .ok (r.answerAll source calls) := by
  induction calls generalizing b r source with
  | nil => rfl
  | cons call rest ih =>
      rcases h.answer source call with ⟨after, hanswer, hmirrors⟩
      simp only [ReadBuffer.answerAll, hanswer, ok_bind, ih hmirrors]
      rfl

theorem yields_answerAll (size : Nat) (source : Incoming) (calls : List Call) :
    Yields size (new size >>= fun b => b.answerAll source calls) fun answers =>
      answers = (Reader.new size).answerAll source calls := by
  unfold new
  rw [bind_assoc]
  apply (yields_allocate (Nat.le_refl size)).bind
  rintro given ⟨hgiven, hfits⟩
  rw [hgiven]
  exact .of_eq_ok ((mirrors_new hfits).answerAll source calls) rfl

end ReadBuffer
end Machine
end HttpEngine
