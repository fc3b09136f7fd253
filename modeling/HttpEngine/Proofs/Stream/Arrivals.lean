import HttpEngine.Stream.Incoming

/-!
# What a read takes

A read takes bytes from the front of what is still to come, and nothing else: whether it succeeds or
fails, the bytes that it gives out and those that remain make up what there was before.  A client
that sends without waiting, and then ends, never lets a read fail before all its bytes are taken.
-/

namespace HttpEngine

namespace Received

def bytes : Received -> Bytes
  | .data first rest => first :: rest
  | _ => []

theorem bytes_of_ok {received : Received} {data : Bytes} (h : received.result = .ok data) :
    received.bytes = data ∧ data ≠ [] := by
  cases received with
  | data first rest =>
      cases h
      exact ⟨rfl, List.cons_ne_nil first rest⟩
  | ended => cases h
  | failure error => cases h
  | timedOut => cases h

theorem bytes_of_error {received : Received} {fault : Fault}
    (h : received.result = .error fault) : received.bytes = [] := by
  cases received with
  | data first rest => cases h
  | ended => rfl
  | failure error => rfl
  | timedOut => rfl

end Received

namespace Incoming

/-! # Bytes in order -/

theorem unread_data (bytes : Bytes) (rest : List Arrival) (now : Nat) :
    unread ⟨.data bytes :: rest, now⟩ = bytes ++ unread ⟨rest, now⟩ :=
  rfl

theorem take_spec (first : UInt8) (bytes : Bytes) {room : Nat} (hroom : 0 < room)
    (rest : List Arrival) (now : Nat) :
    (take first bytes room rest now).1.bytes.length ≤ room ∧
      (take first bytes room rest now).1.bytes ++ (take first bytes room rest now).2.unread =
        first :: bytes ++ unread ⟨rest, now⟩ := by
  constructor
  · simp only [take, Received.bytes, List.length_cons, List.length_take]
    omega
  · simp only [take, Received.bytes]
    cases hleft : bytes.drop (room - 1) with
    | nil =>
        have htake : bytes.take (room - 1) = bytes :=
          List.take_of_length_le (List.drop_eq_nil_iff.mp hleft)
        rw [htake]
        rfl
    | cons c left =>
        have hsplit : bytes.take (room - 1) ++ c :: left = bytes := by
          rw [← hleft, List.take_append_drop]
        show first :: bytes.take (room - 1) ++ ((c :: left) ++ unread ⟨rest, now⟩) = _
        rw [← List.append_assoc, List.cons_append, hsplit]

theorem readUntil_spec {room : Nat} (hroom : 0 < room) (limit : Nat) (arrivals : List Arrival)
    (now : Nat) :
    (readUntil room limit arrivals now).1.bytes.length ≤ room ∧
      (readUntil room limit arrivals now).1.bytes ++
        (readUntil room limit arrivals now).2.unread = unread ⟨arrivals, now⟩ := by
  induction arrivals generalizing now with
  | nil => exact ⟨Nat.zero_le room, rfl⟩
  | cons arrival rest ih =>
      cases arrival with
      | data bytes =>
          cases bytes with
          | nil => exact ih now
          | cons first bytes => exact take_spec first bytes hroom rest now
      | pause duration =>
          simp only [readUntil, waitUntil]
          split
          · exact ih _
          · exact ⟨Nat.zero_le room, rfl⟩
      | pauseUntil time =>
          simp only [readUntil, waitUntil]
          split
          · exact ih _
          · exact ⟨Nat.zero_le room, rfl⟩
      | stall => exact ⟨Nat.zero_le room, rfl⟩
      | failure error => exact ⟨Nat.zero_le room, rfl⟩
      | ended => exact ⟨Nat.zero_le room, rfl⟩

theorem read_spec (source : Incoming) {room : Nat} (hroom : 0 < room) (timeout : Nat) :
    (source.read room timeout).1.bytes.length ≤ room ∧
      (source.read room timeout).1.bytes ++ (source.read room timeout).2.unread =
        source.unread :=
  readUntil_spec hroom _ source.arrivals source.now

end Incoming

/-! # Clients that do not wait -/

def Arrival.script (pieces : List Bytes) : List Arrival :=
  pieces.map Arrival.data ++ [.ended]

namespace Incoming

def Prompt (source : Incoming) : Prop :=
  exists pieces : List Bytes, source.arrivals = Arrival.script pieces

theorem unread_script (pieces : List Bytes) (now : Nat) :
    unread ⟨Arrival.script pieces, now⟩ = pieces.flatten := by
  induction pieces with
  | nil => rfl
  | cons piece pieces ih =>
      rw [List.flatten_cons, ← ih]
      exact unread_data piece (Arrival.script pieces) now

structure PromptRead (source : Incoming) (received : Received) (after : Incoming) : Prop where
  prompt : after.Prompt
  now : after.now = source.now
  ended : forall fault, received.result = .error fault ->
    fault = .connectionClosed ∧ source.unread = []

theorem readUntil_prompt (room limit now : Nat) (pieces : List Bytes) :
    PromptRead ⟨Arrival.script pieces, now⟩
      (readUntil room limit (Arrival.script pieces) now).1
      (readUntil room limit (Arrival.script pieces) now).2 := by
  induction pieces with
  | nil =>
      refine ⟨⟨[], rfl⟩, rfl, ?_⟩
      intro fault h
      cases h
      exact ⟨rfl, rfl⟩
  | cons piece pieces ih =>
      cases piece with
      | nil => exact ⟨ih.prompt, ih.now, ih.ended⟩
      | cons first bytes =>
          refine ⟨?_, rfl, ?_⟩
          · show Prompt ⟨if (bytes.drop (room - 1)).isEmpty then Arrival.script pieces
              else .data (bytes.drop (room - 1)) :: Arrival.script pieces, now⟩
            split
            · exact ⟨pieces, rfl⟩
            · exact ⟨bytes.drop (room - 1) :: pieces, rfl⟩
          · intro fault h
            cases h

theorem Prompt.read {source : Incoming} (h : source.Prompt) (room timeout : Nat) :
    PromptRead source (source.read room timeout).1 (source.read room timeout).2 := by
  rcases source with ⟨arrivals, now⟩
  rcases h with ⟨pieces, hpieces⟩
  simp only at hpieces
  subst hpieces
  exact readUntil_prompt room (now + timeout) now pieces

end Incoming
end HttpEngine
