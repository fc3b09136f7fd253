import HttpEngine.Proofs.Machine.Form
import HttpEngine.Proofs.Stream.Arrivals

/-!
# A machine receives bodies as the engine does

What has been written and what is pending are never more than what has been taken of the body, so
that the count stays within the length of the body.  Each read has some room and brings no more than
what remains.
-/

namespace HttpEngine
namespace Machine

/-! # The marker of a body -/

theorem sublist_trimBy (test : Char -> Bool) (text : List Char) :
    (Text.trimBy test text).Sublist text := by
  have hback := (List.dropWhile_sublist test (l := (text.dropWhile test).reverse)).reverse
  rw [List.reverse_reverse] at hback
  exact hback.trans (List.dropWhile_sublist test)

theorem sublist_before (mark text : List Char) : (before mark text).Sublist text := by
  unfold before
  cases hcut : cut? mark text with
  | none => exact List.Sublist.refl text
  | some cut =>
      rw [eq_append_of_cut? hcut, List.append_assoc]
      exact List.sublist_append_left _ _

theorem length_marker_le {contentType boundary : String}
    (h : Multipart.boundary? contentType = some boundary) :
    (Multipart.marker boundary).length ≤ (Utf8.encode contentType).length := by
  unfold Multipart.boundary? at h
  split at h
  · split at h
    · next front value hcut =>
      simp only at h
      split at h
      · cases h
      · cases h
        have hname := textLength_le_of_sublist ((sublist_trimBy (· == '"') _).trans
          ((sublist_trimBy Text.isBlank _).trans (sublist_before [';'] value)))
        have hlength := congrArg textLength (eq_append_of_cut? hcut)
        rw [textLength_append, textLength_append] at hlength
        have hnine : textLength "boundary=".toList = 9 := rfl
        rw [Multipart.marker, List.length_append, Utf8.encode, String.toList_ofList]
        show 4 + textLength (Text.trimBy (· == '"') (Text.trim (before [';'] value))) ≤
          textLength contentType.toList
        unfold Text.trim
        omega
    · cases h
  · cases h

namespace Written

inductive Mirrors (taken : Nat) : Written -> Intake -> Prop where
  | whole {pieces : List Bytes} {size : Nat} : size = pieces.reverse.flatten.length ->
      size ≤ taken -> Mirrors taken ⟨none, pieces, size⟩ ⟨none, pieces⟩
  | form {m : FormScanner} {s : Multipart.Scanner} {pieces : List Bytes} {size : Nat} :
      m.Mirrors s -> size = pieces.reverse.flatten.length -> size + m.pending.length ≤ taken ->
      Mirrors taken ⟨some m, pieces, size⟩ ⟨some s, pieces⟩

theorem yields_new {contentType : String}
    (hfits : (Utf8.encode contentType).length ≤ Buffer.maxSize) (need : Nat) :
    Yields need (new contentType) fun w => Mirrors 0 w (Intake.new contentType) := by
  unfold new Intake.new
  rw [boundary?_eq hfits, ok_bind]
  cases hboundary : Multipart.boundary? contentType with
  | none => exact .of_eq_ok rfl (.whole rfl (Nat.le_refl 0))
  | some boundary =>
      have hmarker := Nat.le_trans (length_marker_le hboundary) hfits
      apply ((FormScanner.yields_new (Nat.le_refl _)).of_small hmarker).bind
      rintro m ⟨hm, hpending⟩
      refine .of_eq_ok rfl (.form hm rfl ?_)
      rw [hpending]
      exact Nat.le_refl 0

theorem length_pieces_cons (piece : Bytes) (pieces : List Bytes) :
    (piece :: pieces).reverse.flatten.length = pieces.reverse.flatten.length + piece.length := by
  rw [List.reverse_cons, List.flatten_append, List.length_append, List.flatten_singleton]

theorem write_eq {before scanner : Option FormScanner} {pieces : List Bytes} {size : Nat}
    {piece : Bytes} (hsum : size + piece.length < Decimal.sizeLimit) :
    write ⟨before, pieces, size⟩ scanner piece =
      .ok ⟨scanner, piece :: pieces, size + piece.length⟩ := by
  rw [write, add_eq_ok hsum]
  rfl

variable {w : Written} {i : Intake} {taken need : Nat}

theorem Mirrors.take (h : Mirrors taken w i) {data : Bytes} (hneed : taken + data.length ≤ need)
    (hword : need < Decimal.sizeLimit) :
    Yields need (w.take data) fun after =>
      Mirrors (taken + data.length) after (i.take data) := by
  cases h with
  | @whole pieces size hsize hle =>
      have hsum : size + data.length < Decimal.sizeLimit := by
        omega
      refine .of_eq_ok (write_eq hsum) (.whole ?_ (by omega))
      rw [length_pieces_cons, hsize]
  | @form m s pieces size hm hsize hle =>
      have hroom : ([] : Bytes).length + m.pending.length + data.length ≤ need := by
        rw [List.length_nil]
        omega
      apply (hm.feed hroom).bind
      rintro ⟨kept, after⟩ ⟨hkept, hafter, hkeptRoom⟩
      simp only [List.nil_append, List.length_nil] at hkept hafter hkeptRoom ⊢
      have hsum : size + kept.length < Decimal.sizeLimit := by
        omega
      refine .of_eq_ok (write_eq hsum) ?_
      rw [hkept] at hkeptRoom ⊢
      refine .form hafter ?_ (by omega)
      rw [length_pieces_cons, hsize]

theorem Mirrors.finish (h : Mirrors taken w i) (hneed : taken ≤ need)
    (hword : need < Decimal.sizeLimit) :
    Yields need w.finish fun after => Mirrors taken after i.finish := by
  cases h with
  | whole hsize hle => exact .of_eq_ok rfl (.whole hsize hle)
  | @form m s pieces size hm hsize hle =>
      have hroom : ([] : Bytes).length + m.pending.length ≤ need := by
        rw [List.length_nil]
        omega
      apply (hm.finish hroom).bind
      rintro ⟨kept, after⟩ ⟨hkept, hafter, hkeptRoom⟩
      simp only [List.nil_append, List.length_nil] at hkept hafter hkeptRoom ⊢
      have hsum : size + kept.length < Decimal.sizeLimit := by
        omega
      refine .of_eq_ok (write_eq hsum) ?_
      rw [hkept] at hkeptRoom ⊢
      refine .form hafter ?_ (by omega)
      rw [length_pieces_cons, hsize]

theorem Mirrors.mono (h : Mirrors taken w i) (hle : taken ≤ need) : Mirrors need w i := by
  cases h with
  | whole hsize hroom => exact .whole hsize (Nat.le_trans hroom hle)
  | form hm hsize hroom => exact .form hm hsize (Nat.le_trans hroom hle)

theorem Mirrors.saved_eq (h : Mirrors taken w i) :
    (⟨w.size, w.filename?, w.pieces.reverse.flatten⟩ : Saved) = i.saved := by
  cases h with
  | whole hsize _ =>
      rw [hsize]
      rfl
  | form hm hsize _ =>
      rw [hsize, filename?, Option.bind_some, hm.filename_eq]
      rfl

end Written

/-! # Reading the rest of a body -/

inductive Agrees (taken : Nat) : Except Fault Written -> Except Fault Intake -> Prop where
  | ok {w : Written} {i : Intake} : w.Mirrors taken i -> Agrees taken (.ok w) (.ok i)
  | error {fault : Fault} : Agrees taken (.error fault) (.error fault)

theorem read_into {buffer bytes : Bytes} (h : bytes.length ≤ buffer.length) :
    exists filled, overwrite buffer 0 bytes = .ok filled ∧ filled.length = buffer.length ∧
      slice filled 0 bytes.length = .ok bytes := by
  refine ⟨bytes ++ buffer.drop bytes.length, ?_, ?_, ?_⟩
  · rw [overwrite_eq_ok (by omega), List.take_zero, List.nil_append, Nat.zero_add]
  · rw [List.length_append, List.length_drop]
    omega
  · have hslice := slice_append [] bytes (buffer.drop bytes.length)
    rwa [List.nil_append, List.length_nil, Nat.zero_add] at hslice

theorem yields_receiveWithin (timeout fuel : Nat) {remaining : Nat} (hfuel : remaining ≤ fuel)
    {w : Written} {i : Intake} {taken : Nat} (h : w.Mirrors taken i) {next : Bytes} {need : Nat}
    (hneed : taken + next.length + remaining ≤ need) (hword : need < Decimal.sizeLimit)
    {buffer : Bytes} (hbuffer : 0 < buffer.length) (source : Incoming) :
    Yields need (receiveWithin timeout fuel remaining w next buffer source) fun last =>
      let model :=
        Upload.receiveWithin buffer.length timeout fuel remaining (i.take next) source
      last.2 = model.2 ∧ Agrees need last.1 model.1 := by
  induction fuel generalizing remaining w i taken next buffer source with
  | zero =>
      have hzero := Nat.le_zero.mp hfuel
      apply (h.take (by omega) hword).bind
      intro after hafter
      rw [if_pos hzero]
      exact .of_eq_ok rfl ⟨rfl, .ok (hafter.mono (by omega))⟩
  | succ fuel ih =>
      apply (h.take (by omega) hword).bind
      intro after hafter
      unfold Upload.receiveWithin
      by_cases hzero : remaining = 0
      · simp only [if_pos hzero]
        exact .of_eq_ok rfl ⟨rfl, .ok (hafter.mono (by omega))⟩
      · have hwant : 0 < min remaining buffer.length := by
          omega
        have hroom := slice_eq_ok (Nat.zero_le _) (Nat.min_le_right remaining buffer.length)
        have hlength : ((buffer.take (min remaining buffer.length)).drop 0).length =
            min remaining buffer.length := by
          rw [List.drop_zero, List.length_take_of_le (Nat.min_le_right _ _)]
        have hspec := (source.read_spec hwant timeout).left
        simp only [if_neg hzero, hroom, ok_bind, hlength]
        generalize source.read (min remaining buffer.length) timeout = outcome at hspec ⊢
        rcases outcome with ⟨received, later⟩
        simp only at hspec ⊢
        cases hresult : received.result with
        | error fault => exact .of_eq_ok rfl ⟨rfl, .error⟩
        | ok bytes =>
            rcases Received.bytes_of_ok hresult with ⟨hbytes, hne⟩
            have hpos : 0 < bytes.length := List.length_pos_iff.mpr hne
            rw [hbytes] at hspec
            have hle : bytes.length ≤ remaining := by
              omega
            rcases read_into (show bytes.length ≤ buffer.length by omega) with
              ⟨filled, hput, hsame, hnext⟩
            simp only [hput, sub_eq_ok hle, hnext, ok_bind, ← hsame]
            exact ih (by omega) hafter (by omega) (by omega) later

/-! # Whole bodies -/

/--
Any body is received without a slip: what is put into the file, the count of it and the name are
what the engine keeps of the body.  No buffer is larger than the body, the smallest one apart.
-/
theorem yields_receive (buffered : Bytes) {contentType : String}
    (hfits : (Utf8.encode contentType).length ≤ Buffer.maxSize) {length : Nat}
    (hlength : length < Decimal.sizeLimit) (fileChunk timeout : Nat) (source : Incoming) :
    Yields (max 1 length) (receive buffered contentType length fileChunk timeout source) fun last =>
      exists result,
        Upload.receive buffered contentType length fileChunk timeout source =
          (.done result, last.2) ∧
        last.1 = result.map Intake.saved := by
  have hword : max 1 length < Decimal.sizeLimit := Nat.max_lt.mpr ⟨by decide, hlength⟩
  have hhead : slice buffered 0 (min buffered.length length) = .ok (buffered.take length) := by
    rw [slice_eq_ok (Nat.zero_le _) (Nat.min_le_left _ _), List.drop_zero, Nat.min_comm,
      ← List.take_eq_take_min]
  have hle : (buffered.take length).length ≤ length := List.length_take_le length buffered
  have hclamp : clamp fileChunk 1 (max (length - (buffered.take length).length) 1) =
      .ok (Upload.pieceSize fileChunk (length - (buffered.take length).length)) :=
    clamp_eq_ok (Nat.le_max_right _ 1)
  have hpiece : Upload.pieceSize fileChunk (length - (buffered.take length).length) ≤
      max 1 length := by
    unfold Upload.pieceSize
    omega
  unfold receive
  apply (Written.yields_new hfits _).bind
  intro w hw
  simp only [hhead, sub_eq_ok hle, hclamp, ok_bind]
  apply (yields_allocate hpiece).bind
  rintro size ⟨hsize, hroom⟩
  have hbuffer : 0 < (List.replicate size (0 : UInt8)).length := by
    rw [List.length_replicate, hsize, Upload.pieceSize]
    omega
  have hloop := yields_receiveWithin timeout _ (Nat.le_refl _) hw
    (show 0 + (buffered.take length).length + (length - (buffered.take length).length) ≤
      max 1 length by omega) hword hbuffer source
  apply hloop.bind
  rintro ⟨result, later⟩ ⟨hlater, hagrees⟩
  have hallocated : Buffer.allocate (Upload.pieceSize fileChunk
      (length - (buffered.take length).length)) = .done size :=
    Buffer.allocate_eq_done_iff.mpr ⟨hroom, hsize.symm⟩
  unfold Upload.receive
  simp only [hallocated]
  rw [List.length_replicate] at hlater hagrees
  generalize Upload.receiveWithin size timeout _ _ _ source = outcome at hlater hagrees ⊢
  rcases outcome with ⟨ended, rest⟩
  simp only at hlater hagrees ⊢
  cases hagrees with
  | error => exact .of_eq_ok rfl ⟨_, congrArg (Prod.mk _) hlater.symm, rfl⟩
  | @ok w i hw =>
      simp only
      apply (hw.finish (Nat.le_refl _) hword).bind
      intro after hafter
      refine .of_eq_ok rfl ⟨.ok i.finish, congrArg (Prod.mk _) hlater.symm, ?_⟩
      exact congrArg Except.ok hafter.saved_eq

end Machine
end HttpEngine
