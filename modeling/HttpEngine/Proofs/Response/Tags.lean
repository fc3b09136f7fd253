import HttpEngine.Proofs.Hash.Changes
import HttpEngine.Proofs.Response.Fields

/-!
# Entity tags

A tag is the hash of a body in eight digits, from which the hash can be read again.  So two bodies
have the same tag only if they have the same hash, and no tag stays what it was when one byte of the
body changes.
-/

namespace HttpEngine

/-! # Hexadecimal digits -/

namespace Decimal

def hexDigit (c : Char) : Nat :=
  if c.toNat < 58 then c.toNat - 48 else c.toNat - 87

def hexValue (text : List Char) : Nat :=
  text.foldl (fun n c => n * 16 + hexDigit c) 0

theorem hexDigit_digitChar {d : Nat} (h : d < 16) : hexDigit (Nat.digitChar d) = d := by
  have hall : forall d : Fin 16, hexDigit (Nat.digitChar d) = d := by decide
  exact hall ⟨d, h⟩

theorem hexValue_concat (text : List Char) (c : Char) :
    hexValue (text ++ [c]) = hexValue text * 16 + hexDigit c :=
  List.foldl_append

theorem hexValue_toDigits (n : Nat) : hexValue (Nat.toDigits 16 n) = n := by
  induction n using Nat.strongRecOn with
  | ind n ih =>
      rw [Nat.toDigits_eq_if (by decide)]
      split
      · next hlt => exact (Nat.zero_add _).trans (hexDigit_digitChar hlt)
      · next hle =>
        rw [hexValue_concat, ih (n / 16) (by omega), hexDigit_digitChar (Nat.mod_lt n (by decide))]
        omega

theorem hexValue_leftpad (width : Nat) (text : List Char) :
    hexValue (text.leftpad width '0') = hexValue text := by
  rw [List.leftpad]
  induction width - text.length with
  | zero => rfl
  | succ count ih => exact ih

theorem hex8_inj {m n : UInt32} : hex8 m = hex8 n ↔ m = n := by
  constructor
  · intro h
    have hvalue := congrArg (fun text => hexValue text.toList) h
    simp only [hex8, String.toList_ofList, hexValue_leftpad, hexValue_toDigits] at hvalue
    exact UInt32.toNat_inj.mp hvalue
  · intro h
    rw [h]

end Decimal

namespace Response

variable {r s : Response}

theorem etag_eq_iff : r.etag = s.etag ↔ djb2 r.body = djb2 s.body := by
  rw [← Decimal.hex8_inj, etag, etag]
  constructor
  · intro h
    have hlists := congrArg String.toList h
    rw [String.toList_append, String.toList_append, String.toList_append, String.toList_append]
      at hlists
    exact String.toList_inj.mp (List.append_cancel_left (List.append_cancel_right hlists))
  · intro h
    rw [h]

theorem fieldText_inj {name a b : Bytes} (h : fieldText (name, a) = fieldText (name, b)) : a = b :=
  List.append_cancel_left h

theorem tagLine_eq_iff : r.tagLine = s.tagLine ↔ r.etag = s.etag := by
  constructor
  · intro h
    exact Utf8.encode_inj (fieldText_inj h)
  · intro h
    rw [tagLine, tagLine, h]

theorem tagLine_eq_of_encodeHead_eq {p q : Option (Cors × String)}
    (habove : r.aboveTag = s.aboveTag) (h : r.encodeHead p = s.encodeHead q) :
    r.tagLine = s.tagLine := by
  rcases encodeHead_eq_tagLine r p with ⟨rest, hr⟩
  rcases encodeHead_eq_tagLine s q with ⟨rest', hs⟩
  rw [hr, hs, habove] at h
  simp only [List.append_assoc] at h
  have hlines := congrArg Bytes.lines (List.append_cancel_left h)
  rw [← List.append_assoc, ← List.append_assoc, Bytes.lines_append (cr_notMem_tagLine r),
    Bytes.lines_append (cr_notMem_tagLine s)] at hlines
  exact (List.cons.inj hlines).left

/--
Whenever two bodies of one length differ in exactly one byte, their hashes differ, and so do the
tags of responses with these bodies and the lines for them.  This line stands in every head, below
the one for the length, and if the type is one line a client finds the tag there; so heads with the
same status and type differ, whatever else is in them.  Bytes that are put behind two texts leave
equal hashes equal and different ones different.
-/
theorem etag_notices_change :
    (forall a b : Bytes, Bytes.DifferOnce a b -> djb2 a ≠ djb2 b) ∧
    (forall r s : Response, Bytes.DifferOnce r.body s.body ->
      r.etag ≠ s.etag ∧ r.tagLine ≠ s.tagLine ∧
      (r.status = s.status -> r.contentType = s.contentType ->
        forall p q : Option (Cors × String), r.encodeHead p ≠ s.encodeHead q)) ∧
    (forall (r : Response) (policy : Option (Cors × String)),
      (exists rest, r.encodeHead policy = r.aboveTag ++ r.tagLine ++ Bytes.crlf ++ rest) ∧
      ('\r' ∉ r.contentType.toList ->
        Message.value? "ETag" (r.encodeHead policy) = some (Utf8.encode r.etag))) ∧
    (forall a b c : Bytes, djb2 (a ++ c) = djb2 (b ++ c) ↔ djb2 a = djb2 b) := by
  refine ⟨fun a b h => h.djb2_ne, ?_, ?_, djb2_append_inj⟩
  · intro r s h
    have htag : r.etag ≠ s.etag := fun hsame => h.djb2_ne (etag_eq_iff.mp hsame)
    have hline : r.tagLine ≠ s.tagLine := fun hsame => htag (tagLine_eq_iff.mp hsame)
    refine ⟨htag, hline, ?_⟩
    intro hstatus htype p q hhead
    have habove : r.aboveTag = s.aboveTag := by
      rw [aboveTag, aboveTag, aboveLength, aboveLength, typeLine, typeLine, lengthLine, lengthLine,
        hstatus, htype, h.left]
    exact hline (tagLine_eq_of_encodeHead_eq habove hhead)
  · intro r policy
    exact ⟨encodeHead_eq_tagLine r policy, fun h => value?_tag h policy⟩

theorem etag_notices_change_greeting :
    let r := plain .ok "hello"
    let s := plain .ok "hellp"
    let policy : Option (Cors × String) := some ({ origins := ["http://a"] }, "http://a")
    Bytes.DifferOnce r.body s.body ∧ djb2 r.body ≠ djb2 s.body ∧ r.etag ≠ s.etag ∧
      r.encodeHead none ≠ s.encodeHead policy ∧
      Message.value? "ETag" (s.encodeHead policy) = some (Utf8.encode "\"0f92309a\"") := by
  intro r s policy
  have hdiffer : Bytes.DifferOnce r.body s.body :=
    Bytes.differOnce_iff.mpr ⟨Utf8.encode "hell", 111, 112, [], by decide, by decide, by decide⟩
  rcases etag_notices_change with ⟨hhash, htags, hheads, _⟩
  rcases htags r s hdiffer with ⟨htag, _, hhead⟩
  refine ⟨hdiffer, hhash _ _ hdiffer, htag, hhead rfl rfl none policy, ?_⟩
  rw [(hheads s policy).right (by decide)]
  decide +kernel

end Response
end HttpEngine
