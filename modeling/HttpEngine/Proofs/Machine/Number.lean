import Mathlib.Algebra.Group.Nat.Defs
import HttpEngine.Machine.Number
import HttpEngine.Proofs.Decimal.Numerals
import HttpEngine.Proofs.Machine.Head
import HttpEngine.Proofs.Request.RoundTrip
import HttpEngine.Proofs.Response.Fields

/-!
# Numbers that are written and read

A buffer of 39 bytes has room for the digits of any number in a word of 128 bits, so what a machine
writes is the numeral of the number.  What it writes for a size is read as that size, and the length
that stands in the head of a response is the one that a request with this line has.
-/

namespace HttpEngine
namespace Machine

theorem octet_eq_ok {n : Nat} (h : n < 256) : octet n = .ok (UInt8.ofNat n) :=
  if_pos h

/-! # The buffer -/

/-- The digits of a number, of which zero has none. -/
def significant (n : Nat) : Bytes :=
  if n = 0 then [] else Decimal.natural n

theorem significant_of_pos {n : Nat} (h : 0 < n) :
    significant n = significant (n / 10) ++ [Decimal.digitByte (n % 10)] := by
  rw [significant, if_neg (Nat.ne_of_gt h)]
  rcases Nat.lt_or_ge n 10 with hlt | hle
  · rw [Decimal.natural_of_lt hlt, Nat.div_eq_of_lt hlt, Nat.mod_eq_of_lt hlt]
    rfl
  · rw [Decimal.natural_of_le hle, significant, if_neg (by omega)]

theorem lastDigit_eq_ok (n : BitVec 128) :
    octet (48 + ((n % 10).setWidth 8).toNat) = .ok (Decimal.digitByte (n.toNat % 10)) := by
  have hdigit : ((n % 10).setWidth 8).toNat = n.toNat % 10 := by
    rw [BitVec.toNat_setWidth, BitVec.toNat_umod]
    exact Nat.mod_eq_of_lt (Nat.lt_trans (Nat.mod_lt _ (by decide)) (by decide))
  rw [hdigit, Decimal.digitByte]
  exact octet_eq_ok (by omega)

theorem fillDigits_zero (buffer : Bytes) (place : Nat) :
    fillDigits 0 buffer place = .ok (buffer, place) := by
  rw [fillDigits, dif_pos rfl]
  rfl

theorem fillDigits_step {n : BitVec 128} (hn : n ≠ 0) (front : Bytes) (last : UInt8)
    (rest : Bytes) :
    fillDigits n (front ++ last :: rest) (front.length + 1) =
      fillDigits (n / 10) (front ++ Decimal.digitByte (n.toNat % 10) :: rest) front.length := by
  have hput : overwrite (front ++ last :: rest) front.length [Decimal.digitByte (n.toNat % 10)] =
      .ok (front ++ Decimal.digitByte (n.toNat % 10) :: rest) := by
    rw [overwrite_eq_ok (by simp), List.take_left, List.drop_append]
    simp
  rw [fillDigits, dif_neg hn, sub_eq_ok (Nat.le_add_left 1 _), ok_bind, Nat.add_sub_cancel,
    lastDigit_eq_ok, ok_bind, hput, ok_bind]

theorem fillDigits_eq (n : BitVec 128) (front rest : Bytes)
    (h : n.toNat < 10 ^ front.length) :
    exists kept : Bytes, fillDigits n (front ++ rest) front.length =
      .ok (kept ++ significant n.toNat ++ rest, kept.length) := by
  -- The induction is on what lies before the place, of which each digit takes the last byte.
  induction front using List.reverseRecOn generalizing n rest with
  | nil =>
      have hzero : n = 0 := BitVec.eq_of_toNat_eq (Nat.lt_one_iff.mp h)
      rw [hzero, fillDigits_zero]
      exact ⟨[], rfl⟩
  | append_singleton front last ih =>
      by_cases hn : n = 0
      · have hnone : significant (0 : BitVec 128).toNat = [] := rfl
        rw [hn, fillDigits_zero, hnone]
        exact ⟨front ++ [last], by rw [List.append_nil]⟩
      · have hpos : 0 < n.toNat := BitVec.toNat_pos_of_ne_zero hn
        have htens : (n / 10).toNat = n.toNat / 10 := BitVec.toNat_udiv
        rw [List.length_append, List.length_singleton, Nat.pow_succ] at h
        rcases ih (n / 10) (Decimal.digitByte (n.toNat % 10) :: rest) (by omega) with
          ⟨kept, hkept⟩
        refine ⟨kept, ?_⟩
        rw [List.append_assoc, List.singleton_append, List.length_append, List.length_singleton,
          fillDigits_step hn, hkept, htens, significant_of_pos hpos]
        simp only [List.append_assoc, List.singleton_append]

theorem digitBuffer_eq (n : BitVec 128) :
    exists kept : Bytes, digitBuffer n = .ok (kept ++ Decimal.natural n.toNat, kept.length) := by
  unfold digitBuffer
  by_cases hn : n = 0
  · rw [if_pos hn, hn]
    exact ⟨List.replicate 38 48, rfl⟩
  · have hroom : n.toNat < 10 ^ (List.replicate 39 (48 : UInt8)).length :=
      Nat.lt_of_lt_of_le n.isLt (by decide)
    have hpos : n.toNat ≠ 0 := Nat.ne_of_gt (BitVec.toNat_pos_of_ne_zero hn)
    rcases fillDigits_eq n (List.replicate 39 48) [] hroom with ⟨kept, hkept⟩
    rw [List.append_nil, List.append_nil, significant, if_neg hpos] at hkept
    rw [if_neg hn]
    exact ⟨kept, hkept⟩

/-! # What is written -/

theorem writeUnsigned_eq (held : Bytes) (n : BitVec 128) :
    writeUnsigned held n = .ok (held ++ Decimal.natural n.toNat) := by
  rcases digitBuffer_eq n with ⟨kept, hkept⟩
  have hslice : slice (kept ++ Decimal.natural n.toNat) kept.length
      (kept ++ Decimal.natural n.toNat).length = .ok (Decimal.natural n.toNat) := by
    rw [slice_to_end (by simp), List.drop_left]
  unfold writeUnsigned
  simp only [hkept, ok_bind, hslice]
  rfl

/-- The smallest word with a sign has an absolute value, which is a word without one. -/
theorem toNat_abs (z : BitVec 128) : z.abs.toNat = z.toInt.natAbs := by
  have hbound : z.toNat < 2 ^ 128 := z.isLt
  rw [BitVec.toNat_abs, BitVec.toInt_eq_msb_cond]
  split <;> omega

theorem writeSigned_eq (held : Bytes) (z : BitVec 128) :
    writeSigned held z = .ok (held ++ Decimal.integer z.toInt) := by
  unfold writeSigned
  rw [writeUnsigned_eq, writeUnsigned_eq, toNat_abs]
  cases z.toInt with
  | ofNat n => rfl
  | negSucc n =>
    rw [if_pos (Int.negSucc_lt_zero n), List.append_assoc]
    rfl

theorem writeSize_eq (held : Bytes) (n : UInt64) :
    writeSize held n = .ok (held ++ Decimal.natural n.toNat) := by
  rw [writeSize, writeUnsigned_eq, BitVec.toNat_setWidth_of_le (by decide), UInt64.toNat_toBitVec]

/-! # The length of a body -/

def lengthField (length : Nat) : Header :=
  ⟨"Content-Length", String.ofList (Decimal.digits length)⟩

theorem lengthLine_eq (r : Response) :
    r.lengthLine = Utf8.encodeChars (RequestHead.headerLine (lengthField r.body.length)) := by
  have hcolon : Utf8.encodeChars [':', ' '] = Message.colon := by decide
  have hline : RequestHead.headerLine (lengthField r.body.length) =
      "Content-Length".toList ++ [':', ' '] ++ Decimal.digits r.body.length := by
    simp [RequestHead.headerLine, lengthField]
  rw [hline, Utf8.encodeChars_append, Utf8.encodeChars_append, hcolon]
  rfl

theorem parse?_lengthField (length : Nat) :
    Header.parse? (RequestHead.headerLine (lengthField length)) = some (lengthField length) := by
  apply RequestHead.parse?_headerLine
  · exact (by decide : "Content-Length".toList ≠ [])
  · exact (by decide : ':' ∉ "Content-Length".toList)
  · intro hspace
    rw [lengthField, String.toList_ofList] at hspace
    have hdigit := Decimal.toNat_of_mem_digits (List.mem_of_head? hspace)
    exact absurd hdigit (by decide)

theorem bodyLength_lengthField {length : Nat} (hlength : length < 2 ^ 64) {before : List Header}
    (hbefore : forall field, field ∈ before -> Header.sameName field.name "content-length" = false)
    (after : List Header) :
    Request.bodyLength (before ++ lengthField length :: after) = length := by
  apply RequestHead.bodyLength_eq hlength
  have hname : Header.sameName "Content-Length" "content-length" = true := by decide
  exact Header.find?_eq_some_iff.mpr
    ⟨before, lengthField length, after, rfl, hname, rfl, hbefore⟩

/--
What a machine writes for a number without a sign, or for one with a sign, in a word of 128 bits is
the numeral of the number and nothing else; no step of it goes wrong.  A text is read as a size
exactly if it is one or more digits that stand for a number below 2 ^ 64, whatever its length is and
with whatever zeros in front, and never in a word that overflows.  So what is written for a size is
read as that size, and the line for the length in the head of a response is one from which the
length of a body is read.
-/
theorem numbers_written_and_read :
    (forall (held : Bytes) (n : BitVec 128),
      writeUnsigned held n = .ok (held ++ Decimal.natural n.toNat) ∧
      forall text : Bytes, Decimal.IsNumeral n.toNat text ↔ text = Decimal.natural n.toNat) ∧
    (forall (held : Bytes) (z : BitVec 128),
      writeSigned held z = .ok (held ++ Decimal.integer z.toInt) ∧
      forall text : Bytes, Decimal.IsIntegerNumeral z.toInt text ↔ text = Decimal.integer z.toInt) ∧
    (forall text : Bytes,
      size? text = .ok (Decimal.size? text) ∧
      (forall v : Nat, Decimal.size? text = some v ↔
        text ≠ [] ∧ (forall byte, byte ∈ text -> 48 ≤ byte.toNat ∧ byte.toNat ≤ 57) ∧
          Decimal.value text = v ∧ v < 2 ^ 64) ∧
      (Decimal.size? text = none ↔
        text = [] ∨ (exists byte, byte ∈ text ∧ ¬(48 ≤ byte.toNat ∧ byte.toNat ≤ 57)) ∨
          2 ^ 64 ≤ Decimal.value text)) ∧
    (forall n : UInt64, exists text : Bytes,
      writeSize [] n = .ok text ∧ size? text = .ok (some n.toNat)) ∧
    (forall (r : Response) (policy : Option (Cors × String)), r.body.length < 2 ^ 64 ->
      exists (line : List Char) (field : Header) (rest : Bytes),
        r.encodeHead policy = r.aboveLength ++ Utf8.encodeChars line ++ Bytes.crlf ++ rest ∧
        Header.parse? line = some field ∧
        forall before after : List Header,
          (forall other, other ∈ before ->
            Header.sameName other.name "content-length" = false) ->
          Request.bodyLength (before ++ field :: after) = r.body.length) := by
  refine ⟨?_, ?_, ?_, ?_, ?_⟩
  · intro held n
    exact ⟨writeUnsigned_eq held n, fun _ => Decimal.isNumeral_iff⟩
  · intro held z
    exact ⟨writeSigned_eq held z, fun _ => Decimal.isIntegerNumeral_iff⟩
  · intro text
    simp only [← Decimal.isDigit_iff, Bool.not_eq_true]
    exact ⟨size?_eq text, fun _ => Decimal.size?_eq_some_iff, Decimal.size?_eq_none_iff⟩
  · intro n
    refine ⟨_, writeSize_eq [] n, ?_⟩
    rw [size?_eq, List.nil_append, Decimal.size?_natural n.toNat_lt]
  · intro r policy hlength
    rcases Response.encodeHead_eq_lengthLine r policy with ⟨rest, hrest⟩
    rw [lengthLine_eq] at hrest
    exact ⟨_, lengthField r.body.length, rest, hrest, parse?_lengthField _,
      fun before after hbefore => bodyLength_lengthField hlength hbefore after⟩

theorem numbers_written_and_read_greeting :
    writeSigned [] (BitVec.intMin 128) =
      .ok (Utf8.encode "-170141183460469231731687303715884105728") ∧
    (Response.plain .ok "Hello, world!").body.length < 2 ^ 64 ∧
    exists (line : List Char) (field : Header), Header.parse? line = some field ∧
      Request.bodyLength [⟨"Host", "a"⟩, field, ⟨"Content-Length", "7"⟩] = 13 := by
  rcases numbers_written_and_read with ⟨_, hsigned, _, _, hlength⟩
  have hsmall : (Response.plain .ok "Hello, world!").body.length < 2 ^ 64 := by decide
  refine ⟨?_, hsmall, ?_⟩
  · rw [(hsigned [] (BitVec.intMin 128)).left]
    decide +kernel
  · rcases hlength (Response.plain .ok "Hello, world!") none hsmall with
      ⟨line, field, _, _, hfield, hbody⟩
    refine ⟨line, field, hfield, (hbody [⟨"Host", "a"⟩] [⟨"Content-Length", "7"⟩] ?_).trans ?_⟩
    · decide
    · decide

end Machine
end HttpEngine
