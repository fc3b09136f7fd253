import HttpEngine.Text.Utf8

/-!
# Where an encoded text may be cut

A byte string that encodes a text may be cut before and after each of its ASCII bytes, and after
each beginning of it that encodes a text: what is left on either side encodes a text again.  Such
a byte string loses nothing when it is read, even leniently.
-/

namespace HttpEngine
namespace Utf8

def IsText (bytes : Bytes) : Prop :=
  exists text : List Char, bytes = encodeChars text

theorem isText_encode (text : String) : IsText (encode text) :=
  ⟨text.toList, rfl⟩

theorem isText_nil : IsText [] :=
  ⟨[], rfl⟩

theorem IsText.append {a b : Bytes} (ha : IsText a) (hb : IsText b) : IsText (a ++ b) := by
  rcases ha with ⟨x, hx⟩
  rcases hb with ⟨y, hy⟩
  exists x ++ y
  rw [hx, hy, encodeChars_append]

theorem encodeChars_inj {a b : List Char} (h : encodeChars a = encodeChars b) : a = b := by
  have hread := decodeChars?_encodeChars a
  rw [h, decodeChars?_encodeChars] at hread
  exact (Option.some.inj hread).symm

/-!
# After a beginning

The decoder stands between two characters once it has read a whole one, so no character begins
with the bytes of another.
-/

theorem encodeChar_ne_nil (c : Char) : encodeChar c ≠ [] := by
  intro h
  have hread := foldl_encodeChar c []
  rw [h] at hread
  cases hread

theorem getLast?_read_encodeChar_append (c : Char) (rest : Bytes) :
    ((encodeChar c ++ rest).foldl Decoder.feed Decoder.start).read.getLast? = some (some c) := by
  rw [List.foldl_append, Decoder.start, foldl_encodeChar]
  rcases Decoder.exists_read_foldl rest ⟨[some c], none⟩ with ⟨more, hmore⟩
  rw [hmore, List.getLast?_append]
  rfl

theorem encodeChar_append_inj {c d : Char} {a b : Bytes}
    (h : encodeChar c ++ a = encodeChar d ++ b) : c = d ∧ a = b := by
  have hc := getLast?_read_encodeChar_append c a
  rw [h, getLast?_read_encodeChar_append d b] at hc
  have hcd : d = c := Option.some.inj (Option.some.inj hc)
  rw [hcd] at h
  constructor
  · exact hcd.symm
  · exact List.append_cancel_left h

theorem IsText.of_encodeChars_append {text : List Char} {bytes : Bytes}
    (h : IsText (encodeChars text ++ bytes)) : IsText bytes := by
  rcases h with ⟨whole, hwhole⟩
  induction text generalizing whole with
  | nil => exact ⟨whole, hwhole⟩
  | cons c text ih =>
      rw [encodeChars_cons, List.append_assoc] at hwhole
      cases whole with
      | nil => exact absurd (List.append_eq_nil_iff.mp hwhole).left (encodeChar_ne_nil c)
      | cons d whole =>
          rw [encodeChars_cons] at hwhole
          exact ih whole (encodeChar_append_inj hwhole).right

theorem encodeChars_prefix_iff {a b : List Char} : encodeChars a <+: encodeChars b ↔ a <+: b := by
  constructor
  · rintro ⟨rest, hrest⟩
    have htext : IsText (encodeChars a ++ rest) := ⟨b, hrest⟩
    rcases htext.of_encodeChars_append with ⟨late, hlate⟩
    rw [hlate, ← encodeChars_append] at hrest
    exact ⟨late, encodeChars_inj hrest⟩
  · rintro ⟨late, hlate⟩
    rw [← hlate, encodeChars_append]
    exact ⟨encodeChars late, rfl⟩

theorem IsText.of_append {a b : Bytes} (ha : IsText a) (h : IsText (a ++ b)) : IsText b := by
  rcases ha with ⟨text, htext⟩
  rw [htext] at h
  exact h.of_encodeChars_append

/-!
# At an ASCII byte

All bytes of a longer character lie above the ASCII range.
-/

theorem encodeChar_of_mem {c : Char} {byte : UInt8} (hbyte : byte.toNat < 0x80)
    (h : byte ∈ encodeChar c) : encodeChar c = [byte] := by
  have hvalid : c.val.toNat < 0xD800 ∨ 0xDFFF < c.val.toNat ∧ c.val.toNat < 0x110000 := c.valid
  have hc : Char.ofNat c.val.toNat = c := Char.ofNat_toNat c
  rw [← hc, encodeChar_ofNat hvalid] at h ⊢
  generalize c.val.toNat = v at *
  by_cases hascii : v ≤ 0x7f
  · rw [if_pos hascii] at h ⊢
    rw [List.mem_singleton.mp h]
  · have hhigh : forall n, 0x80 ≤ n -> n < 256 -> byte ≠ UInt8.ofNat n := by
      intro n hlow hlt hn
      rw [hn, Decoder.toNat_ofNat hlt] at hbyte
      omega
    exfalso
    rw [if_neg hascii] at h
    split at h
    · simp only [List.mem_cons, List.not_mem_nil, or_false] at h
      rcases h with h | h <;> exact hhigh _ (by omega) (by omega) h
    · split at h
      · simp only [List.mem_cons, List.not_mem_nil, or_false] at h
        rcases h with h | h | h <;> exact hhigh _ (by omega) (by omega) h
      · simp only [List.mem_cons, List.not_mem_nil, or_false] at h
        rcases h with h | h | h | h <;> exact hhigh _ (by omega) (by omega) h

theorem mem_encodeChars_iff {c : Char} {byte : UInt8} (hbyte : byte.toNat < 0x80)
    (hc : encodeChar c = [byte]) {text : List Char} : byte ∈ encodeChars text ↔ c ∈ text := by
  rw [encodeChars, List.mem_flatMap]
  constructor
  · intro h
    rcases h with ⟨d, hmem, hd⟩
    have hsame : d = c := by
      apply And.left
      apply encodeChar_append_inj (a := []) (b := [])
      rw [encodeChar_of_mem hbyte hd, hc]
    rwa [← hsame]
  · intro h
    refine ⟨c, h, ?_⟩
    rw [hc]
    exact List.mem_singleton_self byte

theorem notMem_encode {c : Char} {byte : UInt8} (hbyte : byte.toNat < 0x80)
    (hc : encodeChar c = [byte]) {text : String} (h : c ∉ text.toList) : byte ∉ encode text :=
  fun hmem => h ((mem_encodeChars_iff hbyte hc).mp hmem)

theorem IsText.split {a b : Bytes} {byte : UInt8} (hbyte : byte.toNat < 0x80)
    (h : IsText (a ++ byte :: b)) : IsText a ∧ IsText b := by
  rcases h with ⟨text, htext⟩
  induction text generalizing a with
  | nil => exact absurd (List.append_eq_nil_iff.mp htext).right (List.cons_ne_nil byte b)
  | cons c text ih =>
      rw [encodeChars_cons, List.append_eq_append_iff] at htext
      rcases htext with ⟨late, hc, htext⟩ | ⟨more, ha, htext⟩
      · cases late with
        | nil =>
            -- The cut is at the end of the first character.
            rw [List.append_nil] at hc
            rw [List.nil_append] at htext
            have hrest : IsText [] ∧ IsText b := ih (a := []) htext
            constructor
            · exists [c]
              rw [encodeChars_cons, hc]
              exact (List.append_nil a).symm
            · exact hrest.right
        | cons x late =>
            rcases List.cons.inj htext with ⟨hx, hb⟩
            have hmem : byte ∈ encodeChar c := by
              rw [hc, hx]
              exact List.mem_append_right a (List.mem_cons_self)
            have hone : a ++ x :: late = [byte] := hc.symm.trans (encodeChar_of_mem hbyte hmem)
            cases a with
            | nil =>
                have hlate : late = [] := (List.cons.inj hone).right
                constructor
                · exact isText_nil
                · exists text
                  rw [hb, hlate]
                  rfl
            | cons y a => simp at hone
      · have hrest : IsText more ∧ IsText b := ih htext.symm
        constructor
        · rw [ha]
          apply IsText.append
          · exists [c]
            rw [encodeChars_cons]
            exact (List.append_nil (encodeChar c)).symm
          · exact hrest.left
        · exact hrest.right

/-! # Nothing is replaced -/

theorem decodeLossy_encodeChars (text : List Char) :
    decodeLossy (encodeChars text) = String.ofList text := by
  rw [decodeLossy, scan_encodeChars, List.map_map]
  congr 1
  exact List.map_id text

theorem encode_inj {a b : String} (h : encode a = encode b) : a = b :=
  String.toList_inj.mp (encodeChars_inj h)

theorem IsText.encode_decodeLossy {bytes : Bytes} (h : IsText bytes) :
    encode (decodeLossy bytes) = bytes := by
  rcases h with ⟨text, htext⟩
  rw [htext, decodeLossy_encodeChars, encode, String.toList_ofList]

end Utf8
end HttpEngine
