import HttpEngine.Bytes

/-!
# UTF-8 has one written form

The decoder reads back every text that was written, and reads nothing else.  The main statement is
that strict reading accepts exactly what writing produces.
-/

namespace HttpEngine
namespace Utf8
namespace Decoder

/-!
# Single bytes

What one byte does to a decoder, by where the decoder is.
-/

theorem feed_ascii {byte : UInt8} (h : byte.toNat < 0x80) (read : List (Option Char)) :
    feed ⟨read, none⟩ byte = ⟨some (Char.ofNat byte.toNat) :: read, none⟩ := by
  simp only [feed, begin, h, if_true]

theorem feed_opening {byte : UInt8} {u : Unfinished} (h : opening? byte.toNat = some u)
    (hbyte : 0x80 ≤ byte.toNat) (read : List (Option Char)) :
    feed ⟨read, none⟩ byte = ⟨read, some u⟩ := by
  have hascii : ¬ byte.toNat < 0x80 := by omega
  simp only [feed, begin, hascii, if_false, h]

theorem feed_more {byte : UInt8} {due bits low high : Nat}
    (h : low ≤ byte.toNat ∧ byte.toNat ≤ high) (read : List (Option Char)) :
    feed ⟨read, some ⟨due + 2, bits, low, high⟩⟩ byte =
      ⟨read, some ⟨due + 1, bits * 64 + (byte.toNat - 0x80), 0x80, 0xBF⟩⟩ := by
  have hlast : ¬ due + 2 ≤ 1 := by omega
  simp only [feed, h, and_self, if_true, hlast, if_false]
  rfl

theorem feed_last {byte : UInt8} {bits low high : Nat}
    (h : low ≤ byte.toNat ∧ byte.toNat ≤ high) (read : List (Option Char)) :
    feed ⟨read, some ⟨1, bits, low, high⟩⟩ byte =
      ⟨some (Char.ofNat (bits * 64 + (byte.toNat - 0x80))) :: read, none⟩ := by
  simp only [feed, h, and_self, if_true, Nat.le_refl]

/-!
# Characters by their length

A character of one, two, three or four bytes is read as itself.
-/

theorem toNat_ofNat {n : Nat} (h : n < 256) : (UInt8.ofNat n).toNat = n := by
  rw [UInt8.toNat_ofNat']
  exact Nat.mod_eq_of_lt h

theorem foldl_one {v : Nat} (h : v ≤ 0x7f) (read : List (Option Char)) :
    [UInt8.ofNat v].foldl feed ⟨read, none⟩ = ⟨some (Char.ofNat v) :: read, none⟩ := by
  have h1 : (UInt8.ofNat v).toNat = v := toNat_ofNat (by omega)
  rw [List.foldl_cons, feed_ascii (by omega), List.foldl_nil, h1]

theorem foldl_two {v : Nat} (hlow : 0x7f < v) (hhigh : v ≤ 0x7ff) (read : List (Option Char)) :
    [UInt8.ofNat (v / 64 % 0x20 + 0xc0), UInt8.ofNat (v % 0x40 + 0x80)].foldl feed
      ⟨read, none⟩ = ⟨some (Char.ofNat v) :: read, none⟩ := by
  have h1 : (UInt8.ofNat (v / 64 % 0x20 + 0xc0)).toNat = v / 64 + 0xc0 := by
    rw [toNat_ofNat (by omega)]
    omega
  have h2 : (UInt8.ofNat (v % 0x40 + 0x80)).toNat = v % 0x40 + 0x80 :=
    toNat_ofNat (by omega)
  have hopen : opening? (v / 64 + 0xc0) = some ⟨1, v / 64, 0x80, 0xBF⟩ := by
    rw [opening?, if_neg (by omega), if_pos (by omega), Nat.add_sub_cancel]
  rw [List.foldl_cons, feed_opening (by rw [h1]; exact hopen) (by omega), List.foldl_cons,
    feed_last (by omega), List.foldl_nil, h2,
    show v / 64 * 64 + (v % 0x40 + 0x80 - 0x80) = v by omega]

theorem foldl_three {v : Nat} (hlow : 0x7ff < v) (hhigh : v ≤ 0xffff)
    (hvalid : v < 0xd800 ∨ 0xdfff < v) (read : List (Option Char)) :
    [UInt8.ofNat (v / 4096 % 0x10 + 0xe0), UInt8.ofNat (v / 64 % 0x40 + 0x80),
      UInt8.ofNat (v % 0x40 + 0x80)].foldl feed ⟨read, none⟩ =
      ⟨some (Char.ofNat v) :: read, none⟩ := by
  have h1 : (UInt8.ofNat (v / 4096 % 0x10 + 0xe0)).toNat = v / 4096 + 0xe0 := by
    rw [toNat_ofNat (by omega)]
    omega
  have h2 : (UInt8.ofNat (v / 64 % 0x40 + 0x80)).toNat = v / 64 % 0x40 + 0x80 :=
    toNat_ofNat (by omega)
  have h3 : (UInt8.ofNat (v % 0x40 + 0x80)).toNat = v % 0x40 + 0x80 :=
    toNat_ofNat (by omega)
  have hopen : opening? (v / 4096 + 0xe0) = some ⟨2, v / 4096,
      if v / 4096 + 0xe0 = 0xE0 then 0xA0 else 0x80,
      if v / 4096 + 0xe0 = 0xED then 0x9F else 0xBF⟩ := by
    rw [opening?, if_neg (by omega), if_neg (by omega), if_pos (by omega), Nat.add_sub_cancel]
  rw [List.foldl_cons, feed_opening (by rw [h1]; exact hopen) (by omega), List.foldl_cons,
    feed_more (by split <;> split <;> omega), List.foldl_cons, feed_last (by omega),
    List.foldl_nil, h2, h3,
    show (v / 4096 * 64 + (v / 64 % 0x40 + 0x80 - 0x80)) * 64 + (v % 0x40 + 0x80 - 0x80) = v by
      omega]

theorem foldl_four {v : Nat} (hlow : 0xffff < v) (hvalid : v < 0x110000)
    (read : List (Option Char)) :
    [UInt8.ofNat (v / 262144 % 0x08 + 0xf0), UInt8.ofNat (v / 4096 % 0x40 + 0x80),
      UInt8.ofNat (v / 64 % 0x40 + 0x80), UInt8.ofNat (v % 0x40 + 0x80)].foldl feed
      ⟨read, none⟩ = ⟨some (Char.ofNat v) :: read, none⟩ := by
  have h1 : (UInt8.ofNat (v / 262144 % 0x08 + 0xf0)).toNat = v / 262144 + 0xf0 := by
    rw [toNat_ofNat (by omega)]
    omega
  have h2 : (UInt8.ofNat (v / 4096 % 0x40 + 0x80)).toNat = v / 4096 % 0x40 + 0x80 :=
    toNat_ofNat (by omega)
  have h3 : (UInt8.ofNat (v / 64 % 0x40 + 0x80)).toNat = v / 64 % 0x40 + 0x80 :=
    toNat_ofNat (by omega)
  have h4 : (UInt8.ofNat (v % 0x40 + 0x80)).toNat = v % 0x40 + 0x80 :=
    toNat_ofNat (by omega)
  have hopen : opening? (v / 262144 + 0xf0) = some ⟨3, v / 262144,
      if v / 262144 + 0xf0 = 0xF0 then 0x90 else 0x80,
      if v / 262144 + 0xf0 = 0xF4 then 0x8F else 0xBF⟩ := by
    rw [opening?, if_neg (by omega), if_neg (by omega), if_neg (by omega), if_pos (by omega),
      Nat.add_sub_cancel]
  rw [List.foldl_cons, feed_opening (by rw [h1]; exact hopen) (by omega), List.foldl_cons,
    feed_more (by split <;> split <;> omega), List.foldl_cons, feed_more (by omega),
    List.foldl_cons, feed_last (by omega), List.foldl_nil, h2, h3, h4,
    show ((v / 262144 * 64 + (v / 4096 % 0x40 + 0x80 - 0x80)) * 64 +
      (v / 64 % 0x40 + 0x80 - 0x80)) * 64 + (v % 0x40 + 0x80 - 0x80) = v by omega]

end Decoder

/-!
# What was written is read
-/

theorem foldl_encodeChar (c : Char) (read : List (Option Char)) :
    (encodeChar c).foldl Decoder.feed ⟨read, none⟩ = ⟨some c :: read, none⟩ := by
  have hvalid : c.val.toNat < 0xD800 ∨ 0xDFFF < c.val.toNat ∧ c.val.toNat < 0x110000 := c.valid
  have hc : Char.ofNat c.val.toNat = c := Char.ofNat_toNat c
  rw [show encodeChar c = String.utf8EncodeChar c from rfl, String.utf8EncodeChar]
  generalize c.val.toNat = v at *
  rw [← hc]
  split
  · exact Decoder.foldl_one (by omega) read
  · split
    · exact Decoder.foldl_two (by omega) (by omega) read
    · split
      · exact Decoder.foldl_three (by omega) (by omega) (by omega) read
      · exact Decoder.foldl_four (by omega) (by omega) read

theorem encodeChars_cons (c : Char) (text : List Char) :
    encodeChars (c :: text) = encodeChar c ++ encodeChars text :=
  List.flatMap_cons

theorem foldl_encodeChars (text : List Char) (read : List (Option Char)) :
    (encodeChars text).foldl Decoder.feed ⟨read, none⟩ =
      ⟨(text.map some).reverse ++ read, none⟩ := by
  induction text generalizing read with
  | nil => rfl
  | cons c rest ih =>
      rw [encodeChars_cons, List.foldl_append, foldl_encodeChar, ih]
      simp

theorem scan_encodeChars (text : List Char) : scan (encodeChars text) = text.map some := by
  simp [scan, Decoder.start, foldl_encodeChars, Decoder.finish]

theorem decodeChars?_encodeChars (text : List Char) :
    decodeChars? (encodeChars text) = some text := by
  simp [decodeChars?, scan_encodeChars, List.filterMap_map]

/-!
# Nothing else is read

Of the bytes read so far, those that made up whole characters are the written form of these, and
the others are the beginning of a character that is still unfinished.
-/

inductive Opens : Bytes -> Unfinished -> Prop where
  | first {byte : UInt8} {u : Unfinished} : opening? byte.toNat = some u -> Opens [byte] u
  | more {passed : Bytes} {due bits low high : Nat} {byte : UInt8} :
      Opens passed ⟨due + 2, bits, low, high⟩ -> low ≤ byte.toNat -> byte.toNat ≤ high ->
      Opens (passed ++ [byte]) ⟨due + 1, bits * 64 + (byte.toNat - 0x80), 0x80, 0xBF⟩

theorem ofNat_toNat (byte : UInt8) {n : Nat} (h : n = byte.toNat) : UInt8.ofNat n = byte := by
  rw [h, UInt8.ofNat_toNat]

theorem encodeChar_ofNat {v : Nat} (hvalid : v < 0xD800 ∨ 0xDFFF < v ∧ v < 0x110000) :
    encodeChar (Char.ofNat v) =
      if v ≤ 0x7f then [UInt8.ofNat v]
      else if v ≤ 0x7ff then
        [UInt8.ofNat (v / 64 % 0x20 + 0xc0), UInt8.ofNat (v % 0x40 + 0x80)]
      else if v ≤ 0xffff then
        [UInt8.ofNat (v / 4096 % 0x10 + 0xe0), UInt8.ofNat (v / 64 % 0x40 + 0x80),
          UInt8.ofNat (v % 0x40 + 0x80)]
      else
        [UInt8.ofNat (v / 262144 % 0x08 + 0xf0), UInt8.ofNat (v / 4096 % 0x40 + 0x80),
          UInt8.ofNat (v / 64 % 0x40 + 0x80), UInt8.ofNat (v % 0x40 + 0x80)] := by
  have hnat : (Char.ofNat v).val.toNat = v := by
    have h : v.isValidChar := hvalid
    rw [Char.ofNat, dif_pos h]
    rfl
  rw [show encodeChar (Char.ofNat v) = String.utf8EncodeChar (Char.ofNat v) from rfl,
    String.utf8EncodeChar, hnat]

theorem opening?_eq_some {b : Nat} {u : Unfinished} (h : opening? b = some u) :
    (0xC2 ≤ b ∧ b < 0xE0 ∧ u = ⟨1, b - 0xC0, 0x80, 0xBF⟩) ∨
    (0xE0 ≤ b ∧ b < 0xF0 ∧ u = ⟨2, b - 0xE0, if b = 0xE0 then 0xA0 else 0x80,
      if b = 0xED then 0x9F else 0xBF⟩) ∨
    (0xF0 ≤ b ∧ b < 0xF5 ∧ u = ⟨3, b - 0xF0, if b = 0xF0 then 0x90 else 0x80,
      if b = 0xF4 then 0x8F else 0xBF⟩) := by
  rw [opening?] at h
  split at h
  · cases h
  · split at h
    · exact Or.inl ⟨by omega, by omega, (Option.some.inj h).symm⟩
    · split at h
      · exact Or.inr (Or.inl ⟨by omega, by omega, (Option.some.inj h).symm⟩)
      · split at h
        · exact Or.inr (Or.inr ⟨by omega, by omega, (Option.some.inj h).symm⟩)
        · cases h

theorem due_of_opens {passed : Bytes} {u : Unfinished} (h : Opens passed u) :
    1 ≤ u.due ∧ u.due ≤ 3 := by
  induction h with
  | first hu =>
      rcases opening?_eq_some hu with hu | hu | hu <;> simp [hu.right.right]
  | more _ _ _ ih =>
      simp only at ih ⊢
      omega

theorem encodeChar_of_opens {passed : Bytes} {bits low high : Nat}
    (h : Opens passed ⟨1, bits, low, high⟩) {byte : UInt8} (hlow : low ≤ byte.toNat)
    (hhigh : byte.toNat ≤ high) :
    encodeChar (Char.ofNat (bits * 64 + (byte.toNat - 0x80))) = passed ++ [byte] := by
  cases h with
  | @first a _ ha =>
      have hopen := opening?_eq_some ha
      simp only [Unfinished.mk.injEq] at hopen
      have hb : (0x80 ≤ byte.toNat ∧ byte.toNat ≤ 0xBF) ∧ 0xC2 ≤ a.toNat ∧ a.toNat < 0xE0 ∧
          bits = a.toNat - 0xC0 := by omega
      rw [encodeChar_ofNat (by omega), if_neg (by omega), if_pos (by omega),
        ofNat_toNat a (by omega), ofNat_toNat byte (by omega)]
      rfl
  | @more passed _ bits low' high' b hpassed hlow' hhigh' =>
      cases hpassed with
      | @first a _ ha =>
          have hopen := opening?_eq_some ha
          simp only [Unfinished.mk.injEq] at hopen
          replace hopen := (hopen.resolve_left (by omega)).resolve_right (by omega)
          have hb : 0xE0 ≤ a.toNat ∧ a.toNat < 0xF0 ∧ bits = a.toNat - 0xE0 ∧
              (a.toNat = 0xE0 → 0xA0 ≤ b.toNat) ∧ (a.toNat = 0xED → b.toNat ≤ 0x9F) ∧
              0x80 ≤ b.toNat ∧ b.toNat ≤ 0xBF := by
            split at hopen <;> split at hopen <;> omega
          rw [encodeChar_ofNat (by omega), if_neg (by omega), if_neg (by omega),
            if_pos (by omega), ofNat_toNat a (by omega),
            ofNat_toNat b (by omega), ofNat_toNat byte (by omega)]
          rfl
      | @more passed _ bits low'' high'' c hpassed hlow'' hhigh'' =>
          cases hpassed with
          | @first a _ ha =>
              have hopen := opening?_eq_some ha
              simp only [Unfinished.mk.injEq] at hopen
              replace hopen := (hopen.resolve_left (by omega)).resolve_left (by omega)
              have hb : 0xF0 ≤ a.toNat ∧ a.toNat < 0xF5 ∧ bits = a.toNat - 0xF0 ∧
                  (a.toNat = 0xF0 → 0x90 ≤ c.toNat) ∧ (a.toNat = 0xF4 → c.toNat ≤ 0x8F) ∧
                  0x80 ≤ c.toNat ∧ c.toNat ≤ 0xBF := by
                split at hopen <;> split at hopen <;> omega
              rw [encodeChar_ofNat (by omega), if_neg (by omega), if_neg (by omega),
                if_neg (by omega), ofNat_toNat a (by omega),
                ofNat_toNat c (by omega), ofNat_toNat b (by omega),
                ofNat_toNat byte (by omega)]
              rfl
          | @more passed _ bits _ _ d hpassed _ _ =>
              have hdue := due_of_opens hpassed
              simp only at hdue
              omega

def Decoder.Reads (d : Decoder) (bytes : Bytes) : Prop :=
  exists passed : Bytes, bytes = encodeChars (d.read.reverse.filterMap id) ++ passed ∧
    match d.unfinished with
    | none => passed = []
    | some u => Opens passed u

theorem encodeChars_append (a b : List Char) :
    encodeChars (a ++ b) = encodeChars a ++ encodeChars b :=
  List.flatMap_append

theorem encode_append (a b : String) : encode (a ++ b) = encode a ++ encode b := by
  rw [encode, String.toList_append, encodeChars_append]
  rfl

theorem encodeChar_ascii {byte : UInt8} (h : byte.toNat < 0x80) :
    encodeChar (Char.ofNat byte.toNat) = [byte] := by
  rw [encodeChar_ofNat (by omega), if_pos (by omega), UInt8.ofNat_toNat]

theorem Decoder.reads_begin {read : List (Option Char)} {byte : UInt8} {bytes : Bytes}
    (h : Reads ⟨read, none⟩ bytes)
    (hread : (begin read byte.toNat).read.all Option.isSome = true) :
    (begin read byte.toNat).Reads (bytes ++ [byte]) := by
  cases h with
  | intro passed hpassed =>
      have hbytes : bytes = encodeChars (read.reverse.filterMap id) := by
        rw [hpassed.left, hpassed.right, List.append_nil]
      unfold begin at hread ⊢
      split
      · next hascii =>
        exact ⟨[], by simp [hbytes, encodeChars, encodeChar_ascii hascii], rfl⟩
      · next hascii =>
        rw [if_neg hascii] at hread
        cases hopen : opening? byte.toNat with
        | none => simp [hopen] at hread
        | some u => exact ⟨[byte], by simp [hbytes], Opens.first hopen⟩

theorem Decoder.reads_feed {d : Decoder} {byte : UInt8} {bytes : Bytes}
    (hread : (d.feed byte).read.all Option.isSome = true) (h : d.Reads bytes) :
    (d.feed byte).Reads (bytes ++ [byte]) := by
  cases d with
  | mk read unfinished =>
      cases unfinished with
      | none => exact reads_begin h hread
      | some u =>
          cases h with
          | intro passed hpassed =>
              by_cases hrange : u.low ≤ byte.toNat ∧ byte.toNat ≤ u.high
              · cases u with
                | mk due bits low high =>
                    cases due with
                    | zero => exact absurd (due_of_opens hpassed.right).left (by simp)
                    | succ due =>
                        cases due with
                        | zero =>
                            rw [feed_last hrange]
                            refine ⟨[], ?_, rfl⟩
                            have hchar :=
                              encodeChar_of_opens hpassed.right hrange.left hrange.right
                            simp [hpassed.left, encodeChars, hchar]
                        | succ due =>
                            rw [feed_more hrange]
                            refine ⟨passed ++ [byte], by simp [hpassed.left], ?_⟩
                            exact Opens.more hpassed.right hrange.left hrange.right
              · exfalso
                have hbad : none ∈ (feed ⟨read, some u⟩ byte).read := by
                  simp only [feed, hrange, if_false]
                  unfold begin
                  split
                  · simp
                  · split <;> simp
                have hsome := List.all_eq_true.mp hread none hbad
                cases hsome

theorem Decoder.exists_read_begin (read : List (Option Char)) (byte : Nat) :
    exists more, (begin read byte).read = more ++ read := by
  unfold begin
  split
  · exact ⟨[some (Char.ofNat byte)], rfl⟩
  · split
    · exact ⟨[], rfl⟩
    · exact ⟨[none], rfl⟩

theorem Decoder.exists_read_feed (d : Decoder) (byte : UInt8) :
    exists more, (d.feed byte).read = more ++ d.read := by
  unfold feed
  split
  · exact exists_read_begin d.read byte.toNat
  · next u _ =>
    simp only
    split
    · split
      · exact ⟨[_], rfl⟩
      · exact ⟨[], rfl⟩
    · cases exists_read_begin (none :: d.read) byte.toNat with
      | intro more hmore => exact ⟨more ++ [none], by rw [hmore]; simp⟩

theorem Decoder.exists_read_foldl (rest : Bytes) (d : Decoder) :
    exists more, (rest.foldl feed d).read = more ++ d.read := by
  induction rest generalizing d with
  | nil => exact ⟨[], rfl⟩
  | cons byte rest ih =>
      cases ih (d.feed byte) with
      | intro late hlate =>
          cases exists_read_feed d byte with
          | intro early hearly =>
              exact ⟨late ++ early, by rw [List.foldl_cons, hlate, hearly, List.append_assoc]⟩

theorem Decoder.reads_foldl (rest : Bytes) {d : Decoder} {bytes : Bytes} (h : d.Reads bytes)
    (hread : (rest.foldl feed d).read.all Option.isSome = true) :
    (rest.foldl feed d).Reads (bytes ++ rest) := by
  induction rest generalizing d bytes with
  | nil => simpa using h
  | cons byte rest ih =>
      have hfeed : (d.feed byte).read.all Option.isSome = true := by
        cases exists_read_foldl rest (d.feed byte) with
        | intro more hmore =>
            rw [List.foldl_cons, hmore, List.all_append, Bool.and_eq_true] at hread
            exact hread.right
      simpa using ih (reads_feed hfeed h) hread

theorem eq_encodeChars_of_decodeChars? {bytes : Bytes} {text : List Char}
    (h : decodeChars? bytes = some text) : bytes = encodeChars text := by
  simp only [decodeChars?] at h
  split at h
  · next hall =>
    have htext : (scan bytes).filterMap id = text := Option.some.inj h
    have hstart : Decoder.start.Reads [] := ⟨[], rfl, rfl⟩
    have hread : (bytes.foldl Decoder.feed Decoder.start).read.all Option.isSome = true := by
      unfold scan Decoder.finish at hall
      split at hall
      · simpa using hall
      · simp at hall
    cases Decoder.reads_foldl bytes hstart hread with
    | intro passed hpassed =>
        unfold scan Decoder.finish at hall htext
        generalize bytes.foldl Decoder.feed Decoder.start = d at *
        cases d with
        | mk read unfinished =>
            cases unfinished with
            | none =>
                simp only at htext hpassed
                rw [hpassed.right, List.append_nil, htext] at hpassed
                simpa using hpassed.left
            | some u => simp at hall
  · cases h

theorem decodeChars?_eq_some_iff {bytes : Bytes} {text : List Char} :
    decodeChars? bytes = some text ↔ bytes = encodeChars text := by
  constructor
  · exact eq_encodeChars_of_decodeChars?
  · intro h
    rw [h]
    exact decodeChars?_encodeChars text

end Utf8
end HttpEngine
