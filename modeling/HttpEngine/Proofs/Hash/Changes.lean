import Mathlib.Data.Nat.ModEq
import Mathlib.Logic.ExistsUnique
import Mathlib.Tactic.Ring
import HttpEngine.Bytes

/-!
# Changes that a hash notices

Up to multiples of 2 ^ 32 a hash is a number to the base 33, whose digits are the bytes behind the
start.  As 33 is odd, it can be divided out again.  So bytes that are put behind two texts make no
hashes equal that were not equal before, and one byte that changes always changes the hash.
-/

namespace HttpEngine

/-! # Byte strings that differ once -/

namespace Bytes

def DifferOnce (a b : Bytes) : Prop :=
  a.length = b.length ∧ ∃! place : Nat, a[place]? ≠ b[place]?

theorem differOnce_iff {a b : Bytes} :
    DifferOnce a b ↔
      exists (front : Bytes) (x y : UInt8) (rest : Bytes),
        x ≠ y ∧ a = front ++ x :: rest ∧ b = front ++ y :: rest := by
  constructor
  · rintro ⟨hlength, place, hdiffer, honly⟩
    have hsame : forall other, other ≠ place -> a[other]? = b[other]? := by
      intro other hother
      exact Classical.byContradiction fun h => hother (honly other h)
    have ha : place < a.length := by
      refine Nat.lt_of_not_le fun hle => hdiffer ?_
      rw [List.getElem?_eq_none hle, List.getElem?_eq_none (hlength ▸ hle)]
    have hb : place < b.length := hlength ▸ ha
    have hfront : a.take place = b.take place := by
      apply List.ext_getElem?
      intro i
      rw [List.getElem?_take, List.getElem?_take]
      split
      · exact hsame i (by omega)
      · rfl
    have hrest : a.drop (place + 1) = b.drop (place + 1) := by
      apply List.ext_getElem?
      intro i
      rw [List.getElem?_drop, List.getElem?_drop]
      exact hsame (place + 1 + i) (by omega)
    refine ⟨a.take place, a[place], b[place], a.drop (place + 1), ?_, ?_, ?_⟩
    · intro h
      rw [List.getElem?_eq_getElem ha, List.getElem?_eq_getElem hb, h] at hdiffer
      exact hdiffer rfl
    · rw [← List.drop_eq_getElem_cons ha, List.take_append_drop]
    · rw [hfront, hrest, ← List.drop_eq_getElem_cons hb, List.take_append_drop]
  · rintro ⟨front, x, y, rest, hne, ha, hb⟩
    rw [ha, hb]
    refine ⟨by simp, front.length, by simpa using hne, ?_⟩
    intro other hother
    refine Classical.byContradiction fun hplace => hother ?_
    rcases Nat.lt_or_gt_of_ne hplace with hbefore | hbehind
    · rw [List.getElem?_append_left hbefore, List.getElem?_append_left hbefore]
    · rcases Nat.exists_eq_add_of_lt hbehind with ⟨i, hi⟩
      rw [hi, List.getElem?_append_right (by omega), List.getElem?_append_right (by omega),
        Nat.add_assoc, Nat.add_sub_cancel_left, List.getElem?_cons_succ, List.getElem?_cons_succ]

end Bytes

/-! # The hash as a number to the base 33 -/

namespace Djb2

/-- The number that some bytes stand for, each one a digit to the base 33. -/
def weight : Bytes -> Nat
  | [] => 0
  | byte :: rest => byte.toNat * 33 ^ rest.length + weight rest

theorem toNat_step (hash : UInt32) (byte : UInt8) :
    (djb2Step hash byte).toNat ≡ hash.toNat * 33 + byte.toNat [MOD 2 ^ 32] := by
  have hshift : (hash <<< 5).toNat = hash.toNat * 32 % 2 ^ 32 := by
    rw [UInt32.toNat_shiftLeft, Nat.shiftLeft_eq]
    rfl
  rw [djb2Step, UInt32.toNat_add, UInt32.toNat_add, UInt8.toNat_toUInt32, hshift]
  unfold Nat.ModEq
  omega

/-- Further bytes multiply a hash by a power of 33 and add what they stand for. -/
theorem toNat_foldl (bytes : Bytes) (hash : UInt32) :
    (bytes.foldl djb2Step hash).toNat ≡
      hash.toNat * 33 ^ bytes.length + weight bytes [MOD 2 ^ 32] := by
  induction bytes generalizing hash with
  | nil =>
      rw [List.foldl_nil, List.length_nil, Nat.pow_zero, Nat.mul_one]
      exact Nat.ModEq.refl _
  | cons byte rest ih =>
      have hstep : (djb2Step hash byte).toNat * 33 ^ rest.length + weight rest ≡
          (hash.toNat * 33 + byte.toNat) * 33 ^ rest.length + weight rest [MOD 2 ^ 32] :=
        ((toNat_step hash byte).mul_right _).add_right _
      have hsum : (hash.toNat * 33 + byte.toNat) * 33 ^ rest.length + weight rest =
          hash.toNat * 33 ^ (byte :: rest).length + weight (byte :: rest) := by
        rw [List.length_cons, weight]
        ring
      rw [List.foldl_cons, ← hsum]
      exact (ih (djb2Step hash byte)).trans hstep

theorem eq_of_modEq {a b : UInt32} (h : a.toNat ≡ b.toNat [MOD 2 ^ 32]) : a = b :=
  UInt32.toNat_inj.mp (h.eq_of_lt_of_lt a.toNat_lt b.toNat_lt)

end Djb2

/-! # What becomes of equal hashes and of different ones -/

theorem djb2_append_inj (a b c : Bytes) : djb2 (a ++ c) = djb2 (b ++ c) ↔ djb2 a = djb2 b := by
  have hfold : forall text : Bytes, djb2 (text ++ c) = c.foldl djb2Step (djb2 text) := by
    intro text
    exact List.foldl_append
  rw [hfold, hfold]
  constructor
  · intro h
    have hsums : (djb2 a).toNat * 33 ^ c.length + Djb2.weight c ≡
        (djb2 b).toNat * 33 ^ c.length + Djb2.weight c [MOD 2 ^ 32] := by
      have hleft := (Djb2.toNat_foldl c (djb2 a)).symm
      rw [h] at hleft
      exact hleft.trans (Djb2.toNat_foldl c (djb2 b))
    -- However many bytes follow, their power of 33 has an inverse modulo 2 ^ 32.
    have hodd : Nat.gcd (2 ^ 32) (33 ^ c.length) = 1 :=
      Nat.Coprime.pow_right c.length (by decide)
    exact Djb2.eq_of_modEq (hsums.add_right_cancel'.cancel_right_of_coprime hodd)
  · intro h
    rw [h]

theorem djb2_concat_ne {x y : UInt8} (h : x ≠ y) (front : Bytes) :
    djb2 (front ++ [x]) ≠ djb2 (front ++ [y]) := by
  intro hsame
  have hstep : forall byte : UInt8, djb2 (front ++ [byte]) = djb2Step (djb2 front) byte := by
    intro byte
    exact List.foldl_append
  rw [hstep, hstep] at hsame
  have hsums : (djb2 front).toNat * 33 + x.toNat ≡ (djb2 front).toNat * 33 + y.toNat
      [MOD 2 ^ 32] := by
    have hleft := (Djb2.toNat_step (djb2 front) x).symm
    rw [hsame] at hleft
    exact hleft.trans (Djb2.toNat_step (djb2 front) y)
  -- A byte is far below 2 ^ 32, so that bytes that are equal modulo it are the same.
  have hx : x.toNat < 2 ^ 32 := Nat.lt_trans x.toNat_lt (by decide)
  have hy : y.toNat < 2 ^ 32 := Nat.lt_trans y.toNat_lt (by decide)
  exact h (UInt8.toNat_inj.mp (hsums.add_left_cancel'.eq_of_lt_of_lt hx hy))

theorem Bytes.DifferOnce.djb2_ne {a b : Bytes} (h : DifferOnce a b) : djb2 a ≠ djb2 b := by
  rcases differOnce_iff.mp h with ⟨front, x, y, rest, hne, ha, hb⟩
  have hsplit : forall byte : UInt8, front ++ byte :: rest = front ++ [byte] ++ rest := by
    intro byte
    rw [List.append_assoc, List.singleton_append]
  rw [ha, hb, hsplit, hsplit]
  intro hsame
  exact djb2_concat_ne hne front ((djb2_append_inj _ _ rest).mp hsame)

end HttpEngine
