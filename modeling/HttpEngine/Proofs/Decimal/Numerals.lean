import Mathlib.Data.List.Induction
import HttpEngine.Proofs.Decimal.Sizes

/-!
# Numerals

Every number has one numeral: the digits that stand for it, none of them a zero in front of others,
and before those of a negative number a minus sign.  This is the text that is written.
-/

namespace HttpEngine
namespace Decimal

structure IsNumeral (n : Nat) (text : Bytes) : Prop where
  ne_nil : text ≠ []
  digits : forall byte, byte ∈ text -> isDigit byte = true
  value : value text = n
  zero : forall rest, text = 48 :: rest -> rest = []

def IsIntegerNumeral (z : Int) (text : Bytes) : Prop :=
  0 ≤ z ∧ IsNumeral z.natAbs text ∨
    z < 0 ∧ exists digits, text = 45 :: digits ∧ IsNumeral z.natAbs digits

/-! # What is written is a numeral -/

theorem isNumeral_digitByte {d : Nat} (h : d < 10) : IsNumeral d [digitByte d] where
  ne_nil := List.cons_ne_nil _ _
  digits := fun _ hmem => List.mem_singleton.mp hmem ▸ isDigit_digitByte h
  value := (withDigit_digitByte 0 h).trans (by omega)
  zero := fun _ htext => (List.cons.inj htext).right.symm

theorem IsNumeral.concat {n d : Nat} {text : Bytes} (h : IsNumeral n text) (hn : 0 < n)
    (hd : d < 10) : IsNumeral (10 * n + d) (text ++ [digitByte d]) where
  ne_nil := List.append_ne_nil_of_left_ne_nil h.ne_nil _
  digits := by
    intro byte hmem
    rcases List.mem_append.mp hmem with htens | hlast
    · exact h.digits byte htens
    · exact List.mem_singleton.mp hlast ▸ isDigit_digitByte hd
  value := by
    rw [value_concat, h.value, withDigit_digitByte n hd]
  zero := by
    intro rest htext
    rcases List.exists_cons_of_ne_nil h.ne_nil with ⟨first, more, hsplit⟩
    have hfirst : first = 48 := by
      rw [hsplit] at htext
      exact (List.cons.inj htext).left
    have hzero : text = [48] := by
      rw [hsplit, hfirst, h.zero more (hsplit.trans (hfirst ▸ rfl))]
    have hvalue := h.value
    rw [hzero] at hvalue
    exact absurd hvalue (Nat.ne_of_lt hn)

theorem isNumeral_natural (n : Nat) : IsNumeral n (natural n) := by
  induction n using Nat.strongRecOn with
  | ind n ih =>
      rcases Nat.lt_or_ge n 10 with hlt | hle
      · rw [natural_of_lt hlt]
        exact isNumeral_digitByte hlt
      · have hnumeral := (ih (n / 10) (by omega)).concat (by omega) (Nat.mod_lt n (by decide))
        rw [← natural_of_le hle, Nat.div_add_mod] at hnumeral
        exact hnumeral

/-! # There is no other numeral -/

theorem IsNumeral.of_concat {n : Nat} {text : Bytes} {byte : UInt8} (hne : text ≠ [])
    (h : IsNumeral n (text ++ [byte])) : IsNumeral (Decimal.value text) text where
  ne_nil := hne
  digits := fun other hmem => h.digits other (List.mem_append_left [byte] hmem)
  value := rfl
  zero := by
    intro rest htext
    have hnone : rest ++ [byte] = [] := h.zero _ (by rw [htext, List.cons_append])
    exact absurd hnone (List.append_ne_nil_of_right_ne_nil rest (List.cons_ne_nil byte []))

theorem IsNumeral.eq_natural {n : Nat} {text : Bytes} (h : IsNumeral n text) :
    text = natural n := by
  induction text using List.reverseRecOn generalizing n with
  | nil => exact absurd rfl h.ne_nil
  | append_singleton front last ih =>
      have hdigit : isDigit last = true := h.digits last (by simp)
      have hlast : last = digitByte (last.toNat - 48) := eq_digitByte hdigit
      have hten : last.toNat - 48 < 10 := by
        have hrange := isDigit_iff.mp hdigit
        omega
      have hvalue : 10 * Decimal.value front + (last.toNat - 48) = n := by
        rw [← h.value, value_concat, withDigit]
      by_cases hempty : front = []
      · rw [hempty] at hvalue ⊢
        have hn : last.toNat - 48 = n := (Nat.zero_add _).symm.trans hvalue
        rw [hn] at hlast hten
        rw [natural_of_lt hten, hlast, List.nil_append]
      · have hnumeral := ih (h.of_concat hempty)
        have hpos : 0 < Decimal.value front := by
          refine Nat.pos_of_ne_zero fun hzero => ?_
          rw [hzero] at hnumeral
          have hnone : [last] = [] := h.zero [last] (by rw [hnumeral]; rfl)
          exact absurd hnone (List.cons_ne_nil last [])
        have hfst : n / 10 = Decimal.value front := by omega
        have hsnd : n % 10 = last.toNat - 48 := by omega
        rw [natural_of_le (by omega), hfst, hsnd, ← hnumeral, ← hlast]

theorem isNumeral_iff {n : Nat} {text : Bytes} : IsNumeral n text ↔ text = natural n := by
  constructor
  · intro h
    exact h.eq_natural
  · intro h
    exact h ▸ isNumeral_natural n

theorem isIntegerNumeral_iff {z : Int} {text : Bytes} :
    IsIntegerNumeral z text ↔ text = integer z := by
  unfold IsIntegerNumeral
  simp only [isNumeral_iff]
  cases z with
  | ofNat n =>
      have hsign : 0 ≤ Int.ofNat n := Int.natCast_nonneg n
      rw [and_iff_right hsign, or_iff_left fun h => Int.not_lt.mpr hsign h.left]
      rfl
  | negSucc n =>
      have hsign : Int.negSucc n < 0 := Int.negSucc_lt_zero n
      rw [or_iff_right fun h => Int.not_le.mpr hsign h.left, and_iff_right hsign]
      constructor
      · rintro ⟨digits, htext, hdigits⟩
        rw [htext, hdigits]
        rfl
      · intro h
        exact ⟨_, h, rfl⟩

end Decimal
end HttpEngine
