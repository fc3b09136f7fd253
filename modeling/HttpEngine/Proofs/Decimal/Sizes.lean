import HttpEngine.Decimal.Integer
import HttpEngine.Text.Utf8

/-!
# Sizes that are read

The decimal text of a number ends in its last digit, behind the text of the tens, and stands for the
number again.  A text is read as a size exactly if it is one or more digits that stand for a number
that a word holds; so what is written for such a number is read as that number.
-/

namespace HttpEngine
namespace Decimal

/-! # Digits -/

theorem notMem_toDigits {c : Char} (hc : forall d : Nat, Nat.digitChar d ≠ c) {base : Nat}
    (hbase : 1 < base) (n : Nat) : c ∉ Nat.toDigits base n := by
  have hdigit : forall d : Nat, c ∉ [Nat.digitChar d] := by
    intro d hmem
    exact hc d (List.mem_singleton.mp hmem).symm
  induction n using Nat.strongRecOn with
  | ind n ih =>
      rw [Nat.toDigits_eq_if hbase]
      split
      · exact hdigit n
      · next hle =>
        rw [List.mem_append, not_or]
        exact ⟨ih (n / base) (Nat.div_lt_self (by omega) hbase), hdigit (n % base)⟩

theorem toNat_of_mem_digits {n : Nat} {c : Char} (h : c ∈ digits n) :
    48 ≤ c.toNat ∧ c.toNat ≤ 57 := by
  have hdigit : c.isDigit = true := Nat.isDigit_of_mem_toDigits (by omega) (by omega) h
  simp only [Char.isDigit, Bool.and_eq_true, decide_eq_true_eq] at hdigit
  exact hdigit

def digitByte (d : Nat) : UInt8 :=
  UInt8.ofNat (48 + d)

theorem toNat_digitByte {d : Nat} (h : d < 10) : (digitByte d).toNat = 48 + d := by
  rw [digitByte, UInt8.toNat_ofNat']
  omega

theorem isDigit_iff {byte : UInt8} :
    isDigit byte = true ↔ 48 ≤ byte.toNat ∧ byte.toNat ≤ 57 := by
  simp only [isDigit, Bool.and_eq_true, decide_eq_true_eq, UInt8.le_iff_toNat_le]
  rfl

theorem isDigit_digitByte {d : Nat} (h : d < 10) : isDigit (digitByte d) = true := by
  rw [isDigit_iff, toNat_digitByte h]
  omega

theorem eq_digitByte {byte : UInt8} (h : isDigit byte = true) :
    byte = digitByte (byte.toNat - 48) := by
  rw [isDigit_iff] at h
  rw [digitByte, Nat.add_sub_cancel' h.left, UInt8.ofNat_toNat]

/-! # Numbers as texts -/

theorem encodeChar_digitChar {d : Nat} (h : d < 10) :
    Utf8.encodeChar (Nat.digitChar d) = [digitByte d] := by
  have hall : forall d : Fin 10, Utf8.encodeChar (Nat.digitChar d) = [digitByte d] := by decide
  exact hall ⟨d, h⟩

theorem natural_of_lt {n : Nat} (h : n < 10) : natural n = [digitByte n] := by
  rw [natural, digits, Nat.toDigits_of_lt_base h, Utf8.encodeChars, List.flatMap_singleton,
    encodeChar_digitChar h]

theorem natural_of_le {n : Nat} (h : 10 ≤ n) :
    natural n = natural (n / 10) ++ [digitByte (n % 10)] := by
  rw [natural, digits, Nat.toDigits_of_base_le (by decide) h, Utf8.encodeChars,
    List.flatMap_append, List.flatMap_singleton, encodeChar_digitChar (Nat.mod_lt n (by decide))]
  rfl

theorem natural_ne_nil (n : Nat) : natural n ≠ [] := by
  rcases Nat.lt_or_ge n 10 with hlt | hle
  · rw [natural_of_lt hlt]
    exact List.cons_ne_nil _ _
  · rw [natural_of_le hle]
    exact List.append_ne_nil_of_right_ne_nil _ (List.cons_ne_nil _ _)

theorem isDigit_of_mem_natural {n : Nat} {byte : UInt8} (h : byte ∈ natural n) :
    isDigit byte = true := by
  induction n using Nat.strongRecOn with
  | ind n ih =>
      rcases Nat.lt_or_ge n 10 with hlt | hle
      · rw [natural_of_lt hlt, List.mem_singleton] at h
        rw [h]
        exact isDigit_digitByte hlt
      · rw [natural_of_le hle, List.mem_append, List.mem_singleton] at h
        rcases h with htens | hlast
        · exact ih (n / 10) (by omega) htens
        · rw [hlast]
          exact isDigit_digitByte (Nat.mod_lt n (by decide))

/-! # Texts as numbers -/

def value (text : Bytes) : Nat :=
  text.foldl (fun n byte => 10 * n + (byte.toNat - 48)) 0

def withDigit (n : Nat) (byte : UInt8) : Nat :=
  10 * n + (byte.toNat - 48)

theorem value_eq_foldl (text : Bytes) : value text = text.foldl withDigit 0 :=
  rfl

theorem withDigit_digitByte (n : Nat) {d : Nat} (h : d < 10) :
    withDigit n (digitByte d) = 10 * n + d := by
  rw [withDigit, toNat_digitByte h, Nat.add_sub_cancel_left]

theorem value_concat (text : Bytes) (byte : UInt8) :
    value (text ++ [byte]) = withDigit (value text) byte :=
  List.foldl_append

theorem value_natural (n : Nat) : value (natural n) = n := by
  induction n using Nat.strongRecOn with
  | ind n ih =>
      rcases Nat.lt_or_ge n 10 with hlt | hle
      · rw [natural_of_lt hlt]
        exact (withDigit_digitByte 0 hlt).trans (by omega)
      · rw [natural_of_le hle, value_concat, ih (n / 10) (by omega),
          withDigit_digitByte _ (Nat.mod_lt n (by decide))]
        omega

/-! # Sizes -/

theorem appendDigit?_eq_some_iff {n m : Nat} {byte : UInt8} :
    appendDigit? n byte = some m ↔
      isDigit byte = true ∧ withDigit n byte = m ∧ m < sizeLimit := by
  unfold appendDigit? withDigit
  rw [Nat.mul_comm n 10]
  grind

theorem le_foldl_withDigit (text : Bytes) (n : Nat) : n ≤ text.foldl withDigit n := by
  induction text generalizing n with
  | nil => exact Nat.le_refl n
  | cons byte rest ih =>
      have hstep : n ≤ withDigit n byte := by
        unfold withDigit
        omega
      exact Nat.le_trans hstep (ih (withDigit n byte))

/-- No beginning of a number that a word holds is out of range. -/
theorem foldlM_appendDigit?_eq_some_iff {text : Bytes} {n v : Nat} (hn : n < sizeLimit) :
    text.foldlM appendDigit? n = some v ↔
      (forall byte, byte ∈ text -> isDigit byte = true) ∧ text.foldl withDigit n = v ∧
        v < sizeLimit := by
  induction text generalizing n with
  | nil =>
      rw [List.foldlM_nil, List.foldl_nil, Option.pure_def, Option.some.injEq]
      constructor
      · intro h
        exact ⟨fun byte hmem => absurd hmem List.not_mem_nil, h, h ▸ hn⟩
      · intro h
        exact h.right.left
  | cons byte rest ih =>
      rw [List.foldlM_cons, List.forall_mem_cons, List.foldl_cons, Option.bind_eq_bind,
        Option.bind_eq_some_iff]
      constructor
      · rintro ⟨m, hstep, hrest⟩
        rcases appendDigit?_eq_some_iff.mp hstep with ⟨hdigit, hm, hlimit⟩
        rcases (ih hlimit).mp hrest with ⟨hdigits, hv, hsize⟩
        exact ⟨⟨hdigit, hdigits⟩, hm ▸ hv, hsize⟩
      · rintro ⟨⟨hdigit, hdigits⟩, hv, hsize⟩
        have hgrown := le_foldl_withDigit rest (withDigit n byte)
        have hlimit : withDigit n byte < sizeLimit := by omega
        exact ⟨withDigit n byte, appendDigit?_eq_some_iff.mpr ⟨hdigit, rfl, hlimit⟩,
          (ih hlimit).mpr ⟨hdigits, hv, hsize⟩⟩

theorem size?_eq_some_iff {text : Bytes} {v : Nat} :
    size? text = some v ↔
      text ≠ [] ∧ (forall byte, byte ∈ text -> isDigit byte = true) ∧ value text = v ∧
        v < sizeLimit := by
  cases text with
  | nil => simp [size?]
  | cons byte rest =>
      have hne : byte :: rest ≠ [] := List.cons_ne_nil byte rest
      rw [value_eq_foldl, ← foldlM_appendDigit?_eq_some_iff (by decide), and_iff_right hne]
      rfl

theorem size?_eq_none_iff {text : Bytes} :
    size? text = none ↔
      text = [] ∨ (exists byte, byte ∈ text ∧ isDigit byte = false) ∨ sizeLimit ≤ value text := by
  rw [Option.eq_none_iff_forall_ne_some]
  constructor
  · intro h
    refine Classical.byContradiction fun hnone => ?_
    rw [not_or, not_or] at hnone
    rcases hnone with ⟨hne, hdigits, hlimit⟩
    refine h (value text) (size?_eq_some_iff.mpr ⟨hne, ?_, rfl, Nat.lt_of_not_le hlimit⟩)
    intro byte hmem
    exact eq_true_of_ne_false fun hother => hdigits ⟨byte, hmem, hother⟩
  · rintro h v hv
    rcases size?_eq_some_iff.mp hv with ⟨hne, hdigits, hvalue, hlimit⟩
    rcases h with hempty | ⟨byte, hmem, hother⟩ | hlarge
    · exact hne hempty
    · exact Bool.false_ne_true (hother.symm.trans (hdigits byte hmem))
    · omega

theorem size?_natural {n : Nat} (h : n < sizeLimit) : size? (natural n) = some n :=
  size?_eq_some_iff.mpr
    ⟨natural_ne_nil n, fun _ hmem => isDigit_of_mem_natural hmem, value_natural n, h⟩

end Decimal
end HttpEngine
