import Mathlib.Data.List.Basic

/-!
# The pieces of a text

A text is cut at each place of a separator.  No piece holds the separator, and one of them is empty
exactly if the text is, or the separator stands at one of its ends or twice in a row.
-/

namespace HttpEngine

theorem notMem_of_mem_splitOn {c : Char} {text part : List Char} (h : part ∈ text.splitOn c) :
    c ∉ part := by
  induction text generalizing part with
  | nil =>
      rw [List.splitOn_nil, List.mem_singleton] at h
      rw [h]
      exact List.not_mem_nil
  | cons d text ih =>
      rw [List.splitOn_cons_eq_if_modifyHead] at h
      rcases List.exists_cons_of_ne_nil (List.splitOn_ne_nil c text) with ⟨first, more, hparts⟩
      rw [hparts] at h ih
      split at h
      · rcases List.mem_cons.mp h with hempty | hmem
        · rw [hempty]
          exact List.not_mem_nil
        · exact ih hmem
      · next hne =>
        rw [List.modifyHead_cons] at h
        rcases List.mem_cons.mp h with hfirst | hmem
        · rw [hfirst, List.mem_cons]
          rintro (heq | hin)
          · exact hne (beq_iff_eq.mpr heq.symm)
          · exact ih List.mem_cons_self hin
        · exact ih (List.mem_cons_of_mem first hmem)

theorem intercalate_append {separator : List Char} {front back : List (List Char)}
    (hfront : front ≠ []) (hback : back ≠ []) :
    separator.intercalate (front ++ back) =
      separator.intercalate front ++ separator ++ separator.intercalate back := by
  rcases List.exists_cons_of_ne_nil hback with ⟨next, more, hnext⟩
  induction front with
  | nil => exact absurd rfl hfront
  | cons piece front ih =>
      cases front with
      | nil =>
          rw [hnext, List.cons_append, List.nil_append, List.intercalate_cons_cons,
            List.intercalate_singleton]
      | cons other front =>
          rw [List.cons_append, List.cons_append, List.intercalate_cons_cons,
            List.intercalate_cons_cons, ← List.cons_append, ih (List.cons_ne_nil other front)]
          simp only [List.append_assoc]

theorem nil_mem_splitOn_iff {c : Char} {text : List Char} :
    [] ∈ text.splitOn c ↔
      text = [] ∨ text.head? = some c ∨ text.getLast? = some c ∨ [c, c] <:+: text := by
  constructor
  · intro hmem
    rcases List.append_of_mem hmem with ⟨front, back, hpieces⟩
    have htext : text = [c].intercalate (front ++ [] :: back) := by
      rw [← hpieces, List.intercalate_splitOn]
    cases front with
    | nil =>
        cases back with
        | nil => exact Or.inl htext
        | cons piece back =>
            apply Or.inr
            apply Or.inl
            rw [htext, List.nil_append, List.intercalate_cons_cons]
            rfl
    | cons first front =>
        rw [intercalate_append (List.cons_ne_nil first front) (List.cons_ne_nil [] back)] at htext
        apply Or.inr
        apply Or.inr
        cases back with
        | nil =>
            apply Or.inl
            rw [htext, List.intercalate_singleton, List.append_nil, List.getLast?_concat]
        | cons piece back =>
            apply Or.inr
            rw [List.intercalate_cons_cons] at htext
            refine ⟨[c].intercalate (first :: front), [c].intercalate (piece :: back), ?_⟩
            rw [htext]
            simp
  · rintro (hnil | hhead | hlast | hdouble)
    · rw [hnil, List.splitOn_nil]
      exact List.mem_singleton_self []
    · rcases List.head?_eq_some_iff.mp hhead with ⟨rest, hrest⟩
      rw [hrest, ← List.nil_append (c :: rest), List.splitOn_append_cons_self, List.splitOn_nil]
      exact List.mem_append_left _ (List.mem_singleton_self [])
    · rcases List.getLast?_eq_some_iff.mp hlast with ⟨front, hfront⟩
      rw [hfront, List.splitOn_append_cons_self, List.splitOn_nil]
      exact List.mem_append_right _ (List.mem_singleton_self [])
    · rcases hdouble with ⟨front, rest, hsplit⟩
      have hinner : text = front ++ c :: ([] ++ c :: rest) := by
        rw [← hsplit]
        simp
      rw [hinner, List.splitOn_append_cons_self, List.splitOn_append_cons_self, List.splitOn_nil]
      exact List.mem_append_right _ (List.mem_append_left _ (List.mem_singleton_self []))

end HttpEngine
