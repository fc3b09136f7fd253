import HttpEngine.Bytes
import HttpEngine.Proofs.Text.Search

/-!
# Lines of byte strings

Heads and the headers of parts are lines with an end of a line between each two of them, and a blank
line behind the last one.  If no line is empty and none holds a carriage return, this blank line is
the first one, whatever comes behind it, and cutting at every end of a line gives the lines back.
-/

namespace HttpEngine
namespace Bytes

/-! # Cutting at line ends -/

theorem length_lt_of_cut?_crlf {bytes line rest : Bytes}
    (h : cut? crlf bytes = some (line, rest)) : rest.length < bytes.length := by
  rw [eq_append_of_cut? h]
  simp only [crlf, List.length_append, List.length_cons, List.length_nil]
  omega

def lines (bytes : Bytes) : List Bytes :=
  match h : cut? crlf bytes with
  | none => [bytes]
  | some (line, rest) =>
      have := length_lt_of_cut?_crlf h
      line :: lines rest
termination_by bytes.length

theorem lines_of_free {line : Bytes} (h : 13 ∉ line) : lines line = [line] := by
  have hnone : cut? crlf line = none := by
    rw [cut?_eq_none_iff]
    intro hmark
    exact h (hmark.subset List.mem_cons_self)
  rw [lines]
  split
  · rfl
  · next hcut =>
    rw [hnone] at hcut
    cases hcut

theorem lines_append {line : Bytes} (h : 13 ∉ line) (rest : Bytes) :
    lines (line ++ crlf ++ rest) = line :: lines rest := by
  have hfree : ¬ crlf <:+: line := by
    intro hmark
    exact h (hmark.subset List.mem_cons_self)
  have hfirst : cut? crlf (line ++ crlf ++ rest) = some (line, rest) :=
    cut?_eq_some_iff.mpr (firstAt_of_unmarked (by decide) hfree rest)
  rw [lines]
  split
  · next hcut =>
    rw [hfirst] at hcut
    cases hcut
  · next hcut =>
    rw [hfirst] at hcut
    cases hcut
    rfl

theorem lines_intercalate {line : Bytes} {more : List Bytes}
    (h : forall l, l ∈ line :: more -> 13 ∉ l) :
    lines (crlf.intercalate (line :: more)) = line :: more := by
  induction more generalizing line with
  | nil =>
      rw [List.intercalate_singleton]
      exact lines_of_free (h line List.mem_cons_self)
  | cons next more ih =>
      rw [List.intercalate_cons_cons, lines_append (h line List.mem_cons_self), ih]
      intro l hl
      exact h l (List.mem_cons_of_mem line hl)

/-! # The first blank line -/

theorem cut?_blankLine_crlf {text : Bytes} (h : text.head? ≠ some 13) :
    cut? blankLine (crlf ++ text) =
      (cut? blankLine text).map fun cut => (crlf ++ cut.1, cut.2) := by
  have hnone : [13, 10].isPrefixOf? text = none := by
    rw [isPrefixOf?_eq_none_iff]
    rintro ⟨after, hafter⟩
    rw [← hafter] at h
    exact h rfl
  have hfirst : blankLine.isPrefixOf? (13 :: 10 :: text) = none := hnone
  have hsecond : blankLine.isPrefixOf? (10 :: text) = none := rfl
  change cut? blankLine (13 :: 10 :: text) = _
  rw [cut?_cons, hfirst, cut?_cons, hsecond]
  simp only [Option.map_map]
  rfl

theorem firstAt_blankLine {lines : List Bytes} (h : forall l, l ∈ lines -> l ≠ [] ∧ 13 ∉ l)
    (rest : Bytes) :
    FirstAt blankLine (crlf.intercalate lines ++ blankLine ++ rest) (crlf.intercalate lines)
      rest := by
  have hstart : cut? blankLine (blankLine ++ rest) = some ([], rest) :=
    cut?_eq_some_iff.mpr ⟨rfl, fun _ _ _ => Nat.zero_le _⟩
  rw [← cut?_eq_some_iff]
  induction lines with
  | nil => exact hstart
  | cons line lines ih =>
      have hpass : forall text : Bytes, cut? blankLine (line ++ text) =
          (cut? blankLine text).map fun cut => (line ++ cut.1, cut.2) :=
        cut?_append_of_notMem (h line List.mem_cons_self).right
      have hlines : forall l, l ∈ lines -> l ≠ [] ∧ 13 ∉ l := by
        intro l hl
        exact h l (List.mem_cons_of_mem line hl)
      cases lines with
      | nil =>
          rw [List.intercalate_singleton, List.append_assoc, hpass, hstart, Option.map_some,
            List.append_nil]
      | cons next lines =>
          rcases h next (List.mem_cons_of_mem line List.mem_cons_self) with ⟨hne, hnext⟩
          have hhead : (crlf.intercalate (next :: lines) ++ blankLine ++ rest).head? ≠
              some 13 := by
            rcases List.exists_cons_of_ne_nil hne with ⟨c, more, hc⟩
            rw [hc, List.intercalate_cons_cons_left]
            intro hsame
            rw [hc] at hnext
            exact hnext (Option.some.inj hsame ▸ List.mem_cons_self)
          rw [List.intercalate_cons_cons]
          simp only [List.append_assoc] at ih hhead ⊢
          rw [hpass, cut?_blankLine_crlf hhead, ih hlines]
          rfl

end Bytes
end HttpEngine
