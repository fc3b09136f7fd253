import HttpEngine.Machine.Template
import HttpEngine.Proofs.Route.Matching

/-!
# A machine matches paths as the engine does

From any two places on, the machine comes to what a walk over the rest of the template and the rest
of the path comes to.  The places never lie behind the ends, and both move on with every step.
-/

namespace HttpEngine
namespace Template

/-! # Placeholders as a whole -/

theorem collect_opening (limit : Nat) (rest path : Bytes) (held : Array Pair) :
    collect limit none (openingBrace :: rest) path held =
      collect limit (some []) rest path held := by
  cases path with
  | nil => rw [collect, if_pos rfl]
  | cons p path => rw [collect, if_pos rfl]

theorem collect_name {name : Bytes} (hname : closingBrace ∉ name) (limit : Nat)
    (read rest path : Bytes) (held : Array Pair) :
    collect limit (some read) (name ++ rest) path held =
      collect limit (some (name.reverse ++ read)) rest path held := by
  induction name generalizing read with
  | nil => rfl
  | cons b name ih =>
      have hb : b ≠ closingBrace := fun h => hname (List.mem_cons.mpr (Or.inl h.symm))
      rw [List.cons_append, collect, if_neg hb, ih (List.not_mem_of_not_mem_cons hname),
        List.reverse_cons, List.append_assoc]
      rfl

theorem collect_placeholder {name : Bytes} (hname : closingBrace ∉ name) (limit : Nat)
    (rest path : Bytes) (held : Array Pair) :
    collect limit none (openingBrace :: (name ++ closingBrace :: rest)) path held =
      if held.size < limit then
        collect limit none rest (afterSegment path)
          (held.push (Capture.pair (name, segment path)))
      else (false, held) := by
  rw [collect_opening, collect_name hname, List.append_nil, collect, if_pos rfl,
    List.reverse_reverse]

theorem collect_unclosed {name : Bytes} (hname : closingBrace ∉ name) (limit : Nat) (path : Bytes)
    (held : Array Pair) : collect limit none (openingBrace :: name) path held = (false, held) := by
  have hread := collect_name hname limit [] [] path held
  rw [List.append_nil] at hread
  rw [collect_opening, hread, collect]

theorem collect_literal {byte : UInt8} (hbyte : byte ≠ openingBrace) (limit : Nat)
    (rest path : Bytes) (held : Array Pair) :
    collect limit none (byte :: rest) path held =
      match path with
      | [] => (false, held)
      | p :: path => if byte = p then collect limit none rest path held else (false, held) := by
  cases path with
  | nil => rw [collect, if_neg hbyte]
  | cons p path => rw [collect, if_neg hbyte]

end Template

namespace Machine

open Template

/-! # Places in a path -/

theorem find?_slash (path : Bytes) :
    (find? [slash] path).getD path.length = (segment path).length := by
  cases hcut : cut? [slash] path with
  | none =>
      have hwhole := (cut_value (not_mem_of_cut?_eq_none hcut) (Or.inl rfl)).left
      rw [List.append_nil] at hwhole
      rw [find?_of_cut?_eq_none hcut, hwhole]
      rfl
  | some cut =>
      rcases cut with ⟨front, rest⟩
      have hpath : path = front ++ slash :: rest := by
        rw [eq_append_of_cut? hcut, List.append_assoc]
        rfl
      have hfront := (cut_value (not_mem_of_cut?_singleton hcut)
        (Or.inr (show (slash :: rest).head? = some slash from rfl))).left
      rw [find?_of_cut? hcut, hpath, hfront]
      rfl

theorem length_segment_le (path : Bytes) : (segment path).length ≤ path.length := by
  have h := congrArg List.length (segment_append_afterSegment path)
  rw [List.length_append] at h
  omega

theorem take_segment (path : Bytes) : path.take (segment path).length = segment path := by
  have h := @List.take_left _ (segment path) (afterSegment path)
  rwa [segment_append_afterSegment] at h

theorem drop_segment (path : Bytes) : path.drop (segment path).length = afterSegment path := by
  have h := @List.drop_left _ (segment path) (afterSegment path)
  rwa [segment_append_afterSegment] at h

section

variable {path : Bytes} {start : Nat} (hstart : start ≤ path.length)

include hstart

theorem segmentEnd_le : start + (segment (path.drop start)).length ≤ path.length := by
  have hlength := length_segment_le (path.drop start)
  rw [List.length_drop] at hlength
  omega

theorem segmentEnd_eq (hfits : path.length ≤ Buffer.maxSize) :
    segmentEnd path start = .ok (start + (segment (path.drop start)).length) := by
  have hend : (find? [slash] (path.drop start)).getD (path.length - start) =
      (segment (path.drop start)).length := by
    rw [← List.length_drop, find?_slash]
  have hle := Nat.le_trans (segmentEnd_le hstart) hfits
  unfold segmentEnd
  simp only [slice_to_end hstart, sub_eq_ok hstart, ok_bind, hend]
  exact add_eq_ok_of_le hstart hfits (Nat.le_of_add_left_le hle)

theorem slice_segment : slice path start (start + (segment (path.drop start)).length) =
    .ok (segment (path.drop start)) := by
  rw [slice_eq_ok (Nat.le_add_right _ _) (segmentEnd_le hstart), List.drop_take,
    Nat.add_sub_cancel_left, take_segment]

end

/-! # Walks -/

theorem matchFrom_of_le (limit fuel : Nat) {template path : Bytes} {t p : Nat}
    (ht : t = template.length) (hp : p ≤ path.length) (held : Array Pair) :
    matchFrom limit template path fuel t p held =
      .ok (collect limit none (template.drop t) (path.drop p) held) := by
  have hend : (p == path.length) = (path.drop p).isEmpty := by
    rw [Bool.eq_iff_iff, beq_iff_eq, List.isEmpty_iff, List.drop_eq_nil_iff]
    omega
  unfold matchFrom
  rw [if_neg (Nat.not_lt.mpr (Nat.le_of_eq ht.symm)), ht, List.drop_length, collect, hend,
    beq_self_eq_true, Bool.true_and]
  rfl

theorem exists_name {text front rest : Bytes}
    (h : cut? [closingBrace] (openingBrace :: text) = some (front, rest)) :
    exists name, front.length = name.length + 1 ∧ closingBrace ∉ name ∧
      text = name ++ closingBrace :: rest := by
  have hfree := not_mem_of_cut?_singleton h
  have hsplit := eq_append_of_cut? h
  cases front with
  | nil => cases hsplit
  | cons byte name =>
      rw [List.append_assoc] at hsplit
      exact ⟨name, rfl, List.not_mem_of_not_mem_cons hfree, (List.cons.inj hsplit).right⟩

theorem slice_name {template name rest : Bytes} {t : Nat} (ht : t ≤ template.length)
    (h : template.drop t = openingBrace :: (name ++ closingBrace :: rest)) :
    slice template (t + 1) (t + (name.length + 1)) = .ok name ∧
      t + (name.length + 1 + 1) ≤ template.length ∧
      template.drop (t + (name.length + 1 + 1)) = rest := by
  have hlength := congrArg List.length h
  simp only [List.length_drop, List.length_cons, List.length_append] at hlength
  refine ⟨?_, by omega, ?_⟩
  · rw [slice_eq_ok (by omega) (by omega), List.drop_take, ← List.drop_drop, h, List.drop_one,
      List.tail_cons]
    have hcount : t + (name.length + 1) - (t + 1) = name.length := by
      omega
    rw [hcount, List.take_left]
  · rw [← List.drop_drop, h, Nat.add_assoc, List.drop_succ_cons, ← List.drop_drop, List.drop_left]
    rfl

section

variable {limit : Nat} {template path : Bytes} (htemplate : template.length ≤ Buffer.maxSize)
  (hpath : path.length ≤ Buffer.maxSize)

include htemplate hpath

theorem matchFrom_eq (fuel : Nat) {t p : Nat} (ht : t ≤ template.length) (hp : p ≤ path.length)
    (hfuel : template.length ≤ t + fuel) (held : Array Pair) :
    matchFrom limit template path fuel t p held =
      .ok (collect limit none (template.drop t) (path.drop p) held) := by
  induction fuel generalizing t p held with
  | zero => exact matchFrom_of_le limit 0 (Nat.le_antisymm ht hfuel) hp held
  | succ fuel ih =>
      rcases Nat.eq_or_lt_of_le ht with hend | hgo
      · exact matchFrom_of_le limit (fuel + 1) hend hp held
      · have hdrop := List.drop_eq_getElem_cons hgo
        unfold matchFrom
        rw [if_pos hgo]
        simp only [get_eq_ok hgo, ok_bind]
        by_cases hopen : template[t] = openingBrace
        · rw [hopen] at hdrop
          simp only [hopen, if_true, slice_to_end ht, ok_bind, hdrop]
          cases hcut : cut? [closingBrace] (openingBrace :: template.drop (t + 1)) with
          | none =>
              have hfree : closingBrace ∉ template.drop (t + 1) :=
                List.not_mem_of_not_mem_cons (not_mem_of_cut?_eq_none hcut)
              simp only [find?_of_cut?_eq_none hcut, collect_unclosed hfree]
              rfl
          | some cut =>
              rcases cut with ⟨front, rest⟩
              rcases exists_name hcut with ⟨name, hclose, hname, htext⟩
              rw [htext] at hcut hdrop ⊢
              rcases slice_name ht hdrop with ⟨hslice, hnext, hrest⟩
              simp only [find?_of_cut? hcut, hclose, collect_placeholder hname]
              by_cases hroom : held.size < limit
              · have hplace : forall n, n ≤ name.length + 1 + 1 -> add t n = .ok (t + n) :=
                  fun n hn => add_eq_ok_of_le ht htemplate (by omega)
                have hpast : add (name.length + 1) 1 = .ok (name.length + 1 + 1) :=
                  add_eq_ok_of_le (by omega) htemplate (by decide)
                simp only [if_neg (Nat.not_le.mpr hroom), if_pos hroom, segmentEnd_eq hp hpath,
                  hplace 1 (by omega), hplace (name.length + 1) (by omega), hslice,
                  slice_segment hp, hpast, hplace (name.length + 1 + 1) (Nat.le_refl _), ok_bind]
                rw [ih hnext (segmentEnd_le hp) (by omega), hrest, ← List.drop_drop, drop_segment]
              · simp only [if_pos (Nat.le_of_not_lt hroom), if_neg hroom]
                rfl
        · rw [hdrop, collect_literal hopen]
          simp only [if_neg hopen]
          rcases Nat.eq_or_lt_of_le hp with hlast | hmore
          · simp only [hlast, if_true, List.drop_length]
            rfl
          · simp only [if_neg (Nat.ne_of_lt hmore), get_eq_ok hmore, ok_bind,
              List.drop_eq_getElem_cons hmore]
            by_cases hsame : template[t] = path[p]
            · have hnext : add t 1 = .ok (t + 1) := add_eq_ok_of_le ht htemplate (by decide)
              have hbehind : add p 1 = .ok (p + 1) := add_eq_ok_of_le hp hpath (by decide)
              simp only [if_pos hsame, hnext, hbehind, ok_bind]
              exact ih hgo hmore (by omega) held
            · simp only [if_neg hsame]
              rfl

end

theorem matchInto_eq (maxParams : Nat) {template path : String}
    (htemplate : (Utf8.encode template).length ≤ Buffer.maxSize)
    (hpath : (Utf8.encode path).length ≤ Buffer.maxSize) (held : Array Pair) :
    matchInto maxParams template path held =
      .ok (Template.matchInto maxParams template path held) :=
  matchFrom_eq htemplate hpath _ (Nat.zero_le _) (Nat.zero_le _) (Nat.le_add_left _ _) held

end Machine
end HttpEngine
