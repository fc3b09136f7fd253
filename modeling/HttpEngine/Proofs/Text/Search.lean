import HttpEngine.Text.Cut

/-!
# Searching a text that grows

A text that arrives in pieces is searched again whenever a piece comes.  Two facts make this cheap:
what has been found stays found, and where nothing was found only the last few elements can still
belong to a mark, namely one fewer than the mark has.  The receiver of a head and the scanner of a
form both rest on them.  The last sections are about marks of one element and about marks that cannot
overlap themselves.
-/

namespace HttpEngine

variable {α : Type} [BEq α] [LawfulBEq α]

/-! # Finding a mark -/

theorem cut?_eq_none_iff {mark text : List α} : cut? mark text = none ↔ ¬ mark <:+: text := by
  rw [← cut?_isSome_iff, Option.not_isSome_iff_eq_none]

/-- A text falls apart at a mark in front of which no other mark stands. -/
structure FirstAt (mark text front rest : List α) : Prop where
  split : text = front ++ mark ++ rest
  first : forall other after, text = other ++ mark ++ after -> front.length ≤ other.length

theorem cut?_eq_some_iff {mark text front rest : List α} :
    cut? mark text = some (front, rest) ↔ FirstAt mark text front rest := by
  constructor
  · intro h
    exact ⟨eq_append_of_cut? h, fun _ _ hother => length_le_of_cut? h hother⟩
  · intro h
    have hmark : mark <:+: text := ⟨front, rest, h.split.symm⟩
    rcases Option.isSome_iff_exists.mp (cut?_isSome_iff.mpr hmark) with ⟨⟨other, after⟩, hcut⟩
    have hother := eq_append_of_cut? hcut
    have hlength : other.length = front.length :=
      Nat.le_antisymm (length_le_of_cut? hcut h.split) (h.first other after hother)
    have hsame : other ++ mark ++ after = front ++ mark ++ rest := hother.symm.trans h.split
    rw [List.append_assoc, List.append_assoc] at hsame
    rcases List.append_inj hsame hlength with ⟨hfront, hafter⟩
    rw [hcut, hfront, List.append_cancel_left hafter]

theorem cut?_append_of_some {mark text front rest : List α}
    (h : cut? mark text = some (front, rest)) (more : List α) :
    cut? mark (text ++ more) = some (front, rest ++ more) := by
  induction text generalizing front with
  | nil =>
      cases mark with
      | nil =>
          simp only [cut?_nil, List.isEmpty_nil, if_true, Option.some.injEq, Prod.mk.injEq] at h
          rw [← h.left, ← h.right]
          cases more with
          | nil => rfl
          | cons c more => simp [cut?_cons, isPrefixOf?_nil]
      | cons a mark => simp [cut?_nil] at h
  | cons c text ih =>
      rw [List.cons_append, cut?_cons]
      rw [cut?_cons] at h
      cases hmark : mark.isPrefixOf? (c :: text) with
      | some after =>
          rw [hmark] at h
          have hfront : front = [] ∧ rest = after := by
            simpa [eq_comm] using h
          have hmore : mark.isPrefixOf? (c :: (text ++ more)) = some (after ++ more) := by
            rw [isPrefixOf?_eq_some_iff] at hmark ⊢
            rw [← List.cons_append, hmark, List.append_assoc]
          simp [hmore, hfront]
      | none =>
          simp only [hmark, Option.map_eq_some_iff] at h
          rcases h with ⟨cut, hcut, heq⟩
          cases heq
          have hlate := ih hcut
          have hmore : mark.isPrefixOf? (c :: (text ++ more)) = none := by
            rw [isPrefixOf?_eq_none_iff] at hmark ⊢
            intro hprefix
            apply hmark
            have hlength : mark.length ≤ (c :: text).length := by
              have hsplit := congrArg List.length (eq_append_of_cut? hcut)
              simp only [List.length_append] at hsplit
              simp only [List.length_cons]
              omega
            exact List.prefix_of_prefix_length_le hprefix (List.prefix_append _ more) hlength
          simp [hmore, hlate]

omit [BEq α] [LawfulBEq α] in
theorem FirstAt.take {mark text front rest : List α} (h : FirstAt mark text front rest) {n : Nat}
    (hn : (front ++ mark).length ≤ n) :
    FirstAt mark (text.take n) front (rest.take (n - (front ++ mark).length)) := by
  constructor
  · rw [h.split, List.take_append, List.take_of_length_le hn]
  · intro other after hother
    apply h.first other (after ++ text.drop n)
    rw [← List.append_assoc, ← hother, List.take_append_drop]

theorem FirstAt.of_take {mark text front rest : List α} {n : Nat}
    (h : FirstAt mark (text.take n) front rest) : FirstAt mark text front (rest ++ text.drop n) := by
  have hcut := cut?_append_of_some (cut?_eq_some_iff.mpr h) (text.drop n)
  rw [List.take_append_drop] at hcut
  exact cut?_eq_some_iff.mp hcut

/--
Where no mark has been found, only the end of the text can still belong to one: all but the last
elements, one fewer than the mark has, can be passed over when the text grows.
-/
theorem cut?_append_of_none {mark passed : List α} (h : cut? mark passed = none) {k : Nat}
    (hk : k ≤ passed.length + 1 - mark.length) (more : List α) :
    cut? mark (passed ++ more) =
      (cut? mark (passed.drop k ++ more)).map fun cut => (passed.take k ++ cut.1, cut.2) := by
  induction k generalizing passed with
  | zero => simp
  | succ k ih =>
      cases passed with
      | nil =>
          cases mark with
          | nil => simp [cut?_nil] at h
          | cons a mark =>
              simp only [List.length_cons, List.length_nil] at hk
              omega
      | cons c passed =>
          rw [cut?_cons] at h
          cases hmark : mark.isPrefixOf? (c :: passed) with
          | some after => simp [hmark] at h
          | none =>
              have hpassed : cut? mark passed = none := by
                simpa [hmark] using h
              have hgrown : mark.isPrefixOf? (c :: (passed ++ more)) = none := by
                rw [isPrefixOf?_eq_none_iff] at hmark ⊢
                intro hprefix
                apply hmark
                have hlength : mark.length ≤ (c :: passed).length := by
                  simp only [List.length_cons] at hk ⊢
                  omega
                exact List.prefix_of_prefix_length_le hprefix (List.prefix_append _ more)
                  hlength
              have hroom : k ≤ passed.length + 1 - mark.length := by
                simp only [List.length_cons] at hk
                omega
              rw [List.cons_append, cut?_cons, hgrown, List.drop_succ_cons, List.take_succ_cons,
                ih hpassed hroom, Option.map_map]
              rfl

theorem cut?_append_of_notMem {c : α} {mark front : List α} (h : c ∉ front) (text : List α) :
    cut? (c :: mark) (front ++ text) =
      (cut? (c :: mark) text).map fun cut => (front ++ cut.1, cut.2) := by
  induction front with
  | nil => simp
  | cons d front ih =>
      have hne : (c == d) = false := beq_false_of_ne fun heq => h (heq ▸ List.mem_cons_self)
      have hrest : c ∉ front := fun hmem => h (List.mem_cons_of_mem d hmem)
      rw [List.cons_append, cut?_cons, isPrefixOf?_cons_cons, hne]
      simp only [ih hrest, Bool.false_eq_true, if_false, Option.map_map]
      rfl

theorem cut?_append_cons_of_notMem {c : α} {mark front : List α} (hmark : c ∉ mark)
    (hfront : ¬ mark <:+: front) (rest : List α) :
    cut? mark (front ++ c :: rest) =
      (cut? mark (c :: rest)).map fun cut => (front ++ cut.1, cut.2) := by
  induction front with
  | nil => simp
  | cons d front ih =>
      have hshorter : ¬ mark <:+: front := fun h => hfront (List.infix_cons h)
      have hnone : mark.isPrefixOf? (d :: (front ++ c :: rest)) = none := by
        rw [isPrefixOf?_eq_none_iff]
        intro hprefix
        by_cases hlength : mark.length ≤ (d :: front).length
        · exact hfront (List.prefix_of_prefix_length_le hprefix
            (List.prefix_append (d :: front) _) hlength).isInfix
        · have hacross : d :: front ++ [c] <+: d :: (front ++ c :: rest) :=
            ⟨rest, by simp⟩
          have hlonger : (d :: front ++ [c]).length ≤ mark.length := by
            rw [List.length_append]
            exact Nat.lt_of_not_le hlength
          have hreach := List.prefix_of_prefix_length_le hacross hprefix hlonger
          exact hmark (hreach.subset (by simp))
      rw [List.cons_append, cut?_cons, hnone]
      simp only [ih hshorter, Option.map_map]
      rfl

/-! # Marks of one element -/

theorem cut?_singleton {c : α} {front : List α} (h : c ∉ front) (rest : List α) :
    cut? [c] (front ++ c :: rest) = some (front, rest) := by
  induction front with
  | nil => simp [cut?_cons, isPrefixOf?_cons_cons, isPrefixOf?_nil]
  | cons d front ih =>
      have hne : (c == d) = false := beq_false_of_ne fun heq => h (heq ▸ List.mem_cons_self)
      have hrest : c ∉ front := fun hmem => h (List.mem_cons_of_mem d hmem)
      simp [cut?_cons, isPrefixOf?_cons_cons, hne, ih hrest]

theorem cut?_singleton_eq_none {c : α} {text : List α} (h : c ∉ text) : cut? [c] text = none := by
  rw [cut?_eq_none_iff]
  intro hmark
  exact h (hmark.subset List.mem_cons_self)

theorem not_mem_of_cut?_eq_none {c : α} {text : List α} (h : cut? [c] text = none) :
    c ∉ text := by
  intro hmem
  rcases List.append_of_mem hmem with ⟨front, rest, hsplit⟩
  apply cut?_eq_none_iff.mp h
  exact ⟨front, rest, by rw [hsplit, List.append_assoc, List.singleton_append]⟩

theorem not_mem_of_cut?_singleton {c : α} {text front rest : List α}
    (h : cut? [c] text = some (front, rest)) : c ∉ front := by
  intro hmem
  rcases List.append_of_mem hmem with ⟨earlier, later, hsplit⟩
  have htext : text = earlier ++ [c] ++ (later ++ [c] ++ rest) := by
    rw [eq_append_of_cut? h, hsplit]
    simp
  have hle := length_le_of_cut? h htext
  rw [hsplit, List.length_append, List.length_cons] at hle
  omega

/-! # Marks that do not overlap themselves -/

/--
A mark whose first element does not come again in it is found behind any text that does not hold it:
no place further in front is left, not even one where the mark would reach beyond the text.
-/
theorem firstAt_of_unmarked {β : Type} {c : β} {mark front : List β} (hmark : c ∉ mark)
    (hfront : ¬ (c :: mark) <:+: front) (rest : List β) :
    FirstAt (c :: mark) (front ++ c :: mark ++ rest) front rest := by
  refine ⟨rfl, ?_⟩
  intro other after hother
  apply Nat.le_of_not_lt
  intro hless
  rw [List.append_assoc, List.append_assoc, List.append_eq_append_iff] at hother
  rcases hother with ⟨more, hlonger, _⟩ | ⟨late, hfrontSplit, hrest⟩
  · rw [hlonger, List.length_append] at hless
    omega
  · -- The mark would begin before the end of the front, and the next mark inside it.
    rw [List.append_eq_append_iff] at hrest
    rcases hrest with ⟨more, hlate, _⟩ | ⟨inner, hinner, hbehind⟩
    · exact hfront ⟨other, more, by rw [hfrontSplit, hlate, List.append_assoc]⟩
    · cases inner with
      | nil =>
          rw [List.append_nil] at hinner
          exact hfront ⟨other, [], by rw [hfrontSplit, hinner, List.append_nil]⟩
      | cons d inner =>
          cases late with
          | nil =>
              rw [hfrontSplit, List.append_nil] at hless
              omega
          | cons e late =>
              have hd : c = d := (List.cons.inj hbehind).left
              apply hmark
              rw [(List.cons.inj hinner).right, hd]
              exact List.mem_append_right late List.mem_cons_self

end HttpEngine
