/-!
# Cutting at a mark and trimming

The one search that the engine is built on: cutting a sequence at the first place where a mark
stands.  It is stated for any element type, because bodies are cut as bytes and heads as
characters.  The main statements say that a cut loses nothing, that no mark stands further in
front, and that only a text without the mark cannot be cut.

White space is what has the Unicode property `White_Space`.  Trimming looks at the ends of a text
only: a text whose first and last character fail the test is left as it is, and so is one between
two characters that pass it and are taken away.
-/

namespace HttpEngine

section Cut

variable {α : Type} [BEq α]

/--
Walks over a text with the elements already passed, latest first, and stops at the first place
where the mark stands.  What lies beyond the room of the mark is walked along; once it is used
up the mark fits no further on.
-/
def cutFrom (mark : List α) : List α -> List α -> List α -> Option (List α × List α)
  | [], passed, text => (mark.isPrefixOf? text).map fun after => (passed.reverse, after)
  | _ :: beyond, passed, text =>
      match mark.isPrefixOf? text with
      | some after => some (passed.reverse, after)
      | none =>
          match text with
          | [] => none
          | c :: rest => cutFrom mark beyond (c :: passed) rest

def cut? (mark text : List α) : Option (List α × List α) :=
  cutFrom mark (text.drop mark.length) [] text

def holds (mark text : List α) : Bool :=
  (cut? mark text).isSome

def before (mark text : List α) : List α :=
  match cut? mark text with
  | some (front, _) => front
  | none => text

/-!
# One step of the search

What has been passed only comes back in front of the result, so that a cut can be taken apart at
the first element of the text.
-/

theorem cutFrom_eq (mark passed text beyond : List α) :
    cutFrom mark beyond passed text =
      (cutFrom mark beyond [] text).map fun cut => (passed.reverse ++ cut.1, cut.2) := by
  induction beyond generalizing passed text with
  | nil => simp [cutFrom, Function.comp_def]
  | cons b beyond ih =>
      unfold cutFrom
      cases mark.isPrefixOf? text with
      | some after => simp
      | none =>
          cases text with
          | nil => rfl
          | cons c rest =>
              show cutFrom mark beyond (c :: passed) rest =
                (cutFrom mark beyond [c] rest).map _
              rw [ih (c :: passed) rest, ih [c] rest, Option.map_map]
              simp [Function.comp_def]

theorem isPrefixOf?_nil (text : List α) : [].isPrefixOf? text = some text := by
  cases text <;> rfl

theorem isPrefixOf?_cons_cons (a c : α) (mark rest : List α) :
    (a :: mark).isPrefixOf? (c :: rest) =
      if a == c then mark.isPrefixOf? rest else none :=
  rfl

theorem length_le_of_isPrefixOf? {mark text after : List α}
    (h : mark.isPrefixOf? text = some after) : mark.length ≤ text.length := by
  induction mark generalizing text with
  | nil => exact Nat.zero_le _
  | cons a mark ih =>
      cases text with
      | nil => cases h
      | cons c rest =>
          by_cases hc : (a == c) = true
          · simp only [isPrefixOf?_cons_cons, hc, if_true] at h
            exact Nat.succ_le_succ (ih h)
          · simp [isPrefixOf?_cons_cons, hc] at h

theorem isPrefixOf?_eq_none_of_length_lt {mark text : List α} (h : text.length < mark.length) :
    mark.isPrefixOf? text = none := by
  cases hprefix : mark.isPrefixOf? text with
  | none => rfl
  | some after => exact absurd (length_le_of_isPrefixOf? hprefix) (Nat.not_le.mpr h)

theorem cut?_eq_none_of_length_lt {mark text : List α} (h : text.length < mark.length) :
    cut? mark text = none := by
  rw [cut?, List.drop_eq_nil_of_le (Nat.le_of_lt h), cutFrom,
    isPrefixOf?_eq_none_of_length_lt h]
  rfl

theorem cut?_nil (mark : List α) :
    cut? mark ([] : List α) = if mark.isEmpty then some ([], []) else none := by
  cases mark with
  | nil => rfl
  | cons a mark => exact cut?_eq_none_of_length_lt (Nat.zero_lt_succ _)

theorem cut?_cons (mark : List α) (c : α) (rest : List α) :
    cut? mark (c :: rest) =
      match mark.isPrefixOf? (c :: rest) with
      | some after => some ([], after)
      | none => (cut? mark rest).map fun cut => (c :: cut.1, cut.2) := by
  by_cases hroom : mark.length ≤ rest.length
  · rw [cut?, List.drop_eq_getElem_cons (Nat.lt_succ_of_le hroom), cutFrom]
    cases mark.isPrefixOf? (c :: rest) with
    | some after => rfl
    | none => exact cutFrom_eq mark [c] rest (rest.drop mark.length)
  · have hshort : rest.length < mark.length := Nat.not_le.mp hroom
    rw [cut?, List.drop_eq_nil_of_le (Nat.succ_le_of_lt hshort), cutFrom,
      cut?_eq_none_of_length_lt hshort]
    cases mark.isPrefixOf? (c :: rest) <;> rfl

/-!
# What a cut is
-/

variable [LawfulBEq α]

theorem isPrefixOf?_eq_some_iff {mark text after : List α} :
    mark.isPrefixOf? text = some after ↔ text = mark ++ after := by
  induction mark generalizing text with
  | nil => simp [isPrefixOf?_nil, eq_comm]
  | cons a mark ih =>
      cases text with
      | nil =>
          constructor
          · intro h
            cases h
          · intro h
            cases h
      | cons c rest =>
          by_cases h : a = c
          · simp [isPrefixOf?_cons_cons, h, ih]
          · simp [isPrefixOf?_cons_cons, h, Ne.symm h]

theorem isPrefixOf?_eq_none_iff {mark text : List α} :
    mark.isPrefixOf? text = none ↔ ¬ mark <+: text := by
  rw [Option.eq_none_iff_forall_ne_some]
  constructor
  · intro h hprefix
    cases hprefix with
    | intro after hafter => exact h after (isPrefixOf?_eq_some_iff.mpr hafter.symm)
  · intro h after hafter
    exact h ⟨after, (isPrefixOf?_eq_some_iff.mp hafter).symm⟩

theorem eq_append_of_cut? {mark text front rest : List α}
    (h : cut? mark text = some (front, rest)) : text = front ++ mark ++ rest := by
  induction text generalizing front with
  | nil =>
      cases mark with
      | nil =>
          simp [cut?_nil] at h
          simp [h]
      | cons a mark => simp [cut?_nil] at h
  | cons c text ih =>
      rw [cut?_cons] at h
      cases hmark : mark.isPrefixOf? (c :: text) with
      | some after =>
          simp [hmark] at h
          simp [isPrefixOf?_eq_some_iff.mp hmark, h]
      | none =>
          simp only [hmark, Option.map_eq_some_iff] at h
          cases h with
          | intro cut hcut =>
              cases hcut.right
              simp [ih hcut.left]

/-- No mark stands further in front than the one where a text is cut. -/
theorem length_le_of_cut? {mark text front rest : List α}
    (h : cut? mark text = some (front, rest)) {other after : List α}
    (hother : text = other ++ mark ++ after) : front.length ≤ other.length := by
  induction text generalizing front other with
  | nil =>
      cases mark with
      | nil =>
          simp [cut?_nil] at h
          simp [h]
      | cons a mark => simp [cut?_nil] at h
  | cons c text ih =>
      rw [cut?_cons] at h
      cases hmark : mark.isPrefixOf? (c :: text) with
      | some found =>
          simp [hmark] at h
          simp [h]
      | none =>
          simp only [hmark, Option.map_eq_some_iff] at h
          cases h with
          | intro cut hcut =>
              cases hcut.right
              cases other with
              | nil =>
                  exact absurd ⟨after, hother.symm⟩ (isPrefixOf?_eq_none_iff.mp hmark)
              | cons o other =>
                  have htail : text = other ++ mark ++ after := by
                    simpa using (List.cons.inj hother).right
                  simpa using ih hcut.left htail

theorem cut?_isSome_iff {mark text : List α} : (cut? mark text).isSome ↔ mark <:+: text := by
  induction text with
  | nil =>
      cases mark with
      | nil => simp [cut?_nil]
      | cons a mark => simp [cut?_nil]
  | cons c text ih =>
      rw [cut?_cons, List.infix_cons_iff]
      cases hmark : mark.isPrefixOf? (c :: text) with
      | some after =>
          simp only [Option.isSome_some, true_iff]
          exact Or.inl ⟨after, (isPrefixOf?_eq_some_iff.mp hmark).symm⟩
      | none =>
          simp only [Option.isSome_map, ih]
          constructor
          · exact Or.inr
          · intro h
            exact h.resolve_left (isPrefixOf?_eq_none_iff.mp hmark)

end Cut

/-! # Trimming -/

namespace Text

def blankRanges : List (Nat × Nat) :=
  [(0x9, 0xD), (0x20, 0x20), (0x85, 0x85), (0xA0, 0xA0), (0x1680, 0x1680), (0x2000, 0x200A),
   (0x2028, 0x2029), (0x202F, 0x202F), (0x205F, 0x205F), (0x3000, 0x3000)]

def isBlank (c : Char) : Bool :=
  blankRanges.any fun (low, high) => low ≤ c.toNat && c.toNat ≤ high

def trimBy (test : Char -> Bool) (text : List Char) : List Char :=
  ((text.dropWhile test).reverse.dropWhile test).reverse

def trim (text : List Char) : List Char :=
  trimBy isBlank text

variable {test : Char -> Bool} {text : List Char}

theorem dropWhile_of_head? (h : forall c, text.head? = some c -> test c = false) :
    text.dropWhile test = text := by
  cases text with
  | nil => rfl
  | cons c text => exact List.dropWhile_cons_of_neg (by simp [h c rfl])

theorem trimBy_of_ends (hfirst : forall c, text.head? = some c -> test c = false)
    (hlast : forall c, text.getLast? = some c -> test c = false) : trimBy test text = text := by
  rw [← List.head?_reverse] at hlast
  rw [trimBy, dropWhile_of_head? hfirst, dropWhile_of_head? hlast, List.reverse_reverse]

theorem trimBy_of_forall (h : forall c, c ∈ text -> test c = false) : trimBy test text = text := by
  apply trimBy_of_ends
  · intro c hc
    exact h c (List.mem_of_head? hc)
  · intro c hc
    exact h c (List.mem_of_getLast? hc)

theorem trimBy_between {a b : Char} (ha : test a = true) (hb : test b = true) (hne : text ≠ [])
    (h : forall c, c ∈ text -> test c = false) : trimBy test (a :: text ++ [b]) = text := by
  have hopen : (a :: text ++ [b]).dropWhile test = text ++ [b] := by
    rw [List.cons_append, List.dropWhile_cons_of_pos ha]
    apply dropWhile_of_head?
    intro c hc
    rw [List.head?_append, Option.or_of_isSome (List.isSome_head?.mpr hne)] at hc
    exact h c (List.mem_of_head? hc)
  have hlast : text.reverse.dropWhile test = text.reverse := by
    apply dropWhile_of_head?
    intro c hc
    exact h c (List.mem_reverse.mp (List.mem_of_head? hc))
  rw [trimBy, hopen, List.reverse_append, List.reverse_singleton, List.singleton_append,
    List.dropWhile_cons_of_pos hb, hlast, List.reverse_reverse]

end Text

end HttpEngine
