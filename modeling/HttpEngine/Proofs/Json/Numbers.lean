import HttpEngine.Json.Number

/-!
# What a number is read from

What is read of a number is settled by the characters that it takes: whatever follows them, the
number is the same, if only it does not go on with a digit, a point or a mark of an exponent.  And a
number that stays whole fits 64 bits.
-/

namespace HttpEngine

section Settled

variable {α : Type}

/--
Whatever a reader gives, it gives for the characters that it takes, in front of anything that does
not go on with them.
-/
def Settled (ends : List Char -> Prop) (read? : List Char -> Option (α × List Char)) : Prop :=
  forall text x rest, read? text = some (x, rest) ->
    exists taken, text = taken ++ rest ∧
      forall more, ends more -> read? (taken ++ more) = some (x, more)

def StartsWith (test : Char -> Prop) (text : List Char) : Prop :=
  forall c, text.head? = some c -> test c

theorem startsWith_nil (test : Char -> Prop) : StartsWith test [] := by
  intro c hc
  cases hc

theorem startsWith_cons {test : Char -> Prop} {c : Char} {text : List Char} :
    StartsWith test (c :: text) ↔ test c := by
  constructor
  · intro h
    exact h c rfl
  · intro h d hd
    exact Option.some.inj hd ▸ h

theorem StartsWith.append {test : Char -> Prop} {taken rest more : List Char}
    (h : StartsWith test (taken ++ rest)) (hmore : StartsWith test more) :
    StartsWith test (taken ++ more) := by
  cases taken with
  | nil => exact hmore
  | cons c taken => exact startsWith_cons.mpr (startsWith_cons.mp h)

theorem Settled.cons {ends : List Char -> Prop}
    {read? outer? : List Char -> Option (α × List Char)} (h : Settled ends read?) {c : Char}
    (hstep : forall text, outer? (c :: text) = read? text) {text : List Char} {x : α}
    {rest : List Char} (hread : read? text = some (x, rest)) :
    exists taken, c :: text = taken ++ rest ∧
      forall more, ends more -> outer? (taken ++ more) = some (x, more) := by
  rcases h text x rest hread with ⟨taken, htext, hmore⟩
  refine ⟨c :: taken, congrArg (List.cons c) htext, ?_⟩
  intro more hends
  exact (hstep _).trans (hmore more hends)

theorem Settled.exists_cons {ends : List Char -> Prop} {read? : List Char -> Option (α × List Char)}
    (h : Settled ends read?) (hends : ends []) (hnil : read? [] = none) {text : List Char} {x : α}
    {rest : List Char} (hread : read? text = some (x, rest)) :
    exists c taken, text = c :: (taken ++ rest) ∧
      forall more, ends more -> read? (c :: (taken ++ more)) = some (x, more) := by
  rcases h text x rest hread with ⟨taken, htext, hmore⟩
  cases taken with
  | nil =>
      have hnone := hmore [] hends
      rw [List.nil_append, hnil] at hnone
      cases hnone
  | cons c taken => exact ⟨c, taken, htext, hmore⟩

end Settled

namespace JsonNumber

def Ends (more : List Char) : Prop :=
  StartsWith (fun c => isDigit c = false ∧ c ≠ '.' ∧ c ≠ 'e' ∧ c ≠ 'E') more

theorem Ends.noDigit {more : List Char} (h : Ends more) :
    StartsWith (fun c => isDigit c = false) more :=
  fun c hc => (h c hc).left

/-! # Digits -/

theorem exists_digits (text : List Char) :
    exists digits rest, text = digits ++ rest ∧ (forall c, c ∈ digits -> isDigit c = true) ∧
      StartsWith (fun c => isDigit c = false) rest := by
  induction text with
  | nil => exact ⟨[], [], rfl, fun c hc => absurd hc List.not_mem_nil, startsWith_nil _⟩
  | cons c text ih =>
      cases hc : isDigit c with
      | false =>
          refine ⟨[], c :: text, rfl, ?_, startsWith_cons.mpr hc⟩
          intro d hd
          exact absurd hd List.not_mem_nil
      | true =>
          rcases ih with ⟨digits, rest, htext, hdigits, hrest⟩
          refine ⟨c :: digits, rest, congrArg (List.cons c) htext, ?_, hrest⟩
          intro d hd
          rcases List.mem_cons.mp hd with heq | hmem
          · exact heq ▸ hc
          · exact hdigits d hmem

theorem skipDigits_append {digits rest : List Char}
    (hdigits : forall c, c ∈ digits -> isDigit c = true)
    (hrest : StartsWith (fun c => isDigit c = false) rest) :
    skipDigits (digits ++ rest) = (digits.length, rest) := by
  have htake : rest.takeWhile isDigit = [] ∧ rest.dropWhile isDigit = rest := by
    cases rest with
    | nil => exact ⟨rfl, rfl⟩
    | cons c rest =>
        have hc := startsWith_cons.mp hrest
        exact ⟨List.takeWhile_cons_of_neg (by simp [hc]), List.dropWhile_cons_of_neg (by simp [hc])⟩
  rw [skipDigits, List.takeWhile_append_of_pos hdigits, List.dropWhile_append_of_pos hdigits,
    htake.left, htake.right, List.append_nil]

theorem collect_of_noDigit (word taken : Nat) {rest : List Char}
    (hrest : StartsWith (fun c => isDigit c = false) rest) :
    collect word taken rest = (word, taken, rest) := by
  cases rest with
  | nil => rfl
  | cons c rest => simp [collect, startsWith_cons.mp hrest]

theorem collect_append (word taken : Nat) {digits rest : List Char}
    (hrest : StartsWith (fun c => isDigit c = false) rest) :
    collect word taken (digits ++ rest) =
      ((collect word taken digits).1, (collect word taken digits).2.1,
        (collect word taken digits).2.2 ++ rest) := by
  induction digits generalizing word taken with
  | nil => exact collect_of_noDigit word taken hrest
  | cons c digits ih =>
      rw [List.cons_append, collect, collect]
      split
      · exact ih _ _
      · rfl

theorem mem_of_mem_collect {word taken : Nat} {digits : List Char} {c : Char}
    (h : c ∈ (collect word taken digits).2.2) : c ∈ digits := by
  induction digits generalizing word taken with
  | nil => exact h
  | cons d digits ih =>
      rw [collect] at h
      split at h
      · exact List.mem_cons_of_mem d (ih h)
      · exact h

theorem collect_le {word taken : Nat} (h : word ≤ wordMax) (text : List Char) :
    (collect word taken text).1 ≤ wordMax := by
  induction text generalizing word taken with
  | nil => exact h
  | cons c text ih =>
      rw [collect]
      split
      · next hfits =>
        rw [Bool.and_eq_true, decide_eq_true_iff] at hfits
        exact ih hfits.right
      · exact h

/-! # Exponents and fractions -/

variable (isNegative : Bool) (word : Nat) (power : Int)

theorem settled_of_digits {read? : List Char -> Option (Number × List Char)}
    (h : forall digits more, (forall c, c ∈ digits -> isDigit c = true) ->
      StartsWith (fun c => isDigit c = false) more ->
      read? (digits ++ more) = (read? digits).map fun r => (r.1, more)) : Settled Ends read? := by
  intro text x rest hread
  rcases exists_digits text with ⟨digits, behind, htext, hdigits, hbehind⟩
  rw [htext, h digits behind hdigits hbehind, Option.map_eq_some_iff] at hread
  rcases hread with ⟨⟨n, left⟩, hdone, heq⟩
  cases heq
  refine ⟨digits, htext, ?_⟩
  intro more hmore
  rw [h digits more hdigits hmore.noDigit, hdone]
  rfl

theorem settled_exponentDigits? (isDown : Bool) :
    Settled Ends (exponentDigits? isNegative isDown word power) := by
  apply settled_of_digits
  intro digits more hdigits hmore
  have halone := skipDigits_append hdigits (startsWith_nil fun c => isDigit c = false)
  rw [List.append_nil] at halone
  unfold exponentDigits?
  rw [skipDigits_append hdigits hmore, halone]
  simp only [List.take_left', List.take_length]
  split
  · rfl
  · split
    · simp [Function.comp_def]
    · split
      · rfl
      · simp [Function.comp_def]

theorem ends_nil : Ends [] :=
  startsWith_nil _

theorem exponent?_cons {c : Char} (hplus : c ≠ '+') (hminus : c ≠ '-') (text : List Char) :
    exponent? isNegative word power (c :: text) =
      exponentDigits? isNegative false word power (c :: text) := by
  unfold exponent?
  split
  · next heq => exact absurd (List.cons.inj heq).left hplus
  · next heq => exact absurd (List.cons.inj heq).left hminus
  · rfl

theorem settled_exponent? : Settled Ends (exponent? isNegative word power) := by
  intro text x rest h
  unfold exponent? at h
  split at h
  · exact (settled_exponentDigits? isNegative word power false).cons (fun _ => rfl) h
  · exact (settled_exponentDigits? isNegative word power true).cons (fun _ => rfl) h
  · next hplus hminus =>
    rcases (settled_exponentDigits? isNegative word power false).exists_cons ends_nil rfl h with
      ⟨c, taken, htext, hmore⟩
    refine ⟨c :: taken, htext, ?_⟩
    intro more hends
    have hc : c ≠ '+' ∧ c ≠ '-' := by
      constructor
      · rintro rfl
        exact hplus _ htext
      · rintro rfl
        exact hminus _ htext
    rw [List.cons_append, exponent?_cons isNegative word power hc.left hc.right]
    exact hmore more hends

theorem ending?_of_ends {more : List Char} (h : Ends more) :
    ending? isNegative word power more = (double? isNegative word power).map (·, more) := by
  unfold ending?
  split
  · exact absurd rfl (startsWith_cons.mp h).right.right.left
  · exact absurd rfl (startsWith_cons.mp h).right.right.right
  · rfl

theorem settled_ending? : Settled Ends (ending? isNegative word power) := by
  intro text x rest h
  unfold ending? at h
  split at h
  · exact (settled_exponent? isNegative word power).cons (fun _ => rfl) h
  · exact (settled_exponent? isNegative word power).cons (fun _ => rfl) h
  · rcases Option.map_eq_some_iff.mp h with ⟨n, hn, heq⟩
    cases heq
    refine ⟨[], rfl, ?_⟩
    intro more hends
    rw [List.nil_append, ending?_of_ends isNegative word power hends, hn]
    rfl

theorem fraction?_digits {digits more : List Char}
    (hdigits : forall c, c ∈ digits -> isDigit c = true)
    (hmore : StartsWith (fun c => isDigit c = false) more) :
    fraction? isNegative word power (digits ++ more) =
      if (collect word 0 digits).2.1 + (collect word 0 digits).2.2.length = 0 then none
      else ending? isNegative (collect word 0 digits).1 (power - (collect word 0 digits).2.1)
        more := by
  unfold fraction?
  rw [collect_append word 0 hmore]
  simp only
  rw [skipDigits_append (fun c hc => hdigits c (mem_of_mem_collect hc)) hmore]

theorem settled_fraction? : Settled Ends (fraction? isNegative word power) := by
  intro text x rest h
  rcases exists_digits text with ⟨digits, behind, htext, hdigits, hbehind⟩
  rw [htext, fraction?_digits isNegative word power hdigits hbehind] at h
  split at h
  · cases h
  · next hsome =>
    rcases settled_ending? isNegative _ _ _ x rest h with ⟨taken, hsplit, hmore⟩
    refine ⟨digits ++ taken, by rw [htext, hsplit, List.append_assoc], ?_⟩
    intro more hends
    have hfirst : StartsWith (fun c => isDigit c = false) (taken ++ more) :=
      (hsplit ▸ hbehind).append hends.noDigit
    rw [List.append_assoc, fraction?_digits isNegative word power hdigits hfirst, if_neg hsome]
    exact hmore more hends

/-! # Whole parts -/

theorem afterWhole?_of_ends (skipped : Nat) {more : List Char} (h : Ends more) :
    afterWhole? isNegative word skipped more = (whole? isNegative word skipped).map (·, more) := by
  unfold afterWhole?
  split
  · exact absurd rfl (startsWith_cons.mp h).right.left
  · exact absurd rfl (startsWith_cons.mp h).right.right.left
  · exact absurd rfl (startsWith_cons.mp h).right.right.right
  · rfl

theorem settled_afterWhole? (skipped : Nat) :
    Settled Ends (afterWhole? isNegative word skipped) := by
  intro text x rest h
  unfold afterWhole? at h
  split at h
  · exact (settled_fraction? isNegative word skipped).cons (fun _ => rfl) h
  · exact (settled_exponent? isNegative word skipped).cons (fun _ => rfl) h
  · exact (settled_exponent? isNegative word skipped).cons (fun _ => rfl) h
  · rcases Option.map_eq_some_iff.mp h with ⟨n, hn, heq⟩
    cases heq
    refine ⟨[], rfl, ?_⟩
    intro more hends
    rw [List.nil_append, afterWhole?_of_ends isNegative word skipped hends, hn]
    rfl

theorem unsigned?_zero (text : List Char) :
    unsigned? isNegative ('0' :: text) =
      if text.head?.any isDigit then none else afterWhole? isNegative 0 0 text :=
  rfl

theorem any_head?_eq_false_iff {text : List Char} :
    text.head?.any isDigit = false ↔ StartsWith (fun c => isDigit c = false) text := by
  cases text with
  | nil => exact ⟨fun _ => startsWith_nil _, fun _ => rfl⟩
  | cons c text =>
      rw [startsWith_cons]
      exact Iff.rfl

theorem unsigned?_digits {c : Char} {digits more : List Char} (hc : c ≠ '0')
    (hdigits : forall d, d ∈ c :: digits -> isDigit d = true)
    (hmore : StartsWith (fun c => isDigit c = false) more) :
    unsigned? isNegative (c :: digits ++ more) =
      if (collect 0 0 (c :: digits)).2.1 = 0 then none
      else afterWhole? isNegative (collect 0 0 (c :: digits)).1
        (collect 0 0 (c :: digits)).2.2.length more := by
  have hskipped : forall d, d ∈ (collect 0 0 (c :: digits)).2.2 -> isDigit d = true :=
    fun d hd => hdigits d (mem_of_mem_collect hd)
  unfold unsigned?
  split
  · next heq => exact absurd (List.cons.inj heq).left hc
  · rw [collect_append 0 0 hmore]
    simp only
    rw [skipDigits_append hskipped hmore]

theorem settled_unsigned? : Settled Ends (unsigned? isNegative) := by
  intro text x rest h
  by_cases hzero : exists more, text = '0' :: more
  · rcases hzero with ⟨text, rfl⟩
    rw [unsigned?_zero] at h
    split at h
    · cases h
    · next hfirst =>
      rw [Bool.not_eq_true, any_head?_eq_false_iff] at hfirst
      rcases settled_afterWhole? isNegative 0 0 _ x rest h with ⟨taken, htext, hmore⟩
      refine ⟨'0' :: taken, congrArg (List.cons '0') htext, ?_⟩
      intro more hends
      have hlate := any_head?_eq_false_iff.mpr ((htext ▸ hfirst).append hends.noDigit)
      rw [List.cons_append, unsigned?_zero, hlate, if_neg Bool.false_ne_true]
      exact hmore more hends
  · rcases exists_digits text with ⟨digits, behind, htext, hdigits, hbehind⟩
    cases digits with
    | nil =>
        have hnone : unsigned? isNegative text = none := by
          unfold unsigned?
          split
          · next more => exact absurd ⟨more, rfl⟩ hzero
          · rw [htext, List.nil_append, collect_of_noDigit 0 0 hbehind]
            rfl
        rw [hnone] at h
        cases h
    | cons c digits =>
        have hc : c ≠ '0' := fun heq => hzero ⟨digits ++ behind, by rw [htext, heq]; rfl⟩
        rw [htext, unsigned?_digits isNegative hc hdigits hbehind] at h
        split at h
        · cases h
        · next hsome =>
          rcases settled_afterWhole? isNegative _ _ _ x rest h with ⟨taken, hsplit, hmore⟩
          refine ⟨c :: digits ++ taken, by rw [htext, hsplit, List.append_assoc], ?_⟩
          intro more hends
          have hfirst : StartsWith (fun c => isDigit c = false) (taken ++ more) :=
            (hsplit ▸ hbehind).append hends.noDigit
          rw [List.append_assoc, unsigned?_digits isNegative hc hdigits hfirst, if_neg hsome]
          exact hmore more hends

/-! # Numbers -/

theorem read?_cons {c : Char} (h : c ≠ '-') (text : List Char) :
    read? (c :: text) = unsigned? false (c :: text) := by
  unfold read?
  split
  · next heq => exact absurd (List.cons.inj heq).left h
  · rfl

theorem settled_read? : Settled Ends read? := by
  intro text x rest h
  unfold read? at h
  split at h
  · exact (settled_unsigned? true).cons (fun _ => rfl) h
  · next hminus =>
    rcases (settled_unsigned? false).exists_cons ends_nil rfl h with ⟨c, taken, htext, hmore⟩
    refine ⟨c :: taken, htext, ?_⟩
    intro more hends
    have hc : c ≠ '-' := by
      rintro rfl
      exact hminus _ htext
    rw [List.cons_append, read?_cons hc]
    exact hmore more hends

theorem startsWith_of_read? {text : List Char} {x : Number × List Char} (h : read? text = some x) :
    StartsWith (fun c => c = '-' ∨ isDigit c = true) text := by
  unfold read? at h
  split at h
  · exact startsWith_cons.mpr (Or.inl rfl)
  · intro c hc
    rcases List.head?_eq_some_iff.mp hc with ⟨rest, rfl⟩
    cases hdigit : isDigit c with
    | true => exact Or.inr rfl
    | false =>
        have hfirst : StartsWith (fun c => isDigit c = false) (c :: rest) :=
          startsWith_cons.mpr hdigit
        unfold unsigned? at h
        split at h
        · next heq =>
          rw [(List.cons.inj heq).left] at hdigit
          exact absurd hdigit (by decide)
        · rw [collect_of_noDigit 0 0 hfirst] at h
          cases h

/-! # Sizes -/

def IsDouble (n : Number) : Prop :=
  exists value, n = .double value

def IsWhole : Number -> Prop
  | .natural n => n < 0x10000000000000000
  | .negative n => -0x8000000000000000 ≤ n ∧ n < 0
  | .double _ => False

variable {isNegative : Bool} {word : Nat} {power : Int} {n : Number} {text rest : List Char}

theorem eq_some_of_map_pair {m : Option Number} {left : List Char}
    (h : m.map (·, left) = some (n, rest)) : m = some n := by
  rcases Option.map_eq_some_iff.mp h with ⟨k, hk, heq⟩
  cases heq
  exact hk

theorem isDouble_of_double? (h : double? isNegative word power = some n) : IsDouble n := by
  rcases Option.map_eq_some_iff.mp h with ⟨value, _, heq⟩
  exact ⟨_, heq.symm⟩

theorem isDouble_of_exponentDigits? {isDown : Bool}
    (h : exponentDigits? isNegative isDown word power text = some (n, rest)) : IsDouble n := by
  unfold exponentDigits? at h
  simp only at h
  split at h
  · cases h
  · split at h
    · exact isDouble_of_double? (eq_some_of_map_pair h)
    · split at h
      · cases h
      · exact isDouble_of_double? (eq_some_of_map_pair h)

theorem isDouble_of_exponent? (h : exponent? isNegative word power text = some (n, rest)) :
    IsDouble n := by
  unfold exponent? at h
  split at h
  · exact isDouble_of_exponentDigits? h
  · exact isDouble_of_exponentDigits? h
  · exact isDouble_of_exponentDigits? h

theorem isDouble_of_fraction? (h : fraction? isNegative word power text = some (n, rest)) :
    IsDouble n := by
  unfold fraction? at h
  simp only at h
  split at h
  · cases h
  · unfold ending? at h
    split at h
    · exact isDouble_of_exponent? h
    · exact isDouble_of_exponent? h
    · exact isDouble_of_double? (eq_some_of_map_pair h)

theorem isWhole_or_isDouble_of_whole? {skipped : Nat} (hword : word ≤ wordMax)
    (h : whole? isNegative word skipped = some n) : IsWhole n ∨ IsDouble n := by
  unfold whole? at h
  split at h
  · exact Or.inr (isDouble_of_double? h)
  · split at h
    · cases h
      exact Or.inl (Nat.lt_succ_of_le hword)
    · split at h
      · exact Or.inr (isDouble_of_double? h)
      · next hsize =>
        cases h
        apply Or.inl
        show -0x8000000000000000 ≤ -(word : Int) ∧ -(word : Int) < 0
        omega

theorem isWhole_or_isDouble_of_afterWhole? {skipped : Nat} (hword : word ≤ wordMax)
    (h : afterWhole? isNegative word skipped text = some (n, rest)) : IsWhole n ∨ IsDouble n := by
  unfold afterWhole? at h
  split at h
  · exact Or.inr (isDouble_of_fraction? h)
  · exact Or.inr (isDouble_of_exponent? h)
  · exact Or.inr (isDouble_of_exponent? h)
  · exact isWhole_or_isDouble_of_whole? hword (eq_some_of_map_pair h)

theorem isWhole_or_isDouble_of_unsigned? (h : unsigned? isNegative text = some (n, rest)) :
    IsWhole n ∨ IsDouble n := by
  unfold unsigned? at h
  split at h
  · split at h
    · cases h
    · exact isWhole_or_isDouble_of_afterWhole? (Nat.zero_le _) h
  · simp only at h
    split at h
    · cases h
    · exact isWhole_or_isDouble_of_afterWhole? (collect_le (Nat.zero_le _) text) h

theorem isWhole_or_isDouble (h : read? text = some (n, rest)) : IsWhole n ∨ IsDouble n := by
  unfold read? at h
  split at h
  · exact isWhole_or_isDouble_of_unsigned? h
  · exact isWhole_or_isDouble_of_unsigned? h

end JsonNumber
end HttpEngine
