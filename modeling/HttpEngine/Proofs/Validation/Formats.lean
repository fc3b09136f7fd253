import HttpEngine.Proofs.Text.Pieces
import HttpEngine.Proofs.Text.Search
import HttpEngine.Validation.Format
import Mathlib.Data.List.TakeWhile

/-!
# What the formats accept

The tests on a text are put beside grammars: a mail address is a name and labels with dots between
them, a phone number is an optional sign with digits and marks behind it, and a web address is a
scheme, a host and what is left.  Each format accepts exactly the texts of its grammar.  Only the
count of the digits has a bound, 32 bits, which no text that is short enough reaches.
-/

namespace HttpEngine
namespace TextFormat

/-! # Grammars -/

structure IsMailAddress (text name : List Char) (labels : List (List Char)) : Prop where
  parts : text = name ++ '@' :: ['.'].intercalate labels
  sign : text.count '@' = 1
  named : name ≠ []
  unblank : forall c, c ∈ text -> Text.isBlank c = false
  two_le : 2 ≤ labels.length
  labels : forall label, label ∈ labels -> label ≠ [] ∧ '.' ∉ label

structure IsPhoneNumber (text rest : List Char) : Prop where
  sign : text = rest ∨ text = '+' :: rest
  characters : forall c, c ∈ rest -> '0' ≤ c ∧ c ≤ '9' ∨ c ∈ [' ', '-', '(', ')']
  seven_le : 7 ≤ rest.countP fun c => '0' ≤ c ∧ c ≤ '9'
  le_fifteen : (rest.countP fun c => '0' ≤ c ∧ c ≤ '9') ≤ 15

structure IsWebAddress (text host rest : List Char) : Prop where
  parts : text = "http://".toList ++ host ++ rest ∨ text = "https://".toList ++ host ++ rest
  nonempty : host ≠ []
  whole : forall c, c ∈ host -> c ∉ ['/', '?', '#']
  ending : forall c, rest.head? = some c -> c ∈ ['/', '?', '#']
  unblank : forall c, c ∈ text -> Text.isBlank c = false

theorem hasBlank_eq_false_iff {text : List Char} :
    hasBlank text = false ↔ forall c, c ∈ text -> Text.isBlank c = false := by
  rw [hasBlank, List.any_eq_false]
  simp only [Bool.not_eq_true]

/-! # Mail addresses -/

structure IsDomain (domain : List Char) : Prop where
  dot : '.' ∈ domain
  first : domain.head? ≠ some '.'
  last : domain.getLast? ≠ some '.'
  single : ¬ ['.', '.'] <:+: domain

theorem isDomain_iff {domain : List Char} :
    IsDomain domain ↔ 2 ≤ (domain.splitOn '.').length ∧ [] ∉ domain.splitOn '.' := by
  have hdot : '.' ∈ domain ↔ 2 ≤ (domain.splitOn '.').length := by
    constructor
    · intro hmem
      rcases List.append_of_mem hmem with ⟨front, rest, hsplit⟩
      have hfront := List.length_pos_iff.mpr (List.splitOn_ne_nil '.' front)
      have hrest := List.length_pos_iff.mpr (List.splitOn_ne_nil '.' rest)
      rw [hsplit, List.splitOn_append_cons_self, List.length_append]
      omega
    · intro htwo
      by_contra hfree
      rw [List.splitOn_eq_singleton hfree, List.length_singleton] at htwo
      omega
  rw [nil_mem_splitOn_iff, ← hdot]
  constructor
  · intro h
    refine ⟨h.dot, ?_⟩
    rintro (hnil | hhead | hlast | hdouble)
    · exact List.not_mem_nil (hnil ▸ h.dot)
    · exact h.first hhead
    · exact h.last hlast
    · exact h.single hdouble
  · rintro ⟨hmem, hnone⟩
    exact ⟨hmem, fun hhead => hnone (Or.inr (Or.inl hhead)),
      fun hlast => hnone (Or.inr (Or.inr (Or.inl hlast))),
      fun hdouble => hnone (Or.inr (Or.inr (Or.inr hdouble)))⟩

theorem any_cut_dot_iff {domain : List Char} :
    (cut? ['.'] domain).any (fun cut => !cut.1.isEmpty) = true ↔
      '.' ∈ domain ∧ domain.head? ≠ some '.' := by
  cases hcut : cut? ['.'] domain with
  | none =>
      have hfree : '.' ∉ domain := by
        intro hmem
        rcases List.append_of_mem hmem with ⟨front, rest, hsplit⟩
        rw [hsplit] at hcut
        exact cut?_eq_none_iff.mp hcut ⟨front, rest, by simp⟩
      simp [hfree]
  | some cut =>
      rcases cut with ⟨host, rest⟩
      have hsplit : domain = host ++ '.' :: rest := by
        rw [eq_append_of_cut? hcut, List.append_assoc, List.singleton_append]
      have hhost := not_mem_of_cut?_singleton hcut
      rw [hsplit]
      cases host with
      | nil => simp
      | cons c host =>
          have hc : c ≠ '.' := fun heq => hhost (heq ▸ List.mem_cons_self)
          simp [hc]

theorem isEmail_iff_cut {text : List Char} :
    isEmail text = true ↔
      exists name domain, text = name ++ '@' :: domain ∧ '@' ∉ name ∧ '@' ∉ domain ∧ name ≠ [] ∧
        (forall c, c ∈ text -> Text.isBlank c = false) ∧ IsDomain domain := by
  unfold isEmail
  constructor
  · intro h
    cases hcut : cut? ['@'] text with
    | none =>
        rw [hcut] at h
        cases h
    | some cut =>
        rcases cut with ⟨name, domain⟩
        rw [hcut] at h
        simp only [Bool.and_eq_true, bne_iff_ne, Bool.not_eq_true', any_cut_dot_iff] at h
        rcases h with ⟨⟨⟨⟨⟨hname, hsign⟩, hblank⟩, hdot, hfirst⟩, hlast⟩, hdouble⟩
        have hsingle : ¬ ['.', '.'] <:+: domain := by
          rw [← cut?_isSome_iff, ← holds, hdouble]
          decide
        refine ⟨name, domain, ?_, not_mem_of_cut?_singleton hcut, ?_, ?_,
          hasBlank_eq_false_iff.mp hblank, hdot, hfirst, hlast, hsingle⟩
        · rw [eq_append_of_cut? hcut, List.append_assoc, List.singleton_append]
        · simpa using hsign
        · simpa using hname
  · rintro ⟨name, domain, htext, hname, hdomain, hne, hblank, hdots⟩
    have hholds : holds ['.', '.'] domain = false := by
      rw [holds, Option.isSome_eq_false_iff, Option.isNone_iff_eq_none, cut?_eq_none_iff]
      exact hdots.single
    have hcut : cut? ['@'] text = some (name, domain) := by
      rw [htext]
      exact cut?_singleton hname domain
    rw [hcut]
    simp only [Bool.and_eq_true, bne_iff_ne, Bool.not_eq_true', any_cut_dot_iff]
    refine ⟨⟨⟨⟨⟨?_, ?_⟩, hasBlank_eq_false_iff.mpr hblank⟩, hdots.dot, hdots.first⟩,
      hdots.last⟩, hholds⟩
    · simpa using hne
    · simpa using hdomain

theorem isEmail_iff {text : List Char} :
    isEmail text = true ↔ exists name labels, IsMailAddress text name labels := by
  rw [isEmail_iff_cut]
  constructor
  · rintro ⟨name, domain, htext, hname, hdomain, hne, hblank, hdots⟩
    rcases isDomain_iff.mp hdots with ⟨htwo, hlabels⟩
    refine ⟨name, domain.splitOn '.', ?_, ?_, hne, hblank, htwo, ?_⟩
    · rw [List.intercalate_splitOn]
      exact htext
    · rw [htext, List.count_append, List.count_cons_self, List.count_eq_zero.mpr hname,
        List.count_eq_zero.mpr hdomain]
    · intro label hlabel
      exact ⟨fun hnil => hlabels (hnil ▸ hlabel), notMem_of_mem_splitOn hlabel⟩
  · rintro ⟨name, labels, h⟩
    have hcount := h.sign
    rw [h.parts, List.count_append, List.count_cons_self] at hcount
    have hlabels : labels ≠ [] := by
      rintro rfl
      exact absurd h.two_le (by decide)
    have hsplit : (['.'].intercalate labels).splitOn '.' = labels :=
      List.splitOn_intercalate '.' (fun label hlabel => (h.labels label hlabel).right) hlabels
    refine ⟨name, ['.'].intercalate labels, h.parts, ?_, ?_, h.named, h.unblank, ?_⟩
    · exact List.count_eq_zero.mp (by omega)
    · exact List.count_eq_zero.mp (by omega)
    · rw [isDomain_iff, hsplit]
      exact ⟨h.two_le, fun hnil => (h.labels [] hnil).left rfl⟩

/-! # Phone numbers -/

theorem countDigits?_eq (count : Int32) (text : List Char) :
    countDigits? count text =
      if text.all fun c => isDigit c || isPhoneMark c then
        some (count + Int32.ofNat (text.countP isDigit))
      else none := by
  induction text generalizing count with
  | nil => simp [countDigits?]
  | cons c rest ih =>
      unfold countDigits?
      by_cases hdigit : isDigit c = true
      · rw [if_pos hdigit, ih, List.all_cons, hdigit, Bool.true_or, Bool.true_and,
          List.countP_cons_of_pos hdigit, Int32.ofNat_add, Int32.add_assoc,
          Int32.add_comm (Int32.ofNat _)]
        rfl
      · by_cases hmark : isPhoneMark c = true
        · rw [if_neg hdigit, if_pos hmark, ih, List.all_cons, hmark, Bool.or_true, Bool.true_and,
            List.countP_cons_of_neg hdigit]
        · simp [hdigit, hmark]

theorem ofNat_between_iff {n : Nat} (h : n < 0x80000000) :
    (7 : Int32) ≤ Int32.ofNat n ∧ Int32.ofNat n ≤ 15 ↔ 7 ≤ n ∧ n ≤ 15 := by
  have hvalue : (Int32.ofNat n).toInt = n := Int32.toInt_ofNat_of_lt h
  have hseven : (7 : Int32).toInt = 7 := rfl
  have hfifteen : (15 : Int32).toInt = 15 := rfl
  rw [Int32.le_iff_toInt_le, Int32.le_iff_toInt_le, hvalue, hseven, hfifteen]
  omega

theorem isDigit_eq_true_iff {c : Char} : isDigit c = true ↔ '0' ≤ c ∧ c ≤ '9' := by
  rw [isDigit, Bool.and_eq_true, decide_eq_true_iff, decide_eq_true_iff]

theorem isPhoneMark_eq_true_iff {c : Char} :
    isPhoneMark c = true ↔ c ∈ [' ', '-', '(', ')'] := by
  simp [isPhoneMark, or_assoc]

theorem any_countDigits?_iff {rest : List Char} (h : rest.length < 0x80000000) :
    (countDigits? 0 rest).any (fun count => 7 ≤ count && count ≤ 15) = true ↔
      (forall c, c ∈ rest -> '0' ≤ c ∧ c ≤ '9' ∨ c ∈ [' ', '-', '(', ')']) ∧
      7 ≤ (rest.countP fun c => '0' ≤ c ∧ c ≤ '9') ∧
      (rest.countP fun c => '0' ≤ c ∧ c ≤ '9') ≤ 15 := by
  have hcount : rest.countP isDigit = rest.countP fun c => '0' ≤ c ∧ c ≤ '9' := by
    apply List.countP_congr
    intro c _
    rw [isDigit_eq_true_iff, decide_eq_true_iff]
  have hless : rest.countP isDigit < 0x80000000 := Nat.lt_of_le_of_lt List.countP_le_length h
  have hall : (rest.all fun c => isDigit c || isPhoneMark c) = true ↔
      forall c, c ∈ rest -> '0' ≤ c ∧ c ≤ '9' ∨ c ∈ [' ', '-', '(', ')'] := by
    simp only [List.all_eq_true, Bool.or_eq_true, isDigit_eq_true_iff, isPhoneMark_eq_true_iff]
  rw [countDigits?_eq, Int32.zero_add, ← hcount, ← hall]
  by_cases hread : (rest.all fun c => isDigit c || isPhoneMark c) = true
  · rw [if_pos hread, Option.any_some, Bool.and_eq_true, decide_eq_true_iff, decide_eq_true_iff,
      ofNat_between_iff hless]
    simp only [hread, true_and]
  · rw [if_neg hread, Option.any_none]
    simp only [hread, false_and, Bool.false_eq_true]

theorem withoutPlus_sign (text : List Char) :
    text = withoutPlus text ∨ text = '+' :: withoutPlus text := by
  unfold withoutPlus
  split
  · exact Or.inr rfl
  · exact Or.inl rfl

theorem IsPhoneNumber.withoutPlus_eq {text rest : List Char} (h : IsPhoneNumber text rest) :
    withoutPlus text = rest := by
  rcases h.sign with heq | heq
  · unfold withoutPlus
    split
    · next more =>
      have hplus := h.characters '+' (heq ▸ List.mem_cons_self)
      exact absurd hplus (by decide)
    · exact heq
  · rw [heq]
    rfl

theorem isPhone_iff {text : List Char} (h : text.length < 0x80000000) :
    isPhone text = true ↔ exists rest, IsPhoneNumber text rest := by
  have hlength : (withoutPlus text).length < 0x80000000 := by
    rcases withoutPlus_sign text with heq | heq
    · exact heq ▸ h
    · have hcons := congrArg List.length heq
      rw [List.length_cons] at hcons
      omega
  rw [isPhone, any_countDigits?_iff hlength]
  constructor
  · rintro ⟨hchars, hseven, hfifteen⟩
    exact ⟨withoutPlus text, withoutPlus_sign text, hchars, hseven, hfifteen⟩
  · rintro ⟨rest, hphone⟩
    rw [hphone.withoutPlus_eq]
    exact ⟨hphone.characters, hphone.seven_le, hphone.le_fifteen⟩

/-! # Web addresses -/

theorem afterScheme?_eq_some_iff {text rest : List Char} :
    afterScheme? text = some rest ↔
      text = "http://".toList ++ rest ∨ text = "https://".toList ++ rest := by
  rw [afterScheme?, Option.or_eq_some_iff, isPrefixOf?_eq_some_iff, isPrefixOf?_eq_some_iff]
  constructor
  · rintro (hplain | ⟨_, hsecure⟩)
    · exact Or.inl hplain
    · exact Or.inr hsecure
  · rintro (hplain | hsecure)
    · exact Or.inl hplain
    · apply Or.inr
      refine ⟨?_, hsecure⟩
      rw [hsecure]
      rfl

theorem endsHost_eq_true_iff {c : Char} : endsHost c = true ↔ c ∈ ['/', '?', '#'] := by
  simp [endsHost, or_assoc]

theorem isUrl_iff {text : List Char} :
    isUrl text = true ↔ exists host rest, IsWebAddress text host rest := by
  unfold isUrl
  rw [Option.any_eq_true]
  constructor
  · rintro ⟨after, hscheme, htests⟩
    simp only [Bool.and_eq_true, Bool.not_eq_true', List.isEmpty_eq_false_iff,
      hasBlank_eq_false_iff] at htests
    have hsplit := List.takeWhile_append_dropWhile (p := fun c => !endsHost c) (l := after)
    refine ⟨_, after.dropWhile fun c => !endsHost c, ?_, htests.left, ?_, ?_, htests.right⟩
    · rw [List.append_assoc, List.append_assoc, hsplit]
      exact afterScheme?_eq_some_iff.mp hscheme
    · intro c hc
      have hnot := List.mem_takeWhile_imp hc
      rw [← endsHost_eq_true_iff]
      simpa using hnot
    · intro c hc
      have hstop := List.head?_dropWhile_not (fun c => !endsHost c) after
      rw [hc] at hstop
      rw [← endsHost_eq_true_iff]
      simpa using hstop
  · rintro ⟨host, rest, h⟩
    have hhost : (host ++ rest).takeWhile (fun c => !endsHost c) = host := by
      rw [List.takeWhile_append_of_pos]
      · cases hrest : rest with
        | nil => simp
        | cons c more =>
            have hc := endsHost_eq_true_iff.mpr (h.ending c (by rw [hrest]; rfl))
            rw [List.takeWhile_cons_of_neg (by simp [hc]), List.append_nil]
      · intro c hc
        have hfree := h.whole c hc
        rw [← endsHost_eq_true_iff] at hfree
        simpa using hfree
    refine ⟨host ++ rest, ?_, ?_⟩
    · rw [afterScheme?_eq_some_iff, ← List.append_assoc, ← List.append_assoc]
      exact h.parts
    · rw [hhost, Bool.and_eq_true, Bool.not_eq_true', List.isEmpty_eq_false_iff,
        Bool.not_eq_true', hasBlank_eq_false_iff]
      exact ⟨h.nonempty, h.unblank⟩

/-! # Formats -/

/-- Each format accepts exactly the texts of its grammar. -/
theorem accepts_grammar {text : String} (h : text.length < 0x80000000) :
    (email.accepts text = true ↔ exists name labels, IsMailAddress text.toList name labels) ∧
    (phone.accepts text = true ↔ exists rest, IsPhoneNumber text.toList rest) ∧
    (url.accepts text = true ↔ exists host rest, IsWebAddress text.toList host rest) :=
  ⟨isEmail_iff, isPhone_iff h, isUrl_iff⟩

theorem accepts_grammar_longNumber :
    "+123 (456) 789-012-345".length < 0x80000000 ∧
      IsPhoneNumber "+123 (456) 789-012-345".toList "123 (456) 789-012-345".toList ∧
      phone.accepts "+123 (456) 789-012-345" = true := by
  have hlength : "+123 (456) 789-012-345".length < 0x80000000 := by decide
  have hnumber : IsPhoneNumber "+123 (456) 789-012-345".toList "123 (456) 789-012-345".toList :=
    ⟨Or.inr rfl, by simp, by decide, by decide⟩
  exact ⟨hlength, hnumber, (accepts_grammar hlength).2.1.mpr ⟨_, hnumber⟩⟩

end TextFormat
end HttpEngine
