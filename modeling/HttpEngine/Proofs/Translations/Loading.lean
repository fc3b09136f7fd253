import HttpEngine.Proofs.Translations.Files
import HttpEngine.Proofs.Translations.Texts
import HttpEngine.Proofs.Validation.Checking

/-!
# Reading a table and putting texts into it

A table is read from a directory exactly if every file that is read holds an object; otherwise the
first one in the order of the names that does not hold one gives the error.  Whatever is inserted
afterwards, a text is found that was given last for its locale and key: by an insertion, or else by
the file of the locale.
-/

namespace HttpEngine

/-! # Texts of an object -/

theorem sorted_keepLater {m : String × Json} {kept : List (String × Json)}
    (hfirst : forall n, n ∈ kept -> m.1 ≤ n.1) (h : kept.Pairwise fun m n => m.1 < n.1) :
    (keepLater m kept).Pairwise fun m n => m.1 < n.1 := by
  cases kept with
  | nil => exact List.pairwise_singleton _ m
  | cons held rest =>
      rw [keepLater]
      by_cases hname : m.1 = held.1
      · rw [if_pos hname]
        exact h
      · rw [if_neg hname, List.pairwise_cons]
        have hlt : m.1 < held.1 := by
          by_cases hlt : m.1 < held.1
          · exact hlt
          · exact absurd
              (String.le_antisymm (hfirst held List.mem_cons_self) (String.not_lt.mp hlt)) hname
        constructor
        · intro n hn
          rcases List.mem_cons.mp hn with heq | hrest
          · exact heq ▸ hlt
          · exact String.lt_trans hlt ((List.pairwise_cons.mp h).left n hrest)
        · exact h

theorem sorted_foldr_keepLater {members : List (String × Json)} (h : InOrder members) :
    (members.foldr keepLater []).Pairwise fun m n => m.1 < n.1 := by
  induction members with
  | nil => exact List.Pairwise.nil
  | cons m later ih =>
      rcases List.pairwise_cons.mp h with ⟨hfirst, hlater⟩
      apply sorted_keepLater
      · intro n hn
        exact hfirst n ((foldr_keepLater_sublist later).subset hn)
      · exact ih hlater

theorem nodup_sortMembers (members : List (String × Json)) :
    ((sortMembers members).map Prod.fst).Nodup := by
  rw [List.Nodup, List.pairwise_map]
  apply (sorted_foldr_keepLater (inOrder_mergeSort members)).imp
  intro m n hlt heq
  rw [heq] at hlt
  exact String.lt_irrefl _ hlt

theorem lookup_texts {held : List (String × Json)} (h : (held.map Prod.fst).Nodup) (key : String) :
    (held.filterMap fun (name, value) => value.text?.map (name, ·)).lookup key =
      (held.lookup key).bind Json.text? := by
  induction held with
  | nil => rfl
  | cons m rest ih =>
      rcases m with ⟨name, value⟩
      rcases List.nodup_cons.mp h with ⟨hnot, hrest⟩
      rw [lookup_cons_eq, List.filterMap_cons]
      by_cases hname : key = name
      · rw [if_pos hname, Option.bind_some]
        cases htext : value.text? with
        | none =>
            have hnone : rest.lookup key = none := by
              rw [List.lookup_eq_none_iff]
              intro n hn
              rw [bne_iff_ne, hname]
              intro heq
              exact hnot (List.mem_map.mpr ⟨n, hn, heq.symm⟩)
            simp only [htext, Option.map_none]
            rw [ih hrest, hnone, Option.bind_none]
        | some text =>
            simp only [htext, Option.map_some]
            rw [lookup_cons_eq, if_pos hname]
      · rw [if_neg hname]
        cases htext : value.text? with
        | none =>
            simp only [htext, Option.map_none]
            exact ih hrest
        | some text =>
            simp only [htext, Option.map_some]
            rw [lookup_cons_eq, if_neg hname, ih hrest]

theorem Locale.text?_ofMembers {code key text : String} {members : List (String × Json)} :
    (Locale.ofMembers code (sortMembers members)).text? key = some text ↔
      LastMember members key (.string text) := by
  rw [← lookup_sortMembers_eq_some_iff]
  unfold Locale.text? Locale.ofMembers
  rw [lookup_texts (nodup_sortMembers members)]
  cases (sortMembers members).lookup key with
  | none => simp
  | some value => cases value <;> simp [Json.text?]

namespace Translations

/-! # One file -/

def Fails (content : Bytes) : LoadProblem -> Prop
  | .storage _ => False
  | .notText => ¬Utf8.IsText content
  | .notJson => exists text, content = Utf8.encodeChars text ∧ JsonText.ofChars? text = none
  | .notAnObject => exists text value, content = Utf8.encodeChars text ∧
      JsonText.ofChars? text = some value ∧ forall members, value ≠ .object members

variable {code : String} {content : Bytes}

theorem readLocale_eq_ok_iff {l : Locale} :
    readLocale code content = .ok l ↔
      exists members, WritesObject content members ∧ l = .ofMembers code (sortMembers members) := by
  have hparse : readLocale code content = .ok l ↔
      exists held, Json.parse? content = some (.object held) ∧ l = .ofMembers code held := by
    cases htext : Utf8.decodeChars? content with
    | none => simp [readLocale, Json.parse?, htext]
    | some text =>
        cases hvalue : JsonText.ofChars? text with
        | none => simp [readLocale, Json.parse?, htext, hvalue]
        | some value =>
            cases value <;> simp [readLocale, Json.parse?, htext, hvalue, eq_comm]
  rw [hparse]
  constructor
  · intro h
    rcases h with ⟨held, hheld, hl⟩
    rcases parse?_object_iff.mp hheld with ⟨members, hmembers, heq⟩
    exact ⟨members, hmembers, heq ▸ hl⟩
  · intro h
    rcases h with ⟨members, hmembers, hl⟩
    exact ⟨_, parse?_object_iff.mpr ⟨members, hmembers, rfl⟩, hl⟩

theorem readLocale_eq_error_iff {problem : LoadProblem} :
    readLocale code content = .error problem ↔ Fails content problem := by
  cases htext : Utf8.decodeChars? content with
  | none =>
      have hnot : forall text, content ≠ Utf8.encodeChars text := by
        intro text heq
        rw [Utf8.decodeChars?_eq_some_iff.mpr heq] at htext
        cases htext
      cases problem <;> simp [readLocale, htext, Fails, Utf8.IsText, hnot]
  | some text =>
      have hcontent := Utf8.decodeChars?_eq_some_iff.mp htext
      have hsame : forall other, content = Utf8.encodeChars other ↔ text = other := by
        intro other
        rw [hcontent]
        exact ⟨Utf8.encodeChars_inj, congrArg Utf8.encodeChars⟩
      cases hvalue : JsonText.ofChars? text with
      | none => cases problem <;> simp [readLocale, htext, Fails, Utf8.IsText, hsame, hvalue]
      | some value =>
          cases value <;> cases problem <;>
            simp [readLocale, htext, Fails, Utf8.IsText, hsame, hvalue]

/-! # All files -/

abbrev AllRead (files : List (String × Bytes)) (locales : List Locale) : Prop :=
  List.Forall₂ (fun f l => readLocale f.1 f.2 = .ok l) files locales

theorem allRead_iff {files : List (String × Bytes)} :
    (exists locales, AllRead files locales) ↔
      forall f, f ∈ files -> exists members, WritesObject f.2 members := by
  induction files with
  | nil => exact ⟨fun _ f hf => absurd hf List.not_mem_nil, fun _ => ⟨[], List.Forall₂.nil⟩⟩
  | cons f rest ih =>
      rw [List.forall_mem_cons, ← ih]
      constructor
      · intro h
        rcases h with ⟨locales, hall⟩
        rcases hall with _ | ⟨hread, hrest⟩
        rcases readLocale_eq_ok_iff.mp hread with ⟨members, hmembers, _⟩
        exact ⟨⟨members, hmembers⟩, _, hrest⟩
      · intro h
        rcases h with ⟨⟨members, hmembers⟩, locales, hrest⟩
        exact ⟨_, List.Forall₂.cons (readLocale_eq_ok_iff.mpr ⟨members, hmembers, rfl⟩) hrest⟩

def FirstFailure (files : List (String × Bytes)) (code : String) (content : Bytes)
    (problem : LoadProblem) : Prop :=
  exists front back locales, files = front ++ (code, content) :: back ∧ AllRead front locales ∧
    Fails content problem

theorem allRead_or_failure (files : List (String × Bytes)) :
    (exists locales, AllRead files locales) ∨
      exists code content problem, FirstFailure files code content problem := by
  induction files with
  | nil => exact Or.inl ⟨[], List.Forall₂.nil⟩
  | cons f rest ih =>
      cases hread : readLocale f.1 f.2 with
      | error problem =>
          exact Or.inr ⟨f.1, f.2, problem, [], rest, [], rfl, List.Forall₂.nil,
            readLocale_eq_error_iff.mp hread⟩
      | ok l =>
          rcases ih with ⟨locales, hall⟩ | ⟨code, content, problem, front, back, locales, hrest⟩
          · exact Or.inl ⟨l :: locales, List.Forall₂.cons hread hall⟩
          · rcases hrest with ⟨hsplit, hfront, hfails⟩
            exact Or.inr ⟨code, content, problem, f :: front, back, l :: locales,
              hsplit ▸ rfl, List.Forall₂.cons hread hfront, hfails⟩

theorem firstFailure_iff {files : List (String × Bytes)} {problem : LoadProblem}
    (h : files.Pairwise fun f g => fileName f.1 < fileName g.1) :
    FirstFailure files code content problem ↔
      (code, content) ∈ files ∧ Fails content problem ∧
        forall f, f ∈ files -> fileName f.1 < fileName code ->
          exists members, WritesObject f.2 members := by
  constructor
  · intro hfailure
    rcases hfailure with ⟨front, back, locales, hsplit, hfront, hfails⟩
    rw [hsplit] at h ⊢
    refine ⟨List.mem_append_right front List.mem_cons_self, hfails, ?_⟩
    intro f hf hlt
    rcases List.mem_append.mp hf with hmem | hmem
    · exact allRead_iff.mp ⟨locales, hfront⟩ f hmem
    · rcases List.mem_cons.mp hmem with heq | hmem
      · rw [heq] at hlt
        exact absurd hlt (List.lt_irrefl _)
      · have hback := (List.pairwise_append.mp h).right.left
        exact absurd hlt (List.lt_asymm ((List.pairwise_cons.mp hback).left f hmem))
  · intro hleast
    rcases hleast with ⟨hmem, hfails, hearlier⟩
    rcases List.append_of_mem hmem with ⟨front, back, hsplit⟩
    rw [hsplit] at h hearlier
    have hfront : exists locales, AllRead front locales := by
      apply allRead_iff.mpr
      intro f hf
      exact hearlier f (List.mem_append_left _ hf)
        ((List.pairwise_append.mp h).right.right f hf (code, content) List.mem_cons_self)
    rcases hfront with ⟨locales, hfront⟩
    exact ⟨front, back, locales, hsplit, hfront, hfails⟩

section

variable {files : List (FileName × Bytes × Bytes)} {reference : Bytes} {locales : List Locale}

theorem readAll_of_allRead (read : List Locale) (h : AllRead (localeFiles files) locales) :
    (readAll reference read files).1 = .ok ⟨read ++ locales⟩ := by
  induction files generalizing read locales with
  | nil =>
      cases h
      rw [List.append_nil]
      rfl
  | cons file rest ih =>
      rcases file with ⟨name, stem, held⟩
      cases hstem : Utf8.decode? stem with
      | none =>
          have hskip : localeFiles ((name, stem, held) :: rest) = localeFiles rest := by
            simp [localeFiles, hstem]
          rw [hskip] at h
          simp only [readAll, hstem]
          exact ih read h
      | some decoded =>
          have hcons : localeFiles ((name, stem, held) :: rest) =
              (decoded, held) :: localeFiles rest := by
            simp [localeFiles, hstem]
          rw [hcons] at h
          rcases h with _ | ⟨hread, hrest⟩
          simp only [readAll, hstem, hread]
          rw [ih _ hrest, List.append_assoc]
          rfl

theorem readAll_of_failure (read : List Locale) {problem : LoadProblem}
    (hnames : forall file code content, file ∈ files ->
      (Utf8.decode? file.2.1).map (·, file.2.2) = some (code, content) -> file.1 = fileName code)
    (h : FirstFailure (localeFiles files) code content problem) :
    (readAll reference read files).1 =
      .error ⟨Storage.join reference (fileName code), problem⟩ := by
  rcases h with ⟨front, back, locales, hsplit, hfront, hfails⟩
  induction files generalizing read front locales with
  | nil => simp [localeFiles] at hsplit
  | cons file rest ih =>
      rcases file with ⟨name, stem, held⟩
      have hrest := fun file code content hmem =>
        hnames file code content (List.mem_cons_of_mem (name, stem, held) hmem)
      cases hstem : Utf8.decode? stem with
      | none =>
          have hskip : localeFiles ((name, stem, held) :: rest) = localeFiles rest := by
            simp [localeFiles, hstem]
          rw [hskip] at hsplit
          simp only [readAll, hstem]
          exact ih read hrest front locales hsplit hfront
      | some decoded =>
          have hcons : localeFiles ((name, stem, held) :: rest) =
              (decoded, held) :: localeFiles rest := by
            simp [localeFiles, hstem]
          rw [hcons] at hsplit
          rcases hfront with _ | ⟨hread, hfront⟩
          · have hname := hnames (name, stem, held) decoded held List.mem_cons_self
              (by rw [hstem]; rfl)
            cases (List.cons.inj hsplit).left
            simp only [readAll, hstem, readLocale_eq_error_iff.mpr hfails]
            rw [← hname]
          · rcases List.cons.inj hsplit with ⟨hfile, hback⟩
            cases hfile
            simp only [readAll, hstem, hread]
            exact ih _ hrest _ _ hback hfront

end

/-! # Tables that were read -/

def ofFile (file : String × List (String × Json)) : Locale :=
  .ofMembers file.1 (sortMembers file.2)

theorem exists_objects_of_allRead {files : List (String × Bytes)} {locales : List Locale}
    (h : AllRead files locales) :
    exists objects : List (String × List (String × Json)), locales = objects.map ofFile ∧
      objects.map Prod.fst = files.map Prod.fst ∧
      forall o, o ∈ objects -> exists f, f ∈ files ∧ f.1 = o.1 ∧ WritesObject f.2 o.2 := by
  induction h with
  | nil => exact ⟨[], rfl, rfl, fun o ho => absurd ho List.not_mem_nil⟩
  | @cons f l files locales hread hrest ih =>
      rcases readLocale_eq_ok_iff.mp hread with ⟨members, hmembers, hl⟩
      rcases ih with ⟨objects, hlocales, hcodes, hobjects⟩
      refine ⟨(f.1, members) :: objects, ?_, ?_, ?_⟩
      · rw [hlocales, hl]
        rfl
      · rw [List.map_cons, hcodes]
        rfl
      · intro o ho
        rcases List.mem_cons.mp ho with heq | hmem
        · exact ⟨f, List.mem_cons_self, heq ▸ rfl, heq ▸ hmembers⟩
        · rcases hobjects o hmem with ⟨g, hg, hsame⟩
          exact ⟨g, List.mem_cons_of_mem f hg, hsame⟩

theorem own?_ofFiles {objects : List (String × List (String × Json))}
    (h : (objects.map Prod.fst).Nodup) {code key text : String} :
    (Translations.mk (objects.map ofFile)).own? code key = some text ↔
      exists members, (code, members) ∈ objects ∧ LastMember members key (.string text) := by
  induction objects with
  | nil => simp [own?, locale?]
  | cons object rest ih =>
      rcases object with ⟨first, held⟩
      rcases List.nodup_cons.mp h with ⟨hnot, hrest⟩
      unfold own? locale?
      rw [List.map_cons]
      by_cases hcode : first = code
      · have honly : forall members, (code, members) ∈ (first, held) :: rest ↔ members = held := by
          intro members
          constructor
          · intro hmem
            rcases List.mem_cons.mp hmem with heq | hmem
            · exact (Prod.mk.inj heq).right
            · exact absurd (List.mem_map.mpr ⟨_, hmem, hcode.symm⟩) hnot
          · intro heq
            rw [heq, hcode]
            exact List.mem_cons_self
        rw [List.find?_cons_of_pos (by simpa [ofFile, Locale.ofMembers] using hcode),
          Option.bind_some, ofFile, Locale.text?_ofMembers]
        simp [honly]
      · have hother : forall members,
            (code, members) ∈ (first, held) :: rest ↔ (code, members) ∈ rest := by
          intro members
          simp [Ne.symm hcode]
        rw [List.find?_cons_of_neg (by simpa [ofFile, Locale.ofMembers] using hcode)]
        simp only [hother]
        exact ih hrest

end Translations
end HttpEngine
