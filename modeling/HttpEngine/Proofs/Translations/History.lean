import HttpEngine.Proofs.Translations.Loading

/-!
# What a table holds

A table that was read from the files of a directory and into which texts were put afterwards is a
map from locales and keys to texts, in which each text is the one that was given last.  The locales
stand in the order of their files, and behind them in the order in which they first came.
-/

namespace HttpEngine
namespace Translations

abbrev LocaleObject := String × List (String × Json)

/-- The text that was given last for a key of a locale: by an insertion, or else by its file. -/
def Given (objects : List LocaleObject) (insertions : List Insertion) (code key text : String) :
    Prop :=
  inserted? insertions code key = some text ∨
    (inserted? insertions code key = none ∧
      exists members, (code, members) ∈ objects ∧ LastMember members key (.string text))

structure Holds (objects : List LocaleObject) (insertions : List Insertion) (t : Translations) :
    Prop where
  codes : t.codes = (objects.map Prod.fst ++ insertions.map Insertion.code).eraseDups
  nodup : t.codes.Nodup
  default : t.defaultCode? = (objects.map Prod.fst ++ insertions.map Insertion.code).head?
  lookup : forall key code text, t.lookup? key code = some text ↔
    (exists c, code = some c ∧ Given objects insertions c key text) ∨
      ((forall c other, code = some c -> ¬Given objects insertions c key other) ∧
        exists d, t.defaultCode? = some d ∧ Given objects insertions d key text)
  get : forall key code, t.get key code = (t.lookup? key code).getD key
  insert : forall (i : Insertion) key code,
    (t.insert i.code i.key i.text).lookup? key code ≠ t.lookup? key code ->
      key = i.key ∧ (code = some i.code ∨
        ((t.insert i.code i.key i.text).defaultCode? = some i.code ∧
          forall c other, code = some c -> ¬Given objects insertions c key other))

section

variable {objects : List LocaleObject} (h : (objects.map Prod.fst).Nodup)

include h

theorem own?_eq_some_iff {insertions : List Insertion} {code key text : String} :
    ((Translations.mk (objects.map ofFile)).insertAll insertions).own? code key = some text ↔
      Given objects insertions code key text := by
  rw [own?_insertAll, Option.or_eq_some_iff, own?_ofFiles h]
  rfl

theorem own?_eq_none_iff {insertions : List Insertion} {code key : String} :
    ((Translations.mk (objects.map ofFile)).insertAll insertions).own? code key = none ↔
      forall text, ¬Given objects insertions code key text := by
  rw [Option.eq_none_iff_forall_not_mem]
  exact forall_congr' fun text => not_congr (own?_eq_some_iff h)

theorem holds_insertAll (insertions : List Insertion) :
    Holds objects insertions ((Translations.mk (objects.map ofFile)).insertAll insertions) := by
  have hfiles : (Translations.mk (objects.map ofFile)).codes = objects.map Prod.fst := by
    unfold Translations.codes
    rw [List.map_map]
    rfl
  have hnodup : (Translations.mk (objects.map ofFile)).codes.Nodup := by
    rw [hfiles]
    exact h
  have hcodes := codes_insertAll hnodup insertions
  rw [hfiles] at hcodes
  constructor
  case codes => exact hcodes
  case nodup => exact nodup_codes_insertAll hnodup insertions
  case default =>
    unfold defaultCode?
    rw [hcodes]
    cases objects.map Prod.fst ++ insertions.map Insertion.code with
    | nil => rfl
    | cons first rest =>
        rw [List.eraseDups_cons]
        rfl
  case lookup =>
    intro key code text
    rw [lookup?_eq_some_iff]
    simp only [own?_eq_some_iff h, own?_eq_none_iff h]
    constructor
    · intro hfound
      rcases hfound with hown | ⟨hnone, hdefault⟩
      · exact Or.inl hown
      · exact Or.inr ⟨fun c other hc => hnone c hc other, hdefault⟩
    · intro hgiven
      rcases hgiven with hown | ⟨hnone, hdefault⟩
      · exact Or.inl hown
      · exact Or.inr ⟨fun c hc other => hnone c other hc, hdefault⟩
  case get =>
    intro key code
    rfl
  case insert =>
    intro i key code hne
    rcases eq_of_lookup?_insert_ne i.text hne with ⟨hkey, hcode⟩
    refine ⟨hkey, hcode.imp_right ?_⟩
    intro hdefault
    rcases hdefault with ⟨hdefault, hnone⟩
    exact ⟨hdefault, fun c other hc => (own?_eq_none_iff h).mp (hnone c hc) other⟩

end

/-! # Reading a directory -/

section

variable {storage : Storage} {directory path : Path} {reference : Bytes}

def IsRead (storage : Storage) (directory : Path) (reference : Bytes) (path : Path)
    (code : String) (content : Bytes) : Prop :=
  HoldsFile storage path code content ∧ Reaches directory reference code

theorem load_eq (h : LeadsTo storage directory reference path) :
    load storage directory reference =
      readAll reference [] (sources storage directory reference (storage.names path)) := by
  have hlist : (storage.resolve directory reference >>= storage.list) =
      .ok (storage.names path) := by
    rw [h.way]
    show storage.list path = .ok (storage.names path)
    rw [Storage.list, h.stands]
  unfold load
  rw [hlist]

variable (h : LeadsTo storage directory reference path)

include h

theorem load_of_allRead {locales : List Locale}
    (hall : AllRead (localeFiles (sources storage directory reference (storage.names path)))
      locales) :
    (load storage directory reference).1 = .ok ⟨locales⟩ := by
  rw [load_eq h]
  exact readAll_of_allRead [] hall

theorem load_of_failure {code : String} {content : Bytes} {problem : LoadProblem}
    (hfailure : FirstFailure
      (localeFiles (sources storage directory reference (storage.names path)))
      code content problem) :
    (load storage directory reference).1 =
      .error ⟨Storage.join reference (fileName code), problem⟩ := by
  rw [load_eq h]
  apply readAll_of_failure [] _ hfailure
  intro file code content hmem hfile
  exact name_of_mem_sources h hmem hfile

theorem failure_iff {code : String} {content : Bytes} {problem : LoadProblem} :
    FirstFailure (localeFiles (sources storage directory reference (storage.names path)))
        code content problem ↔
      IsRead storage directory reference path code content ∧ Fails content problem ∧
        forall earlier held, IsRead storage directory reference path earlier held ->
          fileName earlier < fileName code -> exists members, WritesObject held members := by
  rw [firstFailure_iff (sorted_localeFiles h), mem_localeFiles_iff h, Prod.forall]
  simp only [mem_localeFiles_iff h]
  rfl

theorem load_eq_ok_iff :
    (exists t, (load storage directory reference).1 = .ok t) ↔
      forall code content, IsRead storage directory reference path code content ->
        exists members, WritesObject content members := by
  have hall : (exists locales,
      AllRead (localeFiles (sources storage directory reference (storage.names path))) locales) ↔
        _ := allRead_iff
  rw [Prod.forall] at hall
  simp only [mem_localeFiles_iff h] at hall
  constructor
  · intro hload
    rcases hload with ⟨t, ht⟩
    apply hall.mp
    rcases allRead_or_failure _ with hread | ⟨code, content, problem, hfailure⟩
    · exact hread
    · rw [load_of_failure h hfailure] at ht
      cases ht
  · intro hobjects
    rcases hall.mpr hobjects with ⟨locales, hread⟩
    exact ⟨_, load_of_allRead h hread⟩

theorem load_eq_error_iff {e : LoadError} :
    (load storage directory reference).1 = .error e ↔
      exists code content, IsRead storage directory reference path code content ∧
        Fails content e.problem ∧ e.reference = Storage.join reference (fileName code) ∧
        forall earlier held, IsRead storage directory reference path earlier held ->
          fileName earlier < fileName code -> exists members, WritesObject held members := by
  constructor
  · intro he
    rcases allRead_or_failure
      (localeFiles (sources storage directory reference (storage.names path)))
      with ⟨locales, hread⟩ | ⟨code, content, problem, hfailure⟩
    · rw [load_of_allRead h hread] at he
      cases he
    · rw [load_of_failure h hfailure] at he
      cases he
      rcases (failure_iff h).mp hfailure with ⟨hfile, hfails, hearlier⟩
      exact ⟨code, content, hfile, hfails, rfl, hearlier⟩
  · intro he
    rcases he with ⟨code, content, hfile, hfails, hreference, hearlier⟩
    rw [load_of_failure h ((failure_iff h).mpr ⟨hfile, hfails, hearlier⟩), ← hreference]

theorem exists_objects_of_load {t : Translations}
    (ht : (load storage directory reference).1 = .ok t) :
    exists objects : List LocaleObject, t = ⟨objects.map ofFile⟩ ∧
      objects.Pairwise (fun f g => fileName f.1 < fileName g.1) ∧
      (forall code members, (code, members) ∈ objects -> exists content,
        IsRead storage directory reference path code content ∧ WritesObject content members) ∧
      forall code content, IsRead storage directory reference path code content ->
        exists members, (code, members) ∈ objects := by
  rcases allRead_or_failure
    (localeFiles (sources storage directory reference (storage.names path)))
    with ⟨locales, hread⟩ | ⟨code, content, problem, hfailure⟩
  · rw [load_of_allRead h hread] at ht
    cases ht
    rcases exists_objects_of_allRead hread with ⟨objects, hlocales, hcodes, hobjects⟩
    refine ⟨objects, congrArg Translations.mk hlocales, ?_, ?_, ?_⟩
    · have hsorted := sorted_localeFiles h
      rw [← List.pairwise_map (f := Prod.fst)
        (R := fun code other => fileName code < fileName other)] at hsorted ⊢
      rw [hcodes]
      exact hsorted
    · intro code members hmem
      rcases hobjects _ hmem with ⟨⟨other, content⟩, hfile, hcode, hmembers⟩
      cases hcode
      exact ⟨content, (mem_localeFiles_iff h).mp hfile, hmembers⟩
    · intro code content hfile
      have hcode : code ∈ objects.map Prod.fst := by
        rw [hcodes]
        exact List.mem_map.mpr ⟨_, (mem_localeFiles_iff h).mpr hfile, rfl⟩
      rcases List.mem_map.mp hcode with ⟨⟨other, members⟩, hmem, heq⟩
      cases heq
      exact ⟨members, hmem⟩
  · rw [load_of_failure h hfailure] at ht
    cases ht

end

theorem isName_english : IsName (fileName "en") := by
  have hname : fileName "en" = [101, 110, 46, 106, 115, 111, 110] := by decide +kernel
  rw [hname]
  constructor <;> decide

/--
A directory is read as a table exactly if each of its files that is read holds an object; else the
first file in the order of the names that holds none gives the error, and there is no table.  A
table that was read holds the texts of the files and of what is inserted afterwards, for ever.
-/
theorem load_holds {storage : Storage} {directory path : Path} {reference : Bytes}
    (h : LeadsTo storage directory reference path) :
    ((exists t, (load storage directory reference).1 = .ok t) ↔
      forall code content, IsRead storage directory reference path code content ->
        exists members, WritesObject content members) ∧
    (forall e, (load storage directory reference).1 = .error e ↔
      exists code content, IsRead storage directory reference path code content ∧
        Fails content e.problem ∧ e.reference = Storage.join reference (fileName code) ∧
        forall earlier held, IsRead storage directory reference path earlier held ->
          fileName earlier < fileName code -> exists members, WritesObject held members) ∧
    forall t, (load storage directory reference).1 = .ok t ->
      exists objects : List LocaleObject,
        objects.Pairwise (fun f g => fileName f.1 < fileName g.1) ∧
        (forall code members, (code, members) ∈ objects -> exists content,
          IsRead storage directory reference path code content ∧ WritesObject content members) ∧
        (forall code content, IsRead storage directory reference path code content ->
          exists members, (code, members) ∈ objects) ∧
        forall insertions, Holds objects insertions (t.insertAll insertions) := by
  refine ⟨load_eq_ok_iff h, fun e => load_eq_error_iff h, ?_⟩
  intro t ht
  rcases exists_objects_of_load h ht with ⟨objects, heq, hsorted, hobjects, hfiles⟩
  refine ⟨objects, hsorted, hobjects, hfiles, ?_⟩
  intro insertions
  have hnodup : (objects.map Prod.fst).Nodup := by
    rw [List.Nodup, List.pairwise_map]
    apply hsorted.imp
    intro f g hlt hsame
    rw [hsame] at hlt
    exact List.lt_irrefl _ hlt
  rw [heq]
  exact holds_insertAll hnodup insertions

theorem load_holds_english :
    exists (storage : Storage) (path : Path) (t : Translations) (objects : List LocaleObject),
      LeadsTo storage path [] path ∧ (load storage path []).1 = .ok t ∧
        (exists members, ("en", members) ∈ objects) ∧
        Holds objects [⟨"de", "b", "y"⟩] (t.insertAll [⟨"de", "b", "y"⟩]) ∧
        (t.insertAll [⟨"de", "b", "y"⟩]).get "a" (some "de") = "x" := by
  let path : Path := [[116]]
  let content : Bytes := Utf8.encode "\x7b\"a\": \"x\"\x7d"
  let storage : Storage :=
    ⟨[(path, .directory), (path ++ [fileName "en"], .ofContent content)], by decide +kernel⟩
  have hleads : LeadsTo storage path [] path := by
    constructor
    · decide +kernel
    · decide +kernel
    · have hnames : storage.names path = [fileName "en"] := by decide +kernel
      intro name hname
      rw [hnames, List.mem_singleton] at hname
      rw [hname]
      exact isName_english
  have hload : (load storage path []).1 = .ok ⟨[⟨"en", [("a", "x")]⟩]⟩ := by decide +kernel
  have hfile : IsRead storage path [] path "en" content := by
    constructor
    · exact ⟨by decide, by decide +kernel⟩
    · show _ ≤ _
      decide +kernel
  rcases (load_holds hleads).right.right _ hload with ⟨objects, _, _, hfiles, hholds⟩
  exact ⟨storage, path, _, objects, hleads, hload, hfiles "en" content hfile, hholds _,
    by decide +kernel⟩

/--
A file of a locale to which the whole way is too long is passed over, although it is held in the
directory and what it holds is no object.
-/
theorem load_passes_over_unreached :
    exists (storage : Storage) (path : Path) (reference : Bytes) (code : String) (content : Bytes),
      LeadsTo storage path reference path ∧ HoldsFile storage path code content ∧
        Fails content .notJson ∧ (load storage path reference).1 = .ok ⟨[]⟩ := by
  let path : Path := [[116]]
  let reference : Bytes := (List.replicate 2045 [46, 47]).flatten
  let content : Bytes := Utf8.encode "\x7b"
  let storage : Storage :=
    ⟨[(path, .directory), (path ++ [fileName "en"], .ofContent content)], by decide +kernel⟩
  refine ⟨storage, path, reference, "en", content, ?_, ?_, ?_, ?_⟩
  · constructor
    · decide +kernel
    · decide +kernel
    · have hnames : storage.names path = [fileName "en"] := by decide +kernel
      intro name hname
      rw [hnames, List.mem_singleton] at hname
      rw [hname]
      exact isName_english
  · exact ⟨by decide +kernel, by decide +kernel⟩
  · exact ⟨"\x7b".toList, rfl, rfl⟩
  · decide +kernel

end Translations
end HttpEngine
