import Mathlib.Data.List.TakeWhile
import HttpEngine.Proofs.Storage.Directories
import HttpEngine.Proofs.Text.Encoding
import HttpEngine.Translations

/-!
# The files of a table

The file of a locale is called after its code.  Of a directory exactly these files are read, in the
order of their names, as far as the whole way to them is not too long: what cannot be reached is
taken for no file.
-/

namespace HttpEngine

theorem Utf8.decode?_eq_some_iff {bytes : Bytes} {text : String} :
    Utf8.decode? bytes = some text ↔ bytes = Utf8.encode text := by
  unfold Utf8.decode? Utf8.encode
  rw [Option.map_eq_some_iff]
  constructor
  · intro h
    rcases h with ⟨chars, hchars, htext⟩
    rw [← htext, String.toList_ofList]
    exact Utf8.decodeChars?_eq_some_iff.mp hchars
  · intro h
    exact ⟨text.toList, Utf8.decodeChars?_eq_some_iff.mpr h, String.ofList_toList⟩

/-! # Stems -/

section

variable {α : Type} [BEq α] [LawfulBEq α] {dot : α}

theorem splitExtension_eq_iff {name stem extension : List α} :
    MediaType.splitExtension dot name = (stem, some extension) ↔
      name = stem ++ dot :: extension ∧ stem ≠ [] ∧ dot ∉ extension := by
  constructor
  · intro h
    simp only [MediaType.splitExtension] at h
    split at h
    · cases h
    · cases h
    · next last front hfront hdrop =>
      cases h
      have hlast : last = dot := by
        have hnot := List.head?_dropWhile_not (· != dot) name.reverse
        simpa [hdrop] using hnot
      cases hlast
      constructor
      · calc name
          _ = (name.reverse.takeWhile (· != dot) ++ name.reverse.dropWhile (· != dot)).reverse := by
            rw [List.takeWhile_append_dropWhile, List.reverse_reverse]
          _ = front.reverse ++ dot :: (name.reverse.takeWhile (· != dot)).reverse := by
            rw [hdrop, List.reverse_append, List.reverse_cons, List.append_assoc]
            rfl
      · constructor
        · intro hempty
          exact hfront (List.reverse_eq_nil_iff.mp hempty)
        · intro hmem
          have hne := List.mem_takeWhile_imp (List.mem_reverse.mp hmem)
          exact absurd rfl (bne_iff_ne.mp hne)
  · intro h
    rcases h with ⟨hname, hstem, hextension⟩
    have hbehind : forall a, a ∈ extension.reverse -> (a != dot) = true := by
      intro a ha
      rw [bne_iff_ne]
      intro heq
      exact hextension (heq ▸ List.mem_reverse.mp ha)
    have hreverse : name.reverse = extension.reverse ++ dot :: stem.reverse := by
      simp [hname]
    cases hfront : stem.reverse with
    | nil => exact absurd (List.reverse_eq_nil_iff.mp hfront) hstem
    | cons a rest =>
        have heq : stem = (a :: rest).reverse := by
          rw [← hfront, List.reverse_reverse]
        simp [MediaType.splitExtension, hreverse, heq,
          List.takeWhile_append_of_pos hbehind, List.dropWhile_append_of_pos hbehind]

end

namespace Translations

theorem dot_notMem_fileExtension : 46 ∉ fileExtension := by
  decide

def fileName (code : String) : FileName :=
  Utf8.encode code ++ 46 :: fileExtension

/-! # Order -/

theorem nameLe_iff {a b : FileName} : nameLe a b = true ↔ a ≤ b := by
  unfold nameLe
  rw [Bool.not_eq_true', decide_eq_false_iff_not, List.not_lt]

theorem nameLe_trans {a b c : FileName} (hab : nameLe a b = true) (hbc : nameLe b c = true) :
    nameLe a c = true :=
  nameLe_iff.mpr (List.le_trans (nameLe_iff.mp hab) (nameLe_iff.mp hbc))

theorem nameLe_total (a b : FileName) : (nameLe a b || nameLe b a) = true :=
  Bool.or_eq_true_iff.mpr ((List.le_total a b).imp nameLe_iff.mpr nameLe_iff.mpr)

theorem lt_of_nameLe {a b : FileName} (h : nameLe a b = true) (hne : a ≠ b) : a < b := by
  by_cases hlt : a < b
  · exact hlt
  · exact absurd (List.le_antisymm (nameLe_iff.mp h) (List.not_lt.mp hlt)) hne

/-! # What is read -/

/-- A reference leads from a directory to another, and all that stands there has proper names. -/
structure LeadsTo (storage : Storage) (directory : Path) (reference : Bytes) (path : Path) :
    Prop where
  way : storage.resolve directory reference = .ok path
  stands : storage.get? path = some .directory
  names : forall name, name ∈ storage.names path -> IsName name

def HoldsFile (storage : Storage) (path : Path) (code : String) (content : Bytes) : Prop :=
  code ≠ "" ∧ storage.file? (path ++ [fileName code]) = some content

def Reaches (directory : Path) (reference : Bytes) (code : String) : Prop :=
  Storage.wayLength directory (Storage.join reference (fileName code)) ≤ Storage.maxWay

section

variable {storage : Storage} {directory path : Path} {reference content : Bytes} {name : FileName}

theorem read_eq_ok_iff : storage.read path = .ok content ↔ storage.file? path = some content := by
  unfold Storage.read Storage.file?
  cases storage.get? path with
  | none => simp
  | some entry =>
      cases entry with
      | file latest => simp
      | directory => simp

theorem readReference_join (h : LeadsTo storage directory reference path)
    (hname : name ∈ storage.names path) {reached : Path} :
    storage.readReference directory (Storage.join reference name) = .ok (reached, content) ↔
      reached = path ++ [name] ∧ storage.file? (path ++ [name]) = some content ∧
        Storage.wayLength directory (Storage.join reference name) ≤ Storage.maxWay := by
  unfold Storage.readReference
  rw [Storage.resolve_join (h.names name hname) h.stands h.way, ← read_eq_ok_iff]
  by_cases hlong : Storage.maxWay < Storage.wayLength directory (Storage.join reference name)
  · rw [if_pos hlong]
    constructor
    · intro hread
      cases hread
    · intro hread
      exact absurd hlong (Nat.not_lt.mpr hread.right.right)
  · rw [if_neg hlong]
    show (storage.read (path ++ [name])).map (path ++ [name], ·) = _ ↔ _
    cases storage.read (path ++ [name]) with
    | error e => simp [Except.map]
    | ok held => simp [Except.map, Nat.not_lt.mp hlong, eq_comm]

def source? (storage : Storage) (directory : Path) (reference : Bytes) (name : FileName) :
    Option (FileName × Bytes × Bytes) :=
  match MediaType.splitExtension 46 name with
  | (stem, some extension) =>
      if extension = fileExtension then
        match storage.readReference directory (Storage.join reference name) with
        | .ok (_, content) => some (name, stem, content)
        | .error _ => none
      else none
  | _ => none

theorem source?_eq_some_iff {held : FileName} {stem : Bytes} :
    source? storage directory reference held = some (name, stem, content) ↔
      held = name ∧ name = stem ++ 46 :: fileExtension ∧ stem ≠ [] ∧ exists reached,
        storage.readReference directory (Storage.join reference name) = .ok (reached, content) := by
  unfold source?
  constructor
  · intro h
    split at h
    · next base extension hsplit =>
      split at h
      · next hextension =>
        split at h
        · next reached found hread =>
          cases h
          rw [hextension, splitExtension_eq_iff] at hsplit
          exact ⟨rfl, hsplit.left, hsplit.right.left, reached, hread⟩
        · cases h
      · cases h
    · cases h
  · intro h
    rcases h with ⟨hheld, hname, hstem, reached, hread⟩
    have hsplit := splitExtension_eq_iff.mpr ⟨hname, hstem, dot_notMem_fileExtension⟩
    simp [hheld, hsplit, hread]

theorem sources_eq (names : List FileName) :
    sources storage directory reference names =
      (names.filterMap (source? storage directory reference)).mergeSort
        fun a b => nameLe a.1 b.1 :=
  rfl

theorem mem_sources_iff (h : LeadsTo storage directory reference path) {stem : Bytes} :
    (name, stem, content) ∈ sources storage directory reference (storage.names path) ↔
      name = stem ++ 46 :: fileExtension ∧ stem ≠ [] ∧
        storage.file? (path ++ [name]) = some content ∧
        Storage.wayLength directory (Storage.join reference name) ≤ Storage.maxWay := by
  rw [sources_eq, List.mem_mergeSort, List.mem_filterMap]
  constructor
  · intro hmem
    rcases hmem with ⟨held, hheld, hsource⟩
    rcases source?_eq_some_iff.mp hsource with ⟨heq, hname, hstem, reached, hread⟩
    exact ⟨hname, hstem, ((readReference_join h (heq ▸ hheld)).mp hread).right⟩
  · intro hfile
    rcases hfile with ⟨hname, hstem, hcontent, hway⟩
    have hheld : name ∈ storage.names path := by
      rw [Storage.mem_names_iff]
      intro hnone
      rw [Storage.file?, hnone] at hcontent
      cases hcontent
    have hread := (readReference_join h hheld).mpr ⟨rfl, hcontent, hway⟩
    exact ⟨name, hheld, source?_eq_some_iff.mpr ⟨rfl, hname, hstem, _, hread⟩⟩

theorem sorted_sources :
    (sources storage directory reference (storage.names path)).Pairwise fun f g => f.1 < g.1 := by
  have hnames : ((storage.names path).filterMap (source? storage directory reference)).Pairwise
      fun f g => f.1 ≠ g.1 := by
    rw [List.pairwise_filterMap]
    apply (storage.nodup_names path).imp
    intro a b hne f hf g hg
    rw [← (source?_eq_some_iff.mp hf).left, ← (source?_eq_some_iff.mp hg).left]
    exact hne
  rw [sources_eq]
  have hne := ((List.mergeSort_perm _ fun a b => nameLe a.1 b.1).pairwise_iff
    (fun h => Ne.symm h)).mpr hnames
  have hle := @List.pairwise_mergeSort _ (fun a b => nameLe a.1 b.1)
    (fun _ _ _ => nameLe_trans) (fun f g => nameLe_total f.1 g.1)
    ((storage.names path).filterMap (source? storage directory reference))
  exact (hle.and hne).imp fun h => lt_of_nameLe h.left h.right

end

def localeFiles (files : List (FileName × Bytes × Bytes)) : List (String × Bytes) :=
  files.filterMap fun (_, stem, content) => (Utf8.decode? stem).map (·, content)

section

variable {storage : Storage} {directory path : Path} {reference content : Bytes} {code : String}

theorem mem_localeFiles_iff (h : LeadsTo storage directory reference path) :
    (code, content) ∈ localeFiles (sources storage directory reference (storage.names path)) ↔
      HoldsFile storage path code content ∧ Reaches directory reference code := by
  unfold localeFiles
  rw [List.mem_filterMap]
  constructor
  · intro hmem
    rcases hmem with ⟨⟨name, stem, held⟩, hsource, hfile⟩
    rcases Option.map_eq_some_iff.mp hfile with ⟨decoded, hdecoded, heq⟩
    cases heq
    rw [Utf8.decode?_eq_some_iff] at hdecoded
    rcases (mem_sources_iff h).mp hsource with ⟨hname, hstem, hcontent, hway⟩
    rw [hdecoded] at hname hstem
    rw [hname] at hcontent hway
    exact ⟨⟨fun hempty => hstem (hempty ▸ rfl), hcontent⟩, hway⟩
  · intro hfile
    rcases hfile with ⟨⟨hcode, hcontent⟩, hway⟩
    have hstem : Utf8.encode code ≠ [] := fun hempty => hcode (Utf8.encode_inj hempty)
    exact ⟨(fileName code, Utf8.encode code, content),
      (mem_sources_iff h).mpr ⟨rfl, hstem, hcontent, hway⟩,
      Option.map_eq_some_iff.mpr ⟨code, Utf8.decode?_eq_some_iff.mpr rfl, rfl⟩⟩

theorem name_of_mem_sources (h : LeadsTo storage directory reference path)
    {file : FileName × Bytes × Bytes}
    (hmem : file ∈ sources storage directory reference (storage.names path))
    (hfile : (Utf8.decode? file.2.1).map (·, file.2.2) = some (code, content)) :
    file.1 = fileName code := by
  rcases Option.map_eq_some_iff.mp hfile with ⟨decoded, hdecoded, heq⟩
  cases heq
  rw [Utf8.decode?_eq_some_iff] at hdecoded
  rw [((mem_sources_iff h).mp hmem).left, hdecoded]
  rfl

theorem sorted_localeFiles (h : LeadsTo storage directory reference path) :
    (localeFiles (sources storage directory reference (storage.names path))).Pairwise
      fun f g => fileName f.1 < fileName g.1 := by
  unfold localeFiles
  rw [List.pairwise_filterMap]
  apply sorted_sources.imp_of_mem
  intro f g hf hg hlt a ha b hb
  rw [← name_of_mem_sources h hf ha, ← name_of_mem_sources h hg hb]
  exact hlt

end

end Translations
end HttpEngine
