import Mathlib.Data.List.Nodup
import HttpEngine.Storage

/-!
# What a directory holds

The names in a directory are those behind which something stands, each of them once.  A reference to
a directory, joined with one of the names, leads to what stands there, unless the whole way has
become too long.
-/

namespace HttpEngine

structure IsName (name : FileName) : Prop where
  nonempty : name ≠ []
  noDot : name ≠ [46]
  noDots : name ≠ [46, 46]
  noSlash : 47 ∉ name
  noNul : 0 ∉ name
  fits : name.length ≤ Storage.maxName

namespace Storage

variable {s : Storage}

/-! # Names -/

def childName? (directory path : Path) : Option FileName :=
  path.getLast?.bind fun name => if path.dropLast = directory then some name else none

theorem childName?_eq_some_iff {directory path : Path} {name : FileName} :
    childName? directory path = some name ↔ path = directory ++ [name] := by
  unfold childName?
  constructor
  · intro h
    rcases Option.bind_eq_some_iff.mp h with ⟨last, hlast, hname⟩
    by_cases habove : path.dropLast = directory
    · rw [if_pos habove] at hname
      cases hname
      rw [← habove]
      exact (List.dropLast_append_getLast? _ hlast).symm
    · rw [if_neg habove] at hname
      cases hname
  · intro h
    rw [h, List.getLast?_concat, Option.bind_some, List.dropLast_concat, if_pos rfl]

theorem names_eq (s : Storage) (directory : Path) :
    s.names directory = (s.entries.map Prod.fst).filterMap (childName? directory) := by
  unfold names children
  rw [List.map_filterMap, List.filterMap_map]
  apply List.filterMap_congr
  intro e _
  rcases e with ⟨path, entry⟩
  cases hlast : path.getLast? with
  | none => simp [childName?, hlast]
  | some name =>
      by_cases h : path.dropLast = directory
      · simp [childName?, hlast, h]
      · simp [childName?, hlast, h]

theorem mem_names_iff {directory : Path} {name : FileName} :
    name ∈ s.names directory ↔ s.get? (directory ++ [name]) ≠ none := by
  rw [names_eq, List.mem_filterMap, Option.ne_none_iff_exists']
  constructor
  · intro h
    rcases h with ⟨path, hpath, hname⟩
    rcases List.mem_map.mp hpath with ⟨e, he, heq⟩
    rw [childName?_eq_some_iff] at hname
    exact ⟨e.2, (lookup_eq_some_iff_mem s.nodup).mpr (by rw [← hname, ← heq]; exact he)⟩
  · intro h
    rcases h with ⟨entry, hentry⟩
    have hmem := (lookup_eq_some_iff_mem s.nodup).mp hentry
    exact ⟨_, List.mem_map.mpr ⟨_, hmem, rfl⟩, childName?_eq_some_iff.mpr rfl⟩

theorem nodup_names (s : Storage) (directory : Path) : (s.names directory).Nodup := by
  rw [names_eq]
  apply s.nodup.filterMap
  intro path other name hpath hother
  rw [Option.mem_def, childName?_eq_some_iff] at hpath hother
  exact hpath.trans hother.symm

/-! # Ways -/

theorem follow_append (here : Path) (first second : List FileName) :
    s.follow here (first ++ second) =
      s.follow here first >>= fun path => s.follow path second := by
  induction first generalizing here with
  | nil => rfl
  | cons name rest ih =>
      rw [List.cons_append, follow, follow]
      cases s.get? here with
      | none => rfl
      | some entry =>
          cases entry with
          | file latest => rfl
          | directory =>
              simp only [ih]
              split
              · rfl
              · split
                · rfl
                · split <;> rfl

variable {directory here path : Path} {reference : Bytes} {name : FileName}

theorem follow_name (hname : IsName name) (hpath : s.get? path = some .directory) :
    s.follow path [name] = .ok (path ++ [name]) := by
  have hstay : ¬(name = [] ∨ name = [46]) := by
    intro h
    rcases h with hempty | hdot
    · exact hname.nonempty hempty
    · exact hname.noDot hdot
  rw [follow, hpath]
  simp only
  rw [if_neg hstay, if_neg hname.noDots, if_neg (Nat.not_lt.mpr hname.fits)]
  rfl

theorem eq_of_follow_empty (h : s.follow here [[]] = .ok path) : path = here := by
  rw [follow] at h
  cases hhere : s.get? here with
  | none => simp [hhere] at h
  | some entry =>
      cases entry with
      | file latest => simp [hhere] at h
      | directory =>
          simp only [hhere, true_or, if_true, follow, Except.ok.injEq] at h
          exact h.symm

theorem splitOn_concat (hname : IsName name) (reference : Bytes) :
    (reference ++ 47 :: name).splitOn 47 = reference.splitOn 47 ++ [name] := by
  rw [List.splitOn_append_cons_self, List.splitOn_eq_singleton hname.noSlash]

theorem follow_join (hname : IsName name) (hpath : s.get? path = some .directory)
    (h : s.follow here (reference.splitOn 47) = .ok path) :
    s.follow here ((join reference name).splitOn 47) = .ok (path ++ [name]) := by
  unfold join
  by_cases hend : reference = [] ∨ reference.getLast? = some 47
  · rw [if_pos hend]
    rcases hend with hempty | hlast
    · rw [hempty, List.splitOn_nil] at h
      rw [hempty, List.nil_append, List.splitOn_eq_singleton hname.noSlash,
        ← eq_of_follow_empty h]
      exact follow_name hname hpath
    · rcases List.getLast?_eq_some_iff.mp hlast with ⟨front, hfront⟩
      rw [hfront, List.splitOn_append_cons_self, List.splitOn_nil, follow_append] at h
      rw [hfront, List.append_assoc, List.singleton_append, splitOn_concat hname, follow_append]
      cases hgo : s.follow here (front.splitOn 47) with
      | error e =>
          rw [hgo] at h
          cases h
      | ok reached =>
          rw [hgo] at h
          have hreached : path = reached := eq_of_follow_empty h
          rw [← hreached]
          exact follow_name hname hpath
  · rw [if_neg hend, splitOn_concat hname, follow_append, h]
    exact follow_name hname hpath

theorem isAbsolute_join (hname : IsName name) (reference : Bytes) :
    isAbsolute (join reference name) = isAbsolute reference := by
  unfold join isAbsolute
  cases reference with
  | nil =>
      cases name with
      | nil => rfl
      | cons b rest =>
          have hne : b ≠ 47 := fun heq => hname.noSlash (heq ▸ List.mem_cons_self)
          simp [hne]
  | cons b rest =>
      split
      · rfl
      · rfl

theorem contains_join (hname : IsName name) (h : reference.contains 0 = false) :
    (join reference name).contains 0 = false := by
  have hnul := hname.noNul
  unfold join
  split
  · simp_all
  · simp_all

theorem resolve_join (hname : IsName name) (hpath : s.get? path = some .directory)
    (h : s.resolve directory reference = .ok path) :
    s.resolve directory (join reference name) =
      if maxWay < wayLength directory (join reference name) then .error .nameTooLong
      else .ok (path ++ [name]) := by
  unfold resolve at h
  by_cases hnul : reference.contains 0
  · rw [if_pos hnul] at h
    cases h
  · rw [if_neg hnul] at h
    by_cases hlong : maxWay < wayLength directory reference
    · rw [if_pos hlong] at h
      cases h
    · rw [if_neg hlong] at h
      rw [resolve, contains_join hname (Bool.eq_false_iff.mpr hnul), isAbsolute_join hname,
        follow_join hname hpath h]
      rfl

end Storage
end HttpEngine
