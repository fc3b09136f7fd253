import HttpEngine.Storage
import Mathlib.Data.List.Nodup
import Mathlib.Logic.Equiv.Basic

/-!
# Renaming files

A permutation of paths renames all that a store holds.  Every operation on one path does to the
renamed store at the renamed path what it does to the store itself, so that it does not matter what
a file is called.  Nothing changes if what stands in the store keeps its name.
-/

namespace HttpEngine
namespace Storage

variable (ρ : Equiv.Perm Path)

def rename (s : Storage) : Storage where
  entries := s.entries.map fun e => (ρ e.1, e.2)
  nodup := by
    rw [List.map_map]
    have hmap := s.nodup.map ρ.injective
    rw [List.map_map] at hmap
    exact hmap

theorem ext_entries {s t : Storage} (h : s.entries = t.entries) : s = t := by
  cases s
  cases t
  cases h
  rfl

theorem beq_perm (a b : Path) : (ρ a == ρ b) = (a == b) := by
  by_cases h : a = b
  · simp [h]
  · rw [beq_false_of_ne h, beq_false_of_ne (fun heq => h (ρ.injective heq))]

/-! # Looking and changing -/

theorem get?_rename (s : Storage) (path : Path) : (s.rename ρ).get? (ρ path) = s.get? path := by
  show (s.entries.map fun e => (ρ e.1, e.2)).lookup (ρ path) = s.entries.lookup path
  induction s.entries with
  | nil => rfl
  | cons e rest ih =>
      cases e with
      | mk held entry =>
          rw [List.map_cons, List.lookup_cons, List.lookup_cons, beq_perm, ih]

theorem erase_rename (s : Storage) (path : Path) :
    (s.rename ρ).erase (ρ path) = (s.erase path).rename ρ := by
  apply ext_entries
  show (s.entries.map fun e => (ρ e.1, e.2)).filter (fun e => !(e.1 == ρ path)) =
    (s.entries.filter fun e => !(e.1 == path)).map fun e => (ρ e.1, e.2)
  rw [List.filter_map]
  congr 2
  funext e
  simp only [Function.comp, beq_perm]

theorem put_rename (s : Storage) (path : Path) (entry : Entry) :
    (s.rename ρ).put (ρ path) entry = (s.put path entry).rename ρ := by
  apply ext_entries
  show ((s.rename ρ).erase (ρ path)).entries ++ [(ρ path, entry)] =
    ((s.erase path).entries ++ [(path, entry)]).map fun e => (ρ e.1, e.2)
  rw [erase_rename, List.map_append]
  rfl

theorem createNew_rename (s : Storage) {path : Path} (h : ρ path.dropLast = (ρ path).dropLast) :
    (s.rename ρ).createNew (ρ path) = (s.createNew path).map (rename ρ) := by
  unfold createNew
  rw [← h, get?_rename, get?_rename]
  cases s.get? path.dropLast with
  | none => rfl
  | some above =>
      cases above with
      | file latest => rfl
      | directory =>
          cases s.get? path with
          | some entry => rfl
          | none =>
              show Except.ok ((s.rename ρ).put (ρ path) (.file [])) = _
              rw [put_rename]
              rfl

theorem remove_rename (s : Storage) (path : Path) :
    (s.rename ρ).remove (ρ path) = (s.remove path).map (rename ρ) := by
  unfold remove
  rw [get?_rename]
  cases s.get? path with
  | none => rfl
  | some entry =>
      cases entry with
      | file latest =>
          show Except.ok ((s.rename ρ).erase (ρ path)) = _
          rw [erase_rename]
          rfl
      | directory => rfl

/-! # What keeps its name -/

variable {ρ}

theorem rename_eq_self {s : Storage} (h : forall path, s.get? path ≠ none -> ρ path = path) :
    s.rename ρ = s := by
  apply ext_entries
  show s.entries.map (fun e => (ρ e.1, e.2)) = s.entries
  have hsame : forall e, e ∈ s.entries -> (ρ e.1, e.2) = id e := by
    intro e he
    have hheld : s.get? e.1 ≠ none := by
      intro hnone
      have hne := List.lookup_eq_none_iff.mp hnone e he
      simp at hne
    rw [h e.1 hheld]
    rfl
  rw [List.map_congr_left hsame, List.map_id]

theorem rename_swap {s : Storage} {path other : Path} (hpath : s.get? path = none)
    (hother : s.get? other = none) : s.rename (Equiv.swap path other) = s := by
  apply rename_eq_self
  intro held hheld
  apply Equiv.swap_apply_of_ne_of_ne
  · intro heq
    exact hheld (heq ▸ hpath)
  · intro heq
    exact hheld (heq ▸ hother)

end Storage
end HttpEngine
