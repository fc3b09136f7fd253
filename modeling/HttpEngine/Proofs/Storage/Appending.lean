import HttpEngine.Storage

/-!
# Directories that are made and files that grow

Making directories leaves every file as it is.  Bytes that are added to a file stand behind what it
held, and a file that was not there is made.
-/

namespace HttpEngine
namespace Storage

theorem bind_eq_ok {α β : Type} {x : Except StorageError α} {f : α -> Except StorageError β} {b : β}
    (h : (x >>= f) = .ok b) : exists a, x = .ok a ∧ f a = .ok b := by
  cases x with
  | error e => cases h
  | ok a => exact ⟨a, rfl, h⟩

variable {s t : Storage} {path other above : Path} {content : Bytes}

/-! # Directories -/

theorem file?_eq_none_of_directory (h : s.get? path = some .directory) : s.file? path = none := by
  rw [file?, h]

theorem file?_put_of_ne (entry : Entry) (h : other ≠ path) :
    (s.put path entry).file? other = s.file? other := by
  rw [file?, file?, get?_put_of_ne s entry h]

theorem get?_makeDirectory (h : s.makeDirectory path = .ok t) :
    t.get? path = some .directory ∧ forall other, t.get? other = s.get? other ∨
      (other = path ∧ s.get? path = none) := by
  unfold makeDirectory at h
  cases hpath : s.get? path with
  | none =>
      rw [hpath] at h
      cases h
      refine ⟨get?_put_self s path .directory, ?_⟩
      intro other
      by_cases hother : other = path
      · exact Or.inr ⟨hother, rfl⟩
      · exact Or.inl (get?_put_of_ne s .directory hother)
  | some entry =>
      rw [hpath] at h
      cases entry with
      | file latest => cases h
      | directory =>
          cases h
          exact ⟨hpath, fun other => Or.inl rfl⟩

theorem file?_makeDirectory (h : s.makeDirectory path = .ok t) (other : Path) :
    t.file? other = s.file? other := by
  rcases get?_makeDirectory h with ⟨hmade, hothers⟩
  rcases hothers other with hsame | ⟨hother, hnone⟩
  · rw [file?, file?, hsame]
  · rw [hother, file?_eq_none_of_directory hmade, file?, hnone]

theorem file?_makeDirectories (h : s.makeDirectories above path = .ok t) (other : Path) :
    t.file? other = s.file? other := by
  induction path generalizing s above with
  | nil =>
      cases h
      rfl
  | cons name rest ih =>
      rcases bind_eq_ok h with ⟨u, hfirst, hrest⟩
      rw [ih hrest, file?_makeDirectory hfirst]

/-! # Appending -/

theorem append_eq_ok_iff :
    s.append path content = .ok t ↔
      s.get? path.dropLast = some .directory ∧ s.get? path ≠ some .directory ∧
        t = s.put path (.ofContent ((s.file? path).getD [] ++ content)) := by
  unfold append file?
  cases s.get? path.dropLast with
  | none => simp
  | some above =>
      cases above with
      | file latest => simp
      | directory =>
          cases s.get? path with
          | none => simp [eq_comm]
          | some entry =>
              cases entry with
              | file latest => simp [Entry.ofContent, eq_comm]
              | directory => simp

theorem file?_append_self (h : s.append path content = .ok t) :
    t.file? path = some ((s.file? path).getD [] ++ content) := by
  rw [(append_eq_ok_iff.mp h).right.right, file?_put_self]

theorem file?_append_of_ne (h : s.append path content = .ok t) (hother : other ≠ path) :
    t.file? other = s.file? other := by
  rw [(append_eq_ok_iff.mp h).right.right, file?_put_of_ne _ hother]

theorem directory_append (h : s.append path content = .ok t)
    (hother : s.get? other = some .directory) : t.get? other = some .directory := by
  rcases append_eq_ok_iff.mp h with ⟨_, hpath, heq⟩
  have hne : other ≠ path := fun hsame => hpath (hsame ▸ hother)
  rw [heq, get?_put_of_ne s _ hne, hother]

theorem exists_append (habove : s.get? path.dropLast = some .directory)
    (hfile : s.file? path ≠ none) (content : Bytes) : exists t, s.append path content = .ok t :=
  ⟨_, append_eq_ok_iff.mpr
    ⟨habove, fun hpath => hfile (file?_eq_none_of_directory hpath), rfl⟩⟩

end Storage
end HttpEngine
