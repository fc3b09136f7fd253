/-!
# Lists of names with values

What a list holds for a name is what stands first for it.
-/

namespace HttpEngine

variable {κ β : Type} [BEq κ] [LawfulBEq κ]

theorem lookup_filter_self (held : List (κ × β)) (name : κ) :
    (held.filter fun p => !(p.1 == name)).lookup name = none := by
  rw [List.lookup_eq_none_iff]
  intro p hp
  have hne : p.1 ≠ name := by
    simpa using (List.mem_filter.mp hp).right
  exact bne_iff_ne.mpr (Ne.symm hne)

variable [DecidableEq κ]

theorem lookup_cons_eq (p : κ × β) (rest : List (κ × β)) (name : κ) :
    (p :: rest).lookup name = if name = p.1 then some p.2 else rest.lookup name := by
  rcases p with ⟨other, value⟩
  rw [List.lookup_cons]
  by_cases hname : name = other
  · simp [hname]
  · simp [hname, beq_false_of_ne hname]

variable (held : List (κ × β))

theorem lookup_filter_of_ne {name other : κ} (h : other ≠ name) :
    (held.filter fun p => !(p.1 == name)).lookup other = held.lookup other := by
  induction held with
  | nil => rfl
  | cons p rest ih =>
      by_cases hp : p.1 = name
      · rw [List.filter_cons_of_neg (by simp [hp]), lookup_cons_eq, if_neg (hp ▸ h), ih]
      · rw [List.filter_cons_of_pos (by simp [hp]), lookup_cons_eq, lookup_cons_eq, ih]

theorem lookup_filter_beq (name : κ) :
    (held.filter fun p => p.1 == name).lookup name = held.lookup name := by
  induction held with
  | nil => rfl
  | cons p rest ih =>
      by_cases hp : p.1 = name
      · rw [List.filter_cons_of_pos (by simp [hp]), lookup_cons_eq, lookup_cons_eq, ih]
      · rw [List.filter_cons_of_neg (by simp [hp]), lookup_cons_eq, if_neg (Ne.symm hp), ih]

variable {held}

theorem lookup_eq_some_iff_mem (h : (held.map Prod.fst).Nodup) {name : κ} {value : β} :
    held.lookup name = some value ↔ (name, value) ∈ held := by
  induction held with
  | nil => simp
  | cons p rest ih =>
      rw [List.map_cons, List.nodup_cons] at h
      rw [lookup_cons_eq, List.mem_cons, Prod.ext_iff]
      by_cases hname : name = p.1
      · subst hname
        have hnot : (p.1, value) ∉ rest :=
          fun hmem => h.left (List.mem_map.mpr ⟨_, hmem, rfl⟩)
        simp [hnot, eq_comm]
      · simp [hname, ih h.right]

theorem lookup_perm {others : List (κ × β)} (h : held.Perm others)
    (hnames : (held.map Prod.fst).Nodup) (name : κ) : held.lookup name = others.lookup name := by
  have hothers : (others.map Prod.fst).Nodup := (h.map Prod.fst).nodup_iff.mp hnames
  apply Option.ext
  intro value
  rw [lookup_eq_some_iff_mem hnames, lookup_eq_some_iff_mem hothers, h.mem_iff]

end HttpEngine
