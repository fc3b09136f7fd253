import Mathlib.Data.List.Induction
import Mathlib.Data.List.Nodup
import HttpEngine.Translations

/-!
# A table as a map of maps

Each locale has texts of its own, and an insertion sets one of them.  No locale stands twice, and
the first one of all stays the first.  What is found for a key is the text of the locale that is
asked for, or else that of the first one.
-/

namespace HttpEngine

theorem Locale.text?_insert (l : Locale) (key text other : String) :
    (l.insert key text).text? other = if other = key then some text else l.text? other := by
  unfold Locale.insert Locale.text?
  rw [lookup_cons_eq]
  by_cases h : other = key
  · rw [if_pos h, if_pos h]
  · rw [if_neg h, if_neg h]
    exact lookup_filter_of_ne l.texts h

structure Insertion where
  code : String
  key : String
  text : String
  deriving DecidableEq, Repr

namespace Translations

def insertAll (t : Translations) (insertions : List Insertion) : Translations :=
  insertions.foldl (fun t i => t.insert i.code i.key i.text) t

def own? (t : Translations) (code key : String) : Option String :=
  (t.locale? code).bind (·.text? key)

/-! # One insertion -/

section

variable (code key text : String)

theorem codes_insertInto (locales : List Locale) :
    (insertInto code key text locales).map Locale.code =
      if code ∈ locales.map Locale.code then locales.map Locale.code
      else locales.map Locale.code ++ [code] := by
  induction locales with
  | nil => rfl
  | cons l rest ih =>
      unfold insertInto
      by_cases hcode : l.code = code
      · rw [if_pos hcode, List.map_cons, List.map_cons, if_pos (hcode ▸ List.mem_cons_self)]
        rfl
      · rw [if_neg hcode, List.map_cons, List.map_cons, ih]
        by_cases hmem : code ∈ rest.map Locale.code
        · rw [if_pos hmem, if_pos (List.mem_cons_of_mem l.code hmem)]
        · have hnot : code ∉ l.code :: rest.map Locale.code := by
            rw [List.mem_cons]
            intro h
            rcases h with heq | hin
            · exact hcode heq.symm
            · exact hmem hin
          rw [if_neg hmem, if_neg hnot, List.cons_append]

theorem find?_insertInto (locales : List Locale) (other : String) :
    ((insertInto code key text locales).find? fun l => l.code == other) =
      if other = code then
        some (((locales.find? fun l => l.code == code).getD ⟨code, []⟩).insert key text)
      else locales.find? fun l => l.code == other := by
  induction locales with
  | nil =>
      by_cases h : other = code
      · simp [insertInto, Locale.insert, h]
      · simp [insertInto, Locale.insert, h, Ne.symm h]
  | cons l rest ih =>
      unfold insertInto
      by_cases hcode : l.code = code
      · by_cases h : other = code
        · simp [Locale.insert, hcode, h]
        · simp [Locale.insert, hcode, h, Ne.symm h]
      · by_cases hother : l.code = other
        · have h : other ≠ code := hother ▸ hcode
          simp [hother, h]
        · rw [if_neg hcode, List.find?_cons_of_neg (by simpa using hother), ih,
            List.find?_cons_of_neg (by simpa using hcode),
            List.find?_cons_of_neg (by simpa using hother)]

variable (t : Translations)

theorem codes_insert :
    (t.insert code key text).codes = if code ∈ t.codes then t.codes else t.codes ++ [code] :=
  codes_insertInto code key text t.locales

theorem own?_insert (other name : String) :
    (t.insert code key text).own? other name =
      if other = code ∧ name = key then some text else t.own? other name := by
  unfold own? locale? insert
  rw [find?_insertInto]
  by_cases hother : other = code
  · rw [if_pos hother, hother, Option.bind_some, Locale.text?_insert]
    by_cases hname : name = key
    · rw [if_pos hname, if_pos ⟨rfl, hname⟩]
    · rw [if_neg hname, if_neg (fun h => hname h.right)]
      cases t.locales.find? fun l => l.code == code with
      | none => rfl
      | some l => rfl
  · rw [if_neg hother, if_neg (fun h => hother h.left)]

end

theorem lookup?_eq (t : Translations) (key : String) (code : Option String) :
    t.lookup? key code =
      (code.bind (t.own? · key)).or (t.defaultCode?.bind (t.own? · key)) := by
  have hfirst : t.defaultCode?.bind (t.own? · key) = t.locales.head?.bind (·.text? key) := by
    unfold defaultCode? codes own? locale?
    cases t.locales with
    | nil => rfl
    | cons l rest => simp
  rw [hfirst]
  cases code with
  | none => rfl
  | some c => rfl

theorem lookup?_eq_some_iff {t : Translations} {key : String} {code : Option String}
    {text : String} :
    t.lookup? key code = some text ↔
      (exists c, code = some c ∧ t.own? c key = some text) ∨
        ((forall c, code = some c -> t.own? c key = none) ∧
          exists d, t.defaultCode? = some d ∧ t.own? d key = some text) := by
  rw [lookup?_eq, Option.or_eq_some_iff, Option.bind_eq_some_iff, Option.bind_eq_some_iff,
    Option.bind_eq_none_iff]

/-! # What an insertion leaves as it was -/

section

variable (t : Translations) (code key text : String)

theorem defaultCode?_insert :
    (t.insert code key text).defaultCode? = some (t.defaultCode?.getD code) := by
  unfold defaultCode?
  rw [codes_insert]
  cases t.codes with
  | nil => rfl
  | cons first rest =>
      by_cases h : code ∈ first :: rest
      · rw [if_pos h]
        rfl
      · rw [if_neg h]
        rfl

variable {t code key}

theorem own?_of_empty (h : t.defaultCode? = none) (other name : String) :
    t.own? other name = none := by
  have hempty : t.locales = [] := by
    simpa [defaultCode?, codes] using h
  simp [own?, locale?, hempty]

theorem own?_insert_of_ne {other name : String} (h : ¬(other = code ∧ name = key)) :
    (t.insert code key text).own? other name = t.own? other name := by
  rw [own?_insert, if_neg h]

theorem lookup?_insert_of_ne {other : String} (h : other ≠ key) (asked : Option String) :
    (t.insert code key text).lookup? other asked = t.lookup? other asked := by
  have hown : forall c, (t.insert code key text).own? c other = t.own? c other :=
    fun c => own?_insert_of_ne text (fun hsame => h hsame.right)
  rw [lookup?_eq, lookup?_eq, defaultCode?_insert]
  simp only [hown]
  cases hdefault : t.defaultCode? with
  | none =>
      rw [Option.bind_some, own?_of_empty hdefault]
      rfl
  | some d => rfl

theorem lookup?_insert_of_other {asked : Option String} (hasked : asked ≠ some code)
    (hdefault : (t.insert code key text).defaultCode? ≠ some code) (other : String) :
    (t.insert code key text).lookup? other asked = t.lookup? other asked := by
  have hown : forall c, c ≠ code ->
      (t.insert code key text).own? c other = t.own? c other :=
    fun c hc => own?_insert_of_ne text (fun hsame => hc hsame.left)
  rw [defaultCode?_insert] at hdefault
  rw [lookup?_eq, lookup?_eq, defaultCode?_insert]
  cases hheld : t.defaultCode? with
  | none =>
      rw [hheld] at hdefault
      exact absurd rfl hdefault
  | some d =>
      rw [hheld] at hdefault
      have hd : d ≠ code := fun heq => hdefault (congrArg some heq)
      cases asked with
      | none => simp [hown d hd]
      | some c =>
          have hc : c ≠ code := fun heq => hasked (congrArg some heq)
          simp [hown c hc, hown d hd]

theorem lookup?_insert_of_own {c other held : String} (hc : c ≠ code)
    (h : t.own? c other = some held) :
    (t.insert code key text).lookup? other (some c) = t.lookup? other (some c) := by
  have hown : (t.insert code key text).own? c other = some held := by
    rw [own?_insert_of_ne text (fun hsame => hc hsame.left), h]
  rw [lookup?_eq, lookup?_eq, Option.bind_some, Option.bind_some, hown, h]
  rfl

/--
An insertion changes nothing but what is found for its own key, with its own locale or, if this is
the default, with another one that has no text of its own.
-/
theorem eq_of_lookup?_insert_ne {other : String} {asked : Option String}
    (h : (t.insert code key text).lookup? other asked ≠ t.lookup? other asked) :
    other = key ∧ (asked = some code ∨
      ((t.insert code key text).defaultCode? = some code ∧
        forall c, asked = some c -> t.own? c other = none)) := by
  constructor
  · apply Decidable.byContradiction
    intro hkey
    exact h (lookup?_insert_of_ne text hkey asked)
  · by_cases hasked : asked = some code
    · exact Or.inl hasked
    · apply Or.inr
      constructor
      · apply Decidable.byContradiction
        intro hdefault
        exact h (lookup?_insert_of_other text hasked hdefault other)
      · intro c hc
        cases hown : t.own? c other with
        | none => rfl
        | some held =>
            rw [hc] at h hasked
            have hne : c ≠ code := fun heq => hasked (congrArg some heq)
            exact absurd (lookup?_insert_of_own text hne hown) h

end

/-! # Many insertions -/

theorem insertAll_concat (t : Translations) (insertions : List Insertion) (last : Insertion) :
    t.insertAll (insertions ++ [last]) =
      (t.insertAll insertions).insert last.code last.key last.text :=
  List.foldl_concat (fun (t : Translations) (i : Insertion) => t.insert i.code i.key i.text)
    t last insertions

def inserted? (insertions : List Insertion) (code key : String) : Option String :=
  (insertions.reverse.find? fun i => i.code = code ∧ i.key = key).map Insertion.text

theorem inserted?_concat (insertions : List Insertion) (last : Insertion) (code key : String) :
    inserted? (insertions ++ [last]) code key =
      if code = last.code ∧ key = last.key then some last.text
      else inserted? insertions code key := by
  unfold inserted?
  rw [List.reverse_concat]
  by_cases h : last.code = code ∧ last.key = key
  · rw [List.find?_cons_of_pos (by simpa using h), if_pos ⟨h.left.symm, h.right.symm⟩]
    rfl
  · have hother : ¬(code = last.code ∧ key = last.key) :=
      fun hsame => h ⟨hsame.left.symm, hsame.right.symm⟩
    rw [List.find?_cons_of_neg (by simpa using h), if_neg hother]

theorem own?_insertAll (t : Translations) (insertions : List Insertion) (code key : String) :
    (t.insertAll insertions).own? code key =
      (inserted? insertions code key).or (t.own? code key) := by
  induction insertions using List.reverseRecOn with
  | nil => rfl
  | append_singleton insertions last ih =>
      rw [insertAll_concat, own?_insert, inserted?_concat]
      by_cases h : code = last.code ∧ key = last.key
      · rw [if_pos h, if_pos h]
        rfl
      · rw [if_neg h, if_neg h, ih]

theorem nodup_codes_insert {t : Translations} (h : t.codes.Nodup) (code key text : String) :
    (t.insert code key text).codes.Nodup := by
  rw [codes_insert]
  by_cases hmem : code ∈ t.codes
  · rw [if_pos hmem]
    exact h
  · rw [if_neg hmem]
    exact List.nodup_append.mpr ⟨h, List.nodup_singleton code, fun c hc d hd =>
      List.mem_singleton.mp hd ▸ fun heq => hmem (heq ▸ hc)⟩

theorem nodup_codes_insertAll {t : Translations} (h : t.codes.Nodup) (insertions : List Insertion) :
    (t.insertAll insertions).codes.Nodup := by
  induction insertions using List.reverseRecOn with
  | nil => exact h
  | append_singleton insertions last ih =>
      rw [insertAll_concat]
      exact nodup_codes_insert ih last.code last.key last.text

theorem eraseDups_eq_self {codes : List String} (h : codes.Nodup) : codes.eraseDups = codes := by
  induction codes with
  | nil => rfl
  | cons code rest ih =>
      rcases List.nodup_cons.mp h with ⟨hnot, hrest⟩
      have hfilter : rest.filter (fun c => !(c == code)) = rest := by
        apply List.filter_eq_self.mpr
        intro c hc
        have hne : c ≠ code := fun heq => hnot (heq ▸ hc)
        rw [beq_false_of_ne hne]
        rfl
      rw [List.eraseDups_cons, hfilter, ih hrest]

theorem codes_insertAll {t : Translations} (h : t.codes.Nodup) (insertions : List Insertion) :
    (t.insertAll insertions).codes = (t.codes ++ insertions.map Insertion.code).eraseDups := by
  induction insertions using List.reverseRecOn with
  | nil =>
      rw [List.map_nil, List.append_nil, eraseDups_eq_self h]
      rfl
  | append_singleton insertions last ih =>
      rw [insertAll_concat, codes_insert, ih, List.map_append, ← List.append_assoc,
        List.map_singleton]
      generalize t.codes ++ insertions.map Insertion.code = earlier
      rw [List.eraseDups_append]
      by_cases hmem : last.code ∈ earlier
      · rw [if_pos (List.mem_eraseDups.mpr hmem)]
        simp [List.removeAll, hmem]
      · rw [if_neg (fun h => hmem (List.mem_eraseDups.mp h))]
        simp [List.removeAll, hmem, List.eraseDups_cons]

end Translations
end HttpEngine
