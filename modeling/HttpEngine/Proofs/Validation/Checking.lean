import Mathlib.Tactic.MkIffOfInductiveProp
import HttpEngine.Proofs.Json.Objects
import HttpEngine.Text.Utf8
import HttpEngine.Validation.Schema

/-!
# What a body is checked for

A schema asks something of each field, in terms of the last member of its name that has its type.
The check tells which field is the first that does not have it, and of what it does not have the
first thing in a fixed order; it does not see any other member, nor in which order the members
stand.  A request remembers in its error slot, and there only, what the last check to fail found.
-/

namespace HttpEngine

/-! # Bodies -/

def WritesObject (body : Bytes) (members : List (String × Json)) : Prop :=
  exists text, body = Utf8.encodeChars text ∧ JsonText.IsObject 126 text members

theorem parse?_object_iff {body : Bytes} {held : List (String × Json)} :
    Json.parse? body = some (.object held) ↔
      exists members, WritesObject body members ∧ held = sortMembers members := by
  rw [Json.parse?, Option.bind_eq_some_iff]
  constructor
  · rintro ⟨text, htext, hheld⟩
    rcases JsonText.ofChars?_object_iff.mp hheld with ⟨members, hmembers, heq⟩
    exact ⟨members, ⟨text, Utf8.decodeChars?_eq_some_iff.mp htext, hmembers⟩, heq⟩
  · rintro ⟨members, ⟨text, htext, hmembers⟩, heq⟩
    exact ⟨text, Utf8.decodeChars?_eq_some_iff.mpr htext,
      JsonText.ofChars?_object_iff.mpr ⟨members, hmembers, heq⟩⟩

def LastMember (members : List (String × Json)) (name : String) (value : Json) : Prop :=
  exists front back, members = front ++ (name, value) :: back ∧ forall m, m ∈ back -> m.1 ≠ name

theorem lookup_sortMembers_eq_some_iff {members : List (String × Json)} {name : String}
    {value : Json} :
    (sortMembers members).lookup name = some value ↔ LastMember members name value := by
  rw [lookup_sortMembers, List.lookup_eq_some_iff]
  constructor
  · rintro ⟨back, front, hsplit, hback⟩
    refine ⟨front.reverse, back.reverse, ?_, ?_⟩
    · rw [← List.reverse_reverse members, hsplit]
      simp
    · intro m hm
      exact (bne_iff_ne.mp (hback m (List.mem_reverse.mp hm))).symm
  · rintro ⟨front, back, rfl, hback⟩
    refine ⟨back.reverse, front.reverse, by simp, ?_⟩
    intro m hm
    exact bne_iff_ne.mpr (hback m (List.mem_reverse.mp hm)).symm

theorem LastMember.unique {members : List (String × Json)} {name : String} {value other : Json}
    (h : LastMember members name value) (hother : LastMember members name other) :
    value = other := by
  rw [← lookup_sortMembers_eq_some_iff] at h hother
  exact Option.some.inj (h.symm.trans hother)

/-! # Members left out -/

def withoutMember (held : List (String × Json)) (name : String) : List (String × Json) :=
  held.filter fun m => !(m.1 == name)

theorem reverse_withoutMember (held : List (String × Json)) (name : String) :
    (withoutMember held name).reverse = withoutMember held.reverse name :=
  List.filter_reverse.symm

/-! # What is asked of a field -/

def FieldKind.Has : FieldKind -> Json -> Prop
  | .text, value => exists text, value = .string text
  | .number, value => exists n, value = .number n
  | .flag, value => exists b, value = .bool b

theorem FieldKind.fits_iff {kind : FieldKind} {value : Json} :
    kind.fits value = true ↔ kind.Has value := by
  cases kind <;> cases value <;> simp [FieldKind.fits, FieldKind.Has]

namespace Field

variable (f : Field)

def IsGiven (members : List (String × Json)) (value : Json) : Prop :=
  LastMember members f.name value ∧ f.kind.Has value

/-- Lengths are counted in characters, and a bound of zero is none. -/
def TooShort (text : String) : Prop :=
  f.minLength ≠ 0 ∧ text.toList.length < f.minLength

def TooLong (text : String) : Prop :=
  f.maxLength ≠ 0 ∧ f.maxLength < text.toList.length

def Misfits (text : String) : Prop :=
  exists format, f.format = some format ∧ format.accepts text = false

@[mk_iff]
structure Satisfied (members : List (String × Json)) : Prop where
  given : f.isRequired = true -> exists value, f.IsGiven members value
  text : forall text, f.IsGiven members (.string text) ->
    ¬f.TooShort text ∧ ¬f.TooLong text ∧ ¬f.Misfits text

/-- The first thing that is asked of the field's text and that it does not have. -/
def FailsOn (text : String) (e : ValidationError) : Prop :=
  (e = .minLength f.name f.minLength ∧ f.TooShort text) ∨
    (e = .maxLength f.name f.maxLength ∧ ¬f.TooShort text ∧ f.TooLong text) ∨
      exists format, e = .invalid f.name format ∧ ¬f.TooShort text ∧ ¬f.TooLong text ∧
        f.format = some format ∧ format.accepts text = false

def Fails (members : List (String × Json)) (e : ValidationError) : Prop :=
  (e = .required f.name ∧ f.isRequired = true ∧ forall value, ¬f.IsGiven members value) ∨
    exists text, f.IsGiven members (.string text) ∧ f.FailsOn text e

/-! # The check of a field -/

variable {f : Field} {members : List (String × Json)} {e : ValidationError}

theorem value?_eq_some_iff {value : Json} :
    f.value? (sortMembers members) = some value ↔ f.IsGiven members value := by
  rw [Field.value?, Json.member?, Option.filter_eq_some_iff, lookup_sortMembers_eq_some_iff,
    FieldKind.fits_iff]
  rfl

section Texts

variable {text : String}

theorem checkText_of_tooShort (h : f.TooShort text) :
    f.checkText text = .error (.minLength f.name f.minLength) := by
  rw [TooShort, String.length_toList] at h
  exact if_pos h

theorem checkText_of_tooLong (hshort : ¬f.TooShort text) (h : f.TooLong text) :
    f.checkText text = .error (.maxLength f.name f.maxLength) := by
  rw [TooShort, String.length_toList] at hshort
  rw [TooLong, String.length_toList] at h
  rw [checkText, if_neg hshort, if_pos h]

theorem checkText_of_length (hshort : ¬f.TooShort text) (hlong : ¬f.TooLong text) :
    f.checkText text =
      match f.format with
      | some format => if format.accepts text then .ok () else .error (.invalid f.name format)
      | none => .ok () := by
  rw [TooShort, String.length_toList] at hshort
  rw [TooLong, String.length_toList] at hlong
  exact (if_neg hshort).trans (if_neg hlong)

theorem checkText_eq_error_iff : f.checkText text = .error e ↔ f.FailsOn text e := by
  by_cases hshort : f.TooShort text
  · rw [checkText_of_tooShort hshort, Except.error.injEq]
    simpa [FailsOn, hshort] using eq_comm
  · by_cases hlong : f.TooLong text
    · rw [checkText_of_tooLong hshort hlong, Except.error.injEq]
      simpa [FailsOn, hshort, hlong] using eq_comm
    · rw [checkText_of_length hshort hlong]
      cases hformat : f.format with
      | none => simp [FailsOn, hshort, hlong, hformat]
      | some format =>
          cases haccepts : format.accepts text with
          | true => simp [FailsOn, hshort, hlong, hformat, haccepts]
          | false => simpa [FailsOn, hshort, hlong, hformat, haccepts] using eq_comm

theorem checkText_eq_ok_iff :
    f.checkText text = .ok () ↔ ¬f.TooShort text ∧ ¬f.TooLong text ∧ ¬f.Misfits text := by
  by_cases hshort : f.TooShort text
  · simp [checkText_of_tooShort hshort, hshort]
  · by_cases hlong : f.TooLong text
    · simp [checkText_of_tooLong hshort hlong, hlong]
    · rw [checkText_of_length hshort hlong]
      cases hformat : f.format with
      | none => simp [hshort, hlong, Misfits, hformat]
      | some format =>
          cases haccepts : format.accepts text <;>
            simp [hshort, hlong, Misfits, hformat, haccepts]

end Texts

theorem check_eq_ok_iff : f.check (sortMembers members) = .ok () ↔ f.Satisfied members := by
  simp only [satisfied_iff, ← value?_eq_some_iff]
  unfold check
  split
  · next hnone =>
    rw [hnone]
    cases f.isRequired <;> simp
  · next text htext =>
    rw [htext, checkText_eq_ok_iff]
    simp
  · next value htext hvalue =>
    rw [hvalue]
    simpa using fun text heq => absurd heq (htext text)

theorem check_eq_error_iff : f.check (sortMembers members) = .error e ↔ f.Fails members e := by
  simp only [Fails, ← value?_eq_some_iff]
  unfold check
  split
  · next hnone =>
    rw [hnone]
    cases f.isRequired with
    | true => simpa using eq_comm
    | false => simp
  · next text htext =>
    rw [htext, checkText_eq_error_iff]
    simp
  · next value htext hvalue =>
    rw [hvalue]
    simpa using fun text heq => absurd heq (htext text)

theorem not_fails_invalidJson : ¬f.Fails members .invalidJson := by
  simp [Fails, FailsOn]

/-! # Members that do not count -/

variable {held others : List (String × Json)}

theorem check_congr (h : held.lookup f.name = others.lookup f.name) :
    f.check held = f.check others := by
  rw [check, check, value?, value?, Json.member?, Json.member?, h]

theorem check_without {value : Json} (h : LastMember members f.name value)
    (hkind : ¬f.kind.Has value) :
    f.check (sortMembers members) = f.check (sortMembers (withoutMember members f.name)) := by
  have hlookup := lookup_sortMembers_eq_some_iff.mpr h
  have hwithout : (sortMembers (withoutMember members f.name)).lookup f.name = none := by
    rw [lookup_sortMembers, reverse_withoutMember, withoutMember, lookup_filter_self]
  rw [check, check, value?, value?, Json.member?, Json.member?, hlookup, hwithout,
    Option.filter_some, if_neg (fun hfits => hkind (FieldKind.fits_iff.mp hfits))]
  rfl

end Field

/-! # The check of a body -/

namespace Schema

variable {s : Schema} {body other : Bytes} {members others held : List (String × Json)}
  {e : ValidationError}

def FirstFailure (s : Schema) (members : List (String × Json)) (e : ValidationError) : Prop :=
  exists front f back, s.fields = front ++ f :: back ∧
    (forall g, g ∈ front -> g.Satisfied members) ∧ f.Fails members e

theorem checkFields_eq_ok_iff {fields : List Field} :
    checkFields held fields = .ok () ↔ forall f, f ∈ fields -> f.check held = .ok () := by
  induction fields with
  | nil => simp [checkFields]
  | cons f rest ih =>
      rw [checkFields, List.forall_mem_cons]
      cases hf : f.check held with
      | ok _ => simpa using ih
      | error e => simp

theorem checkFields_eq_error_iff {fields : List Field} :
    checkFields held fields = .error e ↔
      exists front f back, fields = front ++ f :: back ∧
        (forall g, g ∈ front -> g.check held = .ok ()) ∧ f.check held = .error e := by
  induction fields with
  | nil => simp [checkFields]
  | cons first rest ih =>
      rw [checkFields]
      cases hfirst : first.check held with
      | ok _ =>
          refine ih.trans ⟨?_, ?_⟩
          · rintro ⟨front, f, back, rfl, hfront, hf⟩
            exact ⟨first :: front, f, back, rfl, List.forall_mem_cons.mpr ⟨hfirst, hfront⟩, hf⟩
          · rintro ⟨_ | ⟨g, front⟩, f, back, heq, hfront, hf⟩
            · cases heq
              rw [hfirst] at hf
              cases hf
            · cases heq
              exact ⟨front, f, back, rfl, (List.forall_mem_cons.mp hfront).right, hf⟩
      | error e' =>
          constructor
          · intro h
            cases h
            exact ⟨[], first, rest, rfl, fun g hg => absurd hg List.not_mem_nil, hfirst⟩
          · rintro ⟨_ | ⟨g, front⟩, f, back, heq, hfront, hf⟩
            · cases heq
              exact hfirst.symm.trans hf
            · cases heq
              rw [(List.forall_mem_cons.mp hfront).left] at hfirst
              cases hfirst

theorem checkFields_congr {fields : List Field}
    (h : forall f, f ∈ fields -> f.check held = f.check others) :
    checkFields held fields = checkFields others fields := by
  induction fields with
  | nil => rfl
  | cons f rest ih =>
      rcases List.forall_mem_cons.mp h with ⟨hf, hrest⟩
      rw [checkFields, checkFields, hf, ih hrest]

theorem check_of_writesObject (h : WritesObject body members) :
    s.check body = checkFields (sortMembers members) s.fields := by
  rw [check, parse?_object_iff.mpr ⟨members, h, rfl⟩]

theorem check_eq_invalidJson_iff :
    s.check body = .error .invalidJson ↔
      ¬exists held, Json.parse? body = some (.object held) := by
  constructor
  · rintro h ⟨held, hheld⟩
    rcases parse?_object_iff.mp hheld with ⟨members, hmembers, _⟩
    rw [check_of_writesObject hmembers, checkFields_eq_error_iff] at h
    rcases h with ⟨front, f, back, _, _, hf⟩
    exact Field.not_fails_invalidJson (Field.check_eq_error_iff.mp hf)
  · intro h
    unfold check
    split
    · next held hheld => exact absurd ⟨held, hheld⟩ h
    · rfl

theorem check_eq_ok_iff (h : WritesObject body members) :
    s.check body = .ok () ↔ forall f, f ∈ s.fields -> f.Satisfied members := by
  rw [check_of_writesObject h, checkFields_eq_ok_iff]
  exact forall₂_congr fun _ _ => Field.check_eq_ok_iff

theorem check_eq_error_iff (h : WritesObject body members) :
    s.check body = .error e ↔ s.FirstFailure members e := by
  rw [check_of_writesObject h, checkFields_eq_error_iff]
  simp only [FirstFailure, Field.check_eq_ok_iff, Field.check_eq_error_iff]

theorem check_congr (h : WritesObject body members) (hother : WritesObject other others)
    (hsame : forall f, f ∈ s.fields ->
      members.reverse.lookup f.name = others.reverse.lookup f.name) :
    s.check body = s.check other := by
  rw [check_of_writesObject h, check_of_writesObject hother]
  apply checkFields_congr
  intro f hf
  apply Field.check_congr
  rw [lookup_sortMembers, lookup_sortMembers, hsame f hf]

theorem check_of_filter_eq (h : WritesObject body members) (hother : WritesObject other others)
    (hsame : forall f, f ∈ s.fields ->
      members.filter (fun m => m.1 == f.name) = others.filter fun m => m.1 == f.name) :
    s.check body = s.check other := by
  apply check_congr h hother
  intro f hf
  rw [← lookup_filter_beq, List.filter_reverse, hsame f hf, ← List.filter_reverse,
    lookup_filter_beq]

theorem check_of_perm (h : WritesObject body members) (hother : WritesObject other others)
    (hperm : members.Perm others) (hnames : (members.map Prod.fst).Nodup) :
    s.check body = s.check other := by
  apply check_congr h hother
  intro f _
  have hreversed : members.reverse.Perm others.reverse :=
    (List.reverse_perm members).trans (hperm.trans (List.reverse_perm others).symm)
  apply lookup_perm hreversed
  rwa [List.map_reverse, (List.reverse_perm _).nodup_iff]

theorem check_without {name : String} {value : Json} (h : WritesObject body members)
    (hother : WritesObject other (withoutMember members name))
    (hmember : LastMember members name value)
    (hkind : forall f, f ∈ s.fields -> f.name = name -> ¬f.kind.Has value) :
    s.check body = s.check other := by
  rw [check_of_writesObject h, check_of_writesObject hother]
  apply checkFields_congr
  intro f hf
  by_cases hname : f.name = name
  · cases hname
    exact Field.check_without hmember (hkind f hf rfl)
  · apply Field.check_congr
    rw [lookup_sortMembers, lookup_sortMembers, reverse_withoutMember, withoutMember,
      lookup_filter_of_ne _ hname]

def complaint? (s : Schema) (body : Bytes) : Option String :=
  match s.check body with
  | .ok _ => none
  | .error e => some (s.message e)

end Schema

/-! # Requests -/

namespace Request

def withError (r : Request) (error : Option String) : Request :=
  { r with error := error }

@[simp] theorem bodyBytes_withError (r : Request) (error : Option String) :
    (r.withError error).bodyBytes = r.bodyBytes :=
  rfl

@[simp] theorem error_withError (r : Request) (error : Option String) :
    (r.withError error).error = error :=
  rfl

@[simp] theorem withError_withError (r : Request) (error later : Option String) :
    (r.withError error).withError later = r.withError later :=
  rfl

def validateAll (r : Request) : List Schema -> List Bool × Request
  | [] => ([], r)
  | s :: rest =>
      let (isValid, r) := r.validate s
      let (answers, r) := validateAll r rest
      (isValid :: answers, r)

theorem validate_eq (r : Request) (s : Schema) :
    r.validate s = ((s.complaint? r.bodyBytes).isNone,
      r.withError ((s.complaint? r.bodyBytes).or r.error)) := by
  rw [validate, Schema.complaint?]
  cases s.check r.bodyBytes with
  | ok _ => rfl
  | error e => rfl

theorem validateAll_eq (r : Request) (schemas : List Schema) :
    r.validateAll schemas = (schemas.map fun s => (s.complaint? r.bodyBytes).isNone,
      r.withError ((schemas.filterMap fun s => s.complaint? r.bodyBytes).getLast?.or r.error)) := by
  induction schemas generalizing r with
  | nil => rfl
  | cons s rest ih =>
      rw [validateAll, validate_eq]
      simp only
      rw [ih, bodyBytes_withError, error_withError, withError_withError, List.map_cons]
      cases hs : s.complaint? r.bodyBytes with
      | none => simp only [List.filterMap_cons, hs, Option.none_or]
      | some text =>
          simp only [List.filterMap_cons, hs, List.getLast?_cons, Option.some_or, Option.or_some]

theorem validate_validateAll (r : Request) (earlier : List Schema) (s : Schema) :
    (s.check r.bodyBytes = .ok () ->
      (r.validateAll earlier).2.validate s = (true, (r.validateAll earlier).2)) ∧
    forall e, s.check r.bodyBytes = .error e ->
      (r.validateAll earlier).2.validate s =
        (false, (r.validateAll earlier).2.withError (some (s.message e))) := by
  have hbody : (r.validateAll earlier).2.bodyBytes = r.bodyBytes := by
    rw [validateAll_eq, bodyBytes_withError]
  rw [validate, hbody]
  constructor
  · intro hok
    rw [hok]
  · intro e he
    rw [he]
    rfl

end Request

/--
A body is refused as JSON exactly if it is no object.  Otherwise it is accepted exactly if every
field is satisfied, and else refused for what the first field that is not satisfied is missing
first.  A member of another type is as good as none, for its field and, if it fits no field of its
name, for the body.  Other members do not count, nor does the order of members of different names.
And a request that is checked by schemas one after the other changes in its error slot only, at
each schema that its body does not pass.
-/
theorem Schema.check_finds_firstFailure (s : Schema) :
    (forall body held, Json.parse? body = some (.object held) ↔
      exists members, WritesObject body members ∧ held = sortMembers members) ∧
    (forall body, s.check body = .error .invalidJson ↔
      ¬exists held, Json.parse? body = some (.object held)) ∧
    (forall body members, WritesObject body members ->
      (s.check body = .ok () ↔ forall f, f ∈ s.fields -> f.Satisfied members) ∧
      forall e, s.check body = .error e ↔ s.FirstFailure members e) ∧
    (forall (f : Field) members value, LastMember members f.name value -> ¬f.kind.Has value ->
      f.check (sortMembers members) = f.check (sortMembers (withoutMember members f.name))) ∧
    (forall body other members name value, WritesObject body members ->
      WritesObject other (withoutMember members name) -> LastMember members name value ->
      (forall f, f ∈ s.fields -> f.name = name -> ¬f.kind.Has value) ->
      s.check body = s.check other) ∧
    (forall body other members others, WritesObject body members -> WritesObject other others ->
      ((forall f, f ∈ s.fields ->
          members.filter (fun m => m.1 == f.name) = others.filter fun m => m.1 == f.name) ∨
        (members.Perm others ∧ (members.map Prod.fst).Nodup)) ->
      s.check body = s.check other) ∧
    (forall (r : Request) (earlier : List Schema),
      (s.check r.bodyBytes = .ok () ->
        (r.validateAll earlier).2.validate s = (true, (r.validateAll earlier).2)) ∧
      forall e, s.check r.bodyBytes = .error e ->
        (r.validateAll earlier).2.validate s =
          (false, { (r.validateAll earlier).2 with error := some (s.message e) })) := by
  refine ⟨fun _ _ => parse?_object_iff, fun _ => check_eq_invalidJson_iff, ?_, ?_, ?_, ?_, ?_⟩
  · intro body members h
    exact ⟨check_eq_ok_iff h, fun e => check_eq_error_iff h⟩
  · intro f members value
    exact Field.check_without
  · intro body other members name value
    exact check_without
  · intro body other members others h hother hsame
    rcases hsame with hsame | ⟨hperm, hnames⟩
    · exact check_of_filter_eq h hother hsame
    · exact check_of_perm h hother hperm hnames
  · intro r earlier
    exact r.validate_validateAll earlier s

theorem Schema.check_finds_firstFailure_short :
    exists (s : Schema) (body other : Bytes) (members : List (String × Json)),
      WritesObject body members ∧ WritesObject other (withoutMember members "age") ∧
        LastMember members "age" (.string "x") ∧
        s.FirstFailure members (.minLength "name" 2) ∧
        s.check other = .error (.minLength "name" 2) := by
  let s : Schema := {
    fields := [
      { name := "age", kind := .number },
      { name := "name", kind := .text, isRequired := true, minLength := 2 }] }
  let members : List (String × Json) := [("age", .string "x"), ("name", .string "A")]
  have hnil := JsonText.isSpaces_nil
  have hage : JsonText.IsMember 126 "\"age\": \"x\"".toList ("age", .string "x") :=
    ⟨"\"age\"".toList, " \"x\"".toList, rfl, ⟨[], rfl, hnil⟩, ⟨[], rfl, hnil⟩⟩
  have hname : JsonText.IsMember 126 "\"name\":\"A\"".toList ("name", .string "A") :=
    ⟨"\"name\"".toList, "\"A\"".toList, rfl, ⟨[], rfl, hnil⟩, ⟨[], rfl, hnil⟩⟩
  have hbody : WritesObject (Utf8.encode "\x7b\"age\": \"x\",\"name\":\"A\"\x7d") members :=
    ⟨_, rfl, [], ["\"age\": \"x\"".toList, "\"name\":\"A\"".toList], _, [], rfl, hnil, hnil, rfl,
      List.Forall₂.cons hage (List.Forall₂.cons hname List.Forall₂.nil)⟩
  have hother : WritesObject (Utf8.encode "\x7b\"name\":\"A\"\x7d") (withoutMember members "age") :=
    ⟨_, rfl, [], ["\"name\":\"A\"".toList], _, [], rfl, hnil, hnil, rfl,
      List.Forall₂.cons hname List.Forall₂.nil⟩
  have hlast : LastMember members "age" (.string "x") :=
    ⟨[], [("name", .string "A")], rfl, by simp⟩
  have hfailure : s.FirstFailure members (.minLength "name" 2) := by
    refine ⟨[_], _, [], rfl, ?_, Or.inr ⟨"A", ?_, Or.inl ⟨rfl, by decide, by decide⟩⟩⟩
    · intro g hg
      rw [List.mem_singleton.mp hg]
      refine ⟨fun hrequired => absurd hrequired (by decide), ?_⟩
      rintro text ⟨_, n, hn⟩
      cases hn
    · exact ⟨⟨[("age", .string "x")], [], rfl, by simp⟩, "A", rfl⟩
  rcases s.check_finds_firstFailure with ⟨_, _, hcheck, _, hwithout, _⟩
  refine ⟨s, _, _, members, hbody, hother, hlast, hfailure, ?_⟩
  rw [← hwithout _ _ members "age" (.string "x") hbody hother hlast]
  · exact ((hcheck _ _ hbody).right _).mpr hfailure
  · intro f hf hname
    rcases List.mem_cons.mp hf with rfl | hf
    · rintro ⟨n, hn⟩
      cases hn
    · rw [List.mem_singleton.mp hf] at hname
      exact absurd hname (by decide)

end HttpEngine
