import HttpEngine.Proofs.Validation.Checking

/-!
# What a handler can count on

After a check has passed, a handler finds the fields that it needs: texts as the schema asks for
them, truth values and numbers.  A number, though, may be any that JSON can write, one with a
fraction as well, and only if none of the numbers is read as a double are they all whole.
-/

namespace HttpEngine

namespace Field

variable (f : Field) (isInteger : Number -> Prop)

/-- What a handler expects of a field's value: a text as asked for, an integer or a truth value. -/
def Expects : Json -> Prop
  | .string text =>
      f.kind = .text ∧ ¬f.TooShort text ∧ ¬f.TooLong text ∧ ¬f.Misfits text
  | .number n => f.kind = .number ∧ isInteger n
  | .bool _ => f.kind = .flag
  | _ => False

/--
A handler can use a field: if it is required it has a value as expected, and an optional field is
absent, or of another type, or has such a value.
-/
structure Usable (members : List (String × Json)) : Prop where
  required : f.isRequired = true -> exists value,
    LastMember members f.name value ∧ f.Expects isInteger value
  optional : f.isRequired = false ->
    (forall value, ¬LastMember members f.name value) ∨
      exists value, LastMember members f.name value ∧
        (¬f.kind.Has value ∨ f.Expects isInteger value)

variable {f : Field} {isInteger : Number -> Prop} {members : List (String × Json)}

section

variable (h : f.Satisfied members)
  (hnumber : f.kind = .number -> forall n, LastMember members f.name (.number n) -> isInteger n)

include h hnumber

theorem expects_of_isGiven {value : Json} (hgiven : f.IsGiven members value) :
    f.Expects isInteger value := by
  have hhas := hgiven.right
  cases hkind : f.kind with
  | text =>
      rw [hkind] at hhas
      rcases hhas with ⟨text, rfl⟩
      exact ⟨hkind, h.text text hgiven⟩
  | number =>
      rw [hkind] at hhas
      rcases hhas with ⟨n, rfl⟩
      exact ⟨hkind, hnumber hkind n hgiven.left⟩
  | flag =>
      rw [hkind] at hhas
      rcases hhas with ⟨b, rfl⟩
      exact hkind

theorem usable_of_satisfied : f.Usable isInteger members := by
  constructor
  · intro hrequired
    rcases h.given hrequired with ⟨value, hgiven⟩
    exact ⟨value, hgiven.left, expects_of_isGiven h hnumber hgiven⟩
  · intro _
    by_cases hmember : exists value, LastMember members f.name value
    · rcases hmember with ⟨value, hmember⟩
      refine Or.inr ⟨value, hmember, ?_⟩
      by_cases hhas : f.kind.Has value
      · exact Or.inr (expects_of_isGiven h hnumber ⟨hmember, hhas⟩)
      · exact Or.inl hhas
    · exact Or.inl (not_exists.mp hmember)

end

theorem Usable.number (h : f.Usable isInteger members) (hkind : f.kind = .number) {n : Number}
    (hmember : LastMember members f.name (.number n)) : isInteger n := by
  have hexpects : f.Expects isInteger (.number n) := by
    cases hrequired : f.isRequired with
    | true =>
        rcases h.required hrequired with ⟨value, hvalue, hexpects⟩
        exact hvalue.unique hmember ▸ hexpects
    | false =>
        rcases h.optional hrequired with habsent | ⟨value, hvalue, hother | hexpects⟩
        · exact absurd hmember (habsent _)
        · cases hvalue.unique hmember
          exact absurd (hkind ▸ ⟨n, rfl⟩) hother
        · exact hvalue.unique hmember ▸ hexpects
  exact hexpects.right

end Field

namespace Schema

open JsonNumber

/--
If a body passes, it is an object, and a handler can use each of its fields, where the number of a
field is whole and fits 64 bits, or a double.  That all fields have what the schema says of them,
and numbers are integers, is the case exactly if none of the numbers is a double.
-/
theorem usable_of_check (s : Schema) (body : Bytes) (h : s.check body = .ok ()) :
    (exists members, WritesObject body members) ∧
      forall members, WritesObject body members ->
        (forall f, f ∈ s.fields -> f.Usable (fun n => IsWhole n ∨ IsDouble n) members) ∧
        ((forall f, f ∈ s.fields -> f.Usable IsWhole members) ↔
          forall f, f ∈ s.fields -> f.kind = .number ->
            forall n, LastMember members f.name (.number n) -> ¬IsDouble n) := by
  constructor
  · by_contra hnone
    have hinvalid : s.check body = .error .invalidJson := by
      refine check_eq_invalidJson_iff.mpr ?_
      rintro ⟨held, hheld⟩
      rcases parse?_object_iff.mp hheld with ⟨members, hmembers, _⟩
      exact hnone ⟨members, hmembers⟩
    rw [h] at hinvalid
    cases hinvalid
  · intro members hmembers
    have hsatisfied := (check_eq_ok_iff hmembers).mp h
    have hnumbers : forall name n, LastMember members name (.number n) ->
        IsWhole n ∨ IsDouble n := by
      rintro name n ⟨front, back, rfl, _⟩
      rcases hmembers with ⟨text, _, hobject⟩
      exact hobject.number (List.mem_append_right front List.mem_cons_self)
    refine ⟨?_, ?_, ?_⟩
    · intro f hf
      exact Field.usable_of_satisfied (hsatisfied f hf) fun _ n => hnumbers f.name n
    · intro husable f hf hkind n hmember hdouble
      have hwhole := (husable f hf).number hkind hmember
      rcases hdouble with ⟨value, rfl⟩
      exact hwhole
    · intro hwhole f hf
      apply Field.usable_of_satisfied (hsatisfied f hf)
      intro hkind n hmember
      exact (hnumbers f.name n hmember).resolve_right (hwhole f hf hkind n hmember)

def ageSchema : Schema where
  fields := [{ name := "age", kind := .number, isRequired := true }]

theorem lastMember_age (value : Json) : LastMember [("age", value)] "age" value :=
  ⟨[], [], rfl, fun _ hm => absurd hm List.not_mem_nil⟩

theorem check_ageSchema {body : Bytes} {n : Number}
    (h : WritesObject body [("age", .number n)]) : ageSchema.check body = .ok () := by
  rw [check_eq_ok_iff h]
  intro f hf
  rw [List.mem_singleton.mp hf]
  refine ⟨fun _ => ⟨.number n, lastMember_age _, n, rfl⟩, ?_⟩
  rintro text ⟨_, _, htext⟩
  cases htext

theorem writesObject_age {value : List Char} {n : Number}
    (h : JsonText.Writes 126 value (.number n)) :
    WritesObject (Utf8.encodeChars ("\x7b\"age\":".toList ++ (value ++ ['\x7d'])))
      [("age", .number n)] := by
  have hnil := JsonText.isSpaces_nil
  have hmember : JsonText.IsMember 126 ("\"age\":".toList ++ value) ("age", .number n) :=
    ⟨"\"age\"".toList, value, rfl, ⟨[], rfl, hnil⟩, h⟩
  exact ⟨_, rfl, [], [_], _, [], by simp, hnil, hnil, rfl,
    List.Forall₂.cons hmember List.Forall₂.nil⟩

theorem usable_of_check_whole :
    exists members, WritesObject (Utf8.encode "\x7b\"age\":42\x7d") members ∧
      ageSchema.check (Utf8.encode "\x7b\"age\":42\x7d") = .ok () ∧
      forall f, f ∈ ageSchema.fields -> f.Usable IsWhole members := by
  have hvalue : JsonText.Writes 126 "42".toList (.number (.natural 42)) :=
    ⟨[], rfl, JsonText.isSpaces_nil⟩
  have hbody := writesObject_age hvalue
  have hcheck := check_ageSchema hbody
  refine ⟨_, hbody, hcheck, ?_⟩
  apply ((usable_of_check ageSchema _ hcheck).right _ hbody).right.mpr
  intro f hf _ n hmember
  rw [List.mem_singleton.mp hf] at hmember
  cases hmember.unique (lastMember_age _)
  rintro ⟨value, hdouble⟩
  cases hdouble

/-- An age with a fraction passes, which no handler can use as an integer. -/
theorem fraction_passes :
    ¬forall (s : Schema) (body : Bytes), s.check body = .ok () ->
      exists members, WritesObject body members ∧
        forall f, f ∈ s.fields -> f.Usable IsWhole members := by
  intro hall
  have hvalue : exists n, IsDouble n ∧ JsonText.Writes 126 "1.5".toList (.number n) :=
    ⟨_, ⟨_, rfl⟩, [], rfl, JsonText.isSpaces_nil⟩
  rcases hvalue with ⟨n, hdouble, hvalue⟩
  have hbody := writesObject_age hvalue
  have hcheck := check_ageSchema hbody
  rcases hall ageSchema _ hcheck with ⟨members, hmembers, husable⟩
  -- All texts of an object tell the same members of it, so that the number is the one in front.
  have hsame := (parse?_object_iff.mpr ⟨members, hmembers, rfl⟩).symm.trans
    (parse?_object_iff.mpr ⟨_, hbody, rfl⟩)
  have hmember : LastMember members "age" (.number n) := by
    rw [← lookup_sortMembers_eq_some_iff, Json.object.inj (Option.some.inj hsame),
      lookup_sortMembers_eq_some_iff]
    exact lastMember_age _
  have hwhole := (husable _ List.mem_cons_self).number rfl hmember
  rcases hdouble with ⟨value, rfl⟩
  exact hwhole

end Schema

end HttpEngine
