import HttpEngine.Request.Basic
import HttpEngine.Response.Head
import HttpEngine.Text.Utf8

/-!
# Where the cross-origin policy shows

The policy applies to a request whose first field for the origin has exactly one of the listed
origins.  Where it applies, three lines of its own stand at the end of the head of the response;
where it does not, the head is the same without them.
-/

namespace HttpEngine

/-! # The first field of a name -/

def Header.IsFirst (headers : List Header) (name value : String) : Prop :=
  exists (before : List Header) (field : Header) (rest : List Header),
    headers = before ++ field :: rest ∧ sameName field.name name = true ∧ field.value = value ∧
      forall earlier, earlier ∈ before -> sameName earlier.name name = false

theorem Header.find?_eq_some_iff {headers : List Header} {name value : String} :
    find? headers name = some value ↔ IsFirst headers name value := by
  unfold find? IsFirst
  rw [Option.map_eq_some_iff]
  constructor
  · intro h
    rcases h with ⟨field, hfind, hvalue⟩
    rcases List.find?_eq_some_iff_append.mp hfind with ⟨hname, before, rest, hsplit, hbefore⟩
    refine ⟨before, field, rest, hsplit, hname, hvalue, ?_⟩
    intro earlier hmem
    simpa using hbefore earlier hmem
  · intro h
    rcases h with ⟨before, field, rest, hsplit, hname, hvalue, hbefore⟩
    refine ⟨field, List.find?_eq_some_iff_append.mpr ⟨hname, before, rest, hsplit, ?_⟩, hvalue⟩
    intro earlier hmem
    simpa using hbefore earlier hmem

theorem Cors.applied?_eq_some_iff {policy : Option Cors} {headers : List Header} {cors : Cors}
    {origin : String} :
    applied? policy (Header.find? headers "origin") = some (cors, origin) ↔
      policy = some cors ∧ Header.IsFirst headers "origin" origin ∧ origin ∈ cors.origins := by
  rw [← Header.find?_eq_some_iff]
  cases policy with
  | none => simp [applied?]
  | some own =>
      simp only [applied?, allowed?, Option.bind_some, Option.map_eq_some_iff,
        Option.filter_eq_some_iff, List.contains_iff_mem, Prod.mk.injEq, Option.some.injEq]
      constructor
      · intro h
        rcases h with ⟨found, ⟨hfind, hlisted⟩, hcors, horigin⟩
        rw [← hcors, ← horigin]
        exact ⟨rfl, hfind, hlisted⟩
      · intro h
        rcases h with ⟨hcors, hfind, hlisted⟩
        rw [hcors]
        exact ⟨origin, ⟨hfind, hlisted⟩, rfl, rfl⟩

/-! # The lines in the head -/

def headLine (name value : String) : String :=
  name ++ ": " ++ value ++ "\r\n"

def Cors.lines (cors : Cors) (origin : String) : String :=
  headLine "Access-Control-Allow-Origin" origin ++
  headLine "Access-Control-Allow-Methods" cors.methods ++
  headLine "Access-Control-Allow-Headers" cors.headers

def Cors.linesOf (applied : Option (Cors × String)) : Bytes :=
  match applied with
  | some (cors, origin) => Utf8.encode (cors.lines origin)
  | none => []

namespace Response

def opening (r : Response) : Bytes :=
  Utf8.encode r.status.line ++ (r.fields none).flatMap fieldLine

theorem fieldLine_textField (name value : String) :
    fieldLine (textField name value) = Utf8.encode (headLine name value) := by
  have hcolon : Utf8.encode ": " = [58, 32] := by decide
  have hend : Utf8.encode "\r\n" = Bytes.crlf := by decide
  rw [fieldLine, textField, headLine, Utf8.encode_append, Utf8.encode_append,
    Utf8.encode_append, hcolon, hend]

theorem linesOf_some (cors : Cors) (origin : String) :
    Cors.linesOf (some (cors, origin)) =
      ((cors.fields origin).map fun (n, v) => textField n v).flatMap fieldLine := by
  simp only [Cors.linesOf, Cors.fields, Cors.lines, List.map_cons, List.map_nil,
    List.flatMap_cons, List.flatMap_nil, List.append_nil, fieldLine_textField,
    Utf8.encode_append, List.append_assoc]

theorem encodeHead_eq (r : Response) (policy : Option (Cors × String)) :
    r.encodeHead policy = r.opening ++ Cors.linesOf policy ++ Bytes.crlf := by
  have hfields : (r.fields policy).flatMap fieldLine =
      (r.fields none).flatMap fieldLine ++ Cors.linesOf policy := by
    cases policy with
    | none => simp only [Cors.linesOf, List.append_nil]
    | some applied =>
        rcases applied with ⟨cors, origin⟩
        rw [linesOf_some, ← List.flatMap_append]
        simp only [fields, List.append_nil, List.append_assoc]
  simp only [encodeHead, opening, hfields, List.append_assoc]

end Response
end HttpEngine
