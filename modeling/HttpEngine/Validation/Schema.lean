import HttpEngine.Request.Basic
import HttpEngine.Text.Cut
import HttpEngine.Translations
import HttpEngine.Validation.Format

/-!
# Validating bodies

A schema lists the fields that a JSON object has to have.  A member of another type than its field
counts as absent.  Texts are checked for their length in characters, where a bound of zero is none,
and then for their format.  The first field that is not satisfied gives the error, in the words of
the schema's locale if it has one.
-/

namespace HttpEngine

inductive FieldKind where
  | text
  | number
  | flag
  deriving DecidableEq, Repr

namespace FieldKind

def name : FieldKind -> String
  | .text => "str"
  | .number => "int"
  | .flag => "bool"

def ofName? (name : String) : Option FieldKind :=
  [FieldKind.text, .number, .flag].find? fun k => k.name == name

def fits : FieldKind -> Json -> Bool
  | .text, .string _ => true
  | .number, .number _ => true
  | .flag, .bool _ => true
  | _, _ => false

end FieldKind

structure Field where
  name : String
  kind : FieldKind
  isRequired : Bool := false
  minLength : Nat := 0
  maxLength : Nat := 0
  format : Option TextFormat := none
  deriving DecidableEq, Repr

inductive ValidationError where
  | invalidJson
  | required (field : String)
  | minLength (field : String) (min : Nat)
  | maxLength (field : String) (max : Nat)
  | invalid (field : String) (format : TextFormat)
  deriving DecidableEq, Repr

namespace ValidationError

def key : ValidationError -> String
  | .invalidJson => "validation.invalid_json"
  | .required _ => "validation.required"
  | .minLength .. => "validation.min_length"
  | .maxLength .. => "validation.max_length"
  | .invalid .. => "validation.invalid"

def message : ValidationError -> String
  | .invalidJson => "Invalid JSON"
  | .required field => s!"field '{field}' is required"
  | .minLength field min => s!"field '{field}' min length is {min}"
  | .maxLength field max => s!"field '{field}' max length is {max}"
  | .invalid field format => s!"field '{field}' is not a valid {format.name}"

/-- What the placeholders in the text of an error stand for, in the order of filling in. -/
def placeholders : ValidationError -> List (String × String)
  | .invalidJson => []
  | .required field => [("\x7bfield\x7d", field)]
  | .minLength field min => [("\x7bfield\x7d", field), ("\x7bmin\x7d", toString min)]
  | .maxLength field max => [("\x7bfield\x7d", field), ("\x7bmax\x7d", toString max)]
  | .invalid field format => [("\x7bfield\x7d", field), ("\x7bkind\x7d", format.name)]

/--
Replaces every occurrence of a mark, from the left; the number bounds the occurrences, and a mark
is never empty.
-/
def replaceWithin (mark value : List Char) : Nat -> List Char -> List Char
  | 0, text => text
  | fuel + 1, text =>
      match cut? mark text with
      | some (front, rest) => front ++ value ++ replaceWithin mark value fuel rest
      | none => text

def fill (text : String) (placeholder : String × String) : String :=
  String.ofList
    (replaceWithin placeholder.1.toList placeholder.2.toList text.length text.toList)

def translate (e : ValidationError) (translations : Translations) (code : Option String) :
    String :=
  match translations.lookup? e.key code with
  | some text => e.placeholders.foldl fill text
  | none => e.message

end ValidationError

namespace Field

def value? (f : Field) (members : List (String × Json)) : Option Json :=
  (Json.member? members f.name).filter f.kind.fits

def checkText (f : Field) (text : String) : Except ValidationError Unit :=
  if f.minLength ≠ 0 ∧ text.length < f.minLength then .error (.minLength f.name f.minLength)
  else if f.maxLength ≠ 0 ∧ f.maxLength < text.length then
    .error (.maxLength f.name f.maxLength)
  else
    match f.format with
    | some format => if format.accepts text then .ok () else .error (.invalid f.name format)
    | none => .ok ()

def check (f : Field) (members : List (String × Json)) : Except ValidationError Unit :=
  match f.value? members with
  | none => if f.isRequired then .error (.required f.name) else .ok ()
  | some (.string text) => f.checkText text
  | some _ => .ok ()

end Field

structure Schema where
  fields : List Field := []
  locale : Option (Translations × String) := none

namespace Schema

def checkFields (members : List (String × Json)) : List Field -> Except ValidationError Unit
  | [] => .ok ()
  | f :: rest =>
      match f.check members with
      | .ok _ => checkFields members rest
      | .error e => .error e

def check (s : Schema) (body : Bytes) : Except ValidationError Unit :=
  match Json.parse? body with
  | some (.object members) => checkFields members s.fields
  | _ => .error .invalidJson

def message (s : Schema) (e : ValidationError) : String :=
  match s.locale with
  | some (translations, code) => e.translate translations (some code)
  | none => e.message

end Schema

def Request.validate (r : Request) (schema : Schema) : Bool × Request :=
  match schema.check r.bodyBytes with
  | .ok _ => (true, r)
  | .error e => (false, { r with error := some (schema.message e) })

end HttpEngine
