import HttpEngine.Response.Basic

/-!
# Responses that are built step by step

A response is built by any sequence of changes.  Of its status, its type and its body the last one
given counts.  Its header fields are those that were added, in order, behind those of the responses
that it inherits from, of which a later one comes first.
-/

namespace HttpEngine
namespace Response

inductive Edit where
  | setStatus (status : Status)
  | setContentType (contentType : String)
  | addHeader (name value : Content)
  | setBody (body : Content)
  | setBodyParts (parts : List Content)
  | inheritHeaders (earlier : Response)

namespace Edit

def apply (r : Response) : Edit -> Response
  | .setStatus status => r.setStatus status
  | .setContentType contentType => r.setContentType contentType
  | .addHeader name value => r.addHeader name value
  | .setBody body => r.setBody body
  | .setBodyParts parts => r.setBodyParts parts
  | .inheritHeaders earlier => r.inheritHeaders earlier

/-! # What a change gives -/

def status? : Edit -> Option Status
  | .setStatus status => some status
  | _ => none

def contentType? : Edit -> Option String
  | .setContentType contentType => some contentType
  | _ => none

def body? : Edit -> Option Bytes
  | .setBody body => some body.encode
  | .setBodyParts parts => some (parts.flatMap Content.encode)
  | _ => none

def added : Edit -> List (Bytes × Bytes)
  | .addHeader name value => [(name.encode, value.encode)]
  | _ => []

def inherited : Edit -> List (Bytes × Bytes)
  | .inheritHeaders earlier => earlier.headers
  | _ => []

def lastOf {α : Type} (given? : Edit -> Option α) (edits : List Edit) (before : α) : α :=
  (edits.reverse.findSome? given?).getD before

end Edit

def edited (r : Response) (edits : List Edit) : Response :=
  edits.foldl Edit.apply r

theorem part_edited {α : Type} {part : Response -> α} {given? : Edit -> Option α}
    (h : forall r edit, part (Edit.apply r edit) = (given? edit).getD (part r)) (r : Response)
    (edits : List Edit) : part (r.edited edits) = Edit.lastOf given? edits (part r) := by
  induction edits generalizing r with
  | nil => rfl
  | cons edit edits ih =>
      change part ((edit.apply r).edited edits) = _
      rw [ih, h, Edit.lastOf, Edit.lastOf, List.reverse_cons, List.findSome?_append]
      cases edits.reverse.findSome? given? with
      | none =>
          rw [List.findSome?_singleton]
          rfl
      | some value => rfl

theorem status_edited (r : Response) (edits : List Edit) :
    (r.edited edits).status = Edit.lastOf Edit.status? edits r.status := by
  apply part_edited
  intro r edit
  cases edit <;> rfl

theorem contentType_edited (r : Response) (edits : List Edit) :
    (r.edited edits).contentType = Edit.lastOf Edit.contentType? edits r.contentType := by
  apply part_edited
  intro r edit
  cases edit <;> rfl

theorem body_edited (r : Response) (edits : List Edit) :
    (r.edited edits).body = Edit.lastOf Edit.body? edits r.body := by
  apply part_edited
  intro r edit
  cases edit <;> rfl

theorem headers_apply (r : Response) (edit : Edit) :
    (edit.apply r).headers = edit.inherited ++ r.headers ++ edit.added := by
  cases edit with
  | addHeader name value => rfl
  | inheritHeaders earlier => exact (List.append_nil _).symm
  | _ => exact (List.append_nil _).symm

theorem headers_edited (r : Response) (edits : List Edit) :
    (r.edited edits).headers =
      edits.reverse.flatMap Edit.inherited ++ r.headers ++ edits.flatMap Edit.added := by
  induction edits generalizing r with
  | nil => exact (List.append_nil _).symm
  | cons edit edits ih =>
      change ((edit.apply r).edited edits).headers = _
      rw [ih, headers_apply, List.reverse_cons, List.flatMap_append, List.flatMap_singleton,
        List.flatMap_cons]
      simp only [List.append_assoc]

end Response
end HttpEngine
