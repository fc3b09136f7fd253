import HttpEngine.Multipart.Scanner
import HttpEngine.Proofs.Multipart.Extraction
import HttpEngine.Proofs.Text.Encoding
import HttpEngine.Proofs.Text.Lines
import HttpEngine.Text.Cut

/-!
# Forms with a file

A form whose first part is a file, as a client writes it: the boundary, the header of the part with
the name of the file in its first line, a blank line, the bytes of the file and the boundary again.
What is found in it is what was written, and so is the boundary that its content type names.
-/

namespace HttpEngine

namespace Multipart

/-! # Writing -/

structure Form where
  boundary : String
  filename : String
  /-- The lines in the header of the first part that come behind the one with the name. -/
  lines : List Bytes
  payload : Bytes
  /-- What comes behind the boundary that ends the first part. -/
  rest : Bytes

namespace Form

def disposition (form : Form) : Bytes :=
  Utf8.encode "Content-Disposition: form-data; filename=\"" ++ Utf8.encode form.filename ++
    Bytes.quote

def headerLines (form : Form) : List Bytes :=
  Utf8.encode ("--" ++ form.boundary) :: form.disposition :: form.lines

def render (form : Form) : Bytes :=
  Bytes.crlf.intercalate form.headerLines ++ Bytes.blankLine ++ form.payload ++
    marker form.boundary ++ form.rest

def named (form : Form) (quoted : Bool) : String :=
  if quoted then "\"" ++ form.boundary ++ "\"" else form.boundary

def contentType (form : Form) (quoted : Bool) : String :=
  "multipart/form-data; boundary=" ++ form.named quoted

/-- What a form can be written with so that it is not taken for something else. -/
structure WellFormed (form : Form) : Prop where
  nonempty : form.boundary.toList ≠ []
  boundary : '\r' ∉ form.boundary.toList ∧ ';' ∉ form.boundary.toList ∧
    '"' ∉ form.boundary.toList
  first : forall c, form.boundary.toList.head? = some c -> Text.isBlank c = false
  last : forall c, form.boundary.toList.getLast? = some c -> Text.isBlank c = false
  filename : '\r' ∉ form.filename.toList ∧ '"' ∉ form.filename.toList
  lines : forall l, l ∈ form.lines -> l ≠ [] ∧ 13 ∉ l
  payload : ¬ marker form.boundary <:+: form.payload

variable {form : Form}

theorem length_render (form : Form) :
    form.render.length = (Bytes.crlf.intercalate form.headerLines).length + 4 +
      form.payload.length + (marker form.boundary).length + form.rest.length := by
  simp only [render, List.length_append]
  rfl

theorem render_length_ne_zero (form : Form) : form.render.length ≠ 0 := by
  rw [length_render]
  omega

theorem exists_intercalate_cons (mark line : Bytes) (more : List Bytes) :
    exists behind : Bytes, mark.intercalate (line :: more) = line ++ behind := by
  cases more with
  | nil => exact ⟨[], by rw [List.intercalate_singleton, List.append_nil]⟩
  | cons next more =>
      exact ⟨_, by rw [List.intercalate_cons_cons, List.append_assoc]⟩

/-! # The boundary -/

theorem opening_toList :
    "multipart/form-data; boundary=".toList =
      "multipart/form-data; ".toList ++ "boundary=".toList := by
  decide +kernel

theorem contentType_toList (form : Form) (quoted : Bool) :
    (form.contentType quoted).toList =
      "multipart/form-data; ".toList ++ "boundary=".toList ++ (form.named quoted).toList := by
  have hopening : ("multipart/form-data; boundary=" ++ form.named quoted).toList =
      "multipart/form-data; boundary=".toList ++ (form.named quoted).toList :=
    String.toList_append
  exact hopening.trans (congrArg (· ++ (form.named quoted).toList) opening_toList)

theorem WellFormed.trim_named (h : form.WellFormed) (quoted : Bool) :
    Text.trimBy (· == '"') (Text.trim (form.named quoted).toList) = form.boundary.toList := by
  have hquote : forall c, c ∈ form.boundary.toList -> (c == '"') = false := by
    intro c hc
    apply beq_false_of_ne
    intro heq
    exact h.boundary.right.right (heq ▸ hc)
  cases quoted with
  | false =>
      rw [named, if_neg (by decide), Text.trim, Text.trimBy_of_ends h.first h.last,
        Text.trimBy_of_forall hquote]
  | true =>
      have hnamed : (form.named true).toList = '"' :: form.boundary.toList ++ ['"'] := by
        have hmark : "\"".toList = ['"'] := by decide
        rw [named, if_pos rfl, String.toList_append, String.toList_append, hmark]
        rfl
      have hends : Text.isBlank '"' = false := by decide
      have htrim : Text.trim (form.named true).toList = (form.named true).toList := by
        rw [hnamed, Text.trim]
        apply Text.trimBy_of_ends
        · rintro c ⟨⟩
          exact hends
        · intro c hc
          rw [List.getLast?_append] at hc
          cases hc
          exact hends
      rw [htrim, hnamed]
      exact Text.trimBy_between rfl rfl h.nonempty hquote

theorem WellFormed.semicolon_notMem (h : form.WellFormed) (quoted : Bool) :
    ';' ∉ (form.named quoted).toList := by
  have hname := h.boundary.right.left
  cases quoted with
  | false =>
      rw [named, if_neg (by decide)]
      exact hname
  | true =>
      rw [named, if_pos rfl, String.toList_append, String.toList_append, List.mem_append,
        List.mem_append]
      rintro ((hc | hc) | hc)
      · exact absurd hc (by decide)
      · exact hname hc
      · exact absurd hc (by decide)

theorem WellFormed.boundary? (h : form.WellFormed) (quoted : Bool) :
    Multipart.boundary? (form.contentType quoted) = some form.boundary := by
  have hmultipart : MediaType.contains (form.contentType quoted) MediaType.multipart = true := by
    have hstart : MediaType.multipart.toList <+: "multipart/form-data; ".toList := by
      decide +kernel
    rw [MediaType.contains, holds, cut?_isSome_iff, contentType_toList, List.append_assoc]
    exact (hstart.trans (List.prefix_append _ _)).isInfix
  have hcut : cut? "boundary=".toList (form.contentType quoted).toList =
      some ("multipart/form-data; ".toList, (form.named quoted).toList) := by
    have hmark : "boundary=".toList = 'b' :: "oundary=".toList := by decide +kernel
    rw [cut?_eq_some_iff, contentType_toList, hmark]
    exact firstAt_of_unmarked (by decide +kernel) (by decide +kernel) _
  have hvalue : before [';'] (form.named quoted).toList = (form.named quoted).toList := by
    rw [before, cut?_singleton_eq_none (h.semicolon_notMem quoted)]
  have hne : form.boundary.toList.isEmpty = false := by
    rw [List.isEmpty_eq_false_iff]
    exact h.nonempty
  rw [Multipart.boundary?, if_pos hmultipart, hcut]
  simp only [hvalue, h.trim_named, hne]
  exact congrArg some (String.ofList_toList)

/-! # The first part -/

theorem WellFormed.cr_notMem_boundary (h : form.WellFormed) : 13 ∉ Utf8.encode form.boundary :=
  Utf8.notMem_encode (by decide) (by decide) h.boundary.left

theorem WellFormed.headerLines (h : form.WellFormed) :
    forall l, l ∈ form.headerLines -> l ≠ [] ∧ 13 ∉ l := by
  have hdashes : 13 ∉ Utf8.encode "--" := by decide +kernel
  have hopening : 13 ∉ Utf8.encode "Content-Disposition: form-data; filename=\"" := by
    decide +kernel
  intro l hl
  rw [Form.headerLines, List.mem_cons, List.mem_cons] at hl
  rcases hl with hl | hl | hl
  · rw [hl, Utf8.encode_append, List.mem_append, not_or]
    refine ⟨?_, hdashes, h.cr_notMem_boundary⟩
    exact List.append_ne_nil_of_left_ne_nil (by decide +kernel) _
  · rw [hl, disposition, List.mem_append, List.mem_append, not_or, not_or]
    refine ⟨?_, ⟨hopening, ?_⟩, by decide⟩
    · exact List.append_ne_nil_of_right_ne_nil _ (by decide)
    · exact Utf8.notMem_encode (by decide) (by decide) h.filename.left
  · exact h.lines l hl

theorem WellFormed.filename? (h : form.WellFormed) :
    Multipart.filename? (Bytes.crlf.intercalate form.headerLines) = some form.filename := by
  have hmark : Utf8.encode "filename=\"" = 102 :: Utf8.encode "ilename=\"" := by decide +kernel
  have hopening : Utf8.encode "Content-Disposition: form-data; filename=\"" =
      Utf8.encode "Content-Disposition: form-data; " ++ Utf8.encode "filename=\"" := by
    decide +kernel
  rcases exists_intercalate_cons Bytes.crlf form.disposition form.lines with ⟨behind, hbehind⟩
  generalize hfront : Utf8.encode ("--" ++ form.boundary) ++ Bytes.crlf ++
    Utf8.encode "Content-Disposition: form-data; " = front
  have hsplit : Bytes.crlf.intercalate form.headerLines =
      front ++ Utf8.encode "filename=\"" ++ (Utf8.encode form.filename ++ 34 :: behind) := by
    rw [Form.headerLines, List.intercalate_cons_cons, hbehind, disposition, hopening, ← hfront]
    simp only [List.append_assoc]
    rfl
  -- Nothing in front of the mark holds a quotation mark, with which it ends.
  have hquote : 34 ∉ front := by
    rw [← hfront, Utf8.encode_append, List.mem_append, List.mem_append, List.mem_append]
    rintro (((hmem | hmem) | hmem) | hmem)
    · exact absurd hmem (by decide +kernel)
    · exact Utf8.notMem_encode (by decide) (by decide) h.boundary.right.right hmem
    · exact absurd hmem (by decide)
    · exact absurd hmem (by decide +kernel)
  have hcut : cut? (Utf8.encode "filename=\"") (Bytes.crlf.intercalate form.headerLines) =
      some (front, Utf8.encode form.filename ++ 34 :: behind) := by
    rw [hsplit, cut?_eq_some_iff, hmark]
    apply firstAt_of_unmarked (by decide +kernel)
    intro hmarked
    rw [← hmark] at hmarked
    exact hquote (hmarked.subset (by decide +kernel))
  have hname : cut? Bytes.quote (Utf8.encode form.filename ++ 34 :: behind) =
      some (Utf8.encode form.filename, behind) :=
    cut?_singleton (Utf8.notMem_encode (by decide) (by decide) h.filename.right) behind
  have hdecode : Utf8.decodeLossy (Utf8.encode form.filename) = form.filename := by
    rw [Utf8.encode, Utf8.decodeLossy_encodeChars]
    exact String.ofList_toList
  rw [Multipart.filename?, hcut]
  simp only [Option.bind_eq_bind, Option.bind_some, hname]
  rw [hdecode]
  rfl

theorem WellFormed.extract_render (h : form.WellFormed) :
    extract form.boundary form.render = (form.payload, some form.filename) := by
  have hcut : cut? Bytes.blankLine form.render =
      some (Bytes.crlf.intercalate form.headerLines,
        form.payload ++ marker form.boundary ++ form.rest) := by
    have hfirst := Bytes.firstAt_blankLine h.headerLines
      (form.payload ++ marker form.boundary ++ form.rest)
    rw [cut?_eq_some_iff]
    simpa only [render, List.append_assoc] using hfirst
  have hmark : cut? (marker form.boundary)
      (form.payload ++ marker form.boundary ++ form.rest) = some (form.payload, form.rest) := by
    rw [cut?_eq_some_iff]
    exact firstAt_of_unmarked (by simpa using h.cr_notMem_boundary) h.payload form.rest
  rw [extract, hcut]
  simp only [before, hmark, h.filename?]

end Form
end Multipart
end HttpEngine
