import HttpEngine.Proofs.Decimal.Sizes
import HttpEngine.Proofs.Response.Building
import HttpEngine.Proofs.Response.Policy
import HttpEngine.Proofs.Text.Encoding
import HttpEngine.Proofs.Text.Lines

/-!
# Responses that are read back

A client reads up to the first blank line, cuts the head into lines and each line at the first colon
with a space behind it, and takes as many further bytes as the length field says.  If no part of the
head holds a carriage return and no name a colon, it finds the status line, the fields in order and
the body, whatever the body holds and whatever comes behind it.
-/

namespace HttpEngine

/-! # Reading -/

structure Message where
  statusLine : Bytes
  fields : List (Bytes × Bytes)
  body : Bytes
  deriving DecidableEq, Repr

namespace Message

def colon : Bytes := [58, 32]

def field? (line : Bytes) : Option (Bytes × Bytes) :=
  cut? colon line

def ofLines? (rest : Bytes) : List Bytes -> Option Message
  | [] => none
  | statusLine :: lines => do
      let fields <- lines.mapM field?
      let length <- fields.lookup (Utf8.encode "Content-Length")
      return { statusLine, fields, body := rest.take (Decimal.value length) }

def read? (bytes : Bytes) : Option Message := do
  let (head, rest) <- cut? Bytes.blankLine bytes
  ofLines? rest (Bytes.lines head)

end Message

namespace Response

/-! # What is written -/

def statusText (status : Status) : String :=
  s!"HTTP/1.1 {status.code} {status.reason}"

def fieldText (field : Bytes × Bytes) : Bytes :=
  field.1 ++ Message.colon ++ field.2

def headLines (r : Response) (policy : Option (Cors × String)) : List Bytes :=
  Utf8.encode (statusText r.status) :: (r.fields policy).map fieldText

/-- A carriage return stands in no part of a response that comes into its head. -/
structure OneLined (r : Response) : Prop where
  contentType : '\r' ∉ r.contentType.toList
  headers : forall field, field ∈ r.headers -> 13 ∉ field.1 ∧ 13 ∉ field.2

def PolicyOneLined (policy : Option (Cors × String)) : Prop :=
  forall cors origin, policy = some (cors, origin) ->
    '\r' ∉ origin.toList ∧ '\r' ∉ cors.methods.toList ∧ '\r' ∉ cors.headers.toList

theorem intercalate_append_crlf (line : Bytes) (more : List Bytes) :
    Bytes.crlf.intercalate (line :: more) ++ Bytes.crlf =
      (line :: more).flatMap fun l => l ++ Bytes.crlf := by
  induction more generalizing line with
  | nil =>
      rw [List.intercalate_singleton, List.flatMap_singleton]
  | cons next more ih =>
      rw [List.intercalate_cons_cons, List.append_assoc, ih]
      rfl

theorem line_eq (status : Status) :
    Utf8.encode status.line = Utf8.encode (statusText status) ++ Bytes.crlf :=
  Utf8.encode_append _ _

theorem encodeHead_eq_intercalate (r : Response) (policy : Option (Cors × String)) :
    r.encodeHead policy = Bytes.crlf.intercalate (r.headLines policy) ++ Bytes.blankLine := by
  have hlines := intercalate_append_crlf (Utf8.encode (statusText r.status))
    ((r.fields policy).map fieldText)
  have hblank : Bytes.blankLine = Bytes.crlf ++ Bytes.crlf := rfl
  rw [List.flatMap_cons, List.flatMap_map] at hlines
  rw [headLines, hblank, ← List.append_assoc, hlines, encodeHead, line_eq]
  rfl

/-! # No carriage returns -/

theorem cr_notMem_encode {text : String} (h : '\r' ∉ text.toList) : 13 ∉ Utf8.encode text :=
  Utf8.notMem_encode (by decide) (by decide) h

theorem cr_notMem_toDigits {base : Nat} (hbase : 1 < base) (n : Nat) :
    '\r' ∉ Nat.toDigits base n :=
  Decimal.notMem_toDigits (fun d => Nat.digitChar_ne '\r' (by decide)) hbase n

theorem cr_notMem_natural (n : Nat) : 13 ∉ Decimal.natural n := by
  intro hmem
  exact cr_notMem_toDigits (by decide) n
    ((Utf8.mem_encodeChars_iff (by decide) (by decide)).mp hmem)

theorem cr_notMem_etag (r : Response) : '\r' ∉ r.etag.toList := by
  have hquote : '\r' ∉ "\"".toList := by decide
  have hhash : '\r' ∉ (Decimal.hex8 (djb2 r.body)).toList := by
    rw [Decimal.hex8, String.toList_ofList, List.leftpad, List.mem_append, not_or]
    refine ⟨?_, cr_notMem_toDigits (by decide) _⟩
    intro hmem
    exact absurd (List.eq_of_mem_replicate hmem) (by decide)
  rw [etag, String.toList_append, String.toList_append, List.mem_append, List.mem_append]
  rintro ((hmem | hmem) | hmem)
  · exact hquote hmem
  · exact hhash hmem
  · exact hquote hmem

theorem cr_notMem_statusText (status : Status) : '\r' ∉ (statusText status).toList := by
  cases status <;> decide +kernel

theorem statusText_ne_nil (status : Status) : Utf8.encode (statusText status) ≠ [] := by
  cases status <;> decide +kernel

/-! # The fields, one by one -/

def texts (r : Response) (policy : Option (Cors × String)) : List (String × String) :=
  [("Content-Type", r.contentType), ("ETag", r.etag), ("Connection", "close")] ++
  policy.toList.flatMap fun (cors, origin) => cors.fields origin

theorem mem_fields {r : Response} {policy : Option (Cors × String)} {field : Bytes × Bytes}
    (h : field ∈ r.fields policy) :
    (exists name value, (name, value) ∈ r.texts policy ∧ field = textField name value) ∨
      field = (Utf8.encode "Content-Length", Decimal.natural r.body.length) ∨
      field ∈ r.headers := by
  cases policy with
  | none =>
      simp only [fields, List.append_nil, List.mem_append, List.mem_cons, List.not_mem_nil,
        or_false] at h
      rcases h with ((htype | hlength | hetag) | hadded) | hend
      · exact Or.inl ⟨_, _, by simp [texts], htype⟩
      · exact Or.inr (Or.inl hlength)
      · exact Or.inl ⟨_, _, by simp [texts], hetag⟩
      · exact Or.inr (Or.inr hadded)
      · exact Or.inl ⟨_, _, by simp [texts], hend⟩
  | some applied =>
      simp only [fields, List.mem_append, List.mem_cons, List.not_mem_nil, or_false,
        List.mem_map] at h
      rcases h with (((htype | hlength | hetag) | hadded) | hend) | ⟨shown, hmem, hshown⟩
      · exact Or.inl ⟨_, _, by simp [texts], htype⟩
      · exact Or.inr (Or.inl hlength)
      · exact Or.inl ⟨_, _, by simp [texts], hetag⟩
      · exact Or.inr (Or.inr hadded)
      · exact Or.inl ⟨_, _, by simp [texts], hend⟩
      · refine Or.inl ⟨shown.1, shown.2, ?_, hshown.symm⟩
        exact List.mem_append_right _ (by simpa using hmem)

def policyFields : Option (Cors × String) -> List (Bytes × Bytes)
  | some (cors, origin) =>
      [textField "Access-Control-Allow-Origin" origin,
       textField "Access-Control-Allow-Methods" cors.methods,
       textField "Access-Control-Allow-Headers" cors.headers]
  | none => []

theorem fields_eq (r : Response) (policy : Option (Cors × String)) :
    r.fields policy =
      [textField "Content-Type" r.contentType,
       (Utf8.encode "Content-Length", Decimal.natural r.body.length),
       textField "ETag" r.etag] ++
      r.headers ++
      [textField "Connection" "close"] ++
      policyFields policy := by
  cases policy with
  | none => rfl
  | some applied => rfl

variable {r : Response} {policy : Option (Cors × String)}

theorem OneLined.texts (hr : r.OneLined) (hpolicy : PolicyOneLined policy) :
    forall name value, (name, value) ∈ r.texts policy ->
      '\r' ∉ name.toList ∧ '\r' ∉ value.toList := by
  intro name value hmem
  simp only [Response.texts, List.mem_append, List.mem_cons, List.not_mem_nil, or_false,
    List.mem_flatMap, Option.mem_toList, Prod.mk.injEq] at hmem
  rcases hmem with (htype | hetag | hend) | ⟨⟨cors, origin⟩, happlied, hshown⟩
  · rw [htype.left, htype.right]
    exact ⟨by decide, hr.contentType⟩
  · rw [hetag.left, hetag.right]
    exact ⟨by decide, cr_notMem_etag r⟩
  · rw [hend.left, hend.right]
    exact ⟨by decide, by decide⟩
  · rcases hpolicy cors origin happlied with ⟨horigin, hmethods, hheaders⟩
    simp only [Cors.fields, List.mem_cons, List.not_mem_nil, or_false, Prod.mk.injEq] at hshown
    rcases hshown with ⟨hname, hvalue⟩ | ⟨hname, hvalue⟩ | ⟨hname, hvalue⟩ <;> rw [hname, hvalue]
    · exact ⟨by decide, horigin⟩
    · exact ⟨by decide, hmethods⟩
    · exact ⟨by decide, hheaders⟩

theorem OneLined.fields (hr : r.OneLined) (hpolicy : PolicyOneLined policy) :
    forall field, field ∈ r.fields policy -> 13 ∉ field.1 ∧ 13 ∉ field.2 := by
  intro field hfield
  rcases mem_fields hfield with ⟨name, value, hmem, htext⟩ | hlength | hadded
  · rcases hr.texts hpolicy name value hmem with ⟨hname, hvalue⟩
    rw [htext]
    exact ⟨cr_notMem_encode hname, cr_notMem_encode hvalue⟩
  · rw [hlength]
    exact ⟨cr_notMem_encode (by decide), cr_notMem_natural _⟩
  · exact hr.headers field hadded

theorem cr_notMem_fieldText {name value : Bytes} (hname : 13 ∉ name) (hvalue : 13 ∉ value) :
    13 ∉ fieldText (name, value) := by
  rw [fieldText, List.mem_append, List.mem_append]
  rintro ((hin | hin) | hin)
  · exact hname hin
  · exact absurd hin (by decide)
  · exact hvalue hin

theorem OneLined.headLines (hr : r.OneLined) (hpolicy : PolicyOneLined policy) :
    forall l, l ∈ r.headLines policy -> l ≠ [] ∧ 13 ∉ l := by
  intro l hl
  rcases List.mem_cons.mp hl with hstatus | hfield
  · rw [hstatus]
    exact ⟨statusText_ne_nil _, cr_notMem_encode (cr_notMem_statusText _)⟩
  · rcases List.mem_map.mp hfield with ⟨field, hmem, hl⟩
    rcases hr.fields hpolicy field hmem with ⟨hname, hvalue⟩
    rw [← hl]
    exact ⟨by simp [fieldText, Message.colon], cr_notMem_fieldText hname hvalue⟩

theorem colon_notMem_fields (hnames : forall field, field ∈ r.headers -> 58 ∉ field.1)
    (policy : Option (Cors × String)) :
    forall field, field ∈ r.fields policy -> 58 ∉ field.1 := by
  intro field hfield
  rcases mem_fields hfield with ⟨name, value, hmem, htext⟩ | hlength | hadded
  · have hname : name ∈ ["Content-Type", "ETag", "Connection", "Access-Control-Allow-Origin",
        "Access-Control-Allow-Methods", "Access-Control-Allow-Headers"] := by
      simp only [texts, Cors.fields, List.mem_append, List.mem_cons, List.not_mem_nil, or_false,
        List.mem_flatMap, Prod.mk.injEq] at hmem ⊢
      grind
    have hfree : forall own, own ∈ ["Content-Type", "ETag", "Connection",
        "Access-Control-Allow-Origin", "Access-Control-Allow-Methods",
        "Access-Control-Allow-Headers"] -> 58 ∉ Utf8.encode own := by
      decide +kernel
    rw [htext]
    exact hfree name hname
  · rw [hlength]
    exact (by decide +kernel : 58 ∉ Utf8.encode "Content-Length")
  · exact hnames field hadded

/-! # What is read -/

theorem OneLined.firstAt_blankLine (hr : r.OneLined) (hpolicy : PolicyOneLined policy)
    (rest : Bytes) :
    FirstAt Bytes.blankLine (r.encodeHead policy ++ rest)
      (Bytes.crlf.intercalate (r.headLines policy)) rest := by
  rw [encodeHead_eq_intercalate]
  exact Bytes.firstAt_blankLine (hr.headLines hpolicy) rest

theorem field?_fieldText {field : Bytes × Bytes} (h : 58 ∉ field.1) :
    Message.field? (fieldText field) = some field := by
  rw [Message.field?, fieldText, cut?_eq_some_iff]
  apply firstAt_of_unmarked (by decide)
  intro hmark
  exact h (hmark.subset List.mem_cons_self)

theorem mapM_field? {fields : List (Bytes × Bytes)}
    (h : forall field, field ∈ fields -> 58 ∉ field.1) :
    (fields.map fieldText).mapM Message.field? = some fields := by
  induction fields with
  | nil => rfl
  | cons field fields ih =>
      have hrest : forall f, f ∈ fields -> 58 ∉ f.1 := by
        intro f hf
        exact h f (List.mem_cons_of_mem field hf)
      rw [List.map_cons, List.mapM_cons, field?_fieldText (h field List.mem_cons_self), ih hrest]
      rfl

theorem lookup_contentLength (r : Response) (policy : Option (Cors × String)) :
    (r.fields policy).lookup (Utf8.encode "Content-Length") =
      some (Decimal.natural r.body.length) := by
  have htype : (Utf8.encode "Content-Length" == Utf8.encode "Content-Type") = false := by decide
  simp only [fields, textField, List.cons_append, List.lookup_cons, htype, beq_self_eq_true]

theorem OneLined.read? (hr : r.OneLined) (hpolicy : PolicyOneLined policy)
    (hnames : forall field, field ∈ r.headers -> 58 ∉ field.1) (more : Bytes) :
    Message.read? (r.encodeHead policy ++ r.body ++ more) = some {
      statusLine := Utf8.encode (statusText r.status),
      fields := r.fields policy,
      body := r.body } := by
  have hcut : cut? Bytes.blankLine (r.encodeHead policy ++ r.body ++ more) =
      some (Bytes.crlf.intercalate (r.headLines policy), r.body ++ more) := by
    rw [List.append_assoc]
    exact cut?_eq_some_iff.mpr (hr.firstAt_blankLine hpolicy (r.body ++ more))
  have hlines : Bytes.lines (Bytes.crlf.intercalate (r.headLines policy)) =
      r.headLines policy :=
    Bytes.lines_intercalate fun l hl => (hr.headLines hpolicy l hl).right
  have hfields := mapM_field? (colon_notMem_fields hnames policy)
  have hread : Message.ofLines? (r.body ++ more) (r.headLines policy) = some {
      statusLine := Utf8.encode (statusText r.status),
      fields := r.fields policy,
      body := r.body } := by
    simp only [Message.ofLines?, Response.headLines, hfields, Option.bind_eq_bind,
      Option.bind_some, lookup_contentLength, Decimal.value_natural, List.take_left]
    rfl
  rw [← hlines] at hread
  rw [Message.read?, hcut]
  exact hread

/--
However a response was built, its head ends at the first blank line of what is sent.  Up to there a
client finds the last status, the last type, the length and the hash of the last body, the added
fields in order, the field that ends the connection and the lines of a policy if there is one; and
the bytes that it then takes are the last body.
-/
theorem read?_edited (r : Response) (edits : List Edit) (policy : Option (Cors × String))
    (hlines : (r.edited edits).OneLined) (hpolicy : PolicyOneLined policy) :
    let head := (r.edited edits).encodeHead policy
    let body := Edit.lastOf Edit.body? edits r.body
    let added := edits.reverse.flatMap Edit.inherited ++ r.headers ++ edits.flatMap Edit.added
    (r.edited edits).body = body ∧
    (exists front, head = front ++ Bytes.blankLine ∧
      forall rest, FirstAt Bytes.blankLine (head ++ rest) front rest) ∧
    ((forall field, field ∈ added -> 58 ∉ field.1) -> forall more,
      Message.read? (head ++ body ++ more) = some {
        statusLine := Utf8.encode (statusText (Edit.lastOf Edit.status? edits r.status)),
        fields :=
          [textField "Content-Type" (Edit.lastOf Edit.contentType? edits r.contentType),
           (Utf8.encode "Content-Length", Decimal.natural body.length),
           textField "ETag" ("\"" ++ Decimal.hex8 (djb2 body) ++ "\"")] ++
          added ++
          [textField "Connection" "close"] ++
          policyFields policy,
        body }) := by
  intro head body added
  have hbody : (r.edited edits).body = body := body_edited r edits
  have hadded : (r.edited edits).headers = added := headers_edited r edits
  refine ⟨hbody, ⟨_, encodeHead_eq_intercalate _ _, hlines.firstAt_blankLine hpolicy⟩, ?_⟩
  intro hnames more
  rw [← hadded] at hnames
  have hread := hlines.read? hpolicy hnames more
  rw [fields_eq, etag, hadded, hbody, contentType_edited, status_edited] at hread
  exact hread

/--
A body that was replaced by one with a blank line in it, behind fields that were added and
inherited, is read back with them.
-/
theorem read?_edited_replaced :
    let earlier := (new .ok).addHeader "Vary" "Origin"
    let edits : List Edit :=
      [.addHeader "X-Step" "1: a", .setBody "two\r\n\r\nparts", .inheritHeaders earlier,
       .setStatus .created]
    let policy : Option (Cors × String) := some ({ origins := ["http://a"] }, "http://a")
    let r := (plain .ok "one").edited edits
    r.OneLined ∧ PolicyOneLined policy ∧
    (forall field, field ∈ r.headers -> 58 ∉ field.1) ∧
    Message.read? (r.encodeHead policy ++ Utf8.encode "two\r\n\r\nparts" ++ Utf8.encode "more") =
      some {
        statusLine := Utf8.encode "HTTP/1.1 201 Created",
        fields :=
          [textField "Content-Type" "text/plain",
           textField "Content-Length" "12",
           textField "ETag" "\"72a4da77\"",
           textField "Vary" "Origin",
           textField "X-Step" "1: a",
           textField "Connection" "close",
           textField "Access-Control-Allow-Origin" "http://a",
           textField "Access-Control-Allow-Methods" "GET, POST, PUT, DELETE, OPTIONS",
           textField "Access-Control-Allow-Headers" "Content-Type"],
        body := Utf8.encode "two\r\n\r\nparts" } := by
  intro earlier edits policy r
  have hlines : r.OneLined := ⟨by decide +kernel, by decide +kernel⟩
  have hpolicy : PolicyOneLined policy := by
    intro cors origin h
    cases Option.some.inj h
    exact ⟨by decide, by decide, by decide⟩
  have hnames : forall field, field ∈ r.headers -> 58 ∉ field.1 := by
    decide +kernel
  refine ⟨hlines, hpolicy, hnames, ?_⟩
  refine ((read?_edited (plain .ok "one") edits policy hlines hpolicy).right.right ?_
    (Utf8.encode "more")).trans ?_
  · decide +kernel
  · decide +kernel

end Response
end HttpEngine
