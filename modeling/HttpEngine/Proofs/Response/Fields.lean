import HttpEngine.Proofs.Response.Reading

/-!
# The first fields of a head

Behind its status line a head has the fields for the type, the length and the hash of the body,
each on a line of its own, whatever comes behind them.  As long as the type is one line, a client
that looks for the hash finds it there.
-/

namespace HttpEngine

/-- The value of the first line of a head that is a field of some name. -/
def Message.value? (name : String) (head : Bytes) : Option Bytes :=
  ((Bytes.lines head).filterMap field?).lookup (Utf8.encode name)

namespace Response

/-! # The lines -/

def typeLine (r : Response) : Bytes :=
  fieldText (textField "Content-Type" r.contentType)

def lengthLine (r : Response) : Bytes :=
  fieldText (Utf8.encode "Content-Length", Decimal.natural r.body.length)

def tagLine (r : Response) : Bytes :=
  fieldText (textField "ETag" r.etag)

def aboveLength (r : Response) : Bytes :=
  Utf8.encode (statusText r.status) ++ Bytes.crlf ++ r.typeLine ++ Bytes.crlf

def aboveTag (r : Response) : Bytes :=
  r.aboveLength ++ r.lengthLine ++ Bytes.crlf

theorem encodeHead_eq_tagLine (r : Response) (policy : Option (Cors × String)) :
    exists rest, r.encodeHead policy = r.aboveTag ++ r.tagLine ++ Bytes.crlf ++ rest := by
  have hline : forall field : Bytes × Bytes, fieldLine field = fieldText field ++ Bytes.crlf := by
    intro field
    rfl
  refine ⟨(r.headers ++ [textField "Connection" "close"] ++
    policyFields policy).flatMap fieldLine ++ Bytes.crlf, ?_⟩
  rw [encodeHead, fields_eq, line_eq]
  simp only [List.append_assoc, List.flatMap_append, List.flatMap_cons, List.flatMap_nil, hline,
    aboveTag, aboveLength, typeLine, lengthLine, tagLine, List.nil_append]

theorem encodeHead_eq_lengthLine (r : Response) (policy : Option (Cors × String)) :
    exists rest, r.encodeHead policy = r.aboveLength ++ r.lengthLine ++ Bytes.crlf ++ rest := by
  rcases encodeHead_eq_tagLine r policy with ⟨rest, hrest⟩
  refine ⟨r.tagLine ++ Bytes.crlf ++ rest, ?_⟩
  rw [hrest, aboveTag, List.append_assoc _ r.tagLine, List.append_assoc _ (r.tagLine ++ Bytes.crlf)]

/-! # What a client finds -/

theorem field?_statusText (status : Status) :
    Message.field? (Utf8.encode (statusText status)) = none := by
  have hfree : ':' ∉ (statusText status).toList := by
    cases status <;> decide +kernel
  have hbyte : 58 ∉ Utf8.encode (statusText status) :=
    Utf8.notMem_encode (by decide) (by decide) hfree
  rw [Message.field?, cut?_eq_none_iff]
  intro hmark
  exact hbyte (hmark.subset List.mem_cons_self)

theorem cr_notMem_tagLine (r : Response) : 13 ∉ r.tagLine :=
  cr_notMem_fieldText (cr_notMem_encode (by decide)) (cr_notMem_encode (cr_notMem_etag r))

theorem filterMap_lines {r : Response} (h : '\r' ∉ r.contentType.toList)
    (policy : Option (Cors × String)) :
    exists more, (Bytes.lines (r.encodeHead policy)).filterMap Message.field? =
      textField "Content-Type" r.contentType ::
      (Utf8.encode "Content-Length", Decimal.natural r.body.length) ::
      textField "ETag" r.etag :: more := by
  have hstatus : 13 ∉ Utf8.encode (statusText r.status) :=
    cr_notMem_encode (cr_notMem_statusText r.status)
  have htype : 13 ∉ r.typeLine :=
    cr_notMem_fieldText (cr_notMem_encode (by decide)) (cr_notMem_encode h)
  have hlength : 13 ∉ r.lengthLine :=
    cr_notMem_fieldText (cr_notMem_encode (by decide)) (cr_notMem_natural _)
  have hreadType : Message.field? r.typeLine = some (textField "Content-Type" r.contentType) :=
    field?_fieldText (by decide : 58 ∉ Utf8.encode "Content-Type")
  have hreadLength : Message.field? r.lengthLine =
      some (Utf8.encode "Content-Length", Decimal.natural r.body.length) :=
    field?_fieldText (by decide : 58 ∉ Utf8.encode "Content-Length")
  have hreadTag : Message.field? r.tagLine = some (textField "ETag" r.etag) :=
    field?_fieldText (by decide : 58 ∉ Utf8.encode "ETag")
  rcases encodeHead_eq_tagLine r policy with ⟨rest, hrest⟩
  have hhead : r.encodeHead policy =
      Utf8.encode (statusText r.status) ++ Bytes.crlf ++ (r.typeLine ++ Bytes.crlf ++
        (r.lengthLine ++ Bytes.crlf ++ (r.tagLine ++ Bytes.crlf ++ rest))) := by
    rw [hrest, aboveTag, aboveLength]
    simp only [List.append_assoc]
  refine ⟨(Bytes.lines rest).filterMap Message.field?, ?_⟩
  rw [hhead, Bytes.lines_append hstatus, Bytes.lines_append htype, Bytes.lines_append hlength,
    Bytes.lines_append (cr_notMem_tagLine r), List.filterMap_cons_none (field?_statusText r.status),
    List.filterMap_cons_some hreadType, List.filterMap_cons_some hreadLength,
    List.filterMap_cons_some hreadTag]

theorem value?_tag {r : Response} (h : '\r' ∉ r.contentType.toList)
    (policy : Option (Cors × String)) :
    Message.value? "ETag" (r.encodeHead policy) = some (Utf8.encode r.etag) := by
  rcases filterMap_lines h policy with ⟨more, hmore⟩
  have htype : (Utf8.encode "ETag" == Utf8.encode "Content-Type") = false := by decide
  have hlength : (Utf8.encode "ETag" == Utf8.encode "Content-Length") = false := by decide
  simp only [Message.value?, hmore, textField, List.lookup_cons, htype, hlength,
    beq_self_eq_true]

end Response
end HttpEngine
