import HttpEngine.Proofs.Multipart.Chunks

/-!
# Text in front of a form

A form may have a text in front of the delimiter that opens its first part.  The scanner looks for
a blank line and not for this delimiter.  So a preamble is passed over as long as no blank line ends
in it, and the name of the file is that of the first part if the preamble opens none.  Otherwise the
blank line in the preamble is taken for the end of the header, and what is given out is the rest of
the preamble.
-/

namespace HttpEngine
namespace Multipart

def delimiter (boundary : String) : Bytes :=
  [45, 45] ++ Utf8.encode boundary

theorem marker_eq (boundary : String) : marker boundary = Bytes.crlf ++ delimiter boundary :=
  rfl

/-! # Marks behind a preamble -/

theorem cut?_blankLine_preamble {preamble form : Bytes}
    (h : ¬ Bytes.blankLine <:+: preamble ++ Bytes.crlf) (hform : [45, 45] <+: form) :
    cut? Bytes.blankLine (preamble ++ Bytes.crlf ++ form) =
      (cut? Bytes.blankLine form).map fun cut => (preamble ++ Bytes.crlf ++ cut.1, cut.2) := by
  rcases hform with ⟨behind, hbehind⟩
  rw [← hbehind]
  exact cut?_append_cons_of_notMem (by decide) h _

theorem exists_header_eq_cons {form header rest : Bytes} (hform : [45, 45] <+: form)
    (h : cut? Bytes.blankLine form = some (header, rest)) :
    exists more : Bytes, header = 45 :: more := by
  rcases hform with ⟨behind, hbehind⟩
  have hsplit := hbehind.trans (eq_append_of_cut? h)
  cases header with
  | nil =>
      have hdash : (45 : UInt8) = 13 := (List.cons.inj hsplit).left
      exact absurd hdash (by decide)
  | cons c more => exact ⟨more, by rw [← (List.cons.inj hsplit).left]⟩

theorem opening_notInfix_preamble {preamble : Bytes} (h : ¬ opening <:+: preamble) :
    ¬ opening <:+: preamble ++ Bytes.crlf := by
  have hcr : (13 : UInt8) ∉ opening := by decide +kernel
  have hlonger : ([13, 10] : Bytes).length < opening.length := by decide +kernel
  rw [← cut?_eq_none_iff]
  show cut? opening (preamble ++ 13 :: [10]) = none
  rw [cut?_append_cons_of_notMem hcr h, cut?_eq_none_of_length_lt hlonger]
  rfl

theorem filename?_preamble {preamble header : Bytes} (h : ¬ opening <:+: preamble)
    (hheader : exists more : Bytes, header = 45 :: more) :
    filename? (preamble ++ Bytes.crlf ++ header) = filename? header := by
  have hdash : (45 : UInt8) ∉ opening := by decide +kernel
  rcases hheader with ⟨more, hmore⟩
  have hcut := cut?_append_cons_of_notMem hdash (opening_notInfix_preamble h) more
  rw [← hmore] at hcut
  unfold filename?
  change (cut? opening (preamble ++ Bytes.crlf ++ header)).bind _ = (cut? opening header).bind _
  rw [hcut, Option.bind_map]
  rfl

/-! # What is found behind a preamble -/

theorem extract_preamble (boundary : String) {preamble form : Bytes}
    (h : ¬ Bytes.blankLine <:+: preamble ++ Bytes.crlf) (hform : [45, 45] <+: form) :
    extract boundary (preamble ++ Bytes.crlf ++ form) =
      ((extract boundary form).1,
        (cut? Bytes.blankLine form).bind fun cut =>
          filename? (preamble ++ Bytes.crlf ++ cut.1)) := by
  unfold extract
  rw [cut?_blankLine_preamble h hform]
  cases cut? Bytes.blankLine form with
  | none => rfl
  | some cut => rfl

theorem bind_filename?_preamble (boundary : String) {preamble form : Bytes}
    (hform : [45, 45] <+: form) (hopening : ¬ opening <:+: preamble) :
    ((cut? Bytes.blankLine form).bind fun cut => filename? (preamble ++ Bytes.crlf ++ cut.1)) =
      (extract boundary form).2 := by
  unfold extract
  cases hcut : cut? Bytes.blankLine form with
  | none => rfl
  | some cut => exact filename?_preamble hopening (exists_header_eq_cons hform hcut)

theorem extract_of_blankLine_preamble (boundary : String) {preamble form header rest : Bytes}
    (h : FirstAt Bytes.blankLine (preamble ++ Bytes.crlf) header rest) :
    extract boundary (preamble ++ Bytes.crlf ++ form) =
      (before (marker boundary) (rest ++ form), filename? header) := by
  rw [extract, cut?_append_of_some (cut?_eq_some_iff.mpr h) form]

theorem UpTo.prefix_of_mark {mark front behind found : Bytes}
    (h : UpTo mark (front ++ mark ++ behind) found) : found <+: front := by
  cases h with
  | mark hfirst =>
      have hle := hfirst.first front behind rfl
      have hfound : found <+: front ++ (mark ++ behind) := by
        rw [← List.append_assoc, hfirst.split, List.append_assoc]
        exact List.prefix_append _ _
      exact List.prefix_of_prefix_length_le hfound (List.prefix_append _ _) hle
  | whole hnone => exact absurd ⟨front, behind, rfl⟩ hnone

namespace Scanner

def scan (boundary : String) (chunks : List Bytes) : Bytes × Option String :=
  let (given, scanner) := (new boundary).feedAll chunks
  (given ++ scanner.finish.1, scanner.finish.2.filename)

theorem scan_eq_extract (boundary : String) (chunks : List Bytes) :
    scan boundary chunks = extract boundary chunks.flatten :=
  (follows_feedAll_new boundary chunks).finish

variable {boundary : String} {preamble behind : Bytes} {chunks others : List Bytes}

/--
A form that begins with its delimiter is scanned with a preamble and without, each in any chunks.
If no blank line ends in the preamble, what is given out is the same, and the name is that of the
header with the preamble in front, which is the same if the preamble opens none.  If a blank line
does, this is where the header ends: the name is the one in front of it, and what is given out is
taken from behind it, so that nothing but the preamble is given out where the end of the line behind
the preamble is not part of the blank line.
-/
theorem scan_preamble (hform : chunks.flatten = delimiter boundary ++ Bytes.crlf ++ behind)
    (hothers : others.flatten = preamble ++ Bytes.crlf ++ chunks.flatten) :
    (¬ Bytes.blankLine <:+: preamble ++ Bytes.crlf ->
      (scan boundary others).1 = (scan boundary chunks).1 ∧
      (¬ opening <:+: preamble -> (scan boundary others).2 = (scan boundary chunks).2) ∧
      forall header rest, FirstAt Bytes.blankLine chunks.flatten header rest ->
        Named (preamble ++ Bytes.crlf ++ header) (scan boundary others).2) ∧
    (forall header rest, FirstAt Bytes.blankLine (preamble ++ Bytes.crlf) header rest ->
      UpTo (Multipart.marker boundary) (rest ++ chunks.flatten) (scan boundary others).1 ∧
      Named header (scan boundary others).2 ∧
      forall left, rest = left ++ Bytes.crlf -> (scan boundary others).1 <+: left) := by
  have hdashes : [45, 45] <+: chunks.flatten := by
    rw [hform, delimiter, List.append_assoc, List.append_assoc]
    exact List.prefix_append _ _
  rw [scan_eq_extract, scan_eq_extract, hothers]
  constructor
  · intro hblank
    rw [extract_preamble boundary hblank hdashes]
    refine ⟨rfl, bind_filename?_preamble boundary hdashes, ?_⟩
    intro header rest hheader
    rw [cut?_eq_some_iff.mpr hheader]
    exact named_iff.mpr rfl
  · intro header rest hheader
    rw [extract_of_blankLine_preamble boundary hheader]
    refine ⟨upTo_iff.mpr rfl, named_iff.mpr rfl, ?_⟩
    intro left hleft
    have hsplit : rest ++ chunks.flatten =
        left ++ Multipart.marker boundary ++ (Bytes.crlf ++ behind) := by
      rw [hleft, hform, marker_eq]
      simp only [List.append_assoc]
    have hupTo :=
      upTo_iff.mpr (Eq.refl (before (Multipart.marker boundary) (rest ++ chunks.flatten)))
    rw [hsplit] at hupTo ⊢
    exact hupTo.prefix_of_mark

/-! # A note that is passed over, and one that is not -/

def notedForm : Bytes :=
  Utf8.encode "--B\r\nContent-Disposition: form-data; filename=\"a\"\r\n\r\none\r\n--B--"

theorem scan_preamble_note :
    let preamble := Utf8.encode "a note"
    let whole := preamble ++ Bytes.crlf ++ notedForm
    ¬ Bytes.blankLine <:+: preamble ++ Bytes.crlf ∧ ¬ opening <:+: preamble ∧
    (scan "B" [whole.take 20, whole.drop 20]).1 = (scan "B" [notedForm]).1 ∧
    (scan "B" [whole.take 20, whole.drop 20]).2 = (scan "B" [notedForm]).2 := by
  intro preamble whole
  have hblank : ¬ Bytes.blankLine <:+: preamble ++ Bytes.crlf := by decide +kernel
  have hopening : ¬ opening <:+: preamble := by decide +kernel
  have hform : [notedForm].flatten = delimiter "B" ++ Bytes.crlf ++ notedForm.drop 5 := by
    decide +kernel
  have hothers : [whole.take 20, whole.drop 20].flatten =
      preamble ++ Bytes.crlf ++ [notedForm].flatten := by
    decide +kernel
  have hlaw := (scan_preamble hform hothers).left hblank
  exact ⟨hblank, hopening, hlaw.left, hlaw.right.left hopening⟩

theorem scan_preamble_lost :
    let preamble := Utf8.encode "a note\r\n\r\nwith a second part"
    delimiter "B" ++ Bytes.crlf <+: notedForm ∧ ¬ delimiter "B" <:+: preamble ∧
    scan "B" [notedForm] = (Utf8.encode "one", some "a") ∧
    scan "B" [preamble ++ Bytes.crlf ++ notedForm] =
      (Utf8.encode "with a second part", none) := by
  decide +kernel

end Scanner
end Multipart
end HttpEngine
