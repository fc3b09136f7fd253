import HttpEngine.Proofs.Request.RoundTrip
import Mathlib.Data.List.TakeWhile

/-!
# Which header fields are kept

The header fields of a request are those among the first lines behind the first line of its head, as
many lines as the limit allows.  A line that is no field uses the limit up as well: a head with few
enough fields keeps all of them only if no such line stands in front of one that is then beyond the
limit.
-/

namespace HttpEngine

/-! # Fields -/

namespace Header

inductive IsField : List Char -> Header -> Prop where
  | intro {name spaces value : List Char} : name ≠ [] -> ':' ∉ name ->
      (forall c, c ∈ spaces -> c = ' ') -> value.head? ≠ some ' ' ->
      IsField (name ++ ':' :: (spaces ++ value)) ⟨String.ofList name, String.ofList value⟩

/-- The fields of some lines, in order; lines that are none are passed over. -/
inductive FieldsOf : List (List Char) -> List Header -> Prop where
  | nil : FieldsOf [] []
  | field {line : List Char} {lines : List (List Char)} {field : Header} {fields : List Header} :
      IsField line field -> FieldsOf lines fields -> FieldsOf (line :: lines) (field :: fields)
  | other {line : List Char} {lines : List (List Char)} {fields : List Header} :
      (forall field, ¬ IsField line field) -> FieldsOf lines fields ->
      FieldsOf (line :: lines) fields

theorem dropWhile_spaces {spaces value : List Char} (hspaces : forall c, c ∈ spaces -> c = ' ')
    (hvalue : value.head? ≠ some ' ') :
    (spaces ++ value).dropWhile (· == ' ') = value := by
  rw [List.dropWhile_append_of_pos]
  · exact Pairs.dropWhile_space hvalue
  · intro c hc
    exact beq_iff_eq.mpr (hspaces c hc)

theorem parse?_eq_some_iff {line : List Char} {field : Header} :
    parse? line = some field ↔ IsField line field := by
  constructor
  · intro h
    unfold parse? at h
    split at h
    · next name rest hcut =>
      split at h
      · cases h
      · next hname =>
        have hvalue : (rest.dropWhile (· == ' ')).head? ≠ some ' ' := by
          intro hspace
          have hnot := List.head?_dropWhile_not (· == ' ') rest
          rw [hspace] at hnot
          cases hnot
        have hspaces : forall c, c ∈ rest.takeWhile (· == ' ') -> c = ' ' := by
          intro c hc
          have hspace := List.mem_takeWhile_imp hc
          exact beq_iff_eq.mp hspace
        have hfield := IsField.intro (by simpa using hname) (not_mem_of_cut?_singleton hcut) hspaces
          hvalue
        rw [List.takeWhile_append_dropWhile] at hfield
        cases h
        rw [eq_append_of_cut? hcut, List.append_assoc]
        exact hfield
    · cases h
  · intro h
    cases h with
    | @intro name spaces value hname hfree hspaces hvalue =>
        have hempty : name.isEmpty = false := by
          simpa using hname
        rw [parse?, cut?_singleton hfree]
        simp only [hempty, dropWhile_spaces hspaces hvalue]
        rfl

theorem parse?_eq_none_iff {line : List Char} :
    parse? line = none ↔ forall field, ¬ IsField line field := by
  rw [Option.eq_none_iff_forall_ne_some]
  exact forall_congr' fun field => not_congr parse?_eq_some_iff

theorem fieldsOf_iff {lines : List (List Char)} {fields : List Header} :
    FieldsOf lines fields ↔ fields = lines.filterMap parse? := by
  constructor
  · intro h
    induction h with
    | nil => rfl
    | field hfield _ ih =>
        rw [List.filterMap_cons_some (parse?_eq_some_iff.mpr hfield), ih]
    | other hnone _ ih =>
        rw [List.filterMap_cons_none (parse?_eq_none_iff.mpr hnone), ih]
  · intro h
    rw [h]
    induction lines generalizing fields with
    | nil => exact .nil
    | cons line lines ih =>
        cases hparse : parse? line with
        | some field =>
            rw [List.filterMap_cons_some hparse]
            exact .field (parse?_eq_some_iff.mp hparse) (ih rfl)
        | none =>
            rw [List.filterMap_cons_none hparse]
            exact .other (parse?_eq_none_iff.mp hparse) (ih rfl)

/-!
# Fields within a limit

The fields of the first lines are the first fields, but there may be fewer of them than the limit
allows although more follow.
-/

theorem FieldsOf.of_take {lines : List (List Char)} {all kept : List Header} {limit : Nat}
    (hall : FieldsOf lines all) (hkept : FieldsOf (lines.take limit) kept) :
    kept <+: all.take limit ∧
      (kept = all.take limit ↔
        (forall line, line ∈ lines.take limit -> exists field, IsField line field) ∨
          forall line, line ∈ lines.drop limit -> forall field, ¬ IsField line field) := by
  rw [fieldsOf_iff] at hall hkept
  have hsplit : all = kept ++ (lines.drop limit).filterMap parse? := by
    rw [hall, hkept, ← List.filterMap_append, List.take_append_drop]
  have hlength : kept.length ≤ (lines.take limit).length := by
    rw [hkept]
    exact List.length_filterMap_le _ _
  have hlimit : (lines.take limit).length = min limit lines.length := List.length_take
  have htake : all.take limit =
      kept ++ ((lines.drop limit).filterMap parse?).take (limit - kept.length) := by
    rw [hsplit, List.take_append, List.take_of_length_le (by omega)]
  have hfull : (forall line, line ∈ lines.take limit -> exists field, IsField line field) ↔
      kept.length = (lines.take limit).length := by
    rw [hkept, List.filterMap_length_eq_length]
    simp only [Option.isSome_iff_exists, parse?_eq_some_iff]
  have hlate : (forall line, line ∈ lines.drop limit -> forall field, ¬ IsField line field) ↔
      (lines.drop limit).filterMap parse? = [] := by
    rw [List.filterMap_eq_nil_iff]
    simp only [parse?_eq_none_iff]
  rw [htake, hfull, hlate]
  refine ⟨List.prefix_append _ _, ?_⟩
  rw [List.self_eq_append_right, List.take_eq_nil_iff]
  constructor
  · rintro (hroom | hnone)
    · exact Or.inl (by omega)
    · exact Or.inr hnone
  · rintro (hsame | hnone)
    · by_cases hshort : lines.length ≤ limit
      · rw [List.drop_eq_nil_of_le hshort]
        exact Or.inr rfl
      · exact Or.inl (by omega)
    · exact Or.inr hnone

end Header

/-! # Lines of a head -/

namespace RequestHead

theorem exists_lines_cons (text : List Char) :
    exists line more, Request.lines text = line :: more := by
  fun_induction Request.lines text with
  | case1 => exact ⟨[], [], rfl⟩
  | case2 rest => exact ⟨[], _, rfl⟩
  | case3 c rest _ ih =>
      rcases ih with ⟨line, more, hlines⟩
      exact ⟨c :: line, more, by rw [hlines]; rfl⟩

theorem intercalate_lines (text : List Char) :
    lineEnd.intercalate (Request.lines text) = text := by
  fun_induction Request.lines text with
  | case1 => rfl
  | case2 rest ih =>
      rcases exists_lines_cons rest with ⟨line, more, hlines⟩
      rw [hlines] at ih ⊢
      rw [List.intercalate_cons_cons, ih]
      rfl
  | case3 c rest _ ih =>
      rcases exists_lines_cons rest with ⟨line, more, hlines⟩
      rw [hlines] at ih ⊢
      rw [Request.onFirst, List.intercalate_cons_cons_left, ih]

theorem not_lineEnd_infix_lines {text line : List Char} (h : line ∈ Request.lines text) :
    ¬ lineEnd <:+: line := by
  fun_induction Request.lines text generalizing line with
  | case1 =>
      rw [List.mem_singleton.mp h]
      decide
  | case2 rest ih =>
      rcases List.mem_cons.mp h with hempty | hmem
      · rw [hempty]
        decide
      · exact ih hmem
  | case3 c rest hnot ih =>
      rcases exists_lines_cons rest with ⟨first, more, hlines⟩
      rw [hlines] at ih h
      rcases List.mem_cons.mp h with hfirst | hmem
      · rw [hfirst, List.infix_cons_iff]
        rintro (hstart | hinside)
        · -- A line end that begins with this character would have been cut off.
          rcases hstart with ⟨tail, htail⟩
          rcases List.cons.inj htail with ⟨hc, hline⟩
          have htext := intercalate_lines rest
          rw [hlines, ← hline] at htext
          cases more with
          | nil => exact hnot _ hc.symm (htext.symm.trans (List.intercalate_singleton))
          | cons next more =>
              rw [List.intercalate_cons_cons] at htext
              exact hnot _ hc.symm htext.symm
        · exact ih List.mem_cons_self hinside
      · exact ih (List.mem_cons_of_mem first hmem)

theorem withoutBlankLine_cases (text : List Char) :
    text = Request.withoutBlankLine text ++ lineEnd ++ lineEnd ∨
      text = Request.withoutBlankLine text ∧ ¬ lineEnd ++ lineEnd <:+ text := by
  unfold Request.withoutBlankLine
  split
  · next rest hreverse =>
    left
    have htext := congrArg List.reverse hreverse
    rw [List.reverse_reverse] at htext
    rw [htext]
    simp [lineEnd]
  · next hnone =>
    right
    refine ⟨rfl, ?_⟩
    rintro ⟨front, htext⟩
    apply hnone front.reverse
    rw [← htext]
    simp [lineEnd]

/-- A head is made up of lines, with a blank line at its end or with none. -/
structure HasLines (head : Bytes) (lines : List (List Char)) : Prop where
  text : head = Utf8.encodeChars (lineEnd.intercalate lines ++ lineEnd ++ lineEnd) ∨
    head = Utf8.encodeChars (lineEnd.intercalate lines) ∧
      ¬ lineEnd ++ lineEnd <:+ lineEnd.intercalate lines
  whole : forall line, line ∈ lines -> ¬ lineEnd <:+: line

theorem hasLines_encodeChars (text : List Char) :
    HasLines (Utf8.encodeChars text) (Request.lines (Request.withoutBlankLine text)) := by
  refine ⟨?_, fun line hline => not_lineEnd_infix_lines hline⟩
  rw [intercalate_lines]
  rcases withoutBlankLine_cases text with hblank | ⟨hsame, hnone⟩
  · exact Or.inl (congrArg Utf8.encodeChars hblank)
  · rw [← hsame]
    exact Or.inr ⟨rfl, hnone⟩

/-! # What is kept of a head -/

theorem headers_of_ofChars {text : List Char} {peer : SocketAddress} {limits : RequestLimits}
    {isTrusted : Bool} {request : Request}
    (h : Request.ofChars text peer limits isTrusted = .ok request) :
    request.headers =
      ((Request.lines (Request.withoutBlankLine text)).tail.take limits.maxHeaders).filterMap
        Header.parse? := by
  unfold Request.ofChars at h
  simp only at h
  cases hline : Request.firstLine ((Request.lines (Request.withoutBlankLine text)).headD []) with
  | error fault =>
      rw [hline] at h
      cases h
  | ok line =>
      rw [hline] at h
      rw [← Except.ok.inj h]

/--
The limit counts lines: what is kept are the fields among the first lines behind the first line of
the head, as many lines as the limit allows.  These are the first fields of the head, and as many as
the limit allows exactly if each of these lines is a field or none of the later lines is one.
-/
theorem headers_of_decode {head : Bytes} {peer : SocketAddress} {limits : RequestLimits}
    {isTrusted : Bool} {request : Request}
    (h : Request.decode head peer limits isTrusted = .ok request) :
    exists (first : List Char) (lines : List (List Char)) (all : List Header),
      HasLines head (first :: lines) ∧ Header.FieldsOf lines all ∧
      Header.FieldsOf (lines.take limits.maxHeaders) request.headers ∧
      request.headers <+: all.take limits.maxHeaders ∧
      (request.headers = all.take limits.maxHeaders ↔
        (forall line, line ∈ lines.take limits.maxHeaders ->
          exists field, Header.IsField line field) ∨
        forall line, line ∈ lines.drop limits.maxHeaders ->
          forall field, ¬ Header.IsField line field) := by
  unfold Request.decode at h
  cases htext : Utf8.decodeChars? head with
  | none =>
      rw [htext] at h
      cases h
  | some text =>
      rw [htext] at h
      have hheaders := headers_of_ofChars h
      have hlines := hasLines_encodeChars text
      rw [← Utf8.decodeChars?_eq_some_iff.mp htext] at hlines
      rcases exists_lines_cons (Request.withoutBlankLine text) with ⟨first, lines, hcons⟩
      rw [hcons] at hlines hheaders
      have hall : Header.FieldsOf lines (lines.filterMap Header.parse?) :=
        Header.fieldsOf_iff.mpr rfl
      have hkept := Header.fieldsOf_iff.mpr hheaders
      exact ⟨first, lines, _, hlines, hall, hkept, hall.of_take hkept⟩

def notedHead : Bytes :=
  Utf8.encode "GET / HTTP/1.1\r\na note\r\nContent-Length: 3\r\n\r\n"

def notedRequest : Request where
  method := .get
  path := "/"
  version := .http11
  headers := []
  query := []
  cookies := []
  params := []
  contentLength := 0
  body := none
  upload := none
  clientIp := "127.0.0.1"
  clientAddress := ⟨.v4 127 0 0 1, 50000, 0⟩
  error := none
  context := none

theorem headers_of_decode_noted :
    Request.decode notedHead ⟨.v4 127 0 0 1, 50000, 0⟩ { maxHeaders := 1 } false =
      .ok notedRequest ∧
    exists (first : List Char) (lines : List (List Char)) (all : List Header),
      HasLines notedHead (first :: lines) ∧ Header.FieldsOf lines all ∧
      Header.FieldsOf (lines.take 1) [] ∧ [] <+: all.take 1 ∧
      ([] = all.take 1 ↔
        (forall line, line ∈ lines.take 1 -> exists field, Header.IsField line field) ∨
        forall line, line ∈ lines.drop 1 -> forall field, ¬ Header.IsField line field) := by
  have hdecode : Request.decode notedHead ⟨.v4 127 0 0 1, 50000, 0⟩ { maxHeaders := 1 } false =
      .ok notedRequest := by
    decide +kernel
  exact ⟨hdecode, headers_of_decode hdecode⟩

/-- A head with no more fields than the limit loses one of them, and the length of its body. -/
theorem field_lost_within_limit :
    exists (first : List Char) (lines : List (List Char)) (all : List Header),
      HasLines notedHead (first :: lines) ∧ Header.FieldsOf lines all ∧
      all = [⟨"Content-Length", "3"⟩] ∧ all.length ≤ 1 ∧
      Request.decode notedHead ⟨.v4 127 0 0 1, 50000, 0⟩ { maxHeaders := 1 } false =
        .ok notedRequest ∧
      notedRequest.headers ≠ all.take 1 ∧ notedRequest.header? "content-length" = none ∧
      notedRequest.contentLength = 0 := by
  refine ⟨"GET / HTTP/1.1".toList, ["a note".toList, "Content-Length: 3".toList],
    [⟨"Content-Length", "3"⟩], ⟨Or.inl ?_, ?_⟩, Header.fieldsOf_iff.mpr ?_, rfl, by decide, ?_, ?_,
    rfl, rfl⟩
  · decide +kernel
  · decide +kernel
  · decide +kernel
  · decide +kernel
  · decide +kernel

end RequestHead
end HttpEngine
