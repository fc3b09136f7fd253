import HttpEngine.Request.Decode
import HttpEngine.Proofs.Decimal.Sizes
import HttpEngine.Proofs.Request.Pairs

/-!
# Heads that are read back

A head is written as a first line with single spaces, a line for each header field, and a blank
line.  Reading gives back every part of it: the text is cut at line ends, spaces, question marks,
ampersands, equals signs, colons and semicolons, and no part holds what it would be cut at.
-/

namespace HttpEngine

structure RequestHead where
  method : Method
  version : Version
  path : String
  query : List Pair
  headers : List Header

namespace RequestHead

/-! # Writing -/

def lineEnd : List Char := ['\r', '\n']

def target (h : RequestHead) : List Char :=
  h.path.toList ++ if h.query.isEmpty then [] else '?' :: Pairs.queryText h.query

def firstLine (h : RequestHead) : List Char :=
  h.method.token.toList ++ ' ' :: (h.target ++ ' ' :: h.version.token.toList)

def headerLine (field : Header) : List Char :=
  field.name.toList ++ ':' :: ' ' :: field.value.toList

def text (h : RequestHead) : List Char :=
  h.firstLine ++ lineEnd ++ (h.headers.flatMap fun field => headerLine field ++ lineEnd) ++ lineEnd

def render (h : RequestHead) : Bytes :=
  Utf8.encodeChars h.text

/-- A head within the limits, whose parts hold nothing at which they would be cut. -/
structure WellFormed (limits : RequestLimits) (h : RequestHead) : Prop where
  slash : h.path.toList.head? = some '/'
  path : FreeOf [' ', '\r', '\n', '?'] h.path.toList
  query : Pairs.IsQuery h.query
  queryLimit : h.query.length ≤ limits.maxQueryParams
  names : forall field, field ∈ h.headers ->
    field.name.toList ≠ [] ∧ FreeOf [':', '\r', '\n'] field.name.toList
  values : forall field, field ∈ h.headers ->
    FreeOf ['\r', '\n'] field.value.toList ∧ field.value.toList.head? ≠ some ' '
  headersLimit : h.headers.length ≤ limits.maxHeaders

/-! # Lines -/

theorem lines_cons {c : Char} (h : c ≠ '\r') (rest : List Char) :
    Request.lines (c :: rest) = Request.onFirst c (Request.lines rest) := by
  rw [Request.lines]
  intro more hc _
  exact h hc

theorem lines_of_free {line : List Char} (h : '\r' ∉ line) : Request.lines line = [line] := by
  induction line with
  | nil => rfl
  | cons c line ih =>
      have hc : c ≠ '\r' := fun heq => h (heq ▸ List.mem_cons_self)
      rw [lines_cons hc, ih fun hmem => h (List.mem_cons_of_mem _ hmem)]
      rfl

theorem lines_append {line : List Char} (h : '\r' ∉ line) (rest : List Char) :
    Request.lines (line ++ lineEnd ++ rest) = line :: Request.lines rest := by
  induction line with
  | nil => rfl
  | cons c line ih =>
      have hc : c ≠ '\r' := fun heq => h (heq ▸ List.mem_cons_self)
      rw [List.cons_append, List.cons_append, lines_cons hc,
        ih fun hmem => h (List.mem_cons_of_mem _ hmem)]
      rfl

theorem lines_flatMap {line : List Char} {more : List (List Char)} (h : '\r' ∉ line)
    (hmore : forall l, l ∈ more -> '\r' ∉ l) :
    Request.lines (line ++ more.flatMap fun l => lineEnd ++ l) = line :: more := by
  induction more generalizing line with
  | nil =>
      rw [List.flatMap_nil, List.append_nil]
      exact lines_of_free h
  | cons next more ih =>
      rw [List.flatMap_cons, ← List.append_assoc, ← List.append_assoc, List.append_assoc,
        lines_append h, ih (hmore next List.mem_cons_self)]
      intro l hl
      exact hmore l (List.mem_cons_of_mem _ hl)

theorem withoutBlankLine_append (text : List Char) :
    Request.withoutBlankLine (text ++ lineEnd ++ lineEnd) = text := by
  unfold Request.withoutBlankLine
  simp [lineEnd]

theorem lineEnd_flatMap (lines : List (List Char)) :
    lineEnd ++ (lines.flatMap fun l => l ++ lineEnd) =
      (lines.flatMap fun l => lineEnd ++ l) ++ lineEnd := by
  induction lines with
  | nil => rfl
  | cons l lines ih =>
      rw [List.flatMap_cons, List.flatMap_cons, List.append_assoc, List.append_assoc,
        List.append_assoc, ih]

/-! # The first line -/

theorem free_token (method : Method) : FreeOf [' ', '\r'] method.token.toList := by
  cases method <;> decide

theorem free_version (version : Version) : FreeOf [' ', '\r'] version.token.toList := by
  cases version <;> decide

theorem ofBytes?_token (method : Method) :
    Method.ofBytes? (Utf8.encodeChars method.token.toList) = some method := by
  cases method <;> decide +kernel

theorem ofBytes_token (version : Version) :
    Version.ofBytes (Utf8.encodeChars version.token.toList) = .known version := by
  cases version <;> decide +kernel

variable {h : RequestHead} {limits : RequestLimits}

theorem WellFormed.target_free (hwell : h.WellFormed limits) :
    FreeOf [' ', '\r', '\n'] h.target := by
  intro c hc
  have hpath : c ∉ h.path.toList := by
    apply hwell.path
    exact List.mem_append_left ['?'] hc
  have hmark : c ≠ '?' := by
    rintro rfl
    revert hc
    decide
  rw [target, List.mem_append]
  rintro (hmem | hmem)
  · exact hpath hmem
  · split at hmem
    · cases hmem
    · rcases List.mem_cons.mp hmem with heq | hquery
      · exact hmark heq
      · exact Pairs.not_mem_queryText hwell.query hc hquery

theorem WellFormed.firstLine (hwell : h.WellFormed limits) :
    Request.firstLine h.firstLine = .ok (h.method, h.target, h.version) := by
  have hmethod := free_token h.method ' ' (by decide)
  have hversion := free_version h.version ' ' (by decide)
  have htarget := hwell.target_free ' ' (by decide)
  have hsplit : h.firstLine.splitOn ' ' =
      [h.method.token.toList, h.target, h.version.token.toList] := by
    rw [RequestHead.firstLine, List.splitOn_append_cons_self_of_not_mem hmethod,
      List.splitOn_append_cons_self_of_not_mem htarget, List.splitOn_eq_singleton hversion]
  have hne : h.method.token.toList.isEmpty = false := by
    cases h.method <;> rfl
  have hslash : Request.isTarget h.target = true := by
    rw [Request.isTarget, target, List.head?_append, hwell.slash]
    rfl
  unfold Request.firstLine
  rw [hsplit]
  simp only [hne, hslash, ofBytes?_token, ofBytes_token, Bool.not_true, Bool.or_false]
  rfl

/-! # Header fields -/

theorem parse?_headerLine {field : Header} (hname : field.name.toList ≠ [])
    (hcolon : ':' ∉ field.name.toList) (hvalue : field.value.toList.head? ≠ some ' ') :
    Header.parse? (headerLine field) = some field := by
  have hempty : field.name.toList.isEmpty = false := by
    simpa using hname
  have hspace : (' ' :: field.value.toList).dropWhile (· == ' ') = field.value.toList := by
    rw [List.dropWhile_cons_of_pos (by decide)]
    exact Pairs.dropWhile_space hvalue
  rw [Header.parse?, headerLine, cut?_singleton hcolon]
  simp only [hempty, hspace, String.ofList_toList]
  rfl

theorem filterMap_headerLine {fields : List Header}
    (hparse : forall field, field ∈ fields -> Header.parse? (headerLine field) = some field) :
    (fields.map headerLine).filterMap Header.parse? = fields := by
  induction fields with
  | nil => rfl
  | cons field fields ih =>
      rw [List.map_cons, List.filterMap_cons_some (hparse field List.mem_cons_self), ih]
      intro other hother
      exact hparse other (List.mem_cons_of_mem _ hother)

theorem WellFormed.fields (hwell : h.WellFormed limits) :
    (h.headers.map headerLine).filterMap Header.parse? = h.headers := by
  apply filterMap_headerLine
  intro field hfield
  rcases hwell.names field hfield with ⟨hne, hfree⟩
  exact parse?_headerLine hne (hfree ':' (by decide)) (hwell.values field hfield).right

/-! # The whole head -/

theorem free_firstLine (hwell : h.WellFormed limits) : '\r' ∉ h.firstLine := by
  rw [RequestHead.firstLine, List.mem_append, List.mem_cons, List.mem_append, List.mem_cons]
  rintro (hmethod | hspace | htarget | hspace | hversion)
  · exact free_token h.method '\r' (by decide) hmethod
  · exact absurd hspace (by decide)
  · exact hwell.target_free '\r' (by decide) htarget
  · exact absurd hspace (by decide)
  · exact free_version h.version '\r' (by decide) hversion

theorem free_headerLine {field : Header} (hname : '\r' ∉ field.name.toList)
    (hvalue : '\r' ∉ field.value.toList) : '\r' ∉ headerLine field := by
  rw [headerLine, List.mem_append, List.mem_cons, List.mem_cons]
  rintro (hmem | hcolon | hspace | hmem)
  · exact hname hmem
  · exact absurd hcolon (by decide)
  · exact absurd hspace (by decide)
  · exact hvalue hmem

theorem WellFormed.lines (hwell : h.WellFormed limits) :
    Request.lines (Request.withoutBlankLine h.text) =
      h.firstLine :: h.headers.map headerLine := by
  have htext : h.text =
      h.firstLine ++ ((h.headers.map headerLine).flatMap fun l => lineEnd ++ l) ++ lineEnd ++
        lineEnd := by
    have hends := lineEnd_flatMap (h.headers.map headerLine)
    rw [List.flatMap_map] at hends
    rw [text, List.append_assoc h.firstLine, hends]
    simp only [List.append_assoc]
  rw [htext, withoutBlankLine_append, lines_flatMap (free_firstLine hwell)]
  intro l hl
  rcases List.mem_map.mp hl with ⟨field, hfield, hline⟩
  rw [← hline]
  exact free_headerLine ((hwell.names field hfield).right '\r' (by decide))
    ((hwell.values field hfield).left '\r' (by decide))

theorem WellFormed.cut_target (hwell : h.WellFormed limits) :
    (match cut? ['?'] h.target with
      | some (path, query) => (path, (Pairs.addQuery limits.maxQueryParams #[] query).toList)
      | none => (h.target, [])) = (h.path.toList, h.query) := by
  have hpath : '?' ∉ h.path.toList := hwell.path '?' (by decide)
  rw [target]
  cases hquery : h.query with
  | nil =>
      rw [List.isEmpty_nil, if_pos rfl, List.append_nil, cut?_singleton_eq_none hpath]
  | cons p pairs =>
      have hread := Pairs.addQuery_queryText (hquery ▸ hwell.query) (List.cons_ne_nil p pairs)
        (hquery ▸ hwell.queryLimit)
      rw [List.isEmpty_cons, if_neg (by decide), cut?_singleton hpath]
      simp only [hread]

/-! # Sizes -/

theorem trim_digits (n : Nat) : Text.trim (Decimal.digits n) = Decimal.digits n := by
  apply Text.trimBy_of_forall
  intro c hc
  rcases Decimal.toNat_of_mem_digits hc with ⟨hlow, hhigh⟩
  simp only [Text.isBlank, Text.blankRanges, List.any_cons, List.any_nil, Bool.or_false,
    Bool.or_eq_false_iff, Bool.and_eq_false_iff, decide_eq_false_iff_not]
  omega

theorem bodyLength_eq {headers : List Header} {n : Nat} (hn : n < Decimal.sizeLimit)
    (hfield : Header.find? headers "content-length" = some (String.ofList (Decimal.digits n))) :
    Request.bodyLength headers = n := by
  have hread : Decimal.size? (Utf8.encodeChars (Decimal.digits n)) = some n :=
    Decimal.size?_natural hn
  rw [Request.bodyLength, hfield]
  simp only [String.toList_ofList, trim_digits, hread]
  rfl

theorem cookiePairs_eq {headers : List Header} {limit : Nat} {cookies : List Pair}
    (hcookies : Pairs.IsCookies cookies) (hlimit : cookies.length ≤ limit)
    (hfield : Header.find? headers "cookie" = some (String.ofList (Pairs.cookieText cookies))) :
    Request.cookiePairs headers limit = cookies := by
  rw [Request.cookiePairs, hfield]
  simp only [String.toList_ofList, Pairs.addCookies_cookieText hcookies hlimit]

/--
Reading undoes writing.  A head within the limits is read as its method, path, version, query pairs
and header fields, each in order; the cookies are those that the first cookie field was written
from, and the length of the body is the number in the first length field.
-/
theorem decode_render (h : RequestHead) (peer : SocketAddress) (limits : RequestLimits)
    (isTrusted : Bool) (hwell : h.WellFormed limits) :
    exists request : Request,
      Request.decode h.render peer limits isTrusted = .ok request ∧
        request.method = h.method ∧ request.version = h.version ∧ request.path = h.path ∧
        request.query = h.query ∧ request.headers = h.headers ∧
        (forall (field : Header) (cookies : List Pair),
          h.headers.find? (fun f => Header.sameName f.name "cookie") = some field ->
          Pairs.IsCookies cookies -> cookies.length ≤ limits.maxCookies ->
          field.value = String.ofList (Pairs.cookieText cookies) -> request.cookies = cookies) ∧
        forall (field : Header) (n : Nat),
          h.headers.find? (fun f => Header.sameName f.name "content-length") = some field ->
          n < Decimal.sizeLimit -> field.value = String.ofList (Decimal.digits n) ->
          request.contentLength = n := by
  have hlines := hwell.lines
  have hfields : ((h.headers.map headerLine).take limits.maxHeaders).filterMap Header.parse? =
      h.headers := by
    rw [List.take_of_length_le (by rw [List.length_map]; exact hwell.headersLimit)]
    exact hwell.fields
  have hcut := hwell.cut_target
  unfold Request.decode
  rw [render, Utf8.decodeChars?_encodeChars]
  simp only
  unfold Request.ofChars
  simp only [hlines, List.headD_cons, List.tail_cons, hfields]
  rw [hwell.firstLine]
  refine ⟨_, rfl, rfl, rfl, ?_, ?_, rfl, ?_, ?_⟩
  · exact (congrArg (fun cut => String.ofList cut.1) hcut).trans String.ofList_toList
  · exact congrArg Prod.snd hcut
  · intro field cookies hfield hcookies hlimit hvalue
    apply cookiePairs_eq hcookies hlimit
    rw [Header.find?, hfield, Option.map_some, hvalue]
  · intro field n hfield hn hvalue
    apply bodyLength_eq hn
    rw [Header.find?, hfield, Option.map_some, hvalue]

def manyCuts : RequestHead where
  method := .post
  version := .http11
  path := "/a/é:=&;"
  query := [("q", "1=2?;"), ("q", ""), ("", "ü")]
  headers := [⟨"X-Note", "a: b; c=d"⟩, ⟨"COOKIE", "sid=a=b c; theme= dark; =x"⟩,
    ⟨"cookie", "other=1"⟩, ⟨"Content-LENGTH", "18446744073709551615"⟩]

def manyCookies : List Pair :=
  [("sid", "a=b c"), ("theme", " dark"), ("", "x")]

theorem decode_render_manyCuts :
    (manyCuts.WellFormed {} ∧ Pairs.IsCookies manyCookies) ∧
      exists request : Request,
        Request.decode manyCuts.render ⟨.v4 127 0 0 1, 50000, 0⟩ {} true = .ok request ∧
          request.method = .post ∧ request.version = .http11 ∧ request.path = "/a/é:=&;" ∧
          request.query = manyCuts.query ∧ request.headers = manyCuts.headers ∧
          request.cookies = manyCookies ∧ request.contentLength = 18446744073709551615 := by
  have hwell : manyCuts.WellFormed {} :=
    ⟨by decide +kernel, by decide +kernel, ⟨by decide +kernel, by decide +kernel, by
      intro p hp
      cases hp
      decide +kernel⟩, by decide, by decide +kernel, by decide +kernel, by decide⟩
  have hcookies : Pairs.IsCookies manyCookies := ⟨by decide +kernel, by decide +kernel⟩
  rcases decode_render manyCuts ⟨.v4 127 0 0 1, 50000, 0⟩ {} true hwell with
    ⟨request, hdecode, hmethod, hversion, hpath, hquery, hheaders, hcookie, hlength⟩
  refine ⟨⟨hwell, hcookies⟩, request, hdecode, hmethod, hversion, hpath, hquery, hheaders, ?_, ?_⟩
  · exact hcookie ⟨"COOKIE", "sid=a=b c; theme= dark; =x"⟩ manyCookies (by decide +kernel) hcookies
      (by decide) (by decide +kernel)
  · exact hlength ⟨"Content-LENGTH", "18446744073709551615"⟩ 18446744073709551615
      (by decide +kernel) (by decide) (by decide +kernel)

end RequestHead
end HttpEngine
