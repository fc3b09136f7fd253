import HttpEngine.Proofs.Request.HeaderLimit
import HttpEngine.Proofs.Text.Encoding
import HttpEngine.Proofs.Text.Pieces

/-!
# Which heads are accepted

A head is accepted exactly if it is a text and its first line has three parts: a method, a target
and a version, with single spaces between them.  Every other head is refused for the first reason
that holds, in the order in which they stand in the grammar of faults below.  Nothing behind the
first line counts, and what is kept of it stays within the limits.
-/

namespace HttpEngine
namespace RequestHead

/-! # The first line of a head -/

/-- A line without a line end in it that makes up a text, or is followed by a line end. -/
def IsFirstLine (text line : List Char) : Prop :=
  ¬ lineEnd <:+: line ∧ (text = line ∨ exists rest, text = line ++ lineEnd ++ rest)

/-- A text without one blank line at its end, if it has one. -/
def IsTrimmed (text body : List Char) : Prop :=
  text = body ++ lineEnd ++ lineEnd ∨ text = body ∧ ¬ lineEnd ++ lineEnd <:+ text

def HasFirstLine (head : Bytes) (line : List Char) : Prop :=
  exists text body, head = Utf8.encodeChars text ∧ IsTrimmed text body ∧ IsFirstLine body line

theorem IsFirstLine.before_eq {text line : List Char} (h : IsFirstLine text line) :
    before lineEnd text = line := by
  rcases h with ⟨hline, hwhole | ⟨rest, hrest⟩⟩
  · rw [before, hwhole, cut?_eq_none_iff.mpr hline]
  · have hfirst : FirstAt lineEnd (line ++ lineEnd ++ rest) line rest :=
      firstAt_of_unmarked (by decide) hline rest
    rw [before, hrest, cut?_eq_some_iff.mpr hfirst]

theorem isFirstLine_headD (text : List Char) :
    IsFirstLine text ((Request.lines text).headD []) := by
  have hjoined := intercalate_lines text
  rcases exists_lines_cons text with ⟨line, more, hlines⟩
  have hline : line ∈ Request.lines text := hlines ▸ List.mem_cons_self
  refine ⟨?_, ?_⟩
  · rw [hlines]
    exact not_lineEnd_infix_lines hline
  · rw [hlines] at hjoined ⊢
    cases more with
    | nil => exact Or.inl (hjoined.symm.trans List.intercalate_singleton)
    | cons next more =>
        rw [List.intercalate_cons_cons] at hjoined
        exact Or.inr ⟨_, hjoined.symm⟩

theorem IsTrimmed.eq {text body : List Char} (h : IsTrimmed text body) :
    body = Request.withoutBlankLine text := by
  rcases h with hblank | ⟨hsame, hnone⟩
  · rw [hblank, withoutBlankLine_append]
  · rcases withoutBlankLine_cases text with hsplit | ⟨hkept, _⟩
    · refine absurd ⟨Request.withoutBlankLine text, ?_⟩ hnone
      rw [← List.append_assoc]
      exact hsplit.symm
    · exact hsame.symm.trans hkept

theorem hasFirstLine_iff {head : Bytes} {line : List Char} :
    HasFirstLine head line ↔
      exists text, Utf8.decodeChars? head = some text ∧
        (Request.lines (Request.withoutBlankLine text)).headD [] = line := by
  constructor
  · rintro ⟨text, body, hhead, htrimmed, hline⟩
    refine ⟨text, Utf8.decodeChars?_eq_some_iff.mpr hhead, ?_⟩
    rw [← htrimmed.eq, ← hline.before_eq]
    exact (isFirstLine_headD body).before_eq.symm
  · rintro ⟨text, htext, hline⟩
    refine ⟨text, _, Utf8.decodeChars?_eq_some_iff.mp htext, withoutBlankLine_cases text, ?_⟩
    rw [← hline]
    exact isFirstLine_headD _

/-! # The parts of a line -/

/-- The parts of a line between its spaces; two spaces in a row have an empty part between them. -/
structure HasParts (line : List Char) (parts : List (List Char)) : Prop where
  joined : line = [' '].intercalate parts
  nonempty : parts ≠ []
  whole : forall part, part ∈ parts -> ' ' ∉ part

theorem hasParts_iff {line : List Char} {parts : List (List Char)} :
    HasParts line parts ↔ line.splitOn ' ' = parts := by
  constructor
  · intro h
    rw [h.joined]
    exact List.splitOn_intercalate ' ' h.whole h.nonempty
  · intro h
    rw [← h]
    exact ⟨(List.intercalate_splitOn ' ').symm, List.splitOn_ne_nil ' ' line,
      fun _ => notMem_of_mem_splitOn⟩

/-! # Tokens -/

theorem ofBytes?_eq_some_iff {part : List Char} {method : Method} :
    Method.ofBytes? (Utf8.encodeChars part) = some method ↔ part = method.token.toList := by
  constructor
  · intro h
    have hfound := List.find?_some h
    exact (Utf8.encodeChars_inj (beq_iff_eq.mp hfound)).symm
  · intro h
    rw [h]
    exact ofBytes?_token method

theorem ofBytes?_eq_none_iff {part : List Char} :
    Method.ofBytes? (Utf8.encodeChars part) = none ↔
      forall method : Method, part ≠ method.token.toList := by
  rw [Option.eq_none_iff_forall_ne_some]
  exact forall_congr' fun method => not_congr ofBytes?_eq_some_iff

def protocol : List Char := "HTTP/".toList

theorem protocol_prefix (version : Version) : protocol <+: version.token.toList := by
  cases version <;> decide

theorem ofBytes_encodeChars (part : List Char) :
    Version.ofBytes (Utf8.encodeChars part) =
      if part = Version.http11.token.toList then .known .http11
      else if part = Version.http10.token.toList then .known .http10
      else if protocol <+: part then .unsupported
      else .malformed := by
  have hnew : Utf8.encodeChars part = Utf8.encode "HTTP/1.1" ↔
      part = Version.http11.token.toList := ⟨Utf8.encodeChars_inj, congrArg Utf8.encodeChars⟩
  have hold : Utf8.encodeChars part = Utf8.encode "HTTP/1.0" ↔
      part = Version.http10.token.toList := ⟨Utf8.encodeChars_inj, congrArg Utf8.encodeChars⟩
  have hprotocol : (Utf8.encode "HTTP/").isPrefixOf (Utf8.encodeChars part) = true ↔
      protocol <+: part := List.isPrefixOf_iff_prefix.trans Utf8.encodeChars_prefix_iff
  rw [Version.ofBytes]
  simp only [hnew, hold, hprotocol]

theorem ofBytes_eq_known_iff {part : List Char} {version : Version} :
    Version.ofBytes (Utf8.encodeChars part) = .known version ↔
      part = version.token.toList := by
  constructor
  · intro h
    rw [ofBytes_encodeChars] at h
    split at h
    · next hpart =>
      cases h
      exact hpart
    · split at h
      · next hpart =>
        cases h
        exact hpart
      · split at h
        · cases h
        · cases h
  · intro h
    rw [h]
    exact ofBytes_token version

theorem ofBytes_eq_unsupported_iff {part : List Char} :
    Version.ofBytes (Utf8.encodeChars part) = .unsupported ↔
      protocol <+: part ∧ forall version : Version, part ≠ version.token.toList := by
  constructor
  · intro h
    refine ⟨?_, ?_⟩
    · rw [ofBytes_encodeChars] at h
      split at h
      · cases h
      · split at h
        · cases h
        · split at h
          · assumption
          · cases h
    · intro version hpart
      rw [ofBytes_eq_known_iff.mpr hpart] at h
      cases h
  · rintro ⟨hprotocol, hother⟩
    rw [ofBytes_encodeChars, if_neg (hother .http11), if_neg (hother .http10), if_pos hprotocol]

theorem ofBytes_eq_malformed_iff {part : List Char} :
    Version.ofBytes (Utf8.encodeChars part) = .malformed ↔ ¬ protocol <+: part := by
  rw [ofBytes_encodeChars]
  constructor
  · intro h hprotocol
    rw [if_pos hprotocol] at h
    split at h
    · cases h
    · split at h
      · cases h
      · cases h
  · intro hprotocol
    have hother : forall version : Version, part ≠ version.token.toList := by
      intro version hpart
      exact hprotocol (hpart ▸ protocol_prefix version)
    rw [if_neg (hother .http11), if_neg (hother .http10), if_neg hprotocol]

/-! # Request lines -/

def IsTarget (target : List Char) : Prop :=
  target.head? = some '/' ∨ target = ['*']

structure IsRequestLine (line : List Char) (method : Method) (target : List Char)
    (version : Version) : Prop where
  parts : HasParts line [method.token.toList, target, version.token.toList]
  target : IsTarget target

/-- Why a first line is refused; each reason counts only if those above it do not hold. -/
inductive LineFault (line : List Char) : Fault -> Prop where
  | count {parts : List (List Char)} : HasParts line parts -> parts.length ≠ 3 ->
      LineFault line .badRequest
  | shape {method target version : List Char} : HasParts line [method, target, version] ->
      method = [] ∨ ¬ IsTarget target -> LineFault line .badRequest
  | method {method target version : List Char} : HasParts line [method, target, version] ->
      method ≠ [] -> IsTarget target -> (forall m : Method, method ≠ m.token.toList) ->
      LineFault line .invalidMethod
  | version {method : Method} {target version : List Char} :
      HasParts line [method.token.toList, target, version] -> IsTarget target ->
      protocol <+: version -> (forall v : Version, version ≠ v.token.toList) ->
      LineFault line .unsupportedVersion
  | protocol {method : Method} {target version : List Char} :
      HasParts line [method.token.toList, target, version] -> IsTarget target ->
      ¬ RequestHead.protocol <+: version -> LineFault line .badRequest

theorem isTarget_iff {target : List Char} : Request.isTarget target = true ↔ IsTarget target := by
  rw [Request.isTarget, Bool.or_eq_true, beq_iff_eq, beq_iff_eq]
  rfl

theorem token_ne_nil (method : Method) : method.token.toList ≠ [] := by
  cases method <;> decide

theorem firstLine_of_parts {line method target version : List Char}
    (h : HasParts line [method, target, version]) (hmethod : method ≠ [])
    (htarget : IsTarget target) :
    Request.firstLine line =
      match Method.ofBytes? (Utf8.encodeChars method) with
      | none => .error .invalidMethod
      | some m =>
          match Version.ofBytes (Utf8.encodeChars version) with
          | .known v => .ok (m, target, v)
          | .unsupported => .error .unsupportedVersion
          | .malformed => .error .badRequest := by
  have hempty : method.isEmpty = false := by
    simpa using hmethod
  rw [Request.firstLine, hasParts_iff.mp h]
  simp only [hempty, isTarget_iff.mpr htarget, Bool.not_true, Bool.or_false]
  rfl

theorem IsRequestLine.firstLine {line target : List Char} {method : Method} {version : Version}
    (h : IsRequestLine line method target version) :
    Request.firstLine line = .ok (method, target, version) := by
  rw [firstLine_of_parts h.parts (token_ne_nil method) h.target]
  simp only [ofBytes?_token, ofBytes_token]

theorem LineFault.firstLine {line : List Char} {fault : Fault} (h : LineFault line fault) :
    Request.firstLine line = .error fault := by
  cases h with
  | count hparts hcount =>
      unfold Request.firstLine
      rw [hasParts_iff.mp hparts]
      split
      · exact absurd rfl hcount
      · rfl
  | @shape method target version hparts hshape =>
      have hrefused : (method.isEmpty || !Request.isTarget target) = true := by
        rw [Bool.or_eq_true, List.isEmpty_iff, Bool.not_eq_true', ← Bool.not_eq_true, isTarget_iff]
        exact hshape
      rw [Request.firstLine, hasParts_iff.mp hparts]
      exact if_pos hrefused
  | method hparts hmethod htarget hunknown =>
      rw [firstLine_of_parts hparts hmethod htarget, ofBytes?_eq_none_iff.mpr hunknown]
  | @version method _ _ hparts htarget hprotocol hunknown =>
      rw [firstLine_of_parts hparts (token_ne_nil method) htarget, ofBytes?_token,
        ofBytes_eq_unsupported_iff.mpr ⟨hprotocol, hunknown⟩]
  | @protocol method _ _ hparts htarget hprotocol =>
      rw [firstLine_of_parts hparts (token_ne_nil method) htarget, ofBytes?_token,
        ofBytes_eq_malformed_iff.mpr hprotocol]

example : Request.firstLine "BREW * HTTP/2.0".toList = .error .invalidMethod := by
  decide +kernel

theorem isRequestLine_or_lineFault (line : List Char) :
    (exists method target version, IsRequestLine line method target version) ∨
      exists fault, LineFault line fault := by
  have hparts : HasParts line (line.splitOn ' ') := hasParts_iff.mpr rfl
  by_cases hcount : (line.splitOn ' ').length = 3
  · rcases List.length_eq_three.mp hcount with ⟨method, target, version, hthree⟩
    rw [hthree] at hparts
    by_cases hshape : method = [] ∨ ¬ IsTarget target
    · exact Or.inr ⟨_, .shape hparts hshape⟩
    · rw [not_or, not_not] at hshape
      cases hmethod : Method.ofBytes? (Utf8.encodeChars method) with
      | none =>
          exact Or.inr ⟨_, .method hparts hshape.left hshape.right
            (ofBytes?_eq_none_iff.mp hmethod)⟩
      | some m =>
          rw [ofBytes?_eq_some_iff.mp hmethod] at hparts
          cases hversion : Version.ofBytes (Utf8.encodeChars version) with
          | known v =>
              rw [ofBytes_eq_known_iff.mp hversion] at hparts
              exact Or.inl ⟨m, target, v, hparts, hshape.right⟩
          | unsupported =>
              rcases ofBytes_eq_unsupported_iff.mp hversion with ⟨hprotocol, hother⟩
              exact Or.inr ⟨_, .version hparts hshape.right hprotocol hother⟩
          | malformed =>
              exact Or.inr ⟨_, .protocol hparts hshape.right
                (ofBytes_eq_malformed_iff.mp hversion)⟩
  · exact Or.inr ⟨_, .count hparts hcount⟩

/-! # Heads -/

inductive HeadFault (head : Bytes) : Fault -> Prop where
  | notText : ¬ Utf8.IsText head -> HeadFault head .badRequest
  | line {line : List Char} {fault : Fault} : HasFirstLine head line -> LineFault line fault ->
      HeadFault head fault

structure KeptWithin (limits : RequestLimits) (request : Request) : Prop where
  headers : request.headers.length ≤ limits.maxHeaders
  query : request.query.length ≤ limits.maxQueryParams
  cookies : request.cookies.length ≤ limits.maxCookies

theorem length_cookiePairs_le (headers : List Header) (limit : Nat) :
    (Request.cookiePairs headers limit).length ≤ limit := by
  unfold Request.cookiePairs
  split
  · exact Pairs.Style.size_add_le .cookies limit _
  · exact Nat.zero_le limit

variable {head : Bytes} {peer : SocketAddress} {limits : RequestLimits} {isTrusted : Bool}

theorem ofChars_of_ok {text target : List Char} {method : Method} {version : Version}
    (h : Request.firstLine ((Request.lines (Request.withoutBlankLine text)).headD []) =
      .ok (method, target, version)) :
    exists request : Request,
      Request.ofChars text peer limits isTrusted = .ok request ∧ request.method = method ∧
      request.version = version ∧ request.path = String.ofList (before ['?'] target) ∧
      KeptWithin limits request := by
  unfold Request.ofChars
  simp only
  rw [h]
  refine ⟨_, rfl, rfl, rfl, ?_, ?_, ?_, ?_⟩
  · simp only [before]
    cases cut? ['?'] target with
    | none => rfl
    | some cut => rfl
  · calc _ ≤ _ := List.length_filterMap_le _ _
      _ ≤ limits.maxHeaders := List.length_take_le _ _
  · cases cut? ['?'] target with
    | none => exact Nat.zero_le _
    | some cut => exact Pairs.Style.size_add_le .query _ _
  · exact length_cookiePairs_le _ _

theorem ofChars_of_error {text : List Char} {fault : Fault}
    (h : Request.firstLine ((Request.lines (Request.withoutBlankLine text)).headD []) =
      .error fault) : Request.ofChars text peer limits isTrusted = .error fault := by
  unfold Request.ofChars
  simp only
  rw [h]
  rfl

theorem HeadFault.decode {fault : Fault} (h : HeadFault head fault) :
    Request.decode head peer limits isTrusted = .error fault := by
  unfold Request.decode
  cases h with
  | notText hnot =>
      cases htext : Utf8.decodeChars? head with
      | none => rfl
      | some text => exact absurd ⟨text, Utf8.decodeChars?_eq_some_iff.mp htext⟩ hnot
  | line hline hfault =>
      rcases hasFirstLine_iff.mp hline with ⟨text, htext, hfirst⟩
      rw [htext]
      exact ofChars_of_error (hfirst ▸ hfault.firstLine)

theorem IsRequestLine.decode {line target : List Char} {method : Method} {version : Version}
    (h : IsRequestLine line method target version) (hline : HasFirstLine head line) :
    exists request : Request,
      Request.decode head peer limits isTrusted = .ok request ∧ request.method = method ∧
      request.version = version ∧ request.path = String.ofList (before ['?'] target) ∧
      KeptWithin limits request := by
  rcases hasFirstLine_iff.mp hline with ⟨text, htext, hfirst⟩
  unfold Request.decode
  rw [htext]
  exact ofChars_of_ok (hfirst ▸ h.firstLine)

theorem hasRequestLine_or_headFault (head : Bytes) :
    (exists line method target version,
      HasFirstLine head line ∧ IsRequestLine line method target version) ∨
      exists fault, HeadFault head fault := by
  by_cases htext : Utf8.IsText head
  · rcases htext with ⟨text, hhead⟩
    have hline : HasFirstLine head _ :=
      ⟨text, _, hhead, withoutBlankLine_cases text, isFirstLine_headD _⟩
    rcases isRequestLine_or_lineFault _ with ⟨method, target, version, hrequest⟩ | ⟨fault, hfault⟩
    · exact Or.inl ⟨_, method, target, version, hline, hrequest⟩
    · exact Or.inr ⟨fault, .line hline hfault⟩
  · exact Or.inr ⟨_, .notText htext⟩

theorem decode_eq_error_iff {fault : Fault} :
    Request.decode head peer limits isTrusted = .error fault ↔ HeadFault head fault := by
  refine ⟨?_, HeadFault.decode⟩
  intro h
  rcases hasRequestLine_or_headFault head with ⟨_, _, _, _, hline, hrequest⟩ | ⟨other, hfault⟩
  · rcases hrequest.decode hline with ⟨request, hok, _⟩
    rw [h] at hok
    cases hok
  · rw [hfault.decode] at h
    cases h
    exact hfault

theorem exists_requestLine_of_decode {request : Request}
    (h : Request.decode head peer limits isTrusted = .ok request) :
    (exists line target,
      HasFirstLine head line ∧ IsRequestLine line request.method target request.version ∧
      request.path = String.ofList (before ['?'] target)) ∧ KeptWithin limits request := by
  rcases hasRequestLine_or_headFault head with
    ⟨line, method, target, version, hline, hrequest⟩ | ⟨fault, hfault⟩
  · rcases hrequest.decode hline with ⟨other, hok, hmethod, hversion, hpath, hkept⟩
    rw [h] at hok
    cases hok
    rw [hmethod, hversion]
    exact ⟨⟨line, target, hline, hrequest, hpath⟩, hkept⟩
  · rw [hfault.decode] at h
    cases h

/-! # What stands behind the first line -/

theorem IsFirstLine.of_trimmed {text body line : List Char} (hbody : IsTrimmed text body)
    (h : IsFirstLine body line) : IsFirstLine text line := by
  rcases hbody with hblank | ⟨hsame, _⟩
  · rcases h with ⟨hfree, hwhole | ⟨rest, hrest⟩⟩
    · refine ⟨hfree, Or.inr ⟨lineEnd, ?_⟩⟩
      rw [hblank, hwhole]
    · refine ⟨hfree, Or.inr ⟨rest ++ lineEnd ++ lineEnd, ?_⟩⟩
      rw [hblank, hrest]
      simp only [List.append_assoc]
  · rw [hsame]
    exact h

theorem HasFirstLine.unique {text line first : List Char}
    (h : HasFirstLine (Utf8.encodeChars text) first) (hline : IsFirstLine text line) :
    first = line := by
  rcases h with ⟨other, body, hhead, hbody, hfirst⟩
  have hwhole := hfirst.of_trimmed hbody
  rw [← Utf8.encodeChars_inj hhead] at hwhole
  rw [← hwhole.before_eq, hline.before_eq]

theorem headFault_iff_of_isFirstLine {text line : List Char} {fault : Fault}
    (h : IsFirstLine text line) :
    HeadFault (Utf8.encodeChars text) fault ↔ LineFault line fault := by
  constructor
  · intro hfault
    cases hfault with
    | notText hnot => exact absurd ⟨text, rfl⟩ hnot
    | line hfirst hfault => exact hfirst.unique h ▸ hfault
  · intro hfault
    have hfirst := isFirstLine_headD (Request.withoutBlankLine text)
    have hhas : HasFirstLine (Utf8.encodeChars text) _ :=
      ⟨text, _, rfl, withoutBlankLine_cases text, hfirst⟩
    rw [← hhas.unique h] at hfault
    exact .line hhas hfault

/--
Exactly the heads that are texts with a request line are accepted; every other head is refused with
its own fault.  An accepted head gives the method and the version of its request line, and no more
header fields, query pairs and cookies than the limits allow.  No query makes a head fail, and
nothing behind its first line does: a fault is always one of the first line alone.
-/
theorem decode_grammar (head : Bytes) (peer : SocketAddress) (limits : RequestLimits)
    (isTrusted : Bool) :
    ((exists request, Request.decode head peer limits isTrusted = .ok request) ↔
      exists line method target version,
        HasFirstLine head line ∧ IsRequestLine line method target version) ∧
    (forall fault,
      Request.decode head peer limits isTrusted = .error fault ↔ HeadFault head fault) ∧
    (forall request, Request.decode head peer limits isTrusted = .ok request ->
      (exists line target,
        HasFirstLine head line ∧ IsRequestLine line request.method target request.version ∧
        request.path = String.ofList (before ['?'] target)) ∧ KeptWithin limits request) ∧
    (forall (line : List Char) (method : Method) (path query : List Char) (version : Version),
      HasFirstLine head line -> path.head? = some '/' ->
      HasParts line [method.token.toList, path ++ '?' :: query, version.token.toList] ->
      exists request, Request.decode head peer limits isTrusted = .ok request) ∧
    forall line rest : List Char, ¬ lineEnd <:+: line ->
      head = Utf8.encodeChars (line ++ lineEnd ++ rest) -> forall fault,
        Request.decode head peer limits isTrusted = .error fault ↔ LineFault line fault := by
  refine ⟨?_, fun _ => decode_eq_error_iff, fun _ => exists_requestLine_of_decode, ?_, ?_⟩
  · constructor
    · rintro ⟨request, hok⟩
      rcases exists_requestLine_of_decode hok with ⟨⟨line, target, hline, hrequest, _⟩, _⟩
      exact ⟨line, _, target, _, hline, hrequest⟩
    · rintro ⟨line, method, target, version, hline, hrequest⟩
      rcases hrequest.decode hline with ⟨request, hok, _⟩
      exact ⟨request, hok⟩
  · intro line method path query version hline hslash hparts
    have htarget : IsTarget (path ++ '?' :: query) := by
      left
      rw [List.head?_append, hslash]
      rfl
    have hrequest : IsRequestLine line method (path ++ '?' :: query) version := ⟨hparts, htarget⟩
    rcases hrequest.decode hline with ⟨request, hok, _⟩
    exact ⟨request, hok⟩
  · intro line rest hfree hhead fault
    rw [hhead, decode_eq_error_iff]
    exact headFault_iff_of_isFirstLine ⟨hfree, Or.inr ⟨rest, rfl⟩⟩

end RequestHead
end HttpEngine
