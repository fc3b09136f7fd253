import HttpEngine.Proofs.Multipart.Extraction

/-!
# Forms in chunks

What a form holds can be said without a search: its header ends at the first blank line, its payload
at the first boundary behind that, and the name of its file stands between quotes in the header.
The scanner gives out exactly this, whatever the chunks in which the form comes.  On the way it
holds back less than a boundary, and after the boundary it gives out nothing.
-/

namespace HttpEngine
namespace Multipart

/-! # What a form holds -/

/-- A text up to its first mark, or all of a text without a mark. -/
inductive UpTo (mark text : Bytes) : Bytes -> Prop where
  | mark {front rest : Bytes} : FirstAt mark text front rest -> UpTo mark text front
  | whole : ¬ mark <:+: text -> UpTo mark text text

def opening : Bytes := Utf8.encode "filename=\""

inductive Named (header : Bytes) : Option String -> Prop where
  | name {front value name rest : Bytes} : FirstAt opening header front value ->
      FirstAt Bytes.quote value name rest -> Named header (some (Utf8.decodeLossy name))
  | unclosed {front value : Bytes} : FirstAt opening header front value ->
      ¬ Bytes.quote <:+: value -> Named header none
  | unopened : ¬ opening <:+: header -> Named header none

/-- The payload of the first part of a form, and the name of the file in its header. -/
inductive FirstPart (boundary : String) (form : Bytes) : Bytes -> Option String -> Prop where
  | headless : ¬ Bytes.blankLine <:+: form -> FirstPart boundary form [] none
  | headed {header rest payload : Bytes} {filename : Option String} :
      FirstAt Bytes.blankLine form header rest -> UpTo (marker boundary) rest payload ->
      Named header filename -> FirstPart boundary form payload filename

theorem upTo_iff {mark text front : Bytes} : UpTo mark text front ↔ front = before mark text := by
  unfold before
  cases hcut : cut? mark text with
  | none =>
      have hnone := cut?_eq_none_iff.mp hcut
      constructor
      · intro h
        cases h with
        | mark hfirst => exact absurd ⟨_, _, hfirst.split.symm⟩ hnone
        | whole _ => rfl
      · intro h
        rw [h]
        exact .whole hnone
  | some cut =>
      rcases cut with ⟨found, rest⟩
      constructor
      · intro h
        cases h with
        | mark hfirst =>
            rw [cut?_eq_some_iff.mpr hfirst] at hcut
            cases hcut
            rfl
        | whole hnone => exact absurd ⟨_, _, (eq_append_of_cut? hcut).symm⟩ hnone
      · intro h
        rw [h]
        exact .mark (cut?_eq_some_iff.mp hcut)

theorem named_iff {header : Bytes} {filename : Option String} :
    Named header filename ↔ filename = filename? header := by
  unfold filename?
  change Named header filename ↔ filename = (cut? opening header).bind fun found =>
    (cut? Bytes.quote found.2).bind fun named => some (Utf8.decodeLossy named.1)
  constructor
  · intro h
    cases h with
    | name hopening hquote =>
        rw [cut?_eq_some_iff.mpr hopening]
        change _ = (cut? Bytes.quote _).bind _
        rw [cut?_eq_some_iff.mpr hquote]
        rfl
    | unclosed hopening hquote =>
        rw [cut?_eq_some_iff.mpr hopening]
        change _ = (cut? Bytes.quote _).bind _
        rw [cut?_eq_none_iff.mpr hquote]
        rfl
    | unopened hopening =>
        rw [cut?_eq_none_iff.mpr hopening]
        rfl
  · intro h
    rw [h]
    cases hopening : cut? opening header with
    | none => exact .unopened (cut?_eq_none_iff.mp hopening)
    | some found =>
        rcases found with ⟨front, value⟩
        change Named header ((cut? Bytes.quote value).bind _)
        cases hquote : cut? Bytes.quote value with
        | none => exact .unclosed (cut?_eq_some_iff.mp hopening) (cut?_eq_none_iff.mp hquote)
        | some named =>
            rcases named with ⟨name, rest⟩
            exact .name (cut?_eq_some_iff.mp hopening) (cut?_eq_some_iff.mp hquote)

theorem firstPart_iff {boundary : String} {form payload : Bytes} {filename : Option String} :
    FirstPart boundary form payload filename ↔ (payload, filename) = extract boundary form := by
  unfold extract
  cases hcut : cut? Bytes.blankLine form with
  | none =>
      have hnone := cut?_eq_none_iff.mp hcut
      constructor
      · intro h
        cases h with
        | headless _ => rfl
        | headed hfirst _ _ => exact absurd ⟨_, _, hfirst.split.symm⟩ hnone
      · intro h
        cases h
        exact .headless hnone
  | some cut =>
      rcases cut with ⟨header, rest⟩
      constructor
      · intro h
        cases h with
        | headless hnone => exact absurd ⟨_, _, (eq_append_of_cut? hcut).symm⟩ hnone
        | headed hfirst hpayload hnamed =>
            rw [cut?_eq_some_iff.mpr hfirst] at hcut
            cases hcut
            rw [upTo_iff.mp hpayload, named_iff.mp hnamed]
      · intro h
        cases h
        exact .headed (cut?_eq_some_iff.mp hcut) (upTo_iff.mpr rfl) (named_iff.mpr rfl)

namespace Scanner

/-! # One chunk after the other -/

def feedAll (s : Scanner) : List Bytes -> Bytes × Scanner
  | [] => ([], s)
  | chunk :: rest =>
      let (given, s) := s.feed chunk
      let (more, s) := feedAll s rest
      (given ++ more, s)

theorem Follows.feedAll {mark text out : Bytes} {s : Scanner} (h : Follows mark s text out)
    (hpos : 0 < mark.length) (chunks : List Bytes) :
    Follows mark (s.feedAll chunks).2 (text ++ chunks.flatten) (out ++ (s.feedAll chunks).1) := by
  -- The text taken so far grows with each chunk, so the statement is for any of them.
  induction chunks generalizing s text out with
  | nil =>
      rw [List.flatten_nil, List.append_nil]
      change Follows mark s text (out ++ [])
      rwa [List.append_nil]
  | cons chunk rest ih =>
      have hrest := ih (h.feed hpos chunk)
      rw [List.append_assoc, List.append_assoc] at hrest
      exact hrest

theorem follows_feedAll_new (boundary : String) (chunks : List Bytes) :
    Follows (Multipart.marker boundary) ((new boundary).feedAll chunks).2 chunks.flatten
      ((new boundary).feedAll chunks).1 :=
  (follows_new boundary).feedAll (marker_length_pos boundary) chunks

theorem Follows.held_lt {mark text out held : Bytes} {s : Scanner} (h : Follows mark s text out)
    (hstage : s.stage = .payload held) : held.length ≤ mark.length - 1 := by
  cases h with
  | header hnone => cases hstage
  | payload htext hnone hout hheld =>
      cases hstage
      exact hheld
  | done htext hmark => cases hstage

theorem Follows.stage_done {mark text out header rest : Bytes} {s : Scanner}
    (h : Follows mark s text out) (hheader : FirstAt Bytes.blankLine text header rest)
    (hmark : mark <:+: rest) : s.stage = .done := by
  have hcut := cut?_eq_some_iff.mpr hheader
  cases h with
  | header hnone =>
      rw [hnone] at hcut
      cases hcut
  | payload htext hnone hout hheld =>
      rw [htext] at hcut
      cases hcut
      exact absurd hmark (cut?_eq_none_iff.mp hnone)
  | done htext hfound => rfl

theorem feedAll_of_done {s : Scanner} (h : s.stage = .done) (chunks : List Bytes) :
    s.feedAll chunks = ([], s) := by
  induction chunks with
  | nil => rfl
  | cons chunk rest ih =>
      have hfeed : s.feed chunk = ([], s) := by
        rw [feed, h]
      rw [feedAll, hfeed]
      simp only [ih, List.append_nil]

theorem finish_of_done {s : Scanner} (h : s.stage = .done) : s.finish = ([], s) := by
  rcases s with ⟨mark, stage, filename⟩
  cases h
  rfl

/--
In chunks of any size, a form comes to the first part that it holds as a whole, and to nothing else.
Between chunks of the payload less than a boundary is held back, and once the boundary has come,
neither further chunks nor the end of the form bring anything more.
-/
theorem feedAll_gives_firstPart (boundary : String) (chunks : List Bytes) :
    let (given, scanner) := (new boundary).feedAll chunks
    (forall payload filename, FirstPart boundary chunks.flatten payload filename ↔
      payload = given ++ scanner.finish.1 ∧ filename = scanner.finish.2.filename) ∧
    (forall held, scanner.stage = .payload held ->
      held.length ≤ (Multipart.marker boundary).length - 1) ∧
    (forall header rest, FirstAt Bytes.blankLine chunks.flatten header rest ->
      Multipart.marker boundary <:+: rest ->
      scanner.finish = ([], scanner) ∧
        forall later, scanner.feedAll later = ([], scanner)) := by
  have hfollows := follows_feedAll_new boundary chunks
  refine ⟨?_, ?_, ?_⟩
  · intro payload filename
    rw [firstPart_iff, ← hfollows.finish, Prod.mk.injEq]
  · intro held hstage
    exact hfollows.held_lt hstage
  · intro header rest hheader hmark
    have hdone := hfollows.stage_done hheader hmark
    exact ⟨finish_of_done hdone, feedAll_of_done hdone⟩

end Scanner
end Multipart
end HttpEngine
