import Mathlib.Data.List.Forall2
import Mathlib.Data.List.TakeWhile
import HttpEngine.Json.Parser
import HttpEngine.Proofs.Json.Numbers

/-!
# What a value is read from

Like a number, a string, a value and the elements between brackets are settled by the characters
that they are read from, and as many steps as there are characters are enough.  So a text writes a
value or it does not, whatever stands around it, and a list is read from its elements one by one.
-/

namespace HttpEngine
namespace JsonText

variable {α : Type}

/-! # Spaces -/

def IsSpaces (text : List Char) : Prop :=
  forall c, c ∈ text -> isSpace c = true

theorem isSpaces_nil : IsSpaces [] :=
  fun _ hc => absurd hc List.not_mem_nil

theorem skipSpace_append {front : List Char} (h : IsSpaces front) (text : List Char) :
    skipSpace (front ++ text) = skipSpace text :=
  List.dropWhile_append_of_pos h

theorem skipSpace_eq_nil_iff {text : List Char} : skipSpace text = [] ↔ IsSpaces text :=
  List.dropWhile_eq_nil_iff

theorem skipSpace_of_startsWith {text : List Char}
    (h : StartsWith (fun c => isSpace c = false) text) : skipSpace text = text := by
  cases text with
  | nil => rfl
  | cons c text => exact List.dropWhile_cons_of_neg (by simp [startsWith_cons.mp h])

theorem exists_spaces (text : List Char) :
    exists front, IsSpaces front ∧ text = front ++ skipSpace text := by
  refine ⟨text.takeWhile isSpace, ?_, (List.takeWhile_append_dropWhile).symm⟩
  intro c hc
  exact List.mem_takeWhile_imp hc

/-! # Taking -/

/--
A reader takes a text for something: it gives that in front of whatever may follow, in any number
of steps from the length of the text on.
-/
def Takes (ends : List Char -> Prop) (read? : Nat -> List Char -> Option (α × List Char))
    (taken : List Char) (x : α) : Prop :=
  forall more, ends more -> forall fuel, taken.length ≤ fuel ->
    read? fuel (taken ++ more) = some (x, more)

theorem takes_cons {ends : List Char -> Prop} {read? : Nat -> List Char -> Option (α × List Char)}
    {c : Char} {taken : List Char} {x : α}
    (h : forall more, ends more -> forall fuel, taken.length ≤ fuel ->
      read? (fuel + 1) (c :: (taken ++ more)) = some (x, more)) :
    Takes ends read? (c :: taken) x := by
  intro more hmore fuel hfuel
  cases fuel with
  | zero => cases hfuel
  | succ fuel => exact h more hmore fuel (Nat.le_of_succ_le_succ hfuel)

def SettledIn (fuel : Nat) (ends : List Char -> Prop)
    (read? : Nat -> List Char -> Option (α × List Char)) : Prop :=
  forall text x rest, read? fuel text = some (x, rest) ->
    exists taken, text = taken ++ rest ∧ Takes ends read? taken x

/-! # Strings -/

def Anything (_ : List Char) : Prop :=
  True

theorem escape?_cons {c : Char} (h : c ≠ 'u') (text : List Char) :
    escape? (c :: text) = (shortEscape? c).map (·, text) := by
  unfold escape?
  split
  · next heq => exact absurd (List.cons.inj heq).left h
  · next heq =>
    cases heq
    rfl
  · next heq => cases heq

theorem settled_escape? : Settled Anything escape? := by
  intro text x rest h
  unfold escape? at h
  split at h
  · next a b c d _ =>
    rcases Option.bind_eq_some_iff.mp h with ⟨unit, hunit, h⟩
    split at h
    · cases h
    · next hlow =>
      split at h
      · next hhigh =>
        split at h
        · next a' b' c' d' _ _ =>
          rcases Option.bind_eq_some_iff.mp h with ⟨low, hpair, h⟩
          split at h
          · next hin =>
            obtain ⟨rfl, rfl⟩ := Prod.mk.inj (Option.some.inj h)
            refine ⟨['u', a, b, c, d, '\\', 'u', a', b', c', d'], rfl, ?_⟩
            intro more _
            show (hex4? a b c d).bind _ = _
            rw [hunit, Option.bind_some, if_neg hlow, if_pos hhigh]
            show (hex4? a' b' c' d').bind _ = _
            rw [hpair, Option.bind_some, if_pos hin]
            rfl
          · cases h
        · cases h
      · next hhigh =>
        cases h
        refine ⟨['u', a, b, c, d], rfl, ?_⟩
        intro more _
        show (hex4? a b c d).bind _ = _
        rw [hunit, Option.bind_some, if_neg hlow, if_neg hhigh]
        rfl
  · next c _ _ =>
    rcases Option.map_eq_some_iff.mp h with ⟨e, he, heq⟩
    cases heq
    refine ⟨[c], rfl, ?_⟩
    intro more _
    have hc : c ≠ 'u' := by
      rintro rfl
      cases he
    rw [List.singleton_append, escape?_cons hc, he]
    rfl
  · cases h

theorem string?_escape {fuel : Nat} {read text rest : List Char} {c : Char}
    (h : escape? text = some (c, rest)) :
    string? (fuel + 1) read ('\\' :: text) = string? fuel (c :: read) rest := by
  rw [string?, h]

theorem string?_cons {fuel : Nat} {read text : List Char} {c : Char} (hquote : c ≠ '"')
    (hmark : c ≠ '\\') :
    string? (fuel + 1) read (c :: text) =
      if c.toNat < 0x20 then none else string? fuel (c :: read) text := by
  rw [string?]
  · exact hquote
  · exact hmark

theorem settledIn_string? (fuel : Nat) (read : List Char) :
    SettledIn fuel Anything (fun k => string? k read) := by
  induction fuel generalizing read with
  | zero =>
      intro text s rest h
      cases h
  | succ fuel ih =>
      intro text s rest h
      change string? (fuel + 1) read text = some (s, rest) at h
      unfold string? at h
      split at h
      · cases h
        exact ⟨['"'], rfl, takes_cons fun _ _ _ _ => rfl⟩
      · split at h
        · next c behind hescape =>
          rcases settled_escape? _ c behind hescape with ⟨front, rfl, hfront⟩
          rcases ih _ _ s rest h with ⟨taken, rfl, htaken⟩
          refine ⟨'\\' :: (front ++ taken), by simp, takes_cons ?_⟩
          intro more hmore k hk
          rw [List.length_append] at hk
          rw [List.append_assoc]
          exact (string?_escape (hfront _ trivial)).trans (htaken more hmore k (by omega))
        · cases h
      · next c behind hquote hmark =>
        split at h
        · cases h
        · next hplain =>
          rcases ih _ _ s rest h with ⟨taken, rfl, htaken⟩
          refine ⟨c :: taken, rfl, takes_cons ?_⟩
          intro more hmore k hk
          refine (string?_cons hquote hmark).trans ?_
          rw [if_neg hplain]
          exact htaken more hmore k hk
      · cases h

/-! # Lists of elements -/

def Delimits (c : Char) : Prop :=
  c = ',' ∨ c = ']' ∨ c = '\x7d'

theorem Delimits.not_isSpace {c : Char} (h : Delimits c) : isSpace c = false := by
  rcases h with rfl | rfl | rfl <;> decide

theorem IsSpaces.ends_append {back : List Char} (h : IsSpaces back) {more : List Char}
    (hmore : JsonNumber.Ends more) : JsonNumber.Ends (back ++ more) := by
  cases back with
  | nil => exact hmore
  | cons c back =>
      have hc := h c List.mem_cons_self
      simp only [isSpace, Bool.or_eq_true, beq_iff_eq] at hc
      refine startsWith_cons.mpr ?_
      rcases hc with ((rfl | rfl) | rfl) | rfl <;> decide

theorem Delimits.ends {c : Char} (h : Delimits c) (more : List Char) :
    JsonNumber.Ends (c :: more) := by
  refine startsWith_cons.mpr ?_
  rcases h with rfl | rfl | rfl <;> decide

section Elements

variable {read? : Nat -> List Char -> Option (α × List Char)} {close : Char}

/-- A text stands for something: with spaces around it, perhaps, it is taken for that. -/
def Stands (read? : Nat -> List Char -> Option (α × List Char)) (text : List Char) (x : α) : Prop :=
  exists front taken back, text = front ++ (taken ++ back) ∧ IsSpaces front ∧ IsSpaces back ∧
    Takes JsonNumber.Ends read? taken x

theorem SettledIn.stands {fuel : Nat} (h : SettledIn fuel JsonNumber.Ends read?)
    {text rest : List Char} {x : α} (hread : read? fuel (skipSpace text) = some (x, rest)) :
    exists written, text = written ++ skipSpace rest ∧ Stands read? written x := by
  rcases h _ x rest hread with ⟨taken, htaken, hx⟩
  rcases exists_spaces text with ⟨front, hfront, htext⟩
  rcases exists_spaces rest with ⟨back, hback, hrest⟩
  refine ⟨front ++ (taken ++ back), ?_, front, taken, back, rfl, hfront, hback, hx⟩
  rw [List.append_assoc, List.append_assoc, ← hrest, ← htaken]
  exact htext

def Refuses (read? : Nat -> List Char -> Option (α × List Char)) (c : Char) : Prop :=
  forall fuel text, read? fuel (c :: text) = none

section

variable (hspace : forall c, isSpace c = true -> Refuses read? c)

include hspace

theorem Takes.exists_cons {taken : List Char} {x : α} (h : Takes JsonNumber.Ends read? taken x) :
    exists first behind, taken = first :: behind ∧ isSpace first = false ∧
      ¬Refuses read? first := by
  cases taken with
  | nil =>
      have hread := h [' '] (startsWith_cons.mpr (by decide)) 0 (Nat.le_refl 0)
      rw [List.nil_append, hspace ' ' rfl] at hread
      cases hread
  | cons first behind =>
      have hfirst : ¬Refuses read? first := by
        intro hrefuses
        have hread := h [] JsonNumber.ends_nil _ (Nat.le_refl _)
        rw [List.cons_append, hrefuses] at hread
        cases hread
      refine ⟨first, behind, rfl, ?_, hfirst⟩
      rw [← Bool.not_eq_true]
      exact fun h => hfirst (hspace first h)

theorem Takes.skipSpace {front taken : List Char} {x : α} (hfront : IsSpaces front)
    (h : Takes JsonNumber.Ends read? taken x) (more : List Char) :
    skipSpace (front ++ (taken ++ more)) = taken ++ more := by
  rcases h.exists_cons hspace with ⟨first, behind, rfl, hfirst, _⟩
  rw [skipSpace_append hfront]
  exact skipSpace_of_startsWith (startsWith_cons.mpr hfirst)

theorem Stands.read {text : List Char} {x : α} (h : Stands read? text x) {fuel : Nat}
    (hfuel : text.length ≤ fuel) {c : Char} (hc : Delimits c) (more : List Char) :
    exists first behind rest, skipSpace (text ++ c :: more) = first :: behind ∧
      ¬Refuses read? first ∧ read? fuel (first :: behind) = some (x, rest) ∧
      skipSpace rest = c :: more := by
  rcases h with ⟨front, taken, back, rfl, hfront, hback, htaken⟩
  have hlength : taken.length ≤ fuel := by
    simp at hfuel
    omega
  have hskip := htaken.skipSpace hspace hfront (back ++ c :: more)
  have hread := htaken (back ++ c :: more) (hback.ends_append (hc.ends more)) fuel hlength
  rcases htaken.exists_cons hspace with ⟨first, behind, rfl, _, hfirst⟩
  refine ⟨first, behind ++ (back ++ c :: more), _, ?_, hfirst, hread, ?_⟩
  · rw [List.append_assoc, List.append_assoc, hskip]
    rfl
  · rw [skipSpace_append hback]
    exact skipSpace_of_startsWith (startsWith_cons.mpr hc.not_isSpace)

end

def IsListOf : List (List Char) -> List Char -> Prop
  | [], body => IsSpaces body
  | text :: texts, body => body = [','].intercalate (text :: texts)

theorem exists_of_listed? {fuel : Nat} (hsettled : SettledIn fuel JsonNumber.Ends read?)
    {count : Nat} {held xs : List α} {text rest : List Char}
    (h : listed? (read? fuel) close count held text = some (xs, rest)) :
    exists first texts elements, text = [','].intercalate (first :: texts) ++ close :: rest ∧
      List.Forall₂ (Stands read?) (first :: texts) elements ∧ xs = held.reverse ++ elements := by
  induction count generalizing held text with
  | zero => cases h
  | succ count ih =>
      rw [listed?] at h
      split at h
      · cases h
      · next x behind hread =>
        rcases hsettled.stands hread with ⟨first, rfl, hfirst⟩
        split at h
        · cases h
        · next c behind hc =>
          rw [hc]
          split at h
          · next hcomma =>
            rcases ih h with ⟨next, texts, elements, rfl, htexts, rfl⟩
            refine ⟨first, next :: texts, x :: elements, ?_, List.Forall₂.cons hfirst htexts, ?_⟩
            · rw [List.intercalate_cons_cons, hcomma]
              simp only [List.append_assoc, List.cons_append, List.nil_append]
            · rw [List.reverse_cons, List.append_assoc, List.singleton_append]
          · split at h
            · next hclose =>
              cases h
              refine ⟨first, [], [x], ?_, List.Forall₂.cons hfirst List.Forall₂.nil, ?_⟩
              · rw [hclose, List.intercalate_singleton]
              · rw [List.reverse_cons]
            · cases h

theorem exists_of_elements? {fuel : Nat} (hsettled : SettledIn fuel JsonNumber.Ends read?)
    {xs : List α} {text rest : List Char}
    (h : elements? (read? fuel) close fuel text = some (xs, rest)) :
    exists texts body, text = body ++ close :: rest ∧ IsListOf texts body ∧
      List.Forall₂ (Stands read?) texts xs := by
  rcases exists_spaces text with ⟨front, hfront, htext⟩
  rw [elements?] at h
  split at h
  · cases h
  · next c behind hc =>
    split at h
    · next hclose =>
      cases h
      refine ⟨[], front, ?_, hfront, List.Forall₂.nil⟩
      rw [← hclose, ← hc]
      exact htext
    · rcases exists_of_listed? hsettled h with ⟨first, texts, elements, hbody, hall, rfl⟩
      exact ⟨first :: texts, _, hbody, rfl, hall⟩

section

variable (hspace : forall c, isSpace c = true -> Refuses read? c) (hclose : Delimits close)

include hspace hclose

theorem listed?_intercalate (hcomma : close ≠ ',') {fuel count : Nat} {held xs : List α}
    {first : List Char} {texts : List (List Char)} {more : List Char}
    (h : List.Forall₂ (Stands read?) (first :: texts) xs)
    (hfuel : ([','].intercalate (first :: texts)).length ≤ fuel)
    (hcount : ([','].intercalate (first :: texts)).length < count) :
    listed? (read? fuel) close count held ([','].intercalate (first :: texts) ++ close :: more) =
      some (held.reverse ++ xs, more) := by
  induction texts generalizing first xs held count with
  | nil =>
      rcases h with _ | ⟨hfirst, hnil⟩
      cases hnil
      rw [List.intercalate_singleton] at *
      cases count with
      | zero => omega
      | succ count =>
          rcases hfirst.read hspace hfuel hclose more with ⟨c, behind, rest, hskip, _, hread, hrest⟩
          rw [listed?, hskip, hread]
          simp only [hrest, hcomma, if_false, if_true, List.reverse_cons]
  | cons next texts ih =>
      rcases h with _ | ⟨hfirst, hall⟩
      rw [List.intercalate_cons_cons] at *
      simp only [List.length_append, List.length_singleton] at hfuel hcount
      cases count with
      | zero => omega
      | succ count =>
          have hfits : first.length ≤ fuel := by omega
          rcases hfirst.read hspace hfits (Or.inl rfl)
            ([','].intercalate (next :: texts) ++ close :: more) with
            ⟨c, behind, rest, hskip, _, hread, hrest⟩
          simp only [List.append_assoc, List.cons_append, List.nil_append]
          rw [listed?, hskip, hread]
          simp only [hrest, if_true]
          rw [ih hall (by omega) (by omega), List.reverse_cons, List.append_assoc,
            List.singleton_append]

omit hspace in
theorem exists_mark (first : List Char) (texts : List (List Char)) (more : List Char) :
    exists c rest, Delimits c ∧
      [','].intercalate (first :: texts) ++ close :: more = first ++ c :: rest := by
  cases texts with
  | nil => exact ⟨close, more, hclose, by rw [List.intercalate_singleton]⟩
  | cons next texts =>
      refine ⟨',', [','].intercalate (next :: texts) ++ close :: more, Or.inl rfl, ?_⟩
      rw [List.intercalate_cons_cons]
      simp only [List.append_assoc, List.cons_append, List.nil_append]

variable (hcomma : close ≠ ',') (hrefuses : Refuses read? close)

include hcomma hrefuses

theorem takes_elements {texts : List (List Char)} {body : List Char} {xs : List α}
    (hbody : IsListOf texts body) (h : List.Forall₂ (Stands read?) texts xs) :
    Takes Anything (fun fuel => elements? (read? fuel) close fuel) (body ++ [close]) xs := by
  intro more _ fuel hfuel
  rw [List.length_append, List.length_singleton] at hfuel
  rw [List.append_assoc, List.singleton_append]
  show elements? (read? fuel) close fuel (body ++ close :: more) = some (xs, more)
  cases texts with
  | nil =>
      cases h
      rw [elements?, skipSpace_append hbody,
        skipSpace_of_startsWith (startsWith_cons.mpr hclose.not_isSpace)]
      exact if_pos rfl
  | cons first texts =>
      cases hbody
      rcases exists_mark hclose first texts more with ⟨c, rest, hc, hmark⟩
      rcases h with _ | ⟨hfirst, hall⟩
      rcases hfirst.read hspace (Nat.le_refl _) hc rest with ⟨d, behind, _, hskip, hd, _⟩
      have hne : d ≠ close := fun heq => hd (heq ▸ hrefuses)
      rw [elements?, hmark, hskip]
      simp only [hne, if_false]
      rw [← hmark, listed?_intercalate hspace hclose hcomma (List.Forall₂.cons hfirst hall)
        (Nat.le_of_succ_le hfuel) hfuel]
      rfl

theorem settledIn_elements? {fuel : Nat} (h : SettledIn fuel JsonNumber.Ends read?) :
    SettledIn fuel Anything (fun k => elements? (read? k) close k) := by
  intro text xs rest hread
  rcases exists_of_elements? h hread with ⟨texts, body, rfl, hbody, hall⟩
  refine ⟨body ++ [close], ?_, takes_elements hspace hclose hcomma hrefuses hbody hall⟩
  rw [List.append_assoc, List.singleton_append]

end

end Elements

/-! # Members -/

section Members

variable {read? : Nat -> List Char -> Option (Json × List Char)}

theorem member?_refuses {c : Char} (h : c ≠ '"') :
    Refuses (fun fuel => member? (read? fuel) fuel) c := by
  intro fuel text
  show member? (read? fuel) fuel (c :: text) = none
  unfold member?
  split
  · next heq => exact absurd (List.cons.inj heq).left h
  · rfl

theorem member?_spaces (c : Char) (h : isSpace c = true) :
    Refuses (fun fuel => member? (read? fuel) fuel) c := by
  apply member?_refuses
  rintro rfl
  cases h

variable (hspace : forall c, isSpace c = true -> Refuses read? c)

include hspace

theorem takes_member {taken front back taken' : List Char} {name : String} {value : Json}
    (hname : Takes Anything (fun fuel => string? fuel []) taken name) (hfront : IsSpaces front)
    (hback : IsSpaces back) (hvalue : Takes JsonNumber.Ends read? taken' value) :
    Takes JsonNumber.Ends (fun fuel => member? (read? fuel) fuel)
      ('"' :: (taken ++ (front ++ ':' :: (back ++ taken')))) (name, value) := by
  intro more hmore fuel hfuel
  simp only [List.length_cons, List.length_append] at hfuel
  have hfirst := hname (front ++ ':' :: (back ++ (taken' ++ more))) trivial fuel (by omega)
  have hcolon : skipSpace (front ++ ':' :: (back ++ (taken' ++ more))) =
      ':' :: (back ++ (taken' ++ more)) := by
    rw [skipSpace_append hfront]
    exact skipSpace_of_startsWith (startsWith_cons.mpr (by decide))
  have hlast := hvalue more hmore fuel (by omega)
  simp only [List.cons_append, List.append_assoc] at hfirst ⊢
  simp only [member?, hfirst, hcolon, hvalue.skipSpace hspace hback, hlast, Option.map_some]

omit hspace in
theorem exists_of_member? {fuel : Nat} (h : SettledIn fuel JsonNumber.Ends read?)
    {text rest : List Char} {name : String} {value : Json}
    (hread : member? (read? fuel) fuel text = some ((name, value), rest)) :
    exists taken front back taken',
      text = '"' :: (taken ++ (front ++ ':' :: (back ++ taken'))) ++ rest ∧
        IsSpaces front ∧ IsSpaces back ∧ Takes Anything (fun k => string? k []) taken name ∧
        Takes JsonNumber.Ends read? taken' value := by
  unfold member? at hread
  split at hread
  · split at hread
    · cases hread
    · next name behind hname =>
      split at hread
      · next text' hmark =>
        rcases Option.map_eq_some_iff.mp hread with ⟨⟨value, _⟩, hvalue, heq⟩
        cases heq
        rcases settledIn_string? fuel [] _ name behind hname with ⟨taken, rfl, htaken⟩
        rcases h _ value rest hvalue with ⟨taken', htext', htaken'⟩
        rcases exists_spaces behind with ⟨front, hfront, hbehind⟩
        rcases exists_spaces text' with ⟨back, hback, hrest⟩
        refine ⟨taken, front, back, taken', ?_, hfront, hback, htaken, htaken'⟩
        rw [hbehind, hmark, hrest, htext']
        simp only [List.cons_append, List.append_assoc]
      · cases hread
  · cases hread

theorem settledIn_member? {fuel : Nat} (h : SettledIn fuel JsonNumber.Ends read?) :
    SettledIn fuel JsonNumber.Ends (fun k => member? (read? k) k) := by
  intro text x rest hread
  rcases exists_of_member? h hread with
    ⟨taken, front, back, taken', htext, hfront, hback, hname, hvalue⟩
  exact ⟨_, htext, takes_member hspace hname hfront hback hvalue⟩

end Members

/-! # Values -/

theorem value?_number {c : Char} (h : c = '-' ∨ JsonNumber.isDigit c = true) (fuel depth : Nat)
    (text : List Char) :
    value? (fuel + 1) depth (c :: text) =
      (JsonNumber.read? (c :: text)).map fun x => (.number x.1, x.2) := by
  rw [value?]
  all_goals
    intro rest heq
    rw [(List.cons.inj heq).left] at h
    exact absurd h (by decide)

theorem value?_refuses (depth : Nat) {c : Char} (h : isSpace c = true ∨ Delimits c) :
    Refuses (fun fuel => value? fuel depth) c := by
  intro fuel text
  show value? fuel depth (c :: text) = none
  cases fuel with
  | zero => rfl
  | succ fuel =>
      rcases h with h | rfl | rfl | rfl
      · simp only [isSpace, Bool.or_eq_true, beq_iff_eq] at h
        rcases h with ((rfl | rfl) | rfl) | rfl
        · rfl
        · rfl
        · rfl
        · rfl
      · rfl
      · rfl
      · rfl

theorem value?_spaces (depth : Nat) (c : Char) (h : isSpace c = true) :
    Refuses (fun fuel => value? fuel depth) c :=
  value?_refuses depth (Or.inl h)

theorem settledIn_value? (fuel depth : Nat) :
    SettledIn fuel JsonNumber.Ends (fun k => value? k depth) := by
  -- Elements and members are read in one step less, whatever their depth.
  induction fuel generalizing depth with
  | zero =>
      intro text x rest h
      cases h
  | succ fuel ih =>
      intro text x rest h
      change value? (fuel + 1) depth text = some (x, rest) at h
      unfold value? at h
      split at h
      · cases h
        exact ⟨['n', 'u', 'l', 'l'], rfl, takes_cons fun _ _ _ _ => rfl⟩
      · cases h
        exact ⟨['t', 'r', 'u', 'e'], rfl, takes_cons fun _ _ _ _ => rfl⟩
      · cases h
        exact ⟨['f', 'a', 'l', 's', 'e'], rfl, takes_cons fun _ _ _ _ => rfl⟩
      · rcases Option.map_eq_some_iff.mp h with ⟨⟨s, _⟩, hs, heq⟩
        cases heq
        rcases settledIn_string? fuel [] _ s rest hs with ⟨taken, rfl, htaken⟩
        refine ⟨'"' :: taken, rfl, takes_cons ?_⟩
        intro more _ k hk
        show (string? k [] (taken ++ more)).map _ = _
        rw [show string? k [] (taken ++ more) = _ from htaken more trivial k hk]
        rfl
      · split at h
        · cases h
        · next depth =>
          rcases Option.map_eq_some_iff.mp h with ⟨⟨items, _⟩, hitems, heq⟩
          cases heq
          have hrefuses := value?_refuses depth (Or.inr (Or.inr (Or.inl rfl)))
          rcases settledIn_elements? (value?_spaces depth) (Or.inr (Or.inl rfl)) (by decide)
            hrefuses (ih depth) _ items rest hitems with ⟨taken, rfl, htaken⟩
          refine ⟨'[' :: taken, rfl, takes_cons ?_⟩
          intro more _ k hk
          exact congrArg (Option.map _) (htaken more trivial k hk)
      · split at h
        · cases h
        · next depth =>
          rcases Option.map_eq_some_iff.mp h with ⟨⟨members, _⟩, hmembers, heq⟩
          cases heq
          rcases settledIn_elements? member?_spaces (Or.inr (Or.inr rfl)) (by decide)
            (member?_refuses (by decide)) (settledIn_member? (value?_spaces depth) (ih depth))
            _ members rest hmembers with ⟨taken, rfl, htaken⟩
          refine ⟨'{' :: taken, rfl, takes_cons ?_⟩
          intro more _ k hk
          exact congrArg (Option.map _) (htaken more trivial k hk)
      · rcases Option.map_eq_some_iff.mp h with ⟨⟨n, _⟩, hn, heq⟩
        cases heq
        rcases JsonNumber.settled_read?.exists_cons JsonNumber.ends_nil rfl hn with
          ⟨c, taken, rfl, htaken⟩
        have hc := startsWith_cons.mp (JsonNumber.startsWith_of_read? hn)
        refine ⟨c :: taken, rfl, takes_cons ?_⟩
        intro more hmore k _
        show value? (k + 1) depth (c :: (taken ++ more)) = _
        rw [value?_number hc, htaken more hmore]
        rfl

/-! # Whole texts -/

/-- A text writes a value, of at most so many levels: it is read as that value whole. -/
def Writes (depth : Nat) (text : List Char) (value : Json) : Prop :=
  exists rest, value? text.length depth (skipSpace text) = some (value, rest) ∧ IsSpaces rest

variable {depth : Nat} {text : List Char} {value : Json}

theorem stands_iff_value? {fuel : Nat} (hfuel : text.length ≤ fuel) :
    Stands (fun k => value? k depth) text value ↔
      exists rest, value? fuel depth (skipSpace text) = some (value, rest) ∧ IsSpaces rest := by
  constructor
  · rintro ⟨front, taken, back, rfl, hfront, hback, htaken⟩
    have hends : JsonNumber.Ends back := by
      have hspaces := hback.ends_append JsonNumber.ends_nil
      rwa [List.append_nil] at hspaces
    simp only [List.length_append] at hfuel
    rw [htaken.skipSpace (value?_spaces depth) hfront]
    exact ⟨back, htaken back hends fuel (by omega), hback⟩
  · rintro ⟨rest, hread, hrest⟩
    rcases settledIn_value? fuel depth _ value rest hread with ⟨taken, htext, htaken⟩
    rcases exists_spaces text with ⟨front, hfront, hsplit⟩
    exact ⟨front, taken, rest, hsplit.trans (congrArg (front ++ ·) htext), hfront, hrest, htaken⟩

theorem writes_iff_stands : Writes depth text value ↔ Stands (fun k => value? k depth) text value :=
  (stands_iff_value? (Nat.le_refl _)).symm

theorem ofChars?_eq_some_iff : ofChars? text = some value ↔ Writes maxDepth text value := by
  have hfuel : text.length ≤ 2 * text.length + 2 := by omega
  rw [writes_iff_stands, stands_iff_value? hfuel, ofChars?]
  constructor
  · intro h
    split at h
    · next result rest hread =>
      split at h
      · next hrest =>
        cases h
        exact ⟨rest, hread, skipSpace_eq_nil_iff.mp (List.isEmpty_iff.mp hrest)⟩
      · cases h
    · cases h
  · rintro ⟨rest, hread, hrest⟩
    rw [hread]
    exact if_pos (List.isEmpty_iff.mpr (skipSpace_eq_nil_iff.mpr hrest))

end JsonText
end HttpEngine
