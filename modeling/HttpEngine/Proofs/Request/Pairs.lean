import HttpEngine.Proofs.Request.Splitting
import HttpEngine.Text.Cut

/-!
# Pairs that are read back

A list of pairs is written with an equals sign in each pair and a separator between the pairs.  If
the names and the values hold none of the characters at which they would be cut, reading gives the
list back, with its duplicates and in its order.
-/

namespace HttpEngine

def FreeOf (separators text : List Char) : Prop :=
  forall c, c ∈ separators -> c ∉ text

instance (separators text : List Char) : Decidable (FreeOf separators text) :=
  List.decidableBAll (fun c => c ∉ text) separators

namespace Pairs

/-! # Writing -/

def pairText (p : Pair) : List Char :=
  p.1.toList ++ '=' :: p.2.toList

def queryText (pairs : List Pair) : List Char :=
  ['&'].intercalate (pairs.map pairText)

def cookieText (pairs : List Pair) : List Char :=
  [';', ' '].intercalate (pairs.map pairText)

structure IsQuery (pairs : List Pair) : Prop where
  names : forall p, p ∈ pairs -> FreeOf ['=', '&', ' ', '\r', '\n'] p.1.toList
  values : forall p, p ∈ pairs -> FreeOf ['&', ' ', '\r', '\n'] p.2.toList
  first : forall p, pairs.head? = some p -> p.1.toList.head? ≠ some '?'

structure IsCookies (pairs : List Pair) : Prop where
  names : forall p, p ∈ pairs -> FreeOf ['=', ';'] p.1.toList ∧ p.1.toList.head? ≠ some ' '
  values : forall p, p ∈ pairs -> FreeOf [';'] p.2.toList

/-! # Reading -/

theorem pairOf?_pairText {p : Pair} (h : '=' ∉ p.1.toList) : pairOf? (pairText p) = some p := by
  rw [pairText, pairOf?_append_cons h, String.ofList_toList, String.ofList_toList]

theorem ofPieces_pairTexts {pairs : List Pair} (h : forall p, p ∈ pairs -> '=' ∉ p.1.toList) :
    ofPieces (pairs.map pairText) = pairs := by
  induction pairs with
  | nil => rfl
  | cons p pairs ih =>
      have hrest := ih fun q hq => h q (List.mem_cons_of_mem p hq)
      rw [List.map_cons, ofPieces_cons, pairOf?_pairText (h p List.mem_cons_self), hrest]
      rfl

theorem Style.size_add_le (style : Style) (limit : Nat) (text : List Char) :
    (style.add limit (#[] : Array Pair) text).size ≤ limit := by
  rw [style.add_eq_fill, ← Array.length_toList, toList_fill]
  exact List.length_take_le limit _

theorem Style.add_of_pairs {style : Style} {limit : Nat} {text : List Char} {pairs : List Pair}
    (h : style.pairs text = pairs) (hlimit : pairs.length ≤ limit) :
    (style.add limit (#[] : Array Pair) text).toList = pairs := by
  rw [style.add_eq_fill, toList_fill, h]
  exact List.take_of_length_le hlimit

theorem not_mem_pairText {c : Char} {p : Pair} (hc : c ≠ '=') (hname : c ∉ p.1.toList)
    (hvalue : c ∉ p.2.toList) : c ∉ pairText p := by
  rw [pairText, List.mem_append, List.mem_cons]
  rintro (hmem | heq | hmem)
  · exact hname hmem
  · exact hc heq
  · exact hvalue hmem

theorem head?_pairText {c : Char} {p : Pair} (hc : c ≠ '=')
    (hname : p.1.toList.head? ≠ some c) : (pairText p).head? ≠ some c := by
  unfold pairText
  cases hlist : p.1.toList with
  | nil =>
      intro heq
      exact hc (Option.some.inj heq).symm
  | cons d rest =>
      rw [hlist] at hname
      exact hname

/-! # Queries -/

theorem head?_queryText {pairs : List Pair} (h : IsQuery pairs) :
    (queryText pairs).head? ≠ some '?' := by
  cases pairs with
  | nil =>
      intro heq
      cases heq
  | cons p pairs =>
      have hfirst := head?_pairText (by decide) (h.first p rfl)
      rcases List.exists_cons_of_ne_nil (show pairText p ≠ [] by simp [pairText]) with
        ⟨c, rest, htext⟩
      rw [htext] at hfirst
      rw [queryText, List.map_cons, htext]
      cases pairs with
      | nil => exact hfirst
      | cons q pairs => exact hfirst

theorem not_mem_intercalate {c d : Char} (hd : c ≠ d) {texts : List (List Char)}
    (h : forall text, text ∈ texts -> c ∉ text) : c ∉ [d].intercalate texts := by
  induction texts with
  | nil => exact List.not_mem_nil
  | cons text texts ih =>
      have htext := h text List.mem_cons_self
      have hrest := ih fun t ht => h t (List.mem_cons_of_mem _ ht)
      cases texts with
      | nil =>
          rw [List.intercalate_singleton]
          exact htext
      | cons next texts =>
          rw [List.intercalate_cons_cons, List.mem_append, List.mem_append, List.mem_singleton]
          rintro ((hmem | heq) | hmem)
          · exact htext hmem
          · exact hd heq
          · exact hrest hmem

theorem not_mem_queryText {c : Char} {pairs : List Pair} (h : IsQuery pairs)
    (hc : c ∈ [' ', '\r', '\n']) : c ∉ queryText pairs := by
  have hname : c ∈ ['=', '&', ' ', '\r', '\n'] :=
    List.mem_cons_of_mem _ (List.mem_cons_of_mem _ hc)
  have hne : c ≠ '&' ∧ c ≠ '=' := by
    constructor
    · rintro rfl
      revert hc
      decide
    · rintro rfl
      revert hc
      decide
  apply not_mem_intercalate hne.left
  intro text htext
  rcases List.mem_map.mp htext with ⟨p, hp, hpair⟩
  rw [← hpair]
  exact not_mem_pairText hne.right (h.names p hp c hname)
    (h.values p hp c (List.mem_cons_of_mem _ hc))

theorem pairs_queryText {pairs : List Pair} (h : IsQuery pairs) (hne : pairs ≠ []) :
    Style.query.pairs (queryText pairs) = pairs := by
  have hpieces : forall piece, piece ∈ pairs.map pairText -> '&' ∉ piece := by
    intro piece hpiece
    rcases List.mem_map.mp hpiece with ⟨p, hp, htext⟩
    rw [← htext]
    exact not_mem_pairText (by decide) (h.names p hp '&' (by decide))
      (h.values p hp '&' (by decide))
  rw [Style.pairs, if_neg (head?_queryText h), queryText,
    List.splitOn_intercalate '&' hpieces (by simp [hne])]
  apply ofPieces_pairTexts
  intro p hp
  exact h.names p hp '=' (by decide)

theorem addQuery_queryText {limit : Nat} {pairs : List Pair} (h : IsQuery pairs)
    (hne : pairs ≠ []) (hlimit : pairs.length ≤ limit) :
    (addQuery limit #[] (queryText pairs)).toList = pairs :=
  Style.add_of_pairs (pairs_queryText h hne) hlimit

/-! # Cookies -/

theorem intercalate_semicolon_space (text : List Char) (texts : List (List Char)) :
    [';', ' '].intercalate (text :: texts) =
      [';'].intercalate (text :: texts.map fun t => ' ' :: t) := by
  induction texts generalizing text with
  | nil => rfl
  | cons next texts ih =>
      rw [List.map_cons, List.intercalate_cons_cons, List.intercalate_cons_cons,
        List.intercalate_cons_cons_left, ih]
      simp

theorem dropWhile_space {text : List Char} (h : text.head? ≠ some ' ') :
    text.dropWhile (· == ' ') = text := by
  apply Text.dropWhile_of_head?
  intro c hc
  apply beq_false_of_ne
  intro hspace
  exact h (hspace ▸ hc)

theorem pairs_cookieText {pairs : List Pair} (h : IsCookies pairs) :
    Style.cookies.pairs (cookieText pairs) = pairs := by
  have hstart : forall q, q ∈ pairs -> (pairText q).dropWhile (· == ' ') = pairText q := by
    intro q hq
    exact dropWhile_space (head?_pairText (by decide) (h.names q hq).right)
  have hfree : forall q, q ∈ pairs -> ';' ∉ pairText q := by
    intro q hq
    exact not_mem_pairText (by decide) ((h.names q hq).left ';' (by decide))
      (h.values q hq ';' (by decide))
  cases pairs with
  | nil => rfl
  | cons p pairs =>
      have hpieces : forall piece,
          piece ∈ pairText p :: (pairs.map pairText).map (fun t => ' ' :: t) -> ';' ∉ piece := by
        intro piece hpiece
        rcases List.mem_cons.mp hpiece with heq | hmem
        · rw [heq]
          exact hfree p List.mem_cons_self
        · rcases List.mem_map.mp hmem with ⟨text, htext, hspace⟩
          rcases List.mem_map.mp htext with ⟨q, hq, hpair⟩
          rw [← hspace, ← hpair, List.mem_cons]
          rintro (heq | hin)
          · cases heq
          · exact hfree q (List.mem_cons_of_mem _ hq) hin
      have htrimmed : (pairText p :: (pairs.map pairText).map fun t => ' ' :: t).map
          (fun piece => piece.dropWhile (· == ' ')) = (p :: pairs).map pairText := by
        rw [List.map_cons, hstart p List.mem_cons_self, List.map_map, List.map_map, List.map_cons]
        congr 1
        apply List.map_congr_left
        intro q hq
        exact hstart q (List.mem_cons_of_mem _ hq)
      rw [Style.pairs, cookieText, List.map_cons, intercalate_semicolon_space,
        List.splitOn_intercalate ';' hpieces (List.cons_ne_nil _ _), htrimmed]
      apply ofPieces_pairTexts
      intro q hq
      exact (h.names q hq).left '=' (by decide)

theorem addCookies_cookieText {limit : Nat} {pairs : List Pair} (h : IsCookies pairs)
    (hlimit : pairs.length ≤ limit) :
    (addCookies limit #[] (cookieText pairs)).toList = pairs :=
  Style.add_of_pairs (pairs_cookieText h) hlimit

end Pairs
end HttpEngine
