import HttpEngine.Pairs
import HttpEngine.Proofs.Text.Search
import Mathlib.Data.Finset.Card
import Mathlib.Data.Finset.Image

/-!
# Which pairs are collected

A text is cut at every separator, and each piece that has an equals sign gives a pair, cut at the
first one.  Reading adds these pairs in their order and stops at the first point at which the
collection is full, whatever the collection is.  So an array gets as many of them as it has room
for, and a map gets the last value of each name among those that were taken.  Two texts one after
the other are collected like the two with a separator between them.
-/

namespace HttpEngine
namespace Pairs

/-! # The pairs of a text -/

def pairOf? (piece : List Char) : Option Pair :=
  if '=' ∈ piece then
    some (String.ofList (piece.takeWhile (· != '=')),
      String.ofList (piece.dropWhile (· != '=')).tail)
  else none

def ofPieces (pieces : List (List Char)) : List Pair :=
  pieces.filterMap pairOf?

inductive Style where
  | query
  | cookies

namespace Style

def separator : Style -> Char
  | .query => '&'
  | .cookies => ';'

def pairs : Style -> List Char -> List Pair
  | .query, text => ofPieces ((if text.head? = some '?' then text.tail else text).splitOn '&')
  | .cookies, text => ofPieces ((text.splitOn ';').map fun piece => piece.dropWhile (· == ' '))

/-- Whether a text may stand behind another one of the style. -/
def Continues : Style -> List Char -> Prop
  | .query, text => text.head? ≠ some '?'
  | .cookies, _ => True

def add {γ : Type} [Collector γ] : Style -> Nat -> γ -> List Char -> γ
  | .query => addQuery
  | .cookies => addCookies

end Style

/-! # Pieces -/

theorem takeWhile_append_cons {c : Char} {front : List Char} (h : c ∉ front) (rest : List Char) :
    (front ++ c :: rest).takeWhile (· != c) = front := by
  rw [List.takeWhile_append_of_pos, List.takeWhile_cons_of_neg, List.append_nil]
  · simp
  · intro d hd
    exact bne_iff_ne.mpr fun heq => h (heq ▸ hd)

theorem dropWhile_append_cons {c : Char} {front : List Char} (h : c ∉ front) (rest : List Char) :
    (front ++ c :: rest).dropWhile (· != c) = c :: rest := by
  rw [List.dropWhile_append_of_pos, List.dropWhile_cons_of_neg]
  · simp
  · intro d hd
    exact bne_iff_ne.mpr fun heq => h (heq ▸ hd)

theorem pairOf?_append_cons {name : List Char} (h : '=' ∉ name) (value : List Char) :
    pairOf? (name ++ '=' :: value) = some (String.ofList name, String.ofList value) := by
  have hmem : '=' ∈ name ++ '=' :: value := List.mem_append_right name List.mem_cons_self
  rw [pairOf?, if_pos hmem, takeWhile_append_cons h, dropWhile_append_cons h, List.tail_cons]

theorem addPiece_eq {γ : Type} [Collector γ] (held : γ) (piece : List Char) :
    addPiece held piece = (pairOf? piece).elim held (Collector.add held) := by
  unfold addPiece
  cases hcut : cut? ['='] piece with
  | none =>
      have hfree : '=' ∉ piece := by
        intro hmem
        rcases List.append_of_mem hmem with ⟨front, rest, hsplit⟩
        apply cut?_eq_none_iff.mp hcut
        exact ⟨front, rest, by rw [hsplit, List.append_assoc, List.singleton_append]⟩
      rw [pairOf?, if_neg hfree]
      rfl
  | some cut =>
      have hsplit : piece = cut.1 ++ '=' :: cut.2 := by
        rw [eq_append_of_cut? hcut, List.append_assoc, List.singleton_append]
      rw [hsplit, pairOf?_append_cons (not_mem_of_cut?_singleton hcut)]
      rfl

theorem nextPiece_cases (separator : Char) (text : List Char) :
    (separator ∉ text ∧ nextPiece separator text = (text, [])) ∨
      (separator ∉ (nextPiece separator text).1 ∧
        text = (nextPiece separator text).1 ++ separator :: (nextPiece separator text).2) := by
  unfold nextPiece
  cases hcut : cut? [separator] text with
  | none =>
      apply Or.inl
      exact ⟨not_mem_of_cut?_eq_none hcut, rfl⟩
  | some cut =>
      apply Or.inr
      refine ⟨not_mem_of_cut?_singleton hcut, ?_⟩
      rw [Option.getD_some, ← List.singleton_append, ← List.append_assoc]
      exact eq_append_of_cut? hcut

theorem ofPieces_cons (piece : List Char) (pieces : List (List Char)) :
    ofPieces (piece :: pieces) = (pairOf? piece).toList ++ ofPieces pieces := by
  cases h : pairOf? piece with
  | none => exact List.filterMap_cons_none h
  | some p => exact List.filterMap_cons_some h

theorem ofPieces_append (pieces more : List (List Char)) :
    ofPieces (pieces ++ more) = ofPieces pieces ++ ofPieces more :=
  List.filterMap_append

/-! # Filling a collection -/

section Filling

variable {γ : Type} [Collector γ] {limit : Nat} {held : γ}

def fill (limit : Nat) (held : γ) : List Pair -> γ
  | [] => held
  | p :: rest =>
      if Collector.size held < limit then fill limit (Collector.add held p) rest else held

theorem fill_of_full (h : limit ≤ Collector.size held) (pairs : List Pair) :
    fill limit held pairs = held := by
  cases pairs with
  | nil => rfl
  | cons p rest => exact if_neg (Nat.not_lt.mpr h)

theorem fill_append (pairs more : List Pair) :
    fill limit held (pairs ++ more) = fill limit (fill limit held pairs) more := by
  induction pairs generalizing held with
  | nil => rfl
  | cons p rest ih =>
      rw [List.cons_append]
      by_cases hroom : Collector.size held < limit
      · rw [fill, fill, if_pos hroom, if_pos hroom, ih]
      · have hfull := Nat.not_lt.mp hroom
        rw [fill_of_full hfull, fill_of_full hfull, fill_of_full hfull]

/--
What comes of adding pairs: some of them, from the first one on, are taken.  There was room for
each of these, and if any is left out, then the collection is full.
-/
structure Filled (limit : Nat) (held : γ) (pairs taken : List Pair) (result : γ) : Prop where
  beginning : taken <+: pairs
  result_eq : result = taken.foldl Collector.add held
  room : forall front, front <+: taken -> front ≠ taken ->
    Collector.size (front.foldl Collector.add held) < limit
  ending : taken = pairs ∨ limit ≤ Collector.size result

theorem exists_filled (limit : Nat) (held : γ) (pairs : List Pair) :
    exists taken, Filled limit held pairs taken (fill limit held pairs) := by
  induction pairs generalizing held with
  | nil =>
      refine ⟨[], List.prefix_rfl, rfl, ?_, Or.inl rfl⟩
      intro front hfront hne
      exact absurd (List.prefix_nil.mp hfront) hne
  | cons p rest ih =>
      by_cases hroom : Collector.size held < limit
      · rcases ih (Collector.add held p) with ⟨taken, hfilled⟩
        rw [fill, if_pos hroom]
        refine ⟨p :: taken, ?_, hfilled.result_eq, ?_, ?_⟩
        · exact (List.prefix_cons_inj p).mpr hfilled.beginning
        · intro front hfront hne
          cases front with
          | nil => exact hroom
          | cons q front =>
              rcases List.cons_prefix_cons.mp hfront with ⟨hq, hfront⟩
              rw [hq] at hne ⊢
              exact hfilled.room front hfront fun heq => hne (congrArg (List.cons p) heq)
        · rcases hfilled.ending with heq | hfull
          · exact Or.inl (congrArg (List.cons p) heq)
          · exact Or.inr hfull
      · have hfull := Nat.not_lt.mp hroom
        rw [fill_of_full hfull]
        refine ⟨[], List.nil_prefix, rfl, ?_, Or.inr hfull⟩
        intro front hfront hne
        exact absurd (List.prefix_nil.mp hfront) hne

theorem trimPiece_nil (isTrimmed : Bool) : trimPiece isTrimmed [] = [] := by
  cases isTrimmed <;> rfl

theorem ofPieces_splitOn (separator : Char) (isTrimmed : Bool) (text : List Char) :
    ofPieces ((text.splitOn separator).map (trimPiece isTrimmed)) =
      (pairOf? (trimPiece isTrimmed (nextPiece separator text).1)).toList ++
        ofPieces (((nextPiece separator text).2.splitOn separator).map (trimPiece isTrimmed)) := by
  rcases nextPiece_cases separator text with ⟨hfree, hnext⟩ | ⟨hfree, hsplit⟩
  · rw [hnext, List.splitOn_eq_singleton hfree, List.splitOn_nil, List.map_singleton,
      List.map_singleton, trimPiece_nil, ofPieces_cons]
    rfl
  · rw [← ofPieces_cons, ← List.map_cons, ← List.splitOn_append_cons_self_of_not_mem hfree,
      ← hsplit]

theorem addPieces_eq_fill (separator : Char) (isTrimmed : Bool) (limit : Nat) (held : γ)
    (text : List Char) :
    addPieces separator isTrimmed limit held text =
      fill limit held (ofPieces ((text.splitOn separator).map (trimPiece isTrimmed))) := by
  fun_induction addPieces separator isTrimmed limit held text with
  | case1 held text hstop =>
      rcases hstop with hnil | hfull
      · rw [hnil, List.splitOn_nil, List.map_singleton, trimPiece_nil]
        rfl
      · exact (fill_of_full hfull _).symm
  | case2 held text hstop next ih =>
      have hroom : Collector.size held < limit := Nat.not_le.mp fun hfull => hstop (Or.inr hfull)
      rw [ih, addPiece_eq, ofPieces_splitOn separator isTrimmed text]
      cases pairOf? (trimPiece isTrimmed (nextPiece separator text).1) with
      | none => rfl
      | some p =>
          rw [Option.toList_some, List.singleton_append, fill, if_pos hroom]
          rfl

theorem withoutMark_eq (text : List Char) :
    withoutMark text = if text.head? = some '?' then text.tail else text := by
  unfold withoutMark
  split
  · rfl
  · next hother =>
    rw [if_neg]
    intro hhead
    rcases List.head?_eq_some_iff.mp hhead with ⟨rest, hrest⟩
    exact hother rest hrest

theorem Style.add_eq_fill (style : Style) (limit : Nat) (held : γ) (text : List Char) :
    style.add limit held text = fill limit held (style.pairs text) := by
  cases style with
  | query =>
      have htrim : trimPiece false = id := rfl
      rw [add, addQuery, addPieces_eq_fill, htrim, List.map_id, withoutMark_eq]
      rfl
  | cookies =>
      rw [add, addCookies, addPieces_eq_fill]
      rfl

end Filling

/-! # Arrays -/

theorem toList_fill (limit : Nat) (held : Array Pair) (pairs : List Pair) :
    (fill limit held pairs).toList = held.toList ++ pairs.take (limit - held.size) := by
  induction pairs generalizing held with
  | nil => rw [fill, List.take_nil, List.append_nil]
  | cons p rest ih =>
      by_cases hroom : held.size < limit
      · have hmore : limit - held.size = limit - (held.push p).size + 1 := by
          rw [Array.size_push]
          omega
        have hlate := ih (held.push p)
        rw [Array.toList_push, List.append_assoc] at hlate
        rw [fill, hmore, List.take_succ_cons]
        exact (congrArg Array.toList (if_pos hroom)).trans hlate
      · have hfull := Nat.not_lt.mp hroom
        rw [fill_of_full hfull, Nat.sub_eq_zero_of_le hfull, List.take_zero, List.append_nil]

/-! # Maps -/

theorem lookup_insertSorted (pair : Pair) (pairs : List Pair) (name : String) :
    (PairMap.insertSorted pair pairs).lookup name =
      if name = pair.1 then some pair.2 else pairs.lookup name := by
  induction pairs with
  | nil => rw [PairMap.insertSorted, lookup_cons_eq]
  | cons other rest ih =>
      unfold PairMap.insertSorted
      split
      · rw [lookup_cons_eq]
      · split
        · next hsame =>
          rw [lookup_cons_eq, lookup_cons_eq, ← hsame]
          split <;> rfl
        · next hne =>
          rw [lookup_cons_eq, lookup_cons_eq, ih]
          by_cases hother : name = other.1
          · rw [if_pos hother, if_pos hother, if_neg fun heq => hne (heq.symm.trans hother)]
          · rw [if_neg hother, if_neg hother]

theorem get?_insert (map : PairMap) (pair : Pair) (name : String) :
    (map.insert pair).get? name = if name = pair.1 then some pair.2 else map.get? name :=
  lookup_insertSorted pair map.pairs name

theorem mem_names_insertSorted {pair : Pair} {pairs : List Pair} {name : String} :
    name ∈ (PairMap.insertSorted pair pairs).map Prod.fst ↔
      name = pair.1 ∨ name ∈ pairs.map Prod.fst := by
  induction pairs with
  | nil => simp [PairMap.insertSorted]
  | cons other rest ih =>
      unfold PairMap.insertSorted
      split
      · simp
      · split
        · next hsame => simp [hsame]
        · simp only [List.map_cons, List.mem_cons, ih]
          tauto

theorem nodup_names (map : PairMap) : (map.pairs.map Prod.fst).Nodup := by
  apply List.pairwise_map.mpr
  apply map.sorted.imp
  intro p q hless heq
  exact String.lt_irrefl q.1 (heq ▸ hless)

def namesWith (map : PairMap) (pairs : List Pair) : Finset String :=
  ((map.pairs ++ pairs).map Prod.fst).toFinset

structure Latest (held : PairMap) (taken : List Pair) (result : PairMap) : Prop where
  value : forall name, result.get? name = (taken.reverse.lookup name).or (held.get? name)
  size : Collector.size result = (namesWith held taken).card

theorem lookup_append_singleton (pairs : List Pair) (p : Pair) (name : String) :
    (pairs ++ [p]).lookup name =
      (pairs.lookup name).or (if name = p.1 then some p.2 else none) := by
  rw [List.lookup_append, lookup_cons_eq, List.lookup_nil]

theorem latest_foldl (held : PairMap) (taken : List Pair) :
    Latest held taken (taken.foldl Collector.add held) := by
  induction taken generalizing held with
  | nil =>
      refine ⟨fun name => rfl, ?_⟩
      rw [namesWith, List.append_nil, List.toFinset_card_of_nodup (nodup_names held),
        List.length_map]
      rfl
  | cons p taken ih =>
      have hlate := ih (held.insert p)
      constructor
      · intro name
        rw [List.foldl_cons, List.reverse_cons, lookup_append_singleton, Option.or_assoc]
        refine (hlate.value name).trans ?_
        rw [get?_insert]
        by_cases hname : name = p.1
        · rw [if_pos hname, if_pos hname, Option.some_or]
        · rw [if_neg hname, if_neg hname, Option.none_or]
      · rw [List.foldl_cons]
        refine hlate.size.trans (congrArg Finset.card ?_)
        ext name
        rw [namesWith, namesWith, List.mem_toFinset, List.mem_toFinset, List.map_append,
          List.map_append, List.mem_append, List.mem_append, PairMap.insert,
          mem_names_insertSorted, List.map_cons, List.mem_cons]
        tauto

/-! # One text behind another -/

theorem Style.pairs_append (style : Style) (text : List Char) {more : List Char}
    (h : style.Continues more) :
    style.pairs (text ++ style.separator :: more) = style.pairs text ++ style.pairs more := by
  cases style with
  | query =>
      have hmore : more.head? ≠ some '?' := h
      have hmark : (if (text ++ '&' :: more).head? = some '?' then (text ++ '&' :: more).tail
          else text ++ '&' :: more) =
          (if text.head? = some '?' then text.tail else text) ++ '&' :: more := by
        cases text with
        | nil => rfl
        | cons c rest =>
            rw [List.cons_append, List.head?_cons, List.head?_cons]
            split <;> rfl
      rw [separator, pairs, hmark, List.splitOn_append_cons_self, ofPieces_append, pairs, pairs,
        if_neg hmore]
  | cookies =>
      rw [separator, pairs, List.splitOn_append_cons_self, List.map_append, ofPieces_append, pairs,
        pairs]

/--
Queries and cookies are collected as their pairs say.  Any collection gets the pairs in their order
up to the first point at which it is full.  For an array these are the first ones, as many as there
is room for.  For a map they are all up to the one that brings its names to the limit, and each
name keeps the value that came last.  And nothing is lost or gained by reading a text in two parts.
-/
theorem Style.add_collects (style : Style) (limit : Nat) :
    (forall (γ : Type) [Collector γ] (held : γ) (text : List Char),
      exists taken, Filled limit held (style.pairs text) taken (style.add limit held text)) ∧
    (forall (held : Array Pair) (text : List Char),
      (style.add limit held text).toList =
        held.toList ++ (style.pairs text).take (limit - held.size)) ∧
    (forall (held : PairMap) (text : List Char), exists taken,
      taken <+: style.pairs text ∧ Latest held taken (style.add limit held text) ∧
      (forall front, front <+: taken -> front ≠ taken -> (namesWith held front).card < limit) ∧
      (taken = style.pairs text ∨ limit ≤ (namesWith held taken).card)) ∧
    (forall (γ : Type) [Collector γ] (held : γ) (text more : List Char), style.Continues more ->
      style.add limit (style.add limit held text) more =
        style.add limit held (text ++ style.separator :: more)) := by
  refine ⟨?_, ?_, ?_, ?_⟩
  · intro γ _ held text
    rw [style.add_eq_fill]
    exact exists_filled limit held (style.pairs text)
  · intro held text
    rw [style.add_eq_fill]
    exact toList_fill limit held (style.pairs text)
  · intro held text
    rcases exists_filled limit held (style.pairs text) with ⟨taken, hfilled⟩
    rw [← style.add_eq_fill] at hfilled
    have hlatest : Latest held taken (style.add limit held text) :=
      hfilled.result_eq ▸ latest_foldl held taken
    refine ⟨taken, hfilled.beginning, hlatest, ?_, ?_⟩
    · intro front hfront hne
      rw [← (latest_foldl held front).size]
      exact hfilled.room front hfront hne
    · rw [← hlatest.size]
      exact hfilled.ending
  · intro γ _ held text more hmore
    rw [style.add_eq_fill, style.add_eq_fill, style.add_eq_fill, style.pairs_append text hmore,
      fill_append]

/-- A map of two names, which the first part of a query does not fill although it has two pairs. -/
theorem Style.add_collects_repeated :
    Style.query.Continues "b=3&a=4".toList ∧
      Style.query.add 2 (Style.query.add 2 (Collector.empty : PairMap) "?a=1&a=2".toList)
          "b=3&a=4".toList =
        Style.query.add 2 (Collector.empty : PairMap) "?a=1&a=2&b=3&a=4".toList ∧
      (Style.query.add 2 (Collector.empty : PairMap) "?a=1&a=2&b=3&a=4".toList).pairs =
        [("a", "2"), ("b", "3")] := by
  have hmore : Style.query.Continues "b=3&a=4".toList := by
    show "b=3&a=4".toList.head? ≠ some '?'
    decide
  refine ⟨hmore, ?_, ?_⟩
  · exact (Style.add_collects .query 2).2.2.2 PairMap Collector.empty "?a=1&a=2".toList
      "b=3&a=4".toList hmore
  · rw [Style.add_eq_fill]
    decide +kernel

end Pairs
end HttpEngine
