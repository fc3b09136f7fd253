import HttpEngine.Lookup
import HttpEngine.Text.Cut

/-!
# Pairs of names and values

The query of a target and the cookies of a request are pairs `name=value` with a separator between
them.  A piece without an equals sign is no pair.  Pairs are collected as long as the collection
holds fewer than the limit, which is looked at before each piece.
-/

namespace HttpEngine

abbrev Pair := String × String

class Collector (γ : Type) where
  empty : γ
  add : γ -> Pair -> γ
  size : γ -> Nat

instance : Collector (Array Pair) where
  empty := #[]
  add := Array.push
  size := Array.size

/-! # Maps -/

def SortedByName (pairs : List Pair) : Prop :=
  pairs.Pairwise fun p q => p.1 < q.1

/-- Names with their latest values, sorted by name. -/
structure PairMap where
  pairs : List Pair
  sorted : SortedByName pairs

namespace PairMap

def insertSorted (pair : Pair) : List Pair -> List Pair
  | [] => [pair]
  | other :: rest =>
      if pair.1 < other.1 then pair :: other :: rest
      else if pair.1 = other.1 then pair :: rest
      else other :: insertSorted pair rest

theorem mem_of_mem_insertSorted {pair p : Pair} {pairs : List Pair}
    (h : p ∈ insertSorted pair pairs) : p = pair ∨ p ∈ pairs := by
  induction pairs with
  | nil => exact Or.inl (List.mem_singleton.mp h)
  | cons other rest ih =>
      unfold insertSorted at h
      split at h
      · exact List.mem_cons.mp h
      · split at h
        · rcases List.mem_cons.mp h with heq | hmem
          · exact Or.inl heq
          · exact Or.inr (List.mem_cons_of_mem other hmem)
        · rcases List.mem_cons.mp h with heq | hmem
          · exact Or.inr (heq ▸ List.mem_cons_self)
          · rcases ih hmem with heq | hrest
            · exact Or.inl heq
            · exact Or.inr (List.mem_cons_of_mem other hrest)

theorem sortedByName_insertSorted {pair : Pair} {pairs : List Pair} (h : SortedByName pairs) :
    SortedByName (insertSorted pair pairs) := by
  induction pairs with
  | nil => exact List.pairwise_singleton _ pair
  | cons other rest ih =>
      have hrest := List.pairwise_cons.mp h
      unfold insertSorted
      split
      · next hless =>
        apply List.pairwise_cons.mpr
        refine ⟨fun q hq => ?_, h⟩
        rcases List.mem_cons.mp hq with heq | hmem
        · exact heq ▸ hless
        · exact String.lt_trans hless (hrest.left q hmem)
      · next hnot =>
        split
        · next hsame =>
          exact List.pairwise_cons.mpr ⟨fun q hq => hsame ▸ hrest.left q hq, hrest.right⟩
        · next hne =>
          apply List.pairwise_cons.mpr
          refine ⟨fun q hq => ?_, ih hrest.right⟩
          rcases mem_of_mem_insertSorted hq with heq | hmem
          · rw [heq]
            apply Std.not_le.mp
            intro hle
            exact hne (String.le_antisymm hle (Std.not_lt.mp hnot))
          · exact hrest.left q hmem

def insert (map : PairMap) (pair : Pair) : PairMap :=
  ⟨insertSorted pair map.pairs, sortedByName_insertSorted map.sorted⟩

def get? (map : PairMap) (name : String) : Option String :=
  map.pairs.lookup name

end PairMap

instance : Collector PairMap where
  empty := ⟨[], List.Pairwise.nil⟩
  add := PairMap.insert
  size map := map.pairs.length

/-! # Reading -/

namespace Pairs

def addPiece {γ : Type} [Collector γ] (held : γ) (piece : List Char) : γ :=
  match cut? ['='] piece with
  | some (name, value) => Collector.add held (String.ofList name, String.ofList value)
  | none => held

def nextPiece (separator : Char) (text : List Char) : List Char × List Char :=
  (cut? [separator] text).getD (text, [])

theorem length_nextPiece_lt (separator : Char) {text : List Char} (h : text ≠ []) :
    (nextPiece separator text).2.length < text.length := by
  unfold nextPiece
  cases hcut : cut? [separator] text with
  | none => exact List.length_pos_iff.mpr h
  | some cut =>
      have hlength := congrArg List.length (eq_append_of_cut? hcut)
      simp only [List.length_append, List.length_singleton] at hlength
      simp only [Option.getD_some]
      omega

def trimPiece (isTrimmed : Bool) (piece : List Char) : List Char :=
  if isTrimmed then piece.dropWhile (· == ' ') else piece

def addPieces {γ : Type} [Collector γ] (separator : Char) (isTrimmed : Bool) (limit : Nat)
    (held : γ) (text : List Char) : γ :=
  if _ : text = [] ∨ limit ≤ Collector.size held then held
  else
    let next := nextPiece separator text
    addPieces separator isTrimmed limit (addPiece held (trimPiece isTrimmed next.1)) next.2
termination_by text.length
decreasing_by
  next h => exact length_nextPiece_lt separator fun hnil => h (Or.inl hnil)

def withoutMark : List Char -> List Char
  | '?' :: rest => rest
  | text => text

/-- Adds the pairs of a query, of which one question mark in front is dropped. -/
def addQuery {γ : Type} [Collector γ] (limit : Nat) (held : γ) (query : List Char) : γ :=
  addPieces '&' false limit held (withoutMark query)

def addCookies {γ : Type} [Collector γ] (limit : Nat) (held : γ) (header : List Char) : γ :=
  addPieces ';' true limit held header

def find? (pairs : List Pair) (name : String) : Option String :=
  pairs.lookup name

end Pairs
end HttpEngine
