import HttpEngine.Lookup
import HttpEngine.Proofs.Json.Reading

/-!
# Objects and their texts

An object is written as its members with commas between them, in braces, and a member as a string
and a value with a colon between them.  What is read from such a text are the members, sorted; the
member of a name is then the last one of the name in the text.
-/

namespace HttpEngine

/-! # Sorted members -/

def InOrder (members : List (String × Json)) : Prop :=
  members.Pairwise fun m n => m.1 ≤ n.1

theorem keepLater_sublist (m : String × Json) (held : List (String × Json)) :
    (keepLater m held).Sublist (m :: held) := by
  unfold keepLater
  split
  · exact List.Sublist.refl _
  · split
    · exact List.sublist_cons_self m _
    · exact List.Sublist.refl _

theorem foldr_keepLater_sublist (members : List (String × Json)) :
    (members.foldr keepLater []).Sublist members := by
  induction members with
  | nil => exact List.Sublist.refl []
  | cons m later ih => exact (keepLater_sublist m _).trans (List.Sublist.cons_cons m ih)

theorem lookup_foldr_keepLater {members : List (String × Json)} (h : InOrder members)
    (name : String) : (members.foldr keepLater []).lookup name = members.reverse.lookup name := by
  induction members with
  | nil => rfl
  | cons m later ih =>
      have hsublist := foldr_keepLater_sublist later
      rcases List.pairwise_cons.mp h with ⟨hfirst, hlater⟩
      rw [List.reverse_cons, List.lookup_append, ← ih hlater, List.foldr_cons, lookup_cons_eq]
      generalize later.foldr keepLater [] = kept at hsublist
      have hkept : InOrder kept := hlater.sublist hsublist
      unfold keepLater
      split
      · simp [lookup_cons_eq]
      · next held rest =>
        split
        · next hname =>
          rw [lookup_cons_eq]
          by_cases hheld : name = held.1
          · simp [hheld]
          · simp [hheld, hname]
        · next hname =>
          rw [lookup_cons_eq]
          split
          · next hheld =>
            have hnone : (held :: rest).lookup name = none := by
              rw [List.lookup_eq_none_iff, hheld]
              intro n hn
              have hle : m.1 ≤ held.1 := hfirst held (hsublist.subset List.mem_cons_self)
              have hrest : n = held ∨ held.1 ≤ n.1 :=
                (List.mem_cons.mp hn).imp_right ((List.pairwise_cons.mp hkept).left n)
              rw [bne_iff_ne]
              rintro heq
              rcases hrest with rfl | hrest
              · exact hname heq
              · exact hname (String.le_antisymm hle (heq ▸ hrest))
            rw [hnone]
            rfl
          · simp

theorem byName_iff {m n : String × Json} : (!decide (n.1 < m.1)) = true ↔ m.1 ≤ n.1 := by
  rw [Bool.not_eq_true', decide_eq_false_iff_not, String.not_lt]

section Sorting

variable (members : List (String × Json))

theorem byName_trans (l m n : String × Json) (hl : (!decide (m.1 < l.1)) = true)
    (hm : (!decide (n.1 < m.1)) = true) : (!decide (n.1 < l.1)) = true :=
  byName_iff.mpr (String.le_trans (byName_iff.mp hl) (byName_iff.mp hm))

theorem byName_total (m n : String × Json) :
    (!decide (n.1 < m.1) || !decide (m.1 < n.1)) = true :=
  Bool.or_eq_true_iff.mpr ((String.le_total m.1 n.1).imp byName_iff.mpr byName_iff.mpr)

theorem inOrder_mergeSort : InOrder (members.mergeSort fun m n => !(n.1 < m.1)) :=
  (List.pairwise_mergeSort byName_trans byName_total members).imp byName_iff.mp

theorem filter_mergeSort (name : String) :
    ((members.mergeSort fun m n => !(n.1 < m.1)).filter fun m => m.1 == name) =
      members.filter fun m => m.1 == name := by
  have halike : (members.filter fun m => m.1 == name).Pairwise
      fun m n => (!decide (n.1 < m.1)) = true := by
    -- Members of one name are in order however they stand, so that the sort leaves them so.
    rw [List.pairwise_filter]
    apply List.pairwise_of_forall
    intro m n hm hn
    have hname : m.1 = n.1 := (eq_of_beq hm).trans (eq_of_beq hn).symm
    exact byName_iff.mpr (hname ▸ String.le_refl m.1)
  have hsublist := (List.sublist_mergeSort byName_trans byName_total halike
    List.filter_sublist).filter fun m => m.1 == name
  rw [List.filter_filter] at hsublist
  simp only [Bool.and_self] at hsublist
  exact (hsublist.eq_of_length ((List.mergeSort_perm members _).filter _).length_eq.symm).symm

theorem lookup_sortMembers (name : String) :
    (sortMembers members).lookup name = members.reverse.lookup name := by
  rw [sortMembers, lookup_foldr_keepLater (inOrder_mergeSort members), ← lookup_filter_beq,
    List.filter_reverse, filter_mergeSort, ← List.filter_reverse, lookup_filter_beq]

end Sorting

namespace JsonText

/-! # Members in a text -/

def IsMember (depth : Nat) (text : List Char) (member : String × Json) : Prop :=
  exists name value, text = name ++ ':' :: value ∧ Writes 0 name (.string member.1) ∧
    Writes depth value member.2

def ReadAs (depth : Nat) (text rest : List Char) : Json -> Prop
  | .string s => exists fuel behind, text = '"' :: behind ∧ string? fuel [] behind = some (s, rest)
  | .number n => JsonNumber.read? text = some (n, rest)
  | .object held =>
      exists fuel levels behind members, depth = levels + 1 ∧ text = '\x7b' :: behind ∧
        elements? (member? (value? fuel levels) fuel) '\x7d' fuel behind = some (members, rest) ∧
        held = sortMembers members
  | _ => True

theorem readAs_of_value? {fuel depth : Nat} {text rest : List Char} {value : Json}
    (h : value? fuel depth text = some (value, rest)) : ReadAs depth text rest value := by
  cases fuel with
  | zero => cases h
  | succ fuel =>
      unfold value? at h
      split at h
      · cases h
        trivial
      · cases h
        trivial
      · cases h
        trivial
      · rcases Option.map_eq_some_iff.mp h with ⟨⟨s, _⟩, hs, heq⟩
        cases heq
        exact ⟨fuel, _, rfl, hs⟩
      · split at h
        · cases h
        · rcases Option.map_eq_some_iff.mp h with ⟨⟨items, _⟩, _, heq⟩
          cases heq
          trivial
      · split at h
        · cases h
        · rcases Option.map_eq_some_iff.mp h with ⟨⟨members, _⟩, hmembers, heq⟩
          cases heq
          exact ⟨fuel, _, _, members, rfl, rfl, hmembers, rfl⟩
      · rcases Option.map_eq_some_iff.mp h with ⟨⟨n, _⟩, hn, heq⟩
        cases heq
        exact hn

theorem takes_string {taken : List Char} {s : String} (depth : Nat)
    (h : Takes Anything (fun fuel => string? fuel []) taken s) :
    Takes JsonNumber.Ends (fun fuel => value? fuel depth) ('"' :: taken) (.string s) := by
  apply takes_cons
  intro more _ fuel hfuel
  exact congrArg (Option.map _) (h more trivial fuel hfuel)

theorem Writes.readAs {depth : Nat} {text : List Char} {value : Json}
    (h : Writes depth text value) :
    exists front taken back, text = front ++ (taken ++ back) ∧ IsSpaces front ∧ IsSpaces back ∧
      Takes JsonNumber.Ends (fun fuel => value? fuel depth) taken value ∧
      ReadAs depth taken [] value := by
  rcases writes_iff_stands.mp h with ⟨front, taken, back, htext, hfront, hback, htaken⟩
  have hread := htaken [] JsonNumber.ends_nil _ (Nat.le_refl _)
  rw [List.append_nil] at hread
  exact ⟨front, taken, back, htext, hfront, hback, htaken, readAs_of_value? hread⟩

theorem stands_iff_isMember {depth : Nat} {text : List Char} {member : String × Json} :
    Stands (fun fuel => member? (value? fuel depth) fuel) text member ↔
      IsMember depth text member := by
  constructor
  · rintro ⟨front, taken, back, rfl, hfront, hback, htaken⟩
    have hread := htaken [] JsonNumber.ends_nil _ (Nat.le_refl _)
    rcases exists_of_member? (settledIn_value? _ depth) hread with
      ⟨first, front', back', last, htext, hfront', hback', hname, hvalue⟩
    rw [List.append_nil, List.append_nil] at htext
    refine ⟨front ++ ('"' :: first ++ front'), back' ++ (last ++ back), ?_, ?_, ?_⟩
    · rw [htext]
      simp only [List.append_assoc, List.cons_append]
    · exact writes_iff_stands.mpr ⟨front, _, front', rfl, hfront, hfront', takes_string 0 hname⟩
    · exact writes_iff_stands.mpr ⟨back', last, back, rfl, hback', hback, hvalue⟩
  · rintro ⟨name, value, rfl, hname, hvalue⟩
    rcases hname.readAs with ⟨front, quoted, back, rfl, hfront, hback, _, fuel, behind, rfl, hread⟩
    rcases settledIn_string? fuel [] _ _ _ hread with ⟨taken, htaken, hfirst⟩
    rcases writes_iff_stands.mp hvalue with ⟨front', last, back', rfl, hfront', hback', hlast⟩
    rw [List.append_nil] at htaken
    refine ⟨front, _, back', ?_, hfront, hback',
      takes_member (value?_spaces depth) hfirst hback hfront' hlast⟩
    rw [htaken]
    simp only [List.append_assoc, List.cons_append]

/-! # Objects in a text -/

/-- A text writes an object with these members, which stand in this order. -/
def IsObject (depth : Nat) (text : List Char) (members : List (String × Json)) : Prop :=
  exists front texts body back, text = front ++ '\x7b' :: (body ++ '\x7d' :: back) ∧
    IsSpaces front ∧ IsSpaces back ∧ IsListOf texts body ∧
    List.Forall₂ (IsMember depth) texts members

theorem takes_object {depth : Nat} {texts : List (List Char)} {body : List Char}
    {members : List (String × Json)} (hbody : IsListOf texts body)
    (h : List.Forall₂ (IsMember depth) texts members) :
    Takes JsonNumber.Ends (fun fuel => value? fuel (depth + 1)) ('\x7b' :: (body ++ ['\x7d']))
      (.ofMembers members) := by
  have hmembers := takes_elements member?_spaces (Or.inr (Or.inr rfl)) (by decide)
    (member?_refuses (by decide)) hbody (h.imp fun _ _ => stands_iff_isMember.mpr)
  apply takes_cons
  intro more _ fuel hfuel
  exact congrArg (Option.map _) (hmembers more trivial fuel hfuel)

theorem writes_object_iff {depth : Nat} {text : List Char} {held : List (String × Json)} :
    Writes (depth + 1) text (.object held) ↔
      exists members, IsObject depth text members ∧ held = sortMembers members := by
  constructor
  · intro h
    rcases h.readAs with ⟨front, taken, back, rfl, hfront, hback, _, fuel, levels, behind, members,
      hlevels, rfl, hread, hheld⟩
    cases hlevels
    have hsettled := settledIn_member? (value?_spaces depth) (settledIn_value? fuel depth)
    rcases exists_of_elements? hsettled hread with ⟨texts, body, rfl, hbody, hall⟩
    refine ⟨members, ⟨front, texts, body, back, ?_, hfront, hback, hbody, ?_⟩, hheld⟩
    · simp only [List.append_assoc, List.cons_append, List.nil_append]
    · exact hall.imp fun _ _ => stands_iff_isMember.mp
  · rintro ⟨members, ⟨front, texts, body, back, rfl, hfront, hback, hbody, hall⟩, rfl⟩
    refine writes_iff_stands.mpr ⟨front, _, back, ?_, hfront, hback, takes_object hbody hall⟩
    simp only [List.append_assoc, List.cons_append, List.nil_append]

theorem Writes.number {depth : Nat} {text : List Char} {n : Number}
    (h : Writes depth text (.number n)) : JsonNumber.IsWhole n ∨ JsonNumber.IsDouble n := by
  rcases h.readAs with ⟨_, taken, _, _, _, _, _, hread⟩
  exact JsonNumber.isWhole_or_isDouble hread

theorem IsObject.number {depth : Nat} {text : List Char} {members : List (String × Json)}
    (h : IsObject depth text members) {name : String} {n : Number}
    (hmember : (name, .number n) ∈ members) : JsonNumber.IsWhole n ∨ JsonNumber.IsDouble n := by
  rcases h with ⟨_, texts, _, _, -, -, -, -, hall⟩
  induction hall with
  | nil => cases hmember
  | cons hfirst _ ih =>
      rcases List.mem_cons.mp hmember with rfl | hrest
      · rcases hfirst with ⟨_, _, _, _, hvalue⟩
        exact hvalue.number
      · exact ih hrest

theorem ofChars?_object_iff {text : List Char} {held : List (String × Json)} :
    ofChars? text = some (.object held) ↔
      exists members, IsObject 126 text members ∧ held = sortMembers members :=
  ofChars?_eq_some_iff.trans writes_object_iff

end JsonText
end HttpEngine
