import HttpEngine.Proofs.Text.Encoding
import HttpEngine.Proofs.Text.Search
import HttpEngine.Route.Template
import Mathlib.Data.List.TakeWhile

/-!
# The paths that a template matches

A template that closes all its braces is written from literal bytes and placeholders, in one way
only.  The paths it matches are those that come from it when each placeholder is filled with a
value that holds no slash and ends at a slash or at the end of the path.  Walking over a template
and a path finds the values exactly when there are any; there is never a choice of them, and they
are cut out of the path at the ends of characters.
-/

namespace HttpEngine
namespace Template

/-! # Parts of a template -/

/-- A byte outside the braces, or a name between braces. -/
inductive Part where
  | literal (byte : UInt8) (outside : byte ≠ openingBrace)
  | placeholder (name : Bytes) (closed : closingBrace ∉ name)
  deriving DecidableEq

def written : List Part -> Bytes
  | [] => []
  | .literal byte _ :: parts => byte :: written parts
  | .placeholder name _ :: parts => openingBrace :: (name ++ closingBrace :: written parts)

def names : List Part -> List Bytes
  | [] => []
  | .literal _ _ :: parts => names parts
  | .placeholder name _ :: parts => name :: names parts

def fill : List Part -> List Bytes -> Bytes
  | [], _ => []
  | .literal byte _ :: parts, values => byte :: fill parts values
  | .placeholder _ _ :: parts, [] => fill parts []
  | .placeholder _ _ :: parts, value :: values => value ++ fill parts values

/-- The paths that come from filling placeholders with whole segments or ends of segments. -/
inductive Fills : List Part -> List Bytes -> Bytes -> Prop where
  | nil : Fills [] [] []
  | literal {parts : List Part} {values : List Bytes} {path : Bytes} (byte : UInt8)
      (outside : byte ≠ openingBrace) :
      Fills parts values path ->
      Fills (.literal byte outside :: parts) values (byte :: path)
  | placeholder {parts : List Part} {values : List Bytes} {path : Bytes} (name value : Bytes)
      (closed : closingBrace ∉ name) :
      slash ∉ value -> (path = [] ∨ path.head? = some slash) ->
      Fills parts values path ->
      Fills (.placeholder name closed :: parts) (value :: values) (value ++ path)

structure IsInstance (maxParams : Nat) (template path : String) (parts : List Part)
    (values : List Bytes) : Prop where
  template : written parts = Utf8.encode template
  room : (names parts).length ≤ maxParams
  path : Fills parts values (Utf8.encode path)

/-! # A template has one list of parts -/

theorem name_inj {a b rest more : Bytes} (ha : closingBrace ∉ a) (hb : closingBrace ∉ b)
    (h : a ++ closingBrace :: rest = b ++ closingBrace :: more) : a = b ∧ rest = more := by
  have hcut := cut?_singleton ha rest
  rw [h, cut?_singleton hb more] at hcut
  cases hcut
  exact ⟨rfl, rfl⟩

theorem written_inj {a b : List Part} (h : written a = written b) : a = b := by
  induction a generalizing b with
  | nil =>
      cases b with
      | nil => rfl
      | cons part b => cases part <;> cases h
  | cons part a ih =>
      cases b with
      | nil => cases part <;> cases h
      | cons other b =>
          cases part with
          | literal x hx =>
              cases other with
              | literal y hy =>
                  rcases List.cons.inj h with ⟨hbyte, htail⟩
                  subst hbyte
                  rw [ih htail]
              | placeholder name hname => exact absurd (List.cons.inj h).left hx
          | placeholder name hname =>
              cases other with
              | literal y hy => exact absurd (List.cons.inj h).left.symm hy
              | placeholder more hmore =>
                  rcases name_inj hname hmore (List.cons.inj h).right with ⟨hsame, htail⟩
                  subst hsame
                  rw [ih htail]

theorem exists_parts : forall template : Bytes,
    (exists parts, template = written parts) ∨
    exists parts name, closingBrace ∉ name ∧ template = written parts ++ openingBrace :: name
  | [] => Or.inl ⟨[], rfl⟩
  | byte :: rest => by
      by_cases hopen : byte = openingBrace
      · by_cases hclosed : closingBrace ∈ rest
        · rcases List.eq_append_cons_of_mem hclosed with ⟨name, more, hrest, hname⟩
          have hshorter : more.length < (byte :: rest).length := by
            rw [hrest, List.length_cons, List.length_append, List.length_cons]
            omega
          rcases exists_parts more with ⟨parts, hmore⟩ | ⟨parts, late, hlate, hmore⟩
          · apply Or.inl
            exists .placeholder name hname :: parts
            rw [hopen, hrest, hmore, written]
          · apply Or.inr
            refine ⟨.placeholder name hname :: parts, late, hlate, ?_⟩
            rw [hopen, hrest, hmore, written, List.cons_append, List.append_assoc,
              List.cons_append]
        · apply Or.inr
          refine ⟨[], rest, hclosed, ?_⟩
          rw [hopen, written, List.nil_append]
      · rcases exists_parts rest with ⟨parts, hrest⟩ | ⟨parts, name, hname, hrest⟩
        · apply Or.inl
          exists .literal byte hopen :: parts
          rw [hrest, written]
        · apply Or.inr
          refine ⟨.literal byte hopen :: parts, name, hname, ?_⟩
          rw [hrest, written, List.cons_append]
termination_by template => template.length

/-! # A path leaves no choice of the values -/

theorem segment_append_afterSegment (path : Bytes) : segment path ++ afterSegment path = path :=
  List.takeWhile_append_dropWhile

theorem slash_notMem_segment (path : Bytes) : slash ∉ segment path := by
  intro h
  have hne := List.mem_takeWhile_imp h
  simp at hne

theorem afterSegment_begins (path : Bytes) :
    afterSegment path = [] ∨ (afterSegment path).head? = some slash := by
  have hhead := List.head?_dropWhile_not (· != slash) path
  rw [afterSegment]
  cases h : path.dropWhile (· != slash) with
  | nil => exact Or.inl rfl
  | cons byte rest =>
      rw [h] at hhead
      apply Or.inr
      simpa using hhead

theorem cut_value {value path : Bytes} (hvalue : slash ∉ value)
    (hpath : path = [] ∨ path.head? = some slash) :
    segment (value ++ path) = value ∧ afterSegment (value ++ path) = path := by
  have hall : forall b, b ∈ value -> (b != slash) = true := by
    intro b hb
    rw [bne_iff_ne]
    intro h
    exact hvalue (h ▸ hb)
  have hend : path.takeWhile (· != slash) = [] ∧ path.dropWhile (· != slash) = path := by
    cases path with
    | nil => exact ⟨rfl, rfl⟩
    | cons b rest =>
        have hb : b = slash := by simpa using hpath
        simp [hb]
  constructor
  · rw [segment, List.takeWhile_append_of_pos hall, hend.left, List.append_nil]
  · rw [afterSegment, List.dropWhile_append_of_pos hall, hend.right]

theorem Fills.fill_eq {parts : List Part} {values : List Bytes} {path : Bytes}
    (h : Fills parts values path) : fill parts values = path := by
  induction h with
  | nil => rfl
  | literal byte outside _ ih => rw [fill, ih]
  | placeholder name value closed _ _ _ ih => rw [fill, ih]

theorem Fills.length_eq {parts : List Part} {values : List Bytes} {path : Bytes}
    (h : Fills parts values path) : (names parts).length = values.length := by
  induction h with
  | nil => rfl
  | literal byte outside _ ih => exact ih
  | placeholder name value closed _ _ _ ih => rw [names, List.length_cons, List.length_cons, ih]

theorem fills_literal_iff {parts : List Part} {values : List Bytes} {path : Bytes} {byte : UInt8}
    {outside : byte ≠ openingBrace} :
    Fills (.literal byte outside :: parts) values path ↔
      exists rest, path = byte :: rest ∧ Fills parts values rest := by
  constructor
  · intro h
    cases h with
    | literal _ _ hrest => exact ⟨_, rfl, hrest⟩
  · intro h
    rcases h with ⟨rest, hpath, hrest⟩
    rw [hpath]
    exact Fills.literal byte outside hrest

theorem fills_placeholder_iff {parts : List Part} {values : List Bytes} {path name : Bytes}
    {closed : closingBrace ∉ name} :
    Fills (.placeholder name closed :: parts) values path ↔
      exists more, values = segment path :: more ∧ Fills parts more (afterSegment path) := by
  constructor
  · intro h
    cases h with
    | placeholder _ _ _ hvalue hpath hrest =>
        rcases cut_value hvalue hpath with ⟨hsegment, hafter⟩
        rw [hsegment, hafter]
        exact ⟨_, rfl, hrest⟩
  · intro h
    rcases h with ⟨more, hvalues, hrest⟩
    have hplaced := Fills.placeholder name (segment path) closed (slash_notMem_segment path)
      (afterSegment_begins path) hrest
    rw [segment_append_afterSegment] at hplaced
    rw [hvalues]
    exact hplaced

theorem Fills.values_unique {parts : List Part} {values others : List Bytes} {path : Bytes}
    (h : Fills parts values path) (hother : Fills parts others path) : values = others := by
  induction h generalizing others with
  | nil =>
      cases hother
      rfl
  | literal byte outside _ ih =>
      cases hother with
      | literal _ _ hrest => exact ih hrest
  | placeholder name value closed hvalue hpath _ ih =>
      rcases fills_placeholder_iff.mp hother with ⟨more, hothers, hmore⟩
      rcases cut_value hvalue hpath with ⟨hsegment, hafter⟩
      rw [hafter] at hmore
      rw [hothers, hsegment, ih hmore]

/-!
# Walking alone

The captures of a walk do not hang on the pairs that are held when it begins: these only take up
room.
-/

/--
Walks over a template and a path, with room for so many captures.  Inside a placeholder, the name
read so far stands latest first.
-/
def walk : Nat -> Option Bytes -> Bytes -> Bytes -> Option (List Capture)
  | _, none, [], path => if path.isEmpty then some [] else none
  | _, some _, [], _ => none
  | room, none, b :: rest, path =>
      if b = openingBrace then walk room (some []) rest path
      else
        match path with
        | [] => none
        | p :: path => if b = p then walk room none rest path else none
  | room, some name, b :: rest, path =>
      if b = closingBrace then
        match room with
        | 0 => none
        | room + 1 =>
            (walk room none rest (afterSegment path)).map
              ((name.reverse, segment path) :: ·)
      else walk room (some (b :: name)) rest path

theorem walk_opening (room : Nat) (rest path : Bytes) :
    walk room none (openingBrace :: rest) path = walk room (some []) rest path := by
  cases path with
  | nil => rw [walk, if_pos rfl]
  | cons p path => rw [walk, if_pos rfl]

theorem walk_inside {b : UInt8} (hb : b ≠ closingBrace) (room : Nat) (read rest path : Bytes) :
    walk room (some read) (b :: rest) path = walk room (some (b :: read)) rest path := by
  cases room with
  | zero => rw [walk, if_neg hb]
  | succ room => rw [walk, if_neg hb]

theorem collect_eq_walk (limit : Nat) (name : Option Bytes) (template path : Bytes)
    (held : Array Pair) :
    (if (collect limit name template path held).1 then
        some (collect limit name template path held).2.toList
      else none) =
      (walk (limit - held.size) name template path).map
        (held.toList ++ List.map Capture.pair ·) := by
  fun_induction collect limit name template path held with
  | case1 path held =>
      cases path with
      | nil => simp [walk]
      | cons p path => simp [walk]
  | case2 name path held => simp [walk]
  | case3 rest path held ih =>
      rw [walk_opening]
      exact ih
  | case4 b rest held hopen =>
      rw [walk, if_neg hopen]
      rfl
  | case5 rest held p path hopen ih =>
      rw [walk, if_neg hopen]
      simp only [if_true]
      exact ih
  | case6 b rest held hopen p path hne =>
      rw [walk, if_neg hopen]
      simp only [if_neg hne]
      rfl
  | case7 name rest path held hroom ih =>
      have hleft : limit - held.size =
          limit - (held.push (Capture.pair (name.reverse, segment path))).size + 1 := by
        rw [Array.size_push]
        omega
      rw [ih, hleft, walk, if_pos rfl, Option.map_map]
      congr 1
      funext captures
      simp
  | case8 name rest path held hfull =>
      have hleft : limit - held.size = 0 := by omega
      rw [hleft, walk, if_pos rfl]
      rfl
  | case9 name b rest path held hopen ih =>
      rw [walk_inside hopen]
      exact ih

theorem match?_eq_walk (maxParams : Nat) (template path : String) :
    match? maxParams template path =
      (walk maxParams none (Utf8.encode template) (Utf8.encode path)).map
        (List.map Capture.pair) :=
  collect_eq_walk maxParams none (Utf8.encode template) (Utf8.encode path) #[]

/-! # Walking over the parts -/

theorem walk_name {name : Bytes} (hname : closingBrace ∉ name) (room : Nat)
    (read rest path : Bytes) :
    walk room (some read) (name ++ rest) path =
      walk room (some (name.reverse ++ read)) rest path := by
  induction name generalizing read with
  | nil => rfl
  | cons b name ih =>
      have hb : b ≠ closingBrace := fun h => hname (List.mem_cons.mpr (Or.inl h.symm))
      rw [List.cons_append, walk_inside hb, ih (List.not_mem_of_not_mem_cons hname),
        List.reverse_cons, List.append_assoc]
      rfl

theorem walk_placeholder {name : Bytes} (hname : closingBrace ∉ name) (room : Nat)
    (rest path : Bytes) :
    walk (room + 1) none (openingBrace :: (name ++ closingBrace :: rest)) path =
      (walk room none rest (afterSegment path)).map ((name, segment path) :: ·) := by
  rw [walk_opening, walk_name hname, List.append_nil, walk, if_pos rfl]
  simp only [List.reverse_reverse]

theorem walk_placeholder_without_room {name : Bytes} (hname : closingBrace ∉ name)
    (rest path : Bytes) :
    walk 0 none (openingBrace :: (name ++ closingBrace :: rest)) path = none := by
  rw [walk_opening, walk_name hname, walk, if_pos rfl]

theorem walk_unclosed {name : Bytes} (hname : closingBrace ∉ name) (room : Nat) (path : Bytes) :
    walk room none (openingBrace :: name) path = none := by
  have hwalk := walk_name hname room [] [] path
  rw [List.append_nil] at hwalk
  rw [walk_opening, hwalk, walk]

/-! # One part at a time -/

theorem walk_literal_eq_some_iff {byte : UInt8} {room : Nat} {rest path : Bytes}
    {captures : List Capture} (outside : byte ≠ openingBrace) :
    walk room none (byte :: rest) path = some captures ↔
      exists more, path = byte :: more ∧ walk room none rest more = some captures := by
  cases path with
  | nil =>
      rw [walk, if_neg outside]
      simp
  | cons p path =>
      rw [walk, if_neg outside]
      constructor
      · intro h
        split at h
        · next hbyte =>
          rw [hbyte]
          exact ⟨path, rfl, h⟩
        · cases h
      · intro h
        rcases h with ⟨more, hpath, hwalk⟩
        cases hpath
        rw [if_pos rfl]
        exact hwalk

theorem walk_placeholder_eq_some_iff {name : Bytes} {room : Nat} {rest path : Bytes}
    {captures : List Capture} (closed : closingBrace ∉ name) :
    walk room none (openingBrace :: (name ++ closingBrace :: rest)) path = some captures ↔
      exists left late, room = left + 1 ∧
        walk left none rest (afterSegment path) = some late ∧
          captures = (name, segment path) :: late := by
  cases room with
  | zero =>
      rw [walk_placeholder_without_room closed]
      simp
  | succ left =>
      rw [walk_placeholder closed, Option.map_eq_some_iff]
      constructor
      · intro h
        rcases h with ⟨late, hwalk, hcaptures⟩
        exact ⟨left, late, rfl, hwalk, hcaptures.symm⟩
      · intro h
        rcases h with ⟨room, late, hroom, hwalk, hcaptures⟩
        cases hroom
        exact ⟨late, hwalk, hcaptures.symm⟩

theorem walk_written_eq_some_iff {parts : List Part} {room : Nat} {path : Bytes}
    {captures : List Capture} :
    walk room none (written parts) path = some captures ↔
      (names parts).length ≤ room ∧ captures.map Prod.fst = names parts ∧
        Fills parts (captures.map Prod.snd) path := by
  induction parts generalizing room path captures with
  | nil =>
      rw [written, walk, names]
      constructor
      · intro h
        cases path with
        | nil =>
            cases h
            exact ⟨Nat.zero_le room, rfl, Fills.nil⟩
        | cons p path => cases h
      · intro h
        rcases h with ⟨_, hnames, hfills⟩
        rw [List.map_eq_nil_iff.mp hnames] at hfills ⊢
        cases hfills
        rfl
  | cons part parts ih =>
      cases part with
      | literal byte outside =>
          rw [written, names, walk_literal_eq_some_iff outside, fills_literal_iff]
          constructor
          · intro h
            rcases h with ⟨more, hpath, hwalk⟩
            rcases ih.mp hwalk with ⟨hroom, hnames, hfills⟩
            exact ⟨hroom, hnames, more, hpath, hfills⟩
          · intro h
            rcases h with ⟨hroom, hnames, more, hpath, hfills⟩
            exact ⟨more, hpath, ih.mpr ⟨hroom, hnames, hfills⟩⟩
      | placeholder name closed =>
          rw [written, names, walk_placeholder_eq_some_iff closed, fills_placeholder_iff]
          constructor
          · intro h
            rcases h with ⟨left, late, hroom, hwalk, hcaptures⟩
            rcases ih.mp hwalk with ⟨hlength, hnames, hfills⟩
            rw [hroom, hcaptures, List.map_cons, List.map_cons, hnames]
            exact ⟨Nat.succ_le_succ hlength, rfl, late.map Prod.snd, rfl, hfills⟩
          · intro h
            rcases h with ⟨hroom, hnames, more, hvalues, hfills⟩
            cases captures with
            | nil => cases hnames
            | cons capture late =>
                rcases List.cons.inj hnames with ⟨hname, hrest⟩
                rcases List.cons.inj hvalues with ⟨hvalue, hmore⟩
                rcases Nat.exists_eq_add_of_lt hroom with ⟨left, hleft⟩
                rw [← hmore] at hfills
                refine ⟨(names parts).length + left, late, hleft, ih.mpr ⟨?_, hrest, hfills⟩, ?_⟩
                · exact Nat.le_add_right _ _
                · rw [← hname, ← hvalue]

theorem walk_unclosed_ne {name : Bytes} (hname : closingBrace ∉ name) {parts : List Part}
    {room : Nat} {path : Bytes} {captures : List Capture} :
    walk room none (written parts ++ openingBrace :: name) path ≠ some captures := by
  intro h
  induction parts generalizing room path captures with
  | nil =>
      rw [written, List.nil_append, walk_unclosed hname] at h
      cases h
  | cons part parts ih =>
      cases part with
      | literal byte outside =>
          rw [written, List.cons_append, walk_literal_eq_some_iff outside] at h
          rcases h with ⟨more, _, hwalk⟩
          exact ih hwalk
      | placeholder late closed =>
          rw [written, List.cons_append, List.append_assoc, List.cons_append,
            walk_placeholder_eq_some_iff closed] at h
          rcases h with ⟨left, more, _, hwalk, _⟩
          exact ih hwalk

theorem exists_parts_of_walk {room : Nat} {template path : Bytes} {captures : List Capture}
    (h : walk room none template path = some captures) :
    exists parts, template = written parts := by
  rcases exists_parts template with hparts | ⟨parts, name, hname, htemplate⟩
  · exact hparts
  · rw [htemplate] at h
    exact absurd h (walk_unclosed_ne hname)

/-! # Captures are cut at the ends of characters -/

/--
The literal bytes since the last placeholder begin the rest of the template and the rest of the
path alike; a placeholder ends them, and starts afresh on both sides.
-/
theorem Fills.isText {parts : List Part} {values : List Bytes} {path : Bytes}
    (h : Fills parts values path) (passed : Bytes)
    (htemplate : Utf8.IsText (passed ++ written parts)) (hpath : Utf8.IsText (passed ++ path)) :
    (forall name, name ∈ names parts -> Utf8.IsText name) ∧
      forall value, value ∈ values -> Utf8.IsText value := by
  induction h generalizing passed with
  | nil =>
      constructor
      · intro name hname
        cases hname
      · intro value hvalue
        cases hvalue
  | literal byte outside _ ih =>
      rw [written] at htemplate
      apply ih (passed ++ [byte])
      · rw [List.append_assoc]
        exact htemplate
      · rw [List.append_assoc]
        exact hpath
  | @placeholder parts values path name value closed _ hbegins _ ih =>
      rcases htemplate.split (by decide) with ⟨hpassed, hopened⟩
      rcases hopened.split (by decide) with ⟨hname, hparts⟩
      have hwhole : Utf8.IsText (value ++ path) := hpassed.of_append hpath
      have hcut : Utf8.IsText value ∧ Utf8.IsText path := by
        cases path with
        | nil =>
            rw [List.append_nil] at hwhole
            exact ⟨hwhole, Utf8.isText_nil⟩
        | cons byte rest =>
            have hslash : byte = slash := by simpa using hbegins
            rw [hslash] at hwhole ⊢
            have hvalue : Utf8.IsText value := (hwhole.split (by decide)).left
            exact ⟨hvalue, hvalue.of_append hwhole⟩
      rcases ih [] hparts hcut.right with ⟨hnames, hvalues⟩
      constructor
      · intro other hother
        rcases List.mem_cons.mp hother with hsame | hrest
        · exact hsame ▸ hname
        · exact hnames other hrest
      · intro other hother
        rcases List.mem_cons.mp hother with hsame | hrest
        · exact hsame ▸ hcut.left
        · exact hvalues other hrest

theorem encode_pair {capture : Capture} (hname : Utf8.IsText capture.1)
    (hvalue : Utf8.IsText capture.2) :
    Utf8.encode capture.pair.1 = capture.1 ∧ Utf8.encode capture.pair.2 = capture.2 := by
  constructor
  · exact hname.encode_decodeLossy
  · exact hvalue.encode_decodeLossy

/-! # Matching -/

theorem IsInstance.unique {maxParams : Nat} {template path : String} {a b : List Part}
    {values others : List Bytes} (h : IsInstance maxParams template path a values)
    (hother : IsInstance maxParams template path b others) : a = b ∧ values = others := by
  have hparts : a = b := written_inj (h.template.trans hother.template.symm)
  constructor
  · exact hparts
  · apply h.path.values_unique
    rw [hparts]
    exact hother.path

theorem IsInstance.walk {maxParams : Nat} {template path : String} {parts : List Part}
    {values : List Bytes} (h : IsInstance maxParams template path parts values) :
    walk maxParams none (Utf8.encode template) (Utf8.encode path) =
      some ((names parts).zip values) := by
  have hlength : (names parts).length = values.length := h.path.length_eq
  rw [← h.template, walk_written_eq_some_iff]
  refine ⟨h.room, ?_, ?_⟩
  · exact List.map_fst_zip (Nat.le_of_eq hlength)
  · rw [List.map_snd_zip (Nat.le_of_eq hlength.symm)]
    exact h.path

theorem isInstance_of_walk {maxParams : Nat} {template path : String} {captures : List Capture}
    (h : walk maxParams none (Utf8.encode template) (Utf8.encode path) = some captures) :
    exists parts, captures.map Prod.fst = names parts ∧
      IsInstance maxParams template path parts (captures.map Prod.snd) := by
  rcases exists_parts_of_walk h with ⟨parts, hparts⟩
  rw [hparts, walk_written_eq_some_iff] at h
  exists parts
  constructor
  · exact h.right.left
  · exact ⟨hparts.symm, h.left, h.right.right⟩

theorem IsInstance.encode_pairs {maxParams : Nat} {template path : String} {parts : List Part}
    {captures : List Capture} (hnames : captures.map Prod.fst = names parts)
    (h : IsInstance maxParams template path parts (captures.map Prod.snd)) :
    (captures.map Capture.pair).map (fun p => Utf8.encode p.1) = names parts ∧
      (captures.map Capture.pair).map (fun p => Utf8.encode p.2) = captures.map Prod.snd := by
  have htext := h.path.isText [] (h.template ▸ Utf8.isText_encode template)
    (Utf8.isText_encode path)
  rw [← hnames] at htext
  have hpair : forall capture, capture ∈ captures ->
      Utf8.encode capture.pair.1 = capture.1 ∧ Utf8.encode capture.pair.2 = capture.2 := by
    intro capture hcapture
    apply encode_pair
    · exact htext.left capture.1 (List.mem_map_of_mem hcapture)
    · exact htext.right capture.2 (List.mem_map_of_mem hcapture)
  rw [← hnames, List.map_map, List.map_map]
  constructor
  · apply List.map_congr_left
    intro capture hcapture
    exact (hpair capture hcapture).left
  · apply List.map_congr_left
    intro capture hcapture
    exact (hpair capture hcapture).right

/--
A template matches exactly the paths that are its instances.  The pairs that come out name its
placeholders in order with the values that fill them, which are the only ones that do, and filling
them in gives the path back.
-/
theorem match?_finds_instance (maxParams : Nat) (template path : String) :
    ((match? maxParams template path).isSome = true ↔
      exists parts values, IsInstance maxParams template path parts values) ∧
    forall params, match? maxParams template path = some params ->
      exists parts values, IsInstance maxParams template path parts values ∧
        params.map (fun p => Utf8.encode p.1) = names parts ∧
        params.map (fun p => Utf8.encode p.2) = values ∧
        fill parts values = Utf8.encode path ∧
        forall others more, IsInstance maxParams template path others more ->
          others = parts ∧ more = values := by
  constructor
  · rw [match?_eq_walk, Option.isSome_map]
    constructor
    · intro h
      rcases Option.isSome_iff_exists.mp h with ⟨captures, hwalk⟩
      rcases isInstance_of_walk hwalk with ⟨parts, _, hinstance⟩
      exact ⟨parts, captures.map Prod.snd, hinstance⟩
    · intro h
      rcases h with ⟨parts, values, hinstance⟩
      rw [hinstance.walk]
      rfl
  · intro params h
    rw [match?_eq_walk] at h
    rcases Option.map_eq_some_iff.mp h with ⟨captures, hwalk, hparams⟩
    rcases isInstance_of_walk hwalk with ⟨parts, hnames, hinstance⟩
    rcases hinstance.encode_pairs hnames with ⟨hfirst, hsecond⟩
    rw [← hparams]
    refine ⟨parts, captures.map Prod.snd, hinstance, hfirst, hsecond, hinstance.path.fill_eq, ?_⟩
    intro others more hother
    exact hother.unique hinstance

-- A placeholder right after another one is left with nothing.
example : match? 64 "/{a}{b}" "/xy" = some [("a", "xy"), ("b", "")] := by decide +kernel

end Template
end HttpEngine
