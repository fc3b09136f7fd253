import HttpEngine.Machine.Head
import HttpEngine.Proofs.Request.Grammar

/-!
# Heads in a machine are read as heads

A place behind whole characters is never within one, and the byte of an ASCII character stands
behind whole characters wherever it stands.  So every cut is one between characters, and it gives
what a cut at the character gives.
-/

namespace HttpEngine
namespace Machine

/-! # Places in texts -/

@[simp] theorem textLength_nil : textLength [] = 0 :=
  rfl

theorem textLength_cons (c : Char) (text : List Char) :
    textLength (c :: text) = (Utf8.encodeChar c).length + textLength text := by
  rw [textLength, Utf8.encodeChars_cons, List.length_append]
  rfl

theorem textLength_append (a b : List Char) :
    textLength (a ++ b) = textLength a + textLength b := by
  rw [textLength, Utf8.encodeChars_append, List.length_append]
  rfl

theorem encodeChar_length_pos (c : Char) : 0 < (Utf8.encodeChar c).length :=
  List.length_pos_iff.mpr (Utf8.encodeChar_ne_nil c)

theorem textLength_eq_zero_iff {text : List Char} : textLength text = 0 ↔ text = [] := by
  cases text with
  | nil => simp
  | cons c rest =>
      have hpos := encodeChar_length_pos c
      rw [textLength_cons]
      constructor
      · intro h
        omega
      · intro h
        cases h

theorem textLength_le_of_sublist {part text : List Char} (h : part.Sublist text) :
    textLength part ≤ textLength text := by
  induction h with
  | slnil => exact Nat.le_refl 0
  | cons c _ ih =>
      rw [textLength_cons]
      omega
  | cons_cons c _ ih =>
      rw [textLength_cons, textLength_cons]
      omega

theorem splitText_append (front rest : List Char) :
    splitText (front ++ rest) (textLength front) = .ok (front, rest) := by
  induction front with
  | nil =>
      rw [List.nil_append, textLength_nil]
      cases rest <;> rfl
  | cons c front ih =>
      have hpos := encodeChar_length_pos c
      rw [textLength_cons, List.cons_append]
      cases hplace : (Utf8.encodeChar c).length + textLength front with
      | zero => omega
      | succ place =>
          have hrest : place + 1 - (Utf8.encodeChar c).length = textLength front := by
            omega
          rw [splitText, if_pos (by omega), hrest, ih]
          rfl

theorem textSlice_append (front part rest : List Char) :
    textSlice (front ++ part ++ rest) (textLength front) (textLength front + textLength part) =
      .ok part := by
  rw [textSlice, if_pos (Nat.le_add_right _ _), ← textLength_append, splitText_append]
  show (splitText (front ++ part) (textLength front) >>= fun cut => pure cut.2) = _
  rw [splitText_append]
  rfl

theorem textSlice_front (front rest : List Char) :
    textSlice (front ++ rest) 0 (textLength front) = .ok front := by
  have h := textSlice_append [] front rest
  rwa [textLength_nil, Nat.zero_add, List.nil_append] at h

theorem textSlice_back (front rest : List Char) :
    textSlice (front ++ rest) (textLength front) (textLength (front ++ rest)) = .ok rest := by
  have h := textSlice_append front rest []
  rwa [List.append_nil, ← textLength_append] at h

/-! # Cuts at ASCII characters -/

section

variable {c : Char} {mark : UInt8} (hmark : mark.toNat < 0x80) (hc : Utf8.encodeChar c = [mark])

include hmark hc

/-- A mark that begins with an ASCII character stands in the bytes of a text where it stands. -/
theorem cut?_encodeChars (more text : List Char) :
    cut? (Utf8.encodeChars (c :: more)) (Utf8.encodeChars text) =
      (cut? (c :: more) text).map fun cut =>
        (Utf8.encodeChars cut.1, Utf8.encodeChars cut.2) := by
  have hfirst : Utf8.encodeChars (c :: more) = mark :: Utf8.encodeChars more := by
    rw [Utf8.encodeChars_cons, hc]
    rfl
  induction text with
  | nil =>
      rw [hfirst]
      rfl
  | cons d text ih =>
      by_cases hsame : d = c
      · have htext : Utf8.encodeChars (d :: text) = mark :: Utf8.encodeChars text := by
          rw [hsame, Utf8.encodeChars_cons, hc]
          rfl
        rw [htext, cut?_cons, ← htext, ih, cut?_cons]
        cases hstart : (c :: more).isPrefixOf? (d :: text) with
        | some after =>
            have hbytes : (Utf8.encodeChars (c :: more)).isPrefixOf?
                (Utf8.encodeChars (d :: text)) = some (Utf8.encodeChars after) := by
              rw [isPrefixOf?_eq_some_iff, isPrefixOf?_eq_some_iff.mp hstart,
                Utf8.encodeChars_append]
            rw [hbytes]
            rfl
        | none =>
            have hbytes : (Utf8.encodeChars (c :: more)).isPrefixOf?
                (Utf8.encodeChars (d :: text)) = none := by
              rw [isPrefixOf?_eq_none_iff, Utf8.encodeChars_prefix_iff]
              exact isPrefixOf?_eq_none_iff.mp hstart
            rw [hbytes, Option.map_map, Option.map_map]
            simp only [Function.comp_def, hsame, Utf8.encodeChars_cons, hc]
            rfl
      · have hnot : mark ∉ Utf8.encodeChars [d] := by
          rw [Utf8.mem_encodeChars_iff hmark hc, List.mem_singleton]
          exact fun h => hsame h.symm
        have hstart : (c :: more).isPrefixOf? (d :: text) = none := by
          rw [isPrefixOf?_cons_cons, if_neg fun h => hsame (eq_of_beq h).symm]
        rw [show d :: text = [d] ++ text from rfl, Utf8.encodeChars_append, hfirst,
          cut?_append_of_notMem hnot, ← hfirst, ih, List.singleton_append, cut?_cons, hstart,
          Option.map_map, Option.map_map]
        simp only [Function.comp_def, ← Utf8.encodeChars_append]
        rfl

theorem find?_encodeChars (more text : List Char) :
    find? (Utf8.encodeChars (c :: more)) (Utf8.encodeChars text) =
      (cut? (c :: more) text).map fun cut => textLength cut.1 := by
  rw [find?, cut?_encodeChars hmark hc, Option.map_map]
  rfl

theorem find?_mark (text : List Char) :
    find? [mark] (Utf8.encodeChars text) = (cut? [c] text).map fun cut => textLength cut.1 := by
  have h := find?_encodeChars hmark hc [] text
  rwa [Utf8.encodeChars_cons, hc] at h

theorem cutAt_eq {text : List Char} (hfits : textLength text ≤ Buffer.maxSize) :
    cutAt mark text = .ok (cut? [c] text) := by
  unfold cutAt
  rw [find?_mark hmark hc]
  cases hcut : cut? [c] text with
  | none => rfl
  | some cut =>
      rcases cut with ⟨front, rest⟩
      have htext : text = front ++ [c] ++ rest := eq_append_of_cut? hcut
      have hone : textLength [c] = 1 := by
        rw [textLength_cons, hc]
        rfl
      have hplace : textLength front + 1 = textLength (front ++ [c]) := by
        rw [textLength_append, hone]
      have hle : textLength front ≤ textLength text := by
        rw [htext, textLength_append, textLength_append]
        omega
      have hfront : textSlice text 0 (textLength front) = .ok front := by
        rw [htext, List.append_assoc, textSlice_front]
      have hback : textSlice text (textLength front + 1) (textLength text) = .ok rest := by
        rw [hplace, htext, textSlice_back]
      have hnext : add (textLength front) 1 = .ok (textLength front + 1) :=
        add_eq_ok_of_le hle hfits (by decide)
      simp only [Option.map_some, hfront, hback, hnext, ok_bind]
      rfl

end

/-! # Pairs -/

section

variable {γ : Type} [Collector γ]

theorem addPiece_eq (held : γ) {piece : List Char} (hfits : textLength piece ≤ Buffer.maxSize) :
    addPiece held piece = .ok (Pairs.addPiece held piece) := by
  unfold addPiece Pairs.addPiece
  rw [cutAt_eq (c := '=') (by decide) (by decide) hfits, ok_bind]
  cases cut? ['='] piece with
  | none => rfl
  | some cut => rfl

theorem addPieces_of_le {separator : UInt8} {isTrimmed : Bool} {limit fuel start : Nat}
    {text : List Char} (h : textLength text ≤ start) (held : γ) :
    addPieces separator isTrimmed limit text fuel start held = .ok held := by
  unfold addPieces
  rw [if_neg fun hless => Nat.not_lt.mpr h hless.left]
  rfl

theorem sublist_trimPiece (isTrimmed : Bool) (piece : List Char) :
    (Pairs.trimPiece isTrimmed piece).Sublist piece := by
  cases isTrimmed with
  | false => exact List.Sublist.refl piece
  | true => exact List.dropWhile_sublist _

variable {c : Char} {mark : UInt8} (hmark : mark.toNat < 0x80) (hc : Utf8.encodeChar c = [mark])

include hmark hc

theorem pieceEnd_eq (front rest : List Char)
    (hfits : textLength (front ++ rest) ≤ Buffer.maxSize) :
    pieceEnd mark (front ++ rest) (textLength front) =
      .ok (textLength front + textLength (Pairs.nextPiece c rest).1) := by
  have hslice : slice (Utf8.encodeChars (front ++ rest)) (textLength front)
      (Utf8.encodeChars (front ++ rest)).length = .ok (Utf8.encodeChars rest) := by
    have hle : textLength front ≤ (Utf8.encodeChars (front ++ rest)).length := by
      rw [Utf8.encodeChars_append, List.length_append]
      exact Nat.le_add_right _ _
    rw [slice_to_end hle, Utf8.encodeChars_append]
    exact congrArg Except.ok List.drop_left
  unfold pieceEnd Pairs.nextPiece
  simp only [hslice, ok_bind, find?_mark hmark hc]
  cases hcut : cut? [c] rest with
  | none =>
      show Except.ok (textLength (front ++ rest)) = _
      rw [textLength_append]
      rfl
  | some cut =>
      have hle : textLength front + textLength cut.1 ≤ Buffer.maxSize := by
        rw [eq_append_of_cut? hcut, textLength_append, textLength_append, textLength_append]
          at hfits
        omega
      exact add_eq_ok_of_le (Nat.le_of_add_right_le hle) (Nat.le_refl _)
        (Nat.le_trans (Nat.le_add_left _ _) hle)

omit hmark in
theorem next_place (front rest : List Char) :
    let stop := textLength front + textLength (Pairs.nextPiece c rest).1
    textSlice (front ++ rest) (textLength front) stop = .ok (Pairs.nextPiece c rest).1 ∧
      stop ≤ textLength (front ++ rest) ∧
      ((Pairs.nextPiece c rest).2 = [] ∧ textLength (front ++ rest) ≤ stop + 1 ∨
        exists passed, front ++ rest = passed ++ (Pairs.nextPiece c rest).2 ∧
          textLength passed = stop + 1) := by
  have hone : textLength [c] = 1 := by
    rw [textLength_cons, hc]
    rfl
  rcases Pairs.nextPiece_cases c rest with ⟨_, hnext⟩ | ⟨_, hrest⟩
  · have hslice := textSlice_append front rest []
    rw [List.append_nil] at hslice
    rw [hnext, textLength_append]
    exact ⟨hslice, Nat.le_refl _, Or.inl ⟨rfl, Nat.le_succ _⟩⟩
  · generalize Pairs.nextPiece c rest = next at hrest ⊢
    have htext : front ++ rest = front ++ next.1 ++ ([c] ++ next.2) := by
      rw [hrest, List.append_assoc]
      rfl
    have hslice := textSlice_append front next.1 ([c] ++ next.2)
    rw [← htext] at hslice
    refine ⟨hslice, ?_, Or.inr ⟨front ++ next.1 ++ [c], ?_, ?_⟩⟩
    · rw [htext, textLength_append, textLength_append]
      exact Nat.le_add_right _ _
    · rw [htext, ← List.append_assoc]
    · rw [textLength_append, textLength_append, hone]

theorem addPieces_eq (isTrimmed : Bool) (limit fuel : Nat) (front rest : List Char)
    (hfits : textLength (front ++ rest) ≤ Buffer.maxSize) (hfuel : textLength rest ≤ fuel)
    (held : γ) :
    addPieces mark isTrimmed limit (front ++ rest) fuel (textLength front) held =
      .ok (Pairs.addPieces c isTrimmed limit held rest) := by
  induction fuel generalizing front rest held with
  | zero =>
      have hempty : rest = [] := textLength_eq_zero_iff.mp (Nat.le_zero.mp hfuel)
      rw [hempty, List.append_nil, addPieces_of_le (Nat.le_refl _), Pairs.addPieces,
        dif_pos (Or.inl rfl)]
  | succ fuel ih =>
      by_cases hstop : rest = [] ∨ limit ≤ Collector.size held
      · have hnot : ¬(textLength front < textLength (front ++ rest) ∧
            Collector.size held < limit) := by
          intro h
          rcases hstop with hempty | hfull
          · rw [hempty, List.append_nil] at h
            exact Nat.lt_irrefl _ h.left
          · exact Nat.not_lt.mpr hfull h.right
        rw [addPieces, if_neg hnot, Pairs.addPieces, dif_pos hstop]
        rfl
      · have hgo : textLength front < textLength (front ++ rest) ∧
            Collector.size held < limit := by
          constructor
          · have hpos : textLength rest ≠ 0 :=
              fun hzero => hstop (Or.inl (textLength_eq_zero_iff.mp hzero))
            rw [textLength_append]
            omega
          · exact Nat.lt_of_not_le fun hfull => hstop (Or.inr hfull)
        rcases next_place hc front rest with ⟨hslice, hle, hbehind⟩
        have hpiece : textLength (Pairs.trimPiece isTrimmed (Pairs.nextPiece c rest).1) ≤
            Buffer.maxSize := by
          have htrimmed := textLength_le_of_sublist
            (sublist_trimPiece isTrimmed (Pairs.nextPiece c rest).1)
          omega
        have hnext : add (textLength front + textLength (Pairs.nextPiece c rest).1) 1 =
            .ok (textLength front + textLength (Pairs.nextPiece c rest).1 + 1) :=
          add_eq_ok_of_le (Nat.le_trans hle hfits) (Nat.le_refl _) (by decide)
        rw [addPieces, if_pos hgo, Pairs.addPieces, dif_neg hstop]
        simp only [pieceEnd_eq hmark hc front rest hfits, hslice, addPiece_eq held hpiece, hnext,
          ok_bind]
        rcases hbehind with ⟨hempty, hend⟩ | ⟨passed, htext, hplace⟩
        · rw [addPieces_of_le hend, hempty, Pairs.addPieces, dif_pos (Or.inl rfl)]
        · have hlength := congrArg textLength htext
          rw [textLength_append, textLength_append, hplace] at hlength
          rw [← hplace, htext]
          exact ih passed _ (htext ▸ hfits) (by omega) _

theorem splitPairs_eq (isTrimmed : Bool) (limit : Nat) (held : γ) {text : List Char}
    (hfits : textLength text ≤ Buffer.maxSize) :
    splitPairs mark isTrimmed limit held text =
      .ok (Pairs.addPieces c isTrimmed limit held text) := by
  have h := addPieces_eq hmark hc isTrimmed limit (textLength text) [] text hfits
    (Nat.le_refl _) held
  rwa [textLength_nil, List.nil_append] at h

end

/-! # Numbers -/

theorem appendDigit?_eq (n : Nat) (byte : UInt8) :
    appendDigit? n byte = .ok (Decimal.appendDigit? n byte) := by
  unfold appendDigit? Decimal.appendDigit?
  by_cases hdigit : Decimal.isDigit byte = true
  · have hlow : 48 ≤ byte.toNat := by
      have hboth := Bool.and_eq_true_iff.mp hdigit
      exact UInt8.le_iff_toNat_le.mp (of_decide_eq_true hboth.left)
    rw [if_pos hdigit, if_pos hdigit, sub_eq_ok hlow, ok_bind]
    show Except.ok ((word (n * 10)).toOption.bind fun scaled =>
      (word (scaled + (byte.toNat - 48))).toOption) = _
    by_cases hscaled : n * 10 < Decimal.sizeLimit
    · rw [word_eq_ok hscaled]
      show Except.ok (word (n * 10 + (byte.toNat - 48))).toOption = _
      unfold word
      by_cases hsum : n * 10 + (byte.toNat - 48) < Decimal.sizeLimit
      · simp only [if_pos hsum]
        rfl
      · simp only [if_neg hsum]
        rfl
    · have hsum : ¬ n * 10 + (byte.toNat - 48) < Decimal.sizeLimit := by
        omega
      simp only [word, if_neg hscaled, if_neg hsum]
      rfl
  · rw [if_neg hdigit, if_neg hdigit]
    rfl

theorem sizeFrom?_eq (n : Nat) (bytes : Bytes) :
    sizeFrom? n bytes = .ok (bytes.foldlM Decimal.appendDigit? n) := by
  induction bytes generalizing n with
  | nil => rfl
  | cons byte rest ih =>
      rw [sizeFrom?, appendDigit?_eq, ok_bind, List.foldlM_cons]
      cases Decimal.appendDigit? n byte with
      | none => rfl
      | some m => exact ih m

theorem size?_eq (bytes : Bytes) : size? bytes = .ok (Decimal.size? bytes) := by
  cases bytes with
  | nil => rfl
  | cons byte rest => exact sizeFrom?_eq 0 (byte :: rest)

/-! # Heads -/

theorem parseHeader?_eq {line : List Char} (hfits : textLength line ≤ Buffer.maxSize) :
    parseHeader? line = .ok (Header.parse? line) := by
  unfold parseHeader? Header.parse?
  rw [cutAt_eq (c := ':') (by decide) (by decide) hfits, ok_bind]
  cases cut? [':'] line with
  | none => rfl
  | some cut =>
      rcases cut with ⟨name, value⟩
      simp only
      split <;> rfl

theorem parseHeaders_eq {lines : List (List Char)}
    (hfits : forall line, line ∈ lines -> textLength line ≤ Buffer.maxSize) :
    parseHeaders lines = .ok (lines.filterMap Header.parse?) := by
  induction lines with
  | nil => rfl
  | cons line rest ih =>
      rcases List.forall_mem_cons.mp hfits with ⟨hline, hrest⟩
      rw [parseHeaders, parseHeader?_eq hline, ok_bind, ih hrest, ok_bind, List.filterMap_cons]
      cases Header.parse? line with
      | none => rfl
      | some header => rfl

/-! # Parts of a head -/

theorem sublist_withoutBlankLine (text : List Char) :
    (Request.withoutBlankLine text).Sublist text := by
  rcases RequestHead.withoutBlankLine_cases text with hblank | ⟨hsame, _⟩
  · have hfront := List.sublist_append_left (Request.withoutBlankLine text)
      (RequestHead.lineEnd ++ RequestHead.lineEnd)
    rwa [← List.append_assoc, ← hblank] at hfront
  · rw [← hsame]

theorem sublist_of_mem_lines {text line : List Char} (h : line ∈ Request.lines text) :
    line.Sublist text := by
  fun_induction Request.lines text generalizing line with
  | case1 =>
      rw [List.mem_singleton.mp h]
  | case2 rest ih =>
      rcases List.mem_cons.mp h with hempty | hmem
      · rw [hempty]
        exact List.nil_sublist _
      · exact ((ih hmem).cons '\n').cons '\r'
  | case3 c rest _ ih =>
      rcases RequestHead.exists_lines_cons rest with ⟨first, more, hlines⟩
      rw [hlines] at ih h
      rcases List.mem_cons.mp h with hfirst | hmem
      · rw [hfirst]
        exact (ih List.mem_cons_self).cons_cons c
      · exact (ih (List.mem_cons_of_mem first hmem)).cons c

theorem sublist_of_firstLine {line target : List Char} {method : Method} {version : Version}
    (h : Request.firstLine line = .ok (method, target, version)) : target.Sublist line := by
  rcases RequestHead.isRequestLine_or_lineFault line with ⟨m, t, v, hline⟩ | ⟨fault, hfault⟩
  · rw [hline.firstLine] at h
    cases h
    rw [hline.parts.joined, List.intercalate_cons_cons, List.intercalate_cons_cons]
    exact (List.sublist_append_left _ _).trans ((List.sublist_append_left _ _).trans
      (List.sublist_append_right _ _))
  · rw [hfault.firstLine] at h
    cases h

theorem sublist_of_find? {lines : List (List Char)} {name value : String}
    (h : Header.find? (lines.filterMap Header.parse?) name = some value) :
    exists line, line ∈ lines ∧ value.toList.Sublist line := by
  rcases Option.map_eq_some_iff.mp h with ⟨field, hfield, hvalue⟩
  rcases List.mem_filterMap.mp (List.mem_of_find?_eq_some hfield) with ⟨line, hline, hparse⟩
  refine ⟨line, hline, ?_⟩
  rw [← hvalue]
  cases Header.parse?_eq_some_iff.mp hparse with
  | @intro name spaces value _ _ _ _ =>
      simp only [String.toList_ofList]
      exact (List.sublist_append_right spaces value).trans
        ((List.sublist_cons_self ':' _).trans (List.sublist_append_right name _))

theorem parseTarget_eq (limit : Nat) {target : List Char}
    (hfits : textLength target ≤ Buffer.maxSize) :
    parseTarget limit target = .ok
      (match cut? ['?'] target with
        | some (path, query) => (path, (Pairs.addQuery limit (#[] : Array Pair) query).toList)
        | none => (target, [])) := by
  unfold parseTarget
  rw [cutAt_eq (c := '?') (by decide) (by decide) hfits, ok_bind]
  cases hcut : cut? ['?'] target with
  | none => rfl
  | some cut =>
      rcases cut with ⟨path, query⟩
      have hquery : (Pairs.withoutMark query).Sublist target := by
        have hmark : (Pairs.withoutMark query).Sublist query := by
          unfold Pairs.withoutMark
          split
          · exact List.sublist_cons_self '?' _
          · exact List.Sublist.refl query
        rw [eq_append_of_cut? hcut]
        exact hmark.trans (List.sublist_append_right _ query)
      have hpairs : splitPairs 38 false limit (#[] : Array Pair) (Pairs.withoutMark query) =
          .ok (Pairs.addQuery limit #[] query) :=
        splitPairs_eq (by decide) (by decide) false limit #[]
          (Nat.le_trans (textLength_le_of_sublist hquery) hfits)
      simp only [hpairs, ok_bind]
      rfl

theorem cookiePairs_eq {headers : List Header} (limit : Nat)
    (hfits : forall value, Header.find? headers "cookie" = some value ->
      textLength value.toList ≤ Buffer.maxSize) :
    cookiePairs headers limit = .ok (Request.cookiePairs headers limit) := by
  unfold cookiePairs Request.cookiePairs
  cases hfound : Header.find? headers "cookie" with
  | none => rfl
  | some value =>
      have hpairs : splitPairs 59 true limit (#[] : Array Pair) value.toList =
          .ok (Pairs.addCookies limit #[] value.toList) :=
        splitPairs_eq (by decide) (by decide) true limit #[] (hfits value hfound)
      simp only [hpairs, ok_bind]
      rfl

theorem bodyLength_eq (headers : List Header) :
    bodyLength headers = .ok (Request.bodyLength headers) := by
  unfold bodyLength Request.bodyLength
  cases Header.find? headers "content-length" with
  | none => rfl
  | some value =>
      simp only [size?_eq, ok_bind]
      rfl

theorem decode_eq {head : Bytes} (hfits : head.length ≤ Buffer.maxSize) (peer : SocketAddress)
    (limits : RequestLimits) (isTrusted : Bool) :
    decode head peer limits isTrusted = .ok (Request.decode head peer limits isTrusted) := by
  unfold decode Request.decode
  cases htext : Utf8.decodeChars? head with
  | none => rfl
  | some text =>
      have hpart : forall part : List Char, part.Sublist text ->
          textLength part ≤ Buffer.maxSize := by
        intro part h
        rw [Utf8.decodeChars?_eq_some_iff.mp htext] at hfits
        exact Nat.le_trans (textLength_le_of_sublist h) hfits
      have hline : forall line, line ∈ Request.lines (Request.withoutBlankLine text) ->
          line.Sublist text := by
        intro line h
        exact (sublist_of_mem_lines h).trans (sublist_withoutBlankLine text)
      rcases RequestHead.exists_lines_cons (Request.withoutBlankLine text) with
        ⟨first, more, hlines⟩
      rw [hlines] at hline
      unfold Request.ofChars
      simp only [hlines, List.headD_cons, List.tail_cons]
      cases hfirst : Request.firstLine first with
      | error fault => rfl
      | ok parts =>
          rcases parts with ⟨method, target, version⟩
          have hkept : forall line, line ∈ more.take limits.maxHeaders -> line.Sublist text :=
            fun line h => hline line (List.mem_cons_of_mem first (List.mem_of_mem_take h))
          have hheaders := parseHeaders_eq fun line h => hpart line (hkept line h)
          have htarget := parseTarget_eq limits.maxQueryParams (hpart target
            ((sublist_of_firstLine hfirst).trans (hline first List.mem_cons_self)))
          have hcookie : forall value,
              Header.find? ((more.take limits.maxHeaders).filterMap Header.parse?) "cookie" =
                some value -> textLength value.toList ≤ Buffer.maxSize := by
            intro value hvalue
            rcases sublist_of_find? hvalue with ⟨line, hmem, hsub⟩
            exact hpart _ (hsub.trans (hkept line hmem))
          have hcookies := cookiePairs_eq limits.maxCookies hcookie
          simp only [hheaders, htarget, hcookies, bodyLength_eq, ok_bind]
          rfl

end Machine
end HttpEngine
