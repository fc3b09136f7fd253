import HttpEngine.Machine.Upload
import HttpEngine.Proofs.Machine.Head
import HttpEngine.Proofs.Multipart.Extraction

/-!
# A machine scans forms as the scanner does

What is pending always fits a buffer, and as long as the header lasts no blank line stands in it.
So the blank line that a chunk completes is the first one, and what is put out at each step is what
the scanner gives.
-/

namespace HttpEngine
namespace Machine

/-! # Boundaries and names -/

theorem boundary?_eq {contentType : String}
    (hfits : (Utf8.encode contentType).length ≤ Buffer.maxSize) :
    boundary? contentType = .ok (Multipart.boundary? contentType) := by
  unfold boundary? Multipart.boundary?
  have hfirst : Utf8.encodeChar 'b' = [98] := by decide
  have hfind : find? (Utf8.encode "boundary=") (Utf8.encode contentType) =
      (cut? "boundary=".toList contentType.toList).map fun cut => textLength cut.1 :=
    find?_encodeChars (by decide) hfirst _ _
  by_cases hform : MediaType.contains contentType MediaType.multipart = true
  · rw [if_pos hform, if_pos hform, hfind]
    cases hcut : cut? "boundary=".toList contentType.toList with
    | none => rfl
    | some cut =>
        rcases cut with ⟨front, value⟩
        have htext := eq_append_of_cut? hcut
        have hplace : textLength front + (Utf8.encode "boundary=").length =
            textLength (front ++ "boundary=".toList) := by
          rw [textLength_append]
          rfl
        have hstart : add (textLength front) (Utf8.encode "boundary=").length =
            .ok (textLength (front ++ "boundary=".toList)) := by
          rw [← hplace]
          have hlength : textLength contentType.toList ≤ Buffer.maxSize := hfits
          rw [htext, textLength_append, ← hplace] at hlength
          exact add_eq_ok_of_le (Nat.le_of_add_right_le (Nat.le_of_add_right_le hlength))
            (Nat.le_refl _) (by decide)
        have hslice : textSlice contentType.toList (textLength (front ++ "boundary=".toList))
            (textLength contentType.toList) = .ok value := by
          rw [htext]
          exact textSlice_back _ value
        simp only [Option.map_some, hstart, hslice, ok_bind]
        rfl
  · rw [if_neg hform, if_neg hform]
    rfl

theorem filename?_eq {header : Bytes} (hfits : header.length ≤ Buffer.maxSize) :
    filename? header = .ok (Multipart.filename? header) := by
  unfold filename? Multipart.filename?
  generalize Utf8.encode "filename=\"" = opening
  cases hcut : cut? opening header with
  | none =>
      simp only [find?_of_cut?_eq_none hcut]
      rfl
  | some cut =>
      rcases cut with ⟨front, value⟩
      have hheader := eq_append_of_cut? hcut
      have hlength := congrArg List.length hheader
      rw [List.length_append, List.length_append] at hlength
      have hstart : add front.length opening.length = .ok (front ++ opening).length := by
        rw [List.length_append]
        exact add_eq_ok_of_le (by omega) hfits (by omega)
      have hvalue : slice header (front ++ opening).length header.length = .ok value := by
        rw [slice_to_end (by rw [List.length_append]; omega), hheader, List.drop_left]
      simp only [find?_of_cut? hcut, hstart, hvalue, ok_bind]
      cases hquote : cut? Bytes.quote value with
      | none =>
          simp only [find?_of_cut?_eq_none hquote]
          show _ = Except.ok ((cut? Bytes.quote value).bind _)
          rw [hquote]
          rfl
      | some close =>
          rcases close with ⟨name, rest⟩
          have hsplit := eq_append_of_cut? hquote
          have hvalueLength := congrArg List.length hsplit
          rw [List.length_append, List.length_append] at hvalueLength
          have hstop : add (front ++ opening).length name.length =
              .ok ((front ++ opening).length + name.length) := by
            rw [List.length_append]
            exact add_eq_ok_of_le (by omega) hfits (by omega)
          have hname : slice header (front ++ opening).length
              ((front ++ opening).length + name.length) = .ok name := by
            rw [hheader, hsplit, List.append_assoc name, ← List.append_assoc]
            exact slice_append (front ++ opening) name (Bytes.quote ++ rest)
          simp only [find?_of_cut? hquote, hstop, hname, ok_bind]
          show _ = Except.ok ((cut? Bytes.quote value).bind _)
          rw [hquote]
          rfl

/-! # Scanning -/

namespace FormScanner

open Multipart (Scanner Stage)

inductive Mirrors : FormScanner -> Scanner -> Prop where
  | preamble {marker pending : Bytes} {filename : Option String} : 0 < marker.length ->
      pending.length ≤ Buffer.maxSize -> cut? Bytes.blankLine pending = none ->
      Mirrors ⟨marker, .preamble, pending, filename⟩ ⟨marker, .header pending.reverse, filename⟩
  | payload {marker pending : Bytes} {filename : Option String} : 0 < marker.length ->
      pending.length ≤ Buffer.maxSize ->
      Mirrors ⟨marker, .payload, pending, filename⟩ ⟨marker, .payload pending, filename⟩
  | done {marker pending : Bytes} {filename : Option String} :
      Mirrors ⟨marker, .done, pending, filename⟩ ⟨marker, .done, filename⟩

/--
What the scanner gives is put out, and the machine is where the scanner is then.  What has been put
out and what is pending are no more than what was there and what has come.
-/
structure PutsOut (step : Bytes × Scanner) (out : Bytes) (room : Nat)
    (after : Bytes × FormScanner) : Prop where
  out : after.1 = out ++ step.1
  mirrors : Mirrors after.2 step.2
  room : after.1.length + after.2.pending.length ≤ room

theorem yields_new {boundary : String} {need : Nat}
    (hneed : (Multipart.marker boundary).length ≤ need) :
    Yields need (new boundary) fun m =>
      Mirrors m (Scanner.new boundary) ∧ m.pending = [] := by
  rw [Multipart.marker, List.length_append] at hneed
  apply (yields_extend hneed).bind
  rintro marker ⟨hmarker, _⟩
  refine .of_eq_ok rfl ⟨?_, rfl⟩
  rw [hmarker]
  exact Mirrors.preamble (Multipart.marker_length_pos boundary) (Nat.zero_le _) rfl

theorem slice_front {mark all front rest : Bytes} (h : cut? mark all = some (front, rest)) :
    slice all 0 front.length = .ok front := by
  have hslice := slice_append [] front (mark ++ rest)
  rwa [List.nil_append, List.length_nil, Nat.zero_add, ← List.append_assoc,
    ← eq_append_of_cut? h] at hslice

section

variable {marker pending chunk out : Bytes} {filename : Option String} {need : Nat}

theorem yields_feedPayload (hpos : 0 < marker.length) (stage : Stage)
    (hneed : out.length + pending.length + chunk.length ≤ need) :
    Yields need (feedPayload ⟨marker, .payload, pending, filename⟩ chunk out)
      (PutsOut (Scanner.release ⟨marker, stage, filename⟩ (pending ++ chunk)) out
        (out.length + pending.length + chunk.length)) := by
  unfold feedPayload
  apply (yields_extend (show pending.length + chunk.length ≤ need by omega)).bind
  rintro all ⟨hall, hfits⟩
  have hlength := congrArg List.length hall
  rw [List.length_append] at hlength
  rw [← hall, Nat.add_assoc, ← hlength]
  rw [Nat.add_assoc, ← hlength] at hneed
  unfold Scanner.release
  simp only
  cases hcut : cut? marker all with
  | some cut =>
      rcases cut with ⟨front, rest⟩
      have hfront : front.length ≤ all.length := by
        rw [eq_append_of_cut? hcut, List.append_assoc]
        exact (List.prefix_append _ _).length_le
      simp only [find?_of_cut? hcut, slice_front hcut, ok_bind]
      apply (yields_extend (show out.length + front.length ≤ need by omega)).bind
      rintro given ⟨hgiven, _⟩
      refine .of_eq_ok rfl ⟨hgiven, Mirrors.done, ?_⟩
      rw [hgiven, List.length_append, List.length_nil]
      omega
  | none =>
      have hready : all.length - min all.length (marker.length - 1) =
          all.length - (marker.length - 1) := by
        omega
      have hsplit := split_eq_ok (Nat.sub_le all.length (marker.length - 1))
      have htaken : (all.take (all.length - (marker.length - 1))).length +
          (all.drop (all.length - (marker.length - 1))).length = all.length := by
        rw [← List.length_append, List.take_append_drop]
      simp only [find?_of_cut?_eq_none hcut, sub_eq_ok (Nat.succ_le_of_lt hpos),
        sub_eq_ok (Nat.min_le_left all.length (marker.length - 1)), hready, hsplit, ok_bind]
      generalize all.take (all.length - (marker.length - 1)) = ready at htaken ⊢
      generalize all.drop (all.length - (marker.length - 1)) = kept at htaken ⊢
      apply (yields_extend (show out.length + ready.length ≤ need by omega)).bind
      rintro given ⟨hgiven, _⟩
      refine .of_eq_ok rfl ⟨hgiven, Mirrors.payload hpos (by omega), ?_⟩
      simp only [hgiven, List.length_append]
      omega

theorem cut?_blankLine_append (hnone : cut? Bytes.blankLine pending = none) (chunk : Bytes) :
    cut? Bytes.blankLine (pending ++ chunk) =
      (cut? Bytes.blankLine ((pending.reverse.take Scanner.partialBlank).reverse ++ chunk)).map
        fun cut => ((pending.reverse.drop Scanner.partialBlank).reverse ++ cut.1, cut.2) := by
  have hle : pending.length - Scanner.partialBlank ≤
      pending.length + 1 - Bytes.blankLine.length := by
    simp only [Scanner.partialBlank, Bytes.blankLine, List.length_cons, List.length_nil]
    omega
  rw [cut?_append_of_none hnone hle, List.reverse_take, List.reverse_drop, List.reverse_reverse,
    List.length_reverse]

theorem yields_feedPreamble (hpos : 0 < marker.length)
    (hnone : cut? Bytes.blankLine pending = none)
    (hneed : out.length + pending.length + chunk.length ≤ need) :
    Yields need (feed ⟨marker, .preamble, pending, filename⟩ chunk out)
      (PutsOut (Scanner.feedHeader ⟨marker, .header pending.reverse, filename⟩ pending.reverse
        chunk) out (out.length + pending.length + chunk.length)) := by
  unfold feed Scanner.feedHeader
  apply (yields_extend (show pending.length + chunk.length ≤ need by omega)).bind
  rintro all ⟨hall, hfits⟩
  have hgrown := cut?_blankLine_append hnone chunk
  have hlength := congrArg List.length hall
  rw [List.length_append] at hlength
  rw [← hall] at hgrown
  rw [Nat.add_assoc, ← hlength]
  rw [Nat.add_assoc, ← hlength] at hneed
  cases hcut : cut? Bytes.blankLine
      ((pending.reverse.take Scanner.partialBlank).reverse ++ chunk) with
  | none =>
      rw [hcut, Option.map_none] at hgrown
      simp only [find?_of_cut?_eq_none hgrown]
      refine .of_eq_ok rfl ⟨(List.append_nil out).symm, ?_, Nat.le_refl _⟩
      rw [← List.reverse_append, ← hall]
      exact Mirrors.preamble hpos hfits hgrown
  | some cut =>
      rcases cut with ⟨front, rest⟩
      rw [hcut, Option.map_some] at hgrown
      simp only at hgrown ⊢
      generalize (pending.reverse.drop Scanner.partialBlank).reverse ++ front = header at hgrown ⊢
      have hsplit := eq_append_of_cut? hgrown
      have hfour : (header ++ Bytes.blankLine).length = header.length + 4 := List.length_append
      have hparts := congrArg List.length hsplit
      rw [List.length_append, hfour] at hparts
      have hheader : header.length ≤ Buffer.maxSize := by
        omega
      have hstart : add header.length 4 = .ok (header.length + 4) :=
        add_eq_ok_of_le hheader (Nat.le_refl _) (by decide)
      have hrest : split all (header.length + 4) = .ok (header ++ Bytes.blankLine, rest) := by
        rw [split_eq_ok (by omega), ← hfour, hsplit, List.take_left, List.drop_left]
      simp only [find?_of_cut? hgrown, slice_front hgrown, filename?_eq hheader, hstart, hrest,
        ok_bind]
      have hrelease : Yields need (feedPayload
          ⟨marker, .payload, [], Multipart.filename? header⟩ rest out) _ :=
        yields_feedPayload hpos (.header pending.reverse) (by simp only [List.length_nil]; omega)
      apply hrelease.imp
      intro after hafter
      refine ⟨hafter.out, hafter.mirrors, Nat.le_trans hafter.room ?_⟩
      simp only [List.length_nil]
      omega

end

variable {m : FormScanner} {s : Scanner} {out : Bytes} {need : Nat}

theorem Mirrors.feed (h : Mirrors m s) {chunk : Bytes}
    (hneed : out.length + m.pending.length + chunk.length ≤ need) :
    Yields need (m.feed chunk out)
      (PutsOut (s.feed chunk) out (out.length + m.pending.length + chunk.length)) := by
  cases h with
  | preamble hpos _ hnone => exact yields_feedPreamble hpos hnone hneed
  | payload hpos _ => exact yields_feedPayload hpos _ hneed
  | done => exact .of_eq_ok rfl ⟨(List.append_nil out).symm, .done, Nat.le_add_right _ _⟩

theorem Mirrors.finish (h : Mirrors m s) (hneed : out.length + m.pending.length ≤ need) :
    Yields need (m.finish out) (PutsOut s.finish out (out.length + m.pending.length)) := by
  cases h with
  | preamble => exact .of_eq_ok rfl ⟨(List.append_nil out).symm, .done, Nat.le_refl _⟩
  | payload =>
      apply (yields_extend hneed).bind
      rintro all ⟨hall, _⟩
      refine .of_eq_ok rfl ⟨hall, .done, ?_⟩
      rw [hall, List.length_append]
      exact Nat.le_refl _
  | done => exact .of_eq_ok rfl ⟨(List.append_nil out).symm, .done, Nat.le_refl _⟩

theorem Mirrors.filename_eq (h : Mirrors m s) : m.filename = s.filename := by
  cases h <;> rfl

/-! # Runs -/

def Call.bytes : Call -> Bytes
  | .feed chunk => chunk
  | .finish => []

theorem Mirrors.answer (h : Mirrors m s) {call : Call}
    (hneed : out.length + m.pending.length + call.bytes.length ≤ need) :
    Yields need (m.answer out call)
      (PutsOut (s.answer call) out (out.length + m.pending.length + call.bytes.length)) := by
  cases call with
  | feed chunk => exact h.feed hneed
  | finish => exact h.finish hneed

theorem Mirrors.answerAll (h : Mirrors m s) {calls : List Call}
    (hneed : out.length + m.pending.length + (calls.flatMap Call.bytes).length ≤ need) :
    Yields need (m.answerAll out calls) fun last =>
      last = (out ++ (s.answerAll calls).1, (s.answerAll calls).2) := by
  induction calls generalizing m s out with
  | nil =>
      refine .of_eq_ok rfl ?_
      rw [h.filename_eq, Scanner.answerAll, List.append_nil]
  | cons call rest ih =>
      rw [List.flatMap_cons, List.length_append] at hneed
      have hstep : out.length + m.pending.length + call.bytes.length ≤ need := by
        omega
      apply (h.answer hstep).bind
      rintro ⟨put, after⟩ ⟨hput, hafter, hroom⟩
      simp only at hput hafter hroom ⊢
      have hlate := @ih after (s.answer call).2 put hafter (by omega)
      rw [hput, List.append_assoc] at hlate
      rw [hput]
      exact hlate

theorem yields_answerAll (boundary : String) (calls : List Call) :
    Yields (max (Multipart.marker boundary).length (calls.flatMap Call.bytes).length)
      (new boundary >>= fun m => m.answerAll [] calls) fun last =>
        last = (Scanner.new boundary).answerAll calls := by
  apply (yields_new (Nat.le_max_left _ _)).bind
  rintro m ⟨hm, hpending⟩
  have hneed : ([] : Bytes).length + m.pending.length + (calls.flatMap Call.bytes).length ≤
      max (Multipart.marker boundary).length (calls.flatMap Call.bytes).length := by
    rw [hpending, List.length_nil, Nat.zero_add]
    exact Nat.le_max_right _ _
  exact hm.answerAll hneed

end FormScanner
end Machine
end HttpEngine
