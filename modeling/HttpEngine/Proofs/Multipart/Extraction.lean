import HttpEngine.Multipart.Scanner
import HttpEngine.Proofs.Text.Search

/-!
# A form in one piece and in many

From a whole form the payload of its first part can be read off: it stands between the first blank
line and the first boundary behind that.  The scanner sees a form in chunks and gives out bytes as
soon as they are certain.  What it has given out, what it holds back and what it knows of the header
are always what the text so far determines, so that the chunks do not matter.
-/

namespace HttpEngine
namespace Multipart

def extract (boundary : String) (form : Bytes) : Bytes × Option String :=
  match cut? Bytes.blankLine form with
  | none => ([], none)
  | some (header, rest) => (before (marker boundary) rest, filename? header)

theorem marker_length_pos (boundary : String) : 0 < (marker boundary).length := by
  simp [marker]

namespace Scanner

/-!
# What a scanner knows

The three stages, each with what the text so far and the bytes given out are there.
-/

/-- A scanner for a marker after some text, of which some bytes have been given out. -/
inductive Follows (mark : Bytes) : Scanner -> Bytes -> Bytes -> Prop where
  | header {received : Bytes} :
      cut? Bytes.blankLine received.reverse = none ->
      Follows mark ⟨mark, .header received, none⟩ received.reverse []
  | payload {text head out held : Bytes} :
      cut? Bytes.blankLine text = some (head, out ++ held) ->
      cut? mark (out ++ held) = none ->
      out.length ≤ (out ++ held).length + 1 - mark.length ->
      held.length ≤ mark.length - 1 ->
      Follows mark ⟨mark, .payload held, filename? head⟩ text out
  | done {text head rest out after : Bytes} :
      cut? Bytes.blankLine text = some (head, rest) ->
      cut? mark rest = some (out, after) ->
      Follows mark ⟨mark, .done, filename? head⟩ text out

theorem follows_new (boundary : String) :
    Follows (Multipart.marker boundary) (new boundary) [] [] :=
  @Follows.header (Multipart.marker boundary) [] (cut?_nil Bytes.blankLine)

theorem follows_release {mark text head out new : Bytes} (hpos : 0 < mark.length)
    (htext : cut? Bytes.blankLine text = some (head, out ++ new))
    (hcut : cut? mark (out ++ new) = (cut? mark new).map fun cut => (out ++ cut.1, cut.2))
    (hout : out.length ≤ (out ++ new).length + 1 - mark.length) (stage : Stage) :
    Follows mark (release ⟨mark, stage, filename? head⟩ new).2 text
      (out ++ (release ⟨mark, stage, filename? head⟩ new).1) := by
  unfold release
  simp only
  cases hnew : cut? mark new with
  | some cut =>
      rcases cut with ⟨front, after⟩
      rw [hnew, Option.map_some] at hcut
      exact Follows.done htext hcut
  | none =>
      rw [hnew, Option.map_none] at hcut
      have hsplit : out ++ new = (out ++ new.take (new.length - (mark.length - 1))) ++
          new.drop (new.length - (mark.length - 1)) := by
        rw [List.append_assoc, List.take_append_drop]
      have hlength := congrArg List.length hsplit
      rw [hsplit] at htext hcut
      apply Follows.payload htext hcut
      · rw [← hlength]
        simp only [List.length_append, List.length_take] at hout ⊢
        omega
      · simp only [List.length_drop]
        omega

theorem Follows.feed {mark text out : Bytes} {s : Scanner} (h : Follows mark s text out)
    (hpos : 0 < mark.length) (chunk : Bytes) :
    Follows mark (s.feed chunk).2 (text ++ chunk) (out ++ (s.feed chunk).1) := by
  cases h with
  | @header received hnone =>
      have hle : received.reverse.length - partialBlank ≤
          received.reverse.length + 1 - Bytes.blankLine.length := by
        simp only [partialBlank, Bytes.blankLine, List.length_cons, List.length_nil]
        omega
      have hgrown := cut?_append_of_none hnone hle chunk
      rw [List.length_reverse, ← List.reverse_take, ← List.reverse_drop] at hgrown
      show Follows mark (feedHeader _ received chunk).2 _ ([] ++ (feedHeader _ received chunk).1)
      unfold feedHeader
      cases hcut : cut? Bytes.blankLine ((received.take partialBlank).reverse ++ chunk) with
      | none =>
          rw [hcut, Option.map_none] at hgrown
          have htext : received.reverse ++ chunk = (chunk.reverse ++ received).reverse := by
            rw [List.reverse_append, List.reverse_reverse]
          rw [htext] at hgrown ⊢
          exact Follows.header hgrown
      | some cut =>
          rcases cut with ⟨front, rest⟩
          rw [hcut, Option.map_some] at hgrown
          have hnothing : cut? mark ([] ++ rest) =
              (cut? mark rest).map fun cut => ([] ++ cut.1, cut.2) := by
            simp
          exact follows_release hpos hgrown hnothing (Nat.zero_le _) _
  | @payload _ head _ held htext hnone hout hheld =>
      have htext' := cut?_append_of_some htext chunk
      have hgrown := cut?_append_of_none hnone hout chunk
      rw [List.drop_left, List.take_left] at hgrown
      rw [List.append_assoc] at htext' hgrown
      apply follows_release hpos htext' hgrown
      simp only [List.length_append] at hout ⊢
      omega
  | done htext hmark =>
      rw [show (Scanner.feed ⟨mark, .done, _⟩ chunk).1 = [] from rfl, List.append_nil]
      exact Follows.done (cut?_append_of_some htext chunk) (cut?_append_of_some hmark chunk)

theorem Follows.finish {boundary : String} {text out : Bytes} {s : Scanner}
    (h : Follows (Multipart.marker boundary) s text out) :
    (out ++ s.finish.1, s.finish.2.filename) = extract boundary text := by
  cases h with
  | header hnone =>
      rw [extract, hnone]
      rfl
  | payload htext hnone _ _ =>
      rw [extract, htext]
      simp only [before, hnone]
      rfl
  | done htext hmark =>
      rw [extract, htext]
      simp only [before, hmark]
      rw [show (Scanner.finish ⟨Multipart.marker boundary, .done, _⟩).1 = [] from rfl,
        List.append_nil]
      rfl

end Scanner
end Multipart
end HttpEngine
