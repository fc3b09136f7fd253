import HttpEngine.Proofs.Multipart.Chunks

/-!
# What a scanner holds back

Between two chunks a scanner keeps the bytes that it may still need.  In the payload these are fewer
than a boundary has, and behind the boundary there are none.  But until the blank line has come that
ends the header, it keeps all that it was fed, and the client decides when the blank line comes: no
number of bytes is enough for every form.
-/

namespace HttpEngine
namespace Multipart
namespace Scanner

variable {mark text out header rest : Bytes} {s : Scanner}

/-! # Stage by stage -/

theorem Follows.pending_of_headless (h : Follows mark s text out)
    (hblank : ¬ Bytes.blankLine <:+: text) : s.pending = text := by
  have hnone := cut?_eq_none_iff.mpr hblank
  cases h with
  | header _ => rfl
  | payload htext _ _ _ =>
      rw [htext] at hnone
      cases hnone
  | done htext _ =>
      rw [htext] at hnone
      cases hnone

theorem Follows.pending_of_unmarked (h : Follows mark s text out)
    (hheader : FirstAt Bytes.blankLine text header rest) (hmark : ¬ mark <:+: rest) :
    s.pending = rest.drop (rest.length - (mark.length - 1)) := by
  have hcut := cut?_eq_some_iff.mpr hheader
  cases h with
  | header hnone =>
      rw [hnone] at hcut
      cases hcut
  | @payload _ _ _ held htext hnone hout hheld =>
      rw [htext] at hcut
      cases hcut
      -- Only where less than a marker has come has nothing been given out.
      have hplace : (out ++ held).length - (mark.length - 1) = out.length := by
        rw [List.length_append] at hout ⊢
        omega
      rw [hplace, List.drop_left]
      rfl
  | done htext hfound =>
      rw [htext] at hcut
      cases hcut
      exact absurd ⟨_, _, (eq_append_of_cut? hfound).symm⟩ hmark

theorem Follows.pending_of_marked (h : Follows mark s text out)
    (hheader : FirstAt Bytes.blankLine text header rest) (hmark : mark <:+: rest) :
    s.pending = [] := by
  rw [Scanner.pending, h.stage_done hheader hmark]

/-! # After any chunks -/

/--
After any chunks, a scanner holds all that it was fed if no blank line has come.  If one has, it
holds nothing once the boundary has come, and before that the last bytes behind the blank line, one
fewer than the marker has: this many at most.
-/
theorem pending_feedAll (boundary : String) (chunks : List Bytes) :
    let pending := ((new boundary).feedAll chunks).2.pending
    let most := (Multipart.marker boundary).length - 1
    (¬ Bytes.blankLine <:+: chunks.flatten -> pending = chunks.flatten) ∧
    forall header rest, FirstAt Bytes.blankLine chunks.flatten header rest ->
      pending.length ≤ most ∧
      (Multipart.marker boundary <:+: rest -> pending = []) ∧
      (¬ Multipart.marker boundary <:+: rest -> pending = rest.drop (rest.length - most)) := by
  intro pending most
  have hfollows := follows_feedAll_new boundary chunks
  refine ⟨hfollows.pending_of_headless, ?_⟩
  intro header rest hheader
  have hmarked := fun hmark => hfollows.pending_of_marked hheader hmark
  have hunmarked := fun hmark => hfollows.pending_of_unmarked hheader hmark
  refine ⟨?_, hmarked, hunmarked⟩
  by_cases hmark : Multipart.marker boundary <:+: rest
  · simp only [pending, hmarked hmark, List.length_nil, Nat.zero_le]
  · simp only [pending, most, hunmarked hmark, List.length_drop]
    omega

/-! # A header without an end -/

theorem headless_replicate (count : Nat) :
    ¬ Bytes.blankLine <:+: [List.replicate count (45 : UInt8)].flatten := by
  intro h
  have hmem : (13 : UInt8) ∈ [List.replicate count (45 : UInt8)].flatten :=
    h.subset (by decide)
  rw [List.flatten_singleton] at hmem
  exact absurd (List.eq_of_mem_replicate hmem) (by decide)

theorem pending_unbounded :
    ¬ exists boundary : String, exists most : Nat, forall chunks : List Bytes,
      ((new boundary).feedAll chunks).2.pending.length ≤ most := by
  rintro ⟨boundary, most, hmost⟩
  have hfollows := follows_feedAll_new boundary [List.replicate (most + 1) 45]
  have hle := hmost [List.replicate (most + 1) 45]
  rw [hfollows.pending_of_headless (headless_replicate (most + 1)), List.flatten_singleton,
    List.length_replicate] at hle
  omega

end Scanner
end Multipart
end HttpEngine
