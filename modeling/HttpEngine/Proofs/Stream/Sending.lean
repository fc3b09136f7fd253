import HttpEngine.Stream.Outgoing

/-!
# What a client gets of some data

Data are written in as many writes as the client makes necessary.  Whatever the client does, it has a
beginning of the data in the end; it has less than all of them only if no further byte can be
written: writes fail, or the client waits for ever, or it takes no byte at a time.
-/

namespace HttpEngine
namespace Outgoing

inductive Blocked (out : Outgoing) (held : Nat) : WireError -> Prop where
  | broken {bound : Nat} : out.failAfter = some bound -> bound ≤ held ->
      Blocked out held .brokenPipe
  | stalled {bound : Nat} : out.stallAfter = some bound -> bound ≤ held ->
      Blocked out held .timedOut
  | narrow : out.chunk = some 0 -> Blocked out held .writeZero

theorem not_blocked_unbounded (held : Nat) (error : WireError) :
    ¬ unbounded.Blocked held error := by
  intro h
  cases h with
  | broken hbound hle => cases hbound
  | stalled hbound hle => cases hbound
  | narrow hchunk => cases hchunk

theorem Blocked.of_written {out : Outgoing} {written : Bytes} {held : Nat} {error : WireError}
    (h : Blocked { out with written } held error) : out.Blocked held error := by
  cases h with
  | broken hbound hle => exact .broken hbound hle
  | stalled hbound hle => exact .stalled hbound hle
  | narrow hchunk => exact .narrow hchunk

/-! # One write -/

theorem any_le_iff {bound : Option Nat} {held : Nat} :
    bound.any (· ≤ held) = true ↔ exists n : Nat, bound = some n ∧ n ≤ held := by
  cases bound <;> simp

theorem roomBefore_pos {bound : Option Nat} {held wanted : Nat}
    (hbound : ¬ bound.any (· ≤ held) = true) (hwanted : 0 < wanted) :
    0 < roomBefore bound held wanted := by
  cases bound with
  | none => exact hwanted
  | some n =>
      rw [Option.any_some, decide_eq_true_eq, Nat.not_le] at hbound
      exact Nat.sub_pos_of_lt hbound

inductive Accepts (out : Outgoing) (held wanted : Nat) : Accepted -> Prop where
  | bytes {count : Nat} : 0 < count -> count ≤ wanted -> Accepts out held wanted (.bytes count)
  | failure {error : WireError} : out.Blocked held error ->
      Accepts out held wanted (.failure error)
  | stalled : out.Blocked held .timedOut -> Accepts out held wanted .stalled

theorem accepts_accept (out : Outgoing) (held : Nat) {wanted : Nat} (hwanted : 0 < wanted) :
    out.Accepts held wanted (out.accept held wanted) := by
  unfold accept
  split
  · next hfail =>
    rcases any_le_iff.mp hfail with ⟨bound, hbound, hle⟩
    exact .failure (.broken hbound hle)
  · next hfail =>
    split
    · next hstall =>
      rcases any_le_iff.mp hstall with ⟨bound, hbound, hle⟩
      exact .stalled (.stalled hbound hle)
    · next hstall =>
      have hfailRoom := roomBefore_pos hfail hwanted
      have hstallRoom := roomBefore_pos hstall hwanted
      simp only
      split
      · next hcount =>
        -- There is room for a byte, so it is the size of the writes that leaves none.
        have hchunk : out.chunk.getD wanted = 0 := by omega
        cases hsize : out.chunk with
        | none =>
            rw [hsize, Option.getD_none] at hchunk
            exact absurd hchunk (Nat.ne_of_gt hwanted)
        | some size =>
            rw [hsize, Option.getD_some] at hchunk
            rw [hchunk] at hsize
            exact .failure (.narrow hsize)
      · next hcount => exact .bytes (Nat.pos_of_ne_zero hcount) (Nat.min_le_left _ _)

/-! # All writes -/

structure Reaches (out : Outgoing) (held wanted : Nat) (ended : Sent × Nat) : Prop where
  start_le : held ≤ ended.2
  le_end : ended.2 ≤ held + wanted
  all : ended.1 = .all -> ended.2 = held + wanted
  failure : forall error, ended.1 = .failure error -> out.Blocked ended.2 error
  stalled : ended.1 = .stalled -> out.Blocked ended.2 .timedOut

theorem Reaches.later {out : Outgoing} {held wanted count : Nat} {ended : Sent × Nat}
    (h : out.Reaches (held + count) (wanted - count) ended) (hle : count ≤ wanted) :
    out.Reaches held wanted ended := by
  have hend : held + count + (wanted - count) = held + wanted := by omega
  refine ⟨Nat.le_of_add_right_le h.start_le, ?_, ?_, h.failure, h.stalled⟩
  · rw [← hend]
    exact h.le_end
  · rw [← hend]
    exact h.all

theorem reaches_sendWithin (out : Outgoing) {fuel wanted : Nat} (held : Nat)
    (hfuel : wanted ≤ fuel) : out.Reaches held wanted (out.sendWithin fuel held wanted) := by
  induction fuel generalizing held wanted with
  | zero =>
      rw [Nat.le_zero.mp hfuel]
      exact ⟨Nat.le_refl _, Nat.le_refl _, fun _ => rfl, nofun, nofun⟩
  | succ fuel ih =>
      cases wanted with
      | zero => exact ⟨Nat.le_refl _, Nat.le_refl _, fun _ => rfl, nofun, nofun⟩
      | succ wanted =>
          have haccept := accepts_accept out held (Nat.succ_pos wanted)
          rw [sendWithin]
          · generalize out.accept held (wanted + 1) = accepted at *
            cases haccept with
            | bytes hpos hle =>
                exact (ih _ (by omega)).later hle
            | failure hblocked =>
                exact ⟨Nat.le_refl _, Nat.le_add_right _ _, nofun,
                  fun error herror => by cases herror; exact hblocked, nofun⟩
            | stalled hblocked =>
                exact ⟨Nat.le_refl _, Nat.le_add_right _ _, nofun, nofun, fun _ => hblocked⟩
          · exact Nat.succ_ne_zero wanted

end Outgoing
end HttpEngine
