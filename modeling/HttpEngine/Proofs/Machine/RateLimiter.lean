import HttpEngine.Machine.RateLimiter
import HttpEngine.Proofs.RateLimiter.Windows

/-!
# The rate limiter of a machine answers as the limiter does

A table is never empty, and a call keeps its size.
-/

namespace HttpEngine
namespace Machine
namespace Limiter

def ofLimiter (r : RateLimiter) : Limiter :=
  ⟨r.maxRequests, r.window, r.slots.toList⟩

theorem yields_withTable (maxRequests window size now : Nat) :
    Yields (max size 1 * RateLimiter.slotSize) (withTable maxRequests window size now) fun l =>
      l = ofLimiter (RateLimiter.withTable maxRequests window size now) := by
  apply (yields_allocate (Nat.le_refl _)).bind
  intro _ _
  refine .of_eq_ok rfl ?_
  rw [ofLimiter, RateLimiter.withTable, Array.toList_replicate]

theorem check_ofLimiter (r : RateLimiter) (client : String) (now : Nat) :
    (ofLimiter r).check client now =
      .ok ((r.check client now).1, ofLimiter (r.check client now).2) := by
  have hplace : RateLimiter.place client r.slots.size < r.slots.size :=
    RateLimiter.place_lt r.slots_pos client
  have hrem : rem (djb2 (Utf8.encode client)).toNat r.slots.toList.length =
      .ok (RateLimiter.place client r.slots.size) := by
    rw [Array.length_toList]
    exact rem_eq_ok r.slots_pos
  have hlist : RateLimiter.place client r.slots.size < r.slots.toList.length := by
    rwa [Array.length_toList]
  have hget : get r.slots.toList (RateLimiter.place client r.slots.size) =
      .ok r.slots[RateLimiter.place client r.slots.size] := by
    rw [get_eq_ok hlist, Array.getElem_toList]
  have hput : forall slot : RateSlot,
      overwrite r.slots.toList (RateLimiter.place client r.slots.size) [slot] =
        .ok (r.slots.set (RateLimiter.place client r.slots.size) slot).toList := by
    intro slot
    rw [overwrite_eq_ok hlist, Array.toList_set, List.set_eq_take_append_cons_drop, if_pos hlist,
      List.append_assoc]
    rfl
  simp only [check, ofLimiter, hrem, hget, hput, ok_bind]
  rfl

theorem answerAll_ofLimiter (r : RateLimiter) (calls : List RateLimiter.Call) :
    (ofLimiter r).answerAll (calls.map fun call => (call.client, call.time)) =
      .ok (r.answers calls) := by
  induction calls generalizing r with
  | nil => rfl
  | cons call rest ih =>
      simp only [List.map_cons, answerAll, check_ofLimiter, ok_bind, ih]
      rfl

theorem yields_answerAll (maxRequests window size now : Nat) (calls : List RateLimiter.Call) :
    Yields (max size 1 * RateLimiter.slotSize)
      (withTable maxRequests window size now >>= fun l =>
        l.answerAll (calls.map fun call => (call.client, call.time))) fun answers =>
        answers = (RateLimiter.withTable maxRequests window size now).answers calls := by
  apply (yields_withTable maxRequests window size now).bind
  intro l hl
  rw [hl]
  exact .of_eq_ok (answerAll_ofLimiter _ calls) rfl

end Limiter
end Machine
end HttpEngine
