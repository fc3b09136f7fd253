import HttpEngine.Machine.Basic
import HttpEngine.RateLimiter

/-!
# The rate limiter of a machine

The place of a client in the table is the remainder of its hash by the size of the table.
-/

namespace HttpEngine
namespace Machine

structure Limiter where
  maxRequests : Nat
  window : Nat
  slots : List RateSlot
  deriving DecidableEq, Repr

namespace Limiter

def withTable (maxRequests window size now : Nat) : Except Slip Limiter := do
  let _ <- allocate (max size 1 * RateLimiter.slotSize)
  return { maxRequests, window, slots := List.replicate (max size 1) ⟨"", now, 0⟩ }

def check (l : Limiter) (client : String) (now : Nat) : Except Slip (Bool × Limiter) := do
  let place <- rem (djb2 (Utf8.encode client)).toNat l.slots.length
  let slot <- get l.slots place
  let slot := RateLimiter.RateSlot.count (RateLimiter.RateSlot.enter slot l.window client now)
  let slots <- overwrite l.slots place [slot]
  return (slot.requests ≤ l.maxRequests, { l with slots })

def answerAll (l : Limiter) : List (String × Nat) -> Except Slip (List Bool)
  | [] => return []
  | (client, now) :: rest => do
      let (allowed, l) <- l.check client now
      let later <- answerAll l rest
      return allowed :: later

end Limiter
end Machine
end HttpEngine
