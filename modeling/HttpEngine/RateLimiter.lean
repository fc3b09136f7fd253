import HttpEngine.Bytes
import HttpEngine.Pipeline

/-!
# Limiting the rate of requests

Clients share a table of slots, in which the hash of an address chooses a place.  A slot counts the
requests of the client that came there last; a client that finds another one there takes the slot
over.  A window begins with the first request and again with the first one after its length has
passed.  The count stops at the largest 32-bit number, so that it never comes round to zero.
-/

namespace HttpEngine

structure RateSlot where
  client : String
  windowStart : Nat
  requests : Nat
  deriving DecidableEq, Repr

/-- A limit on requests in a window of time, with a table that is never empty. -/
structure RateLimiter where
  maxRequests : Nat
  window : Nat
  slots : Array RateSlot
  slots_pos : 0 < slots.size

namespace RateLimiter

def standardTableSize : Nat := 1024

def maxCount : Nat := 0xffffffff

def withTable (maxRequests window size now : Nat) : RateLimiter where
  maxRequests
  window
  slots := Array.replicate (max size 1) ⟨"", now, 0⟩
  slots_pos := by rw [Array.size_replicate]; omega

def slotSize : Nat := 48

def allocate (maxRequests window size now : Nat) : Outcome RateLimiter :=
  (Buffer.allocate (max size 1 * slotSize)).map fun _ => withTable maxRequests window size now

def new (maxRequests window now : Nat) : RateLimiter :=
  withTable maxRequests window standardTableSize now

def standardLimit : Nat := 5

/-- The length of a window in milliseconds unless another one is chosen. -/
def standardWindow : Nat := 1000

def standard (now : Nat) : RateLimiter :=
  new standardLimit standardWindow now

def place (client : String) (size : Nat) : Nat :=
  (djb2 (Utf8.encode client)).toNat % size

def RateSlot.enter (slot : RateSlot) (window : Nat) (client : String) (now : Nat) : RateSlot :=
  if slot.client ≠ client then ⟨client, now, 0⟩
  else if window ≤ now - slot.windowStart then { slot with windowStart := now, requests := 0 }
  else slot

def RateSlot.count (slot : RateSlot) : RateSlot :=
  { slot with requests := min (slot.requests + 1) maxCount }

def check (limiter : RateLimiter) (client : String) (now : Nat) : Bool × RateLimiter :=
  let index := place client limiter.slots.size
  have inRange : index < limiter.slots.size := Nat.mod_lt _ limiter.slots_pos
  let slot := RateSlot.count
    (RateSlot.enter limiter.slots[index] limiter.window client now)
  (slot.requests ≤ limiter.maxRequests,
    { limiter with
      slots := limiter.slots.set index slot
      slots_pos := by simpa using limiter.slots_pos })

def refusal : Response :=
  .error .tooManyRequests "too many requests"

def middleware {σ : Type} (get : σ -> RateLimiter) (set : RateLimiter -> σ -> σ) :
    Middleware σ :=
  .step fun x =>
    let client := x.request.clientIp
    let (allowed, limiter) := (get x.world.app).check client x.world.uptime
    let world := { x.world with app := set limiter x.world.app }
    if allowed then (.done .proceed, { x with world })
    else
      (.done .abort,
        { x with
          slot := refusal
          world := world.report [.rateExceeded client x.request.path] })

end RateLimiter
end HttpEngine
