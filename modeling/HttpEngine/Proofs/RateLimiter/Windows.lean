import HttpEngine.RateLimiter
import Mathlib.Data.List.DropRight

/-!
# The windows of a client

Clients share the slots of a limiter, and a client that comes to a slot of another one takes it
over.  Since then the slot counts for this client alone: the answers are those of a counter that
knows no other client.  Such a counter sorts calls into windows of time and allows the first ones
of each window.
-/

namespace HttpEngine
namespace RateLimiter

/-! # One client alone -/

/--
The times of calls, sorted into windows.  A window begins with the first call that is in none, and
holds those after it up to the first one that comes a whole length after the beginning.
-/
def windows (length : Nat) : List Nat -> List (List Nat)
  | [] => []
  | start :: times =>
      (start :: times.takeWhile (fun time => time - start < length)) ::
        windows length (times.dropWhile (fun time => time - start < length))
termination_by times => times.length
decreasing_by exact Nat.lt_succ_of_le (List.dropWhile_sublist _).length_le

def allowance (limit : Nat) (window : List Nat) : List Bool :=
  List.replicate (min limit window.length) true ++ List.replicate (window.length - limit) false

/-- The answers of a counter for one client, which calls at the given times. -/
def fixedWindow (limit length : Nat) (times : List Nat) : List Bool :=
  (windows length times).flatMap (allowance limit)

theorem windows_singleton (length time : Nat) : windows length [time] = [[time]] := by
  simp [windows]

theorem windows_concat {length : Nat} {times : List Nat} {past : List (List Nat)} {start : Nat}
    {inside : List Nat} (h : windows length times = past ++ [start :: inside]) (time : Nat) :
    windows length (times ++ [time]) =
      if length ≤ time - start then past ++ [start :: inside] ++ [[time]]
      else past ++ [start :: (inside ++ [time])] := by
  induction times using windows.induct length generalizing past with
  | case1 => simp [windows] at h
  | case2 first times ih =>
      rw [windows] at h
      rw [List.cons_append, windows, List.takeWhile_append, List.dropWhile_append]
      cases hrest : times.dropWhile (fun time => time - first < length) with
      | nil =>
          -- The first window is the last one.
          have hall : times.takeWhile (fun time => time - first < length) = times :=
            List.takeWhile_eq_self_iff.mpr (List.dropWhile_eq_nil_iff.mp hrest)
          rw [hrest, hall, windows] at h
          have hlast : past = [] ∧ first = start ∧ times = inside := by
            cases past with
            | nil => simpa using h
            | cons window past => simp at h
          rcases hlast with ⟨hpast, hstart, hinside⟩
          rw [hall, hpast, ← hstart, ← hinside]
          by_cases hover : length ≤ time - first
          · simp [hover, Nat.not_lt.mpr hover, windows]
          · simp [hover, Nat.lt_of_not_le hover, windows]
      | cons next rest =>
          -- The first window is over, and the call comes into a later one.
          have hshort : (times.takeWhile (fun time => time - first < length)).length ≠
              times.length := by
            intro hlength
            have hall := (List.takeWhile_sublist _).eq_of_length hlength
            rw [List.dropWhile_eq_nil_iff.mpr (List.takeWhile_eq_self_iff.mp hall)] at hrest
            cases hrest
          rw [hrest] at h ih
          cases past with
          | nil => simp [windows] at h
          | cons window past =>
              rcases List.cons.inj h with ⟨hwindow, hlate⟩
              rw [if_neg hshort, hwindow]
              simp only [List.isEmpty_cons, Bool.false_eq_true, if_false, ih hlate]
              split <;> rfl

theorem getLast?_allowance (limit start : Nat) (inside : List Nat) :
    (allowance limit (start :: inside)).getLast? = some (decide (inside.length < limit)) := by
  unfold allowance
  rw [List.getLast?_append, List.getLast?_replicate, List.getLast?_replicate, List.length_cons]
  by_cases hlimit : inside.length < limit
  · have hnone : inside.length + 1 - limit = 0 := by omega
    have hsome : min limit (inside.length + 1) ≠ 0 := by omega
    rw [if_pos hnone, if_neg hsome, decide_eq_true hlimit]
    rfl
  · have hsome : inside.length + 1 - limit ≠ 0 := by omega
    rw [if_neg hsome, decide_eq_false hlimit]
    rfl

theorem getLast?_fixedWindow {limit length : Nat} {times : List Nat} {past : List (List Nat)}
    {start : Nat} {inside : List Nat} (h : windows length times = past ++ [start :: inside]) :
    (fixedWindow limit length times).getLast? = some (decide (inside.length < limit)) := by
  rw [fixedWindow, h, List.flatMap_append, List.flatMap_singleton, List.getLast?_append,
    getLast?_allowance]
  rfl

/-! # A slot -/

inductive Tracks (length : Nat) (client : String) : List Nat -> RateSlot -> Prop where
  | absent {slot : RateSlot} : slot.client ≠ client -> Tracks length client [] slot
  | counting {times : List Nat} {past : List (List Nat)} {start : Nat} {inside : List Nat} :
      windows length times = past ++ [start :: inside] ->
      Tracks length client times ⟨client, start, min (inside.length + 1) maxCount⟩

theorem Tracks.enter {length : Nat} {client : String} {times : List Nat} {slot : RateSlot}
    (h : Tracks length client times slot) (now : Nat) :
    exists past start inside, windows length (times ++ [now]) = past ++ [start :: inside] ∧
      RateSlot.count (RateSlot.enter slot length client now) =
        ⟨client, start, min (inside.length + 1) maxCount⟩ := by
  cases h with
  | absent hother =>
      refine ⟨[], now, [], windows_singleton length now, ?_⟩
      rw [RateSlot.enter, if_pos hother]
      rfl
  | @counting _ past start inside hwindows =>
      have hnext := windows_concat hwindows now
      by_cases hover : length ≤ now - start
      · rw [if_pos hover] at hnext
        refine ⟨_, now, [], hnext, ?_⟩
        rw [RateSlot.enter, if_neg (not_not_intro rfl), if_pos hover]
        rfl
      · rw [if_neg hover] at hnext
        refine ⟨past, start, inside ++ [now], hnext, ?_⟩
        rw [RateSlot.enter, if_neg (not_not_intro rfl), if_neg hover, RateSlot.count,
          List.length_append, List.length_singleton]
        congr 1
        simp only
        omega

/-! # Many clients -/

structure Call where
  client : String
  time : Nat
  deriving DecidableEq, Repr

def after (limiter : RateLimiter) : List Call -> RateLimiter
  | [] => limiter
  | call :: rest => after (limiter.check call.client call.time).2 rest

def answers (limiter : RateLimiter) : List Call -> List Bool
  | [] => []
  | call :: rest =>
      (limiter.check call.client call.time).1 ::
        answers (limiter.check call.client call.time).2 rest

def shares (size : Nat) (client : String) (call : Call) : Bool :=
  place call.client size == place client size

/-- The calls since the last one at which another client had the slot of a client. -/
def sinceRival (size : Nat) (client : String) (calls : List Call) : List Call :=
  calls.rtakeWhile fun call => call.client == client || !shares size client call

def ownTimes (size : Nat) (client : String) (calls : List Call) : List Nat :=
  ((sinceRival size client calls).filter fun call => call.client == client).map Call.time

theorem after_append (limiter : RateLimiter) (calls more : List Call) :
    limiter.after (calls ++ more) = (limiter.after calls).after more := by
  induction calls generalizing limiter with
  | nil => rfl
  | cons call rest ih => exact ih _

theorem getElem?_answers (limiter : RateLimiter) (earlier later : List Call) (call : Call) :
    (limiter.answers (earlier ++ call :: later))[earlier.length]? =
      some ((limiter.after earlier).check call.client call.time).1 := by
  induction earlier generalizing limiter with
  | nil => rfl
  | cons first rest ih => exact ih _

theorem ownTimes_concat (size : Nat) (client : String) (calls : List Call) (call : Call) :
    ownTimes size client (calls ++ [call]) =
      if call.client = client then ownTimes size client calls ++ [call.time]
      else if shares size client call then [] else ownTimes size client calls := by
  unfold ownTimes sinceRival
  rw [List.rtakeWhile_concat]
  by_cases hown : call.client = client
  · simp [hown]
  · cases hshares : shares size client call with
    | true => simp [hown]
    | false => simp [hown]

theorem ownTimes_filter (size : Nat) (client : String) (calls : List Call) :
    ownTimes size client (calls.filter (shares size client)) = ownTimes size client calls := by
  induction calls using List.reverseRecOn with
  | nil => rfl
  | append_singleton calls call ih =>
      rw [List.filter_append, ownTimes_concat]
      cases hshares : shares size client call with
      | true =>
          rw [List.filter_cons_of_pos hshares, List.filter_nil, ownTimes_concat, ih, hshares]
      | false =>
          have hother : call.client ≠ client := by
            intro hown
            simp [shares, hown] at hshares
          have hnone : ¬ shares size client call = true := by simp [hshares]
          rw [List.filter_cons_of_neg hnone, List.filter_nil, List.append_nil, ih, if_neg hother]
          rfl

/-! # What a limiter knows of a client -/

structure Counts (limit length size : Nat) (client : String) (times : List Nat)
    (limiter : RateLimiter) : Prop where
  maxRequests : limiter.maxRequests = limit
  window : limiter.window = length
  tableSize : limiter.slots.size = size
  slot : exists slot, limiter.slots[place client size]? = some slot ∧
    Tracks length client times slot

theorem place_lt {size : Nat} (hsize : 0 < size) (client : String) : place client size < size :=
  Nat.mod_lt _ hsize

theorem check_eq {limiter : RateLimiter} {client : String}
    (h : place client limiter.slots.size < limiter.slots.size) (now : Nat) :
    let slot := RateSlot.count (RateSlot.enter limiter.slots[place client limiter.slots.size]
      limiter.window client now)
    (limiter.check client now).1 = decide (slot.requests ≤ limiter.maxRequests) ∧
      (limiter.check client now).2.slots =
        limiter.slots.set (place client limiter.slots.size) slot :=
  ⟨rfl, rfl⟩

theorem getElem?_slots_check (limiter : RateLimiter) (client : String) (now index : Nat) :
    (limiter.check client now).2.slots[index]? =
      if index = place client limiter.slots.size then
        limiter.slots[index]?.map fun slot =>
          RateSlot.count (RateSlot.enter slot limiter.window client now)
      else limiter.slots[index]? := by
  have hlt := place_lt limiter.slots_pos client
  rw [(check_eq hlt now).right, Array.getElem?_set]
  by_cases hindex : index = place client limiter.slots.size
  · rw [if_pos hindex.symm, if_pos hindex, hindex, Array.getElem?_eq_getElem hlt]
    rfl
  · rw [if_neg hindex, if_neg (Ne.symm hindex)]

theorem check_fst_of_slot {limiter : RateLimiter} {client : String} {slot : RateSlot}
    (h : limiter.slots[place client limiter.slots.size]? = some slot) (now : Nat) :
    (limiter.check client now).1 = decide ((RateSlot.count
      (RateSlot.enter slot limiter.window client now)).requests ≤ limiter.maxRequests) := by
  have hlt := place_lt limiter.slots_pos client
  rw [Array.getElem?_eq_getElem hlt, Option.some.injEq] at h
  rw [(check_eq hlt now).left, h]

theorem client_enter (slot : RateSlot) (length : Nat) (client : String) (now : Nat) :
    (RateSlot.count (RateSlot.enter slot length client now)).client = client := by
  unfold RateSlot.enter RateSlot.count
  split
  · rfl
  · next hclient =>
    have hsame : slot.client = client := Decidable.not_not.mp hclient
    split
    · exact hsame
    · exact hsame

theorem counts_withTable {client : String} (hclient : client ≠ "")
    (limit length size made : Nat) :
    Counts limit length (max size 1) client [] (withTable limit length size made) := by
  have hlt : place client (max size 1) < max size 1 := place_lt (by omega) client
  refine ⟨rfl, rfl, Array.size_replicate, ⟨"", made, 0⟩, ?_, .absent hclient.symm⟩
  rw [withTable, Array.getElem?_replicate, if_pos hlt]

theorem Counts.check {limit length size : Nat} {client : String} {calls : List Call}
    {limiter : RateLimiter}
    (h : Counts limit length size client (ownTimes size client calls) limiter) (call : Call) :
    Counts limit length size client (ownTimes size client (calls ++ [call]))
      (limiter.check call.client call.time).2 := by
  rcases h.slot with ⟨slot, hslot, htracks⟩
  have hslots := getElem?_slots_check limiter call.client call.time (place client size)
  rw [h.tableSize, h.window, hslot, Option.map_some] at hslots
  have hsize : (limiter.check call.client call.time).2.slots.size = size := by
    rw [(check_eq (place_lt limiter.slots_pos call.client) call.time).right, Array.size_set,
      h.tableSize]
  refine ⟨h.maxRequests, h.window, hsize, ?_⟩
  rw [hslots, ownTimes_concat]
  -- The call is one of the client, one that takes its slot over, or one to another slot.
  by_cases hown : call.client = client
  · rcases htracks.enter call.time with ⟨past, start, inside, hwindows, hcount⟩
    rw [if_pos hown, hown, if_pos rfl]
    refine ⟨_, rfl, ?_⟩
    rw [hcount]
    exact .counting hwindows
  · rw [if_neg hown]
    by_cases hshares : place call.client size = place client size
    · have hrival : shares size client call = true := by simp [shares, hshares]
      rw [if_pos hshares.symm, if_pos hrival]
      refine ⟨_, rfl, .absent ?_⟩
      rw [client_enter]
      exact hown
    · have hrival : ¬ shares size client call = true := by simp [shares, hshares]
      rw [if_neg (Ne.symm hshares), if_neg hrival]
      exact ⟨slot, rfl, htracks⟩

theorem counts_after {client : String} (hclient : client ≠ "") (limit length size made : Nat)
    (calls : List Call) :
    Counts limit length (max size 1) client (ownTimes (max size 1) client calls)
      ((withTable limit length size made).after calls) := by
  induction calls using List.reverseRecOn with
  | nil => exact counts_withTable hclient limit length size made
  | append_singleton calls call ih =>
      rw [after_append]
      exact ih.check call

theorem Counts.check_fst {limit length size : Nat} {client : String} {times : List Nat}
    {limiter : RateLimiter} (h : Counts limit length size client times limiter)
    (hlimit : limit < maxCount) (now : Nat) :
    some (limiter.check client now).1 = (fixedWindow limit length (times ++ [now])).getLast? := by
  rcases h.slot with ⟨slot, hslot, htracks⟩
  rcases htracks.enter now with ⟨past, start, inside, hwindows, hcount⟩
  rw [← h.tableSize] at hslot
  rw [getLast?_fixedWindow hwindows, check_fst_of_slot hslot, h.window, hcount, h.maxRequests]
  congr 1
  rw [decide_eq_decide]
  simp only
  omega

/--
Each answer to a client is the one of a counter that sees only the calls of this client since
another one had its slot.  Calls that go to other slots change nothing.
-/
theorem answers_eq_fixedWindow {limit : Nat} (hlimit : limit < maxCount) {client : String}
    (hclient : client ≠ "") (length size made now : Nat) (earlier later : List Call) :
    let answer (earlier : List Call) :=
      ((withTable limit length size made).answers
        (earlier ++ ⟨client, now⟩ :: later))[earlier.length]?
    answer earlier =
        (fixedWindow limit length (ownTimes (max size 1) client earlier ++ [now])).getLast? ∧
      answer (earlier.filter (shares (max size 1) client)) = answer earlier := by
  have hanswer : forall earlier : List Call,
      ((withTable limit length size made).answers
          (earlier ++ ⟨client, now⟩ :: later))[earlier.length]? =
        (fixedWindow limit length (ownTimes (max size 1) client earlier ++ [now])).getLast? := by
    intro earlier
    rw [getElem?_answers]
    exact (counts_after hclient limit length size made earlier).check_fst hlimit now
  simp only
  rw [hanswer, hanswer, ownTimes_filter]
  exact ⟨rfl, rfl⟩

/--
Two slots: `10.0.0.3` takes the slot of `10.0.0.1` over, and `10.0.0.2` has the other one.  The last
call is the third one since then, in a window that a call out of order does not end.
-/
theorem answers_eq_fixedWindow_takeover :
    let earlier : List Call :=
      [⟨"10.0.0.1", 0⟩, ⟨"10.0.0.1", 10⟩, ⟨"10.0.0.3", 20⟩, ⟨"10.0.0.1", 30⟩, ⟨"10.0.0.2", 35⟩,
       ⟨"10.0.0.1", 25⟩]
    let answer (earlier : List Call) :=
      ((withTable 2 100 2 5).answers (earlier ++ [⟨"10.0.0.1", 129⟩]))[earlier.length]?
    (2 < maxCount ∧ "10.0.0.1" ≠ "") ∧
      ownTimes 2 "10.0.0.1" earlier = [30, 25] ∧
      windows 100 [30, 25, 129] = [[30, 25, 129]] ∧
      answer earlier = some false ∧
      answer (earlier.filter (shares 2 "10.0.0.1")) = some false := by
  intro earlier answer
  have hlimit : 2 < maxCount := by decide
  have hclient : "10.0.0.1" ≠ "" := by decide
  have htimes : ownTimes 2 "10.0.0.1" earlier = [30, 25] := by decide +kernel
  have hwindows : windows 100 [30, 25, 129] = [[30, 25, 129]] := by simp [windows]
  rcases answers_eq_fixedWindow hlimit hclient 100 2 5 129 earlier [] with ⟨hanswer, hfilter⟩
  have hrefused : (fixedWindow 2 100 (ownTimes (max 2 1) "10.0.0.1" earlier ++ [129])).getLast? =
      some false := by
    change (fixedWindow 2 100 (ownTimes 2 "10.0.0.1" earlier ++ [129])).getLast? = some false
    rw [htimes]
    change (fixedWindow 2 100 [30, 25, 129]).getLast? = some false
    rw [fixedWindow, hwindows]
    rfl
  exact ⟨⟨hlimit, hclient⟩, htimes, hwindows, hanswer.trans hrefused,
    hfilter.trans (hanswer.trans hrefused)⟩

end RateLimiter
end HttpEngine
