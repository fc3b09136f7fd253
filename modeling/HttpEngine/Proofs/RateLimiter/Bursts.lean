import HttpEngine.Proofs.RateLimiter.Windows

/-!
# How many requests come through in a length of time

A limiter looks at windows that begin with a request, never at the time between two requests.  If
the time does not go back, and no other client comes to the slot of a client, a stretch of time as
long as a window meets at most two windows of this client; the first request of the earlier one lies
in front of the stretch.  So the client gets at most twice the limit less one through, and always
gets through when its window is over.  A slot that nobody has used stands under the empty name,
which is the name of no client.
-/

namespace HttpEngine
namespace RateLimiter

/-! # Calls that are allowed in windows -/

def admitted (limit length : Nat) (times : List Nat) : List Nat :=
  (windows length times).flatMap (List.take limit)

theorem admitted_cons (limit length start : Nat) (times : List Nat) :
    admitted limit length (start :: times) =
      (start :: times.takeWhile fun time => time - start < length).take limit ++
        admitted limit length (times.dropWhile fun time => time - start < length) := by
  rw [admitted, windows, List.flatMap_cons]
  rfl

theorem admitted_sublist (limit length : Nat) (times : List Nat) :
    (admitted limit length times).Sublist times := by
  induction times using windows.induct length with
  | case1 => simp [admitted, windows]
  | case2 start times ih =>
      have hwhole : start :: times = (start :: times.takeWhile fun time => time - start < length) ++
          times.dropWhile fun time => time - start < length := by
        rw [List.cons_append, List.takeWhile_append_dropWhile]
      rw [admitted_cons, hwhole]
      exact (List.take_sublist _ _).append ih

theorem exists_last_window (length : Nat) {times : List Nat} (h : times ≠ []) :
    exists past start inside, windows length times = past ++ [start :: inside] := by
  induction times using List.reverseRecOn with
  | nil => exact absurd rfl h
  | append_singleton times now ih =>
      by_cases hfirst : times = []
      · rw [hfirst]
        exact ⟨[], now, [], windows_singleton length now⟩
      · rcases ih hfirst with ⟨past, start, inside, hwindows⟩
        rw [windows_concat hwindows now]
        split
        · exact ⟨_, now, [], rfl⟩
        · exact ⟨past, start, inside ++ [now], rfl⟩

theorem take_concat (limit : Nat) (times : List Nat) (now : Nat) :
    (times ++ [now]).take limit =
      times.take limit ++ if times.length < limit then [now] else [] := by
  rw [List.take_append]
  congr 1
  split
  · next hroom => exact List.take_of_length_le (Nat.sub_pos_of_lt hroom)
  · next hfull => rw [Nat.sub_eq_zero_of_le (Nat.le_of_not_lt hfull), List.take_zero]

theorem admitted_concat (limit length : Nat) (times : List Nat) (now : Nat) :
    admitted limit length (times ++ [now]) =
      admitted limit length times ++
        if (fixedWindow limit length (times ++ [now])).getLast? = some true then [now] else [] := by
  by_cases hfirst : times = []
  · have hwindows : windows length (times ++ [now]) = [] ++ [now :: []] := by
      rw [hfirst]
      exact windows_singleton length now
    have hnone : admitted limit length times = [] := by
      rw [hfirst, admitted, windows, List.flatMap_nil]
    rw [getLast?_fixedWindow hwindows, hnone, admitted, hwindows]
    simpa using take_concat limit [] now
  · rcases exists_last_window length hfirst with ⟨past, start, inside, hwindows⟩
    have hnext := windows_concat hwindows now
    have hadmitted : admitted limit length times =
        past.flatMap (List.take limit) ++ (start :: inside).take limit := by
      rw [admitted, hwindows, List.flatMap_append, List.flatMap_singleton]
    by_cases hover : length ≤ now - start
    · rw [if_pos hover] at hnext
      rw [getLast?_fixedWindow hnext, hadmitted, admitted, hnext, List.flatMap_append,
        List.flatMap_append, List.flatMap_singleton, List.flatMap_singleton]
      congr 1
      simpa using take_concat limit [] now
    · rw [if_neg hover] at hnext
      rw [getLast?_fixedWindow hnext, hadmitted, admitted, hnext, List.flatMap_append,
        List.flatMap_singleton, List.append_assoc]
      congr 1
      simpa using take_concat limit (start :: inside) now

/-! # A stretch of time as long as a window -/

/-- How many of some times lie in a stretch of time, its end left out. -/
def countWithin (start length : Nat) (times : List Nat) : Nat :=
  times.countP fun time => start ≤ time ∧ time < start + length

theorem countWithin_append (start length : Nat) (times more : List Nat) :
    countWithin start length (times ++ more) =
      countWithin start length times + countWithin start length more :=
  List.countP_append

theorem countWithin_eq_zero_iff {start length : Nat} {times : List Nat} :
    countWithin start length times = 0 ↔
      forall time, time ∈ times -> time < start ∨ start + length ≤ time := by
  rw [countWithin, List.countP_eq_zero]
  apply forall_congr'
  intro time
  apply imp_congr_right
  intro _
  rw [decide_eq_true_eq]
  omega

theorem countWithin_take_le (start length limit : Nat) (times : List Nat) :
    countWithin start length (times.take limit) ≤ limit :=
  List.countP_le_length.trans (List.length_take_le limit times)

theorem le_of_mem_dropWhile {length start : Nat} {times : List Nat}
    (hsorted : (start :: times).Pairwise (· ≤ ·)) {time : Nat}
    (h : time ∈ times.dropWhile fun time => time - start < length) : start + length ≤ time := by
  rcases List.pairwise_cons.mp hsorted with ⟨hstart, htimes⟩
  have hsublist := List.dropWhile_sublist (fun time => decide (time - start < length)) (l := times)
  have hover := List.head?_dropWhile_not (fun time => decide (time - start < length)) times
  cases hrest : times.dropWhile fun time => time - start < length with
  | nil =>
      rw [hrest] at h
      cases h
  | cons next rest =>
      rw [hrest] at h hsublist hover
      have hnext : start ≤ next := hstart next (hsublist.subset List.mem_cons_self)
      have hbehind : start + length ≤ next := by
        simp at hover
        omega
      rcases List.mem_cons.mp h with hsame | hlate
      · rw [hsame]
        exact hbehind
      · have hle := (List.pairwise_cons.mp (htimes.sublist hsublist)).left time hlate
        omega

theorem countWithin_admitted_of_forall_le (limit length : Nat) {start : Nat} {times : List Nat}
    (hsorted : times.Pairwise (· ≤ ·)) (hstart : forall time, time ∈ times -> start ≤ time) :
    countWithin start length (admitted limit length times) ≤ limit := by
  cases times with
  | nil => simp [countWithin, admitted, windows]
  | cons first times =>
      have hlate : countWithin start length (admitted limit length
          (times.dropWhile fun time => time - first < length)) = 0 := by
        rw [countWithin_eq_zero_iff]
        intro time htime
        have hbehind := le_of_mem_dropWhile hsorted ((admitted_sublist _ _ _).subset htime)
        have hfirst := hstart first List.mem_cons_self
        omega
      rw [admitted_cons, countWithin_append, hlate]
      exact countWithin_take_le _ _ _ _

theorem countWithin_take_cons_le {start limit first : Nat} (hlimit : 1 ≤ limit)
    (hfirst : first < start) (length : Nat) (inside : List Nat) :
    countWithin start length ((first :: inside).take limit) ≤ limit - 1 := by
  rcases Nat.exists_eq_add_of_le' hlimit with ⟨left, hleft⟩
  have hbefore : countWithin start length [first] = 0 := by
    rw [countWithin_eq_zero_iff]
    intro time htime
    rw [List.mem_singleton.mp htime]
    exact Or.inl hfirst
  rw [hleft, List.take_succ_cons, ← List.singleton_append, countWithin_append, hbefore,
    Nat.zero_add]
  exact countWithin_take_le start length left inside

theorem countWithin_window_eq_zero {start length first : Nat} (limit : Nat) (hfirst : first < start)
    (hover : first + length ≤ start) (times : List Nat) :
    countWithin start length
      ((first :: times.takeWhile fun time => time - first < length).take limit) = 0 := by
  rw [countWithin_eq_zero_iff]
  intro time htime
  rcases List.mem_cons.mp (List.mem_of_mem_take htime) with hsame | hinside
  · exact Or.inl (hsame ▸ hfirst)
  · have hwithin := List.mem_takeWhile_imp hinside
    rw [decide_eq_true_eq] at hwithin
    omega

/-- A stretch as long as a window holds at most twice the limit less one calls that are allowed. -/
theorem countWithin_admitted_le {limit : Nat} (hlimit : 1 ≤ limit) (length : Nat)
    {times : List Nat} (hsorted : times.Pairwise (· ≤ ·)) (start : Nat) :
    countWithin start length (admitted limit length times) ≤ 2 * limit - 1 := by
  induction times using windows.induct length with
  | case1 => simp [countWithin, admitted, windows]
  | case2 first times ih =>
      rcases List.pairwise_cons.mp hsorted with ⟨hfirst, htimes⟩
      have hrest : (times.dropWhile fun time => time - first < length).Pairwise (· ≤ ·) :=
        htimes.sublist (List.dropWhile_sublist _)
      by_cases hbefore : first < start
      · rw [admitted_cons, countWithin_append]
        by_cases hlate : forall time,
            time ∈ (times.dropWhile fun time => time - first < length) -> start ≤ time
        · -- The stretch begins in this window, behind its first call.
          have hwindow := countWithin_take_cons_le hlimit hbefore length
            (times.takeWhile fun time => time - first < length)
          have hbehind := countWithin_admitted_of_forall_le limit length hrest hlate
          omega
        · -- The stretch begins behind this window.
          rw [not_forall₂] at hlate
          rcases hlate with ⟨late, hmem, hearly⟩
          have hover := le_of_mem_dropWhile hsorted hmem
          have hbehind : first + length ≤ start := by omega
          have hwindow := countWithin_window_eq_zero limit hbefore hbehind times
          rw [hwindow, Nat.zero_add]
          exact ih hrest
      · -- The stretch begins before all calls.
        have hall : forall time, time ∈ first :: times -> start ≤ time := by
          intro time htime
          rcases List.mem_cons.mp htime with hsame | hlater
          · exact hsame ▸ Nat.le_of_not_lt hbefore
          · exact (Nat.le_of_not_lt hbefore).trans (hfirst time hlater)
        have hcount := countWithin_admitted_of_forall_le limit length hsorted hall
        omega

/-! # A client that shares its slot with nobody -/

def allowedTimes (limiter : RateLimiter) (client : String) (calls : List Call) : List Nat :=
  ((calls.zip (limiter.answers calls)).filter fun answered =>
    answered.1.client == client && answered.2).map fun answered => answered.1.time

def timesOf (client : String) (calls : List Call) : List Nat :=
  (calls.filter fun call => call.client == client).map Call.time

def windowStart? (limiter : RateLimiter) (client : String) : Option Nat :=
  (limiter.slots[place client limiter.slots.size]?.filter fun slot => slot.client == client).map
    RateSlot.windowStart

/-- No other client comes to the slot of a client. -/
def Alone (size : Nat) (client : String) (calls : List Call) : Prop :=
  forall call, call ∈ calls -> shares size client call = true -> call.client = client

theorem length_answers (limiter : RateLimiter) (calls : List Call) :
    (limiter.answers calls).length = calls.length := by
  induction calls generalizing limiter with
  | nil => rfl
  | cons call rest ih => exact congrArg Nat.succ (ih _)

theorem answers_concat (limiter : RateLimiter) (calls : List Call) (call : Call) :
    limiter.answers (calls ++ [call]) =
      limiter.answers calls ++ [((limiter.after calls).check call.client call.time).1] := by
  induction calls generalizing limiter with
  | nil => rfl
  | cons first rest ih => exact congrArg (List.cons _) (ih _)

theorem allowedTimes_concat (limiter : RateLimiter) (client : String) (calls : List Call)
    (call : Call) :
    limiter.allowedTimes client (calls ++ [call]) =
      limiter.allowedTimes client calls ++
        if call.client = client ∧ ((limiter.after calls).check call.client call.time).1 = true then
          [call.time]
        else [] := by
  rw [allowedTimes, answers_concat, List.zip_append (length_answers limiter calls).symm,
    List.filter_append, List.map_append, allowedTimes]
  congr 1
  simp only [List.zip_cons_cons, List.zip_nil_left, List.filter_cons, List.filter_nil,
    Bool.and_eq_true, beq_iff_eq]
  split
  · rfl
  · rfl

theorem timesOf_concat (client : String) (calls : List Call) (call : Call) :
    timesOf client (calls ++ [call]) =
      timesOf client calls ++ if call.client = client then [call.time] else [] := by
  rw [timesOf, List.filter_append, List.map_append, timesOf]
  congr 1
  simp only [List.filter_cons, List.filter_nil, beq_iff_eq]
  split
  · rfl
  · rfl

theorem ownTimes_of_alone {size : Nat} {client : String} {calls : List Call}
    (h : Alone size client calls) : ownTimes size client calls = timesOf client calls := by
  have hall : sinceRival size client calls = calls := by
    rw [sinceRival, List.rtakeWhile_eq_self_iff]
    intro call hcall
    cases hshares : shares size client call with
    | true => simp [h call hcall hshares]
    | false => simp
  rw [ownTimes, hall, timesOf]

theorem Alone.of_append {size : Nat} {client : String} {calls more : List Call}
    (h : Alone size client (calls ++ more)) : Alone size client calls :=
  fun call hcall => h call (List.mem_append_left more hcall)

theorem timesOf_sorted {client : String} {calls : List Call}
    (h : calls.Pairwise fun a b => a.time ≤ b.time) : (timesOf client calls).Pairwise (· ≤ ·) :=
  List.pairwise_map.mpr (h.sublist List.filter_sublist)

theorem counts_after_of_alone {client : String} (hclient : client ≠ "")
    (limit length size made : Nat) {calls : List Call} (halone : Alone (max size 1) client calls) :
    Counts limit length (max size 1) client (timesOf client calls)
      ((withTable limit length size made).after calls) :=
  ownTimes_of_alone halone ▸ counts_after hclient limit length size made calls

theorem allowedTimes_eq {limit : Nat} (hlimit : limit < maxCount) {client : String}
    (hclient : client ≠ "") (length size made : Nat) {calls : List Call}
    (halone : Alone (max size 1) client calls) :
    (withTable limit length size made).allowedTimes client calls =
      admitted limit length (timesOf client calls) := by
  induction calls using List.reverseRecOn with
  | nil => simp [allowedTimes, timesOf, admitted, windows]
  | append_singleton calls call ih =>
      rw [allowedTimes_concat, ih halone.of_append, timesOf_concat]
      by_cases hown : call.client = client
      · have hanswer := (counts_after_of_alone hclient limit length size made
          halone.of_append).check_fst hlimit call.time
        rw [if_pos hown, admitted_concat, ← hanswer, hown]
        simp
      · rw [if_neg hown, List.append_nil, if_neg fun h => hown h.left, List.append_nil]

theorem Counts.windowStart?_eq {limit length size : Nat} {client : String} {times : List Nat}
    {limiter : RateLimiter} (h : Counts limit length size client times limiter) :
    limiter.windowStart? client = (windows length times).getLast?.bind List.head? := by
  rcases h.slot with ⟨slot, hslot, htracks⟩
  rw [windowStart?, h.tableSize, hslot]
  cases htracks with
  | absent hother => simp [windows, hother]
  | counting hwindows => simp [hwindows]

theorem Counts.check_fst_of_over {limit length size : Nat} {client : String} {times : List Nat}
    {limiter : RateLimiter} (h : Counts limit length size client times limiter)
    (hlimit : limit < maxCount) (hpos : 1 ≤ limit) {start now : Nat}
    (hstart : limiter.windowStart? client = some start) (hover : start + length ≤ now) :
    (limiter.check client now).1 = true := by
  rw [h.windowStart?_eq, Option.bind_eq_some_iff] at hstart
  rcases hstart with ⟨window, hlast, hhead⟩
  rcases List.getLast?_eq_some_iff.mp hlast with ⟨past, hwindows⟩
  rcases List.head?_eq_some_iff.mp hhead with ⟨inside, hwindow⟩
  rw [hwindow] at hwindows
  have hnext := windows_concat hwindows now
  rw [if_pos (show length ≤ now - start by omega)] at hnext
  have hanswer := h.check_fst hlimit now
  rw [getLast?_fixedWindow hnext, Option.some.injEq] at hanswer
  rw [hanswer, decide_eq_true_eq]
  exact hpos

/--
A client that shares its slot with nobody, while the time does not go back, gets at most twice the
limit less one calls through in a stretch of time as long as a window.  Its slot holds the first
call of its last window, and a call that comes a whole length after this one is allowed.
-/
theorem allowed_in_stretch {limit : Nat} (hpos : 1 ≤ limit) (hlimit : limit < maxCount)
    {client : String} (hclient : client ≠ "") (length size made : Nat) {calls : List Call}
    (hsorted : calls.Pairwise fun a b => a.time ≤ b.time)
    (halone : Alone (max size 1) client calls) :
    let limiter := withTable limit length size made
    (forall start,
      countWithin start length (limiter.allowedTimes client calls) ≤ 2 * limit - 1) ∧
    forall earlier now later, calls = earlier ++ ⟨client, now⟩ :: later ->
      (limiter.after earlier).windowStart? client =
          (windows length (timesOf client earlier)).getLast?.bind List.head? ∧
        forall start, (limiter.after earlier).windowStart? client = some start ->
          start + length ≤ now -> (limiter.answers calls)[earlier.length]? = some true := by
  intro limiter
  constructor
  · intro start
    rw [allowedTimes_eq hlimit hclient length size made halone]
    exact countWithin_admitted_le hpos length (timesOf_sorted hsorted) start
  · intro earlier now later hcalls
    rw [hcalls] at halone ⊢
    have hcounts := counts_after_of_alone hclient limit length size made halone.of_append
    refine ⟨hcounts.windowStart?_eq, ?_⟩
    intro start hstart hover
    rw [getElem?_answers, hcounts.check_fst_of_over hlimit hpos hstart hover]

/--
The bound is met: of the calls from 99 to 102, which are less than a window apart, all but two are
allowed.  The client of the other slot does not count.
-/
theorem allowed_in_stretch_met :
    let limiter := withTable 2 100 2 5
    let earlier : List Call :=
      [⟨"10.0.0.1", 0⟩, ⟨"10.0.0.2", 50⟩, ⟨"10.0.0.1", 99⟩, ⟨"10.0.0.1", 99⟩]
    let later : List Call := [⟨"10.0.0.1", 101⟩, ⟨"10.0.0.2", 101⟩, ⟨"10.0.0.1", 102⟩]
    let calls := earlier ++ ⟨"10.0.0.1", 100⟩ :: later
    (1 ≤ 2 ∧ 2 < maxCount ∧ "10.0.0.1" ≠ "" ∧ (calls.Pairwise fun a b => a.time ≤ b.time) ∧
      Alone 2 "10.0.0.1" calls) ∧
    limiter.allowedTimes "10.0.0.1" calls = [0, 99, 100, 101] ∧
    countWithin 99 100 (limiter.allowedTimes "10.0.0.1" calls) = 3 ∧
    countWithin 99 100 (limiter.allowedTimes "10.0.0.1" calls) ≤ 2 * 2 - 1 ∧
    (limiter.after earlier).windowStart? "10.0.0.1" = some 0 ∧
    (limiter.answers calls)[earlier.length]? = some true := by
  intro limiter earlier later calls
  have hpos : 1 ≤ 2 := by decide
  have hlimit : 2 < maxCount := by decide
  have hclient : "10.0.0.1" ≠ "" := by decide
  have hsorted : calls.Pairwise fun a b => a.time ≤ b.time := by decide +kernel
  have halone : Alone 2 "10.0.0.1" calls := by
    unfold Alone
    decide +kernel
  have hallowed : limiter.allowedTimes "10.0.0.1" calls = [0, 99, 100, 101] := by decide +kernel
  have hstart : (limiter.after earlier).windowStart? "10.0.0.1" = some 0 := by decide +kernel
  rcases allowed_in_stretch hpos hlimit hclient 100 2 5 hsorted halone with ⟨hstretch, hover⟩
  refine ⟨⟨hpos, hlimit, hclient, hsorted, halone⟩, hallowed, ?_, hstretch 99, hstart, ?_⟩
  · rw [hallowed]
    rfl
  · exact (hover earlier 100 later rfl).right 0 hstart (by decide)

end RateLimiter
end HttpEngine
