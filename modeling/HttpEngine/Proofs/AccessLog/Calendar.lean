import HttpEngine.AccessLog.Time

/-!
# The calendar

A date is reached by counting: the days of all years from 1970 on, then those of the months of its
year.  The conversion of a number of seconds works with eras of four hundred years that begin in
March instead, and divides.  Both agree.
-/

namespace HttpEngine

/-! # Counting through a sequence of lengths -/

/-- The length of all places from a first one up to another, which is not counted. -/
def spanBefore (length : Nat -> Nat) (first place : Nat) : Nat :=
  (List.range' first (place - first)).foldl (fun passed next => passed + length next) 0

section

variable (length : Nat -> Nat) {first place : Nat}

theorem spanBefore_succ (h : first ≤ place) :
    spanBefore length first (place + 1) = spanBefore length first place + length place := by
  have hsub : place + 1 - first = (place - first) + 1 := Nat.succ_sub h
  have hplace : first + (place - first) = place := Nat.add_sub_cancel' h
  simp [spanBefore, hsub, List.range'_concat, hplace]

theorem spanBefore_add_le {later : Nat} (h : first ≤ place) (hlater : place < later) :
    spanBefore length first place + length place ≤ spanBefore length first later := by
  rcases Nat.exists_eq_add_of_lt hlater with ⟨distance, rfl⟩
  induction distance with
  | zero => exact Nat.le_of_eq (spanBefore_succ length h).symm
  | succ distance ih =>
      have hfirst : first ≤ place + distance + 1 := by omega
      have hnext := spanBefore_succ length hfirst
      have hbefore := ih (by omega)
      rw [← Nat.add_assoc, hnext]
      exact Nat.le_add_right_of_le hbefore

end

namespace UtcTime

/-! # Years and months -/

/-- Every fourth year is a leap year, but of the full centuries only every fourth one. -/
def IsLeapYear (year : Nat) : Prop :=
  4 ∣ year ∧ (100 ∣ year -> 400 ∣ year)

instance (year : Nat) : Decidable (IsLeapYear year) :=
  inferInstanceAs (Decidable (_ ∧ _))

def leapDays (year : Nat) : Nat :=
  if IsLeapYear year then 1 else 0

def yearLength (year : Nat) : Nat :=
  365 + leapDays year

def monthLength (year : Nat) : Nat -> Nat
  | 2 => 28 + leapDays year
  | 4 | 6 | 9 | 11 => 30
  | _ => 31

def daysBeforeYear (year : Nat) : Nat :=
  spanBefore yearLength 1970 year

def daysBeforeMonth (year month : Nat) : Nat :=
  spanBefore (monthLength year) 1 month

theorem leapDays_le (year : Nat) : leapDays year ≤ 1 := by
  unfold leapDays
  split <;> decide

theorem daysBeforeMonth_succ (year : Nat) {month : Nat} (h : 1 ≤ month) :
    daysBeforeMonth year (month + 1) = daysBeforeMonth year month + monthLength year month :=
  spanBefore_succ (monthLength year) h

theorem daysBeforeMonth_march (year : Nat) : daysBeforeMonth year 3 = 59 + leapDays year := by
  show 31 + (28 + leapDays year + 0) = _
  omega

/-! # Months from March -/

def monthStart (month : Nat) : Nat :=
  (153 * month + 2) / 5

def civilMonth (month : Nat) : Nat :=
  if month < 10 then month + 3 else month - 9

theorem monthFromMarch_spec {day : Nat} (h : day < 366) :
    monthFromMarch day ≤ 11 ∧ monthStart (monthFromMarch day) ≤ day ∧
      day < monthStart (monthFromMarch day + 1) := by
  unfold monthFromMarch monthStart
  omega

/-- The rule for the beginnings of months gives the months from March to December their lengths. -/
theorem monthStart_succ (year : Nat) {month : Nat} (h : month < 10) :
    monthStart (month + 1) = monthStart month + monthLength year (month + 3) := by
  have hmonth : month = 0 ∨ month = 1 ∨ month = 2 ∨ month = 3 ∨ month = 4 ∨ month = 5 ∨
      month = 6 ∨ month = 7 ∨ month = 8 ∨ month = 9 := by
    omega
  rcases hmonth with rfl | rfl | rfl | rfl | rfl | rfl | rfl | rfl | rfl | rfl <;> rfl

theorem daysBeforeMonth_from_march (year : Nat) {month : Nat} (h : month < 10) :
    daysBeforeMonth year (month + 3) = 59 + leapDays year + monthStart month := by
  induction month with
  | zero => exact daysBeforeMonth_march year
  | succ month ih =>
      have hbefore : month < 10 := Nat.lt_of_succ_lt h
      rw [Nat.succ_add_eq_add_succ, ← Nat.add_assoc month 3 1,
        daysBeforeMonth_succ year (Nat.le_add_left 1 (month + 2)), ih hbefore,
        monthStart_succ year hbefore, Nat.add_assoc]

theorem daysBeforeMonth_end (year : Nat) : daysBeforeMonth year 13 = yearLength year := by
  have hlast : daysBeforeMonth year 12 = 59 + leapDays year + 275 :=
    daysBeforeMonth_from_march year (show 9 < 10 by decide)
  have hend : daysBeforeMonth year 13 = daysBeforeMonth year 12 + 31 :=
    daysBeforeMonth_succ year (show 1 ≤ 12 by decide)
  unfold yearLength
  omega

/-! # Dates -/

/-- A date that the calendar has, from 1970 on, and a time that a day has. -/
structure IsValid (t : UtcTime) : Prop where
  year : 1970 ≤ t.year
  month : 1 ≤ t.month ∧ t.month ≤ 12
  day : 1 ≤ t.day ∧ t.day ≤ monthLength t.year t.month
  hour : t.hour < 24
  minute : t.minute < 60
  second : t.second < 60

def dayNumber (t : UtcTime) : Nat :=
  daysBeforeYear t.year + daysBeforeMonth t.year t.month + (t.day - 1)

/-- The seconds from the beginning of 1970 on, counted day by day. -/
def secondsCounted (t : UtcTime) : Nat :=
  t.dayNumber * 86400 + (t.hour * 3600 + t.minute * 60 + t.second)

/-- What makes up a time, the largest first, so that times are ordered as lists are. -/
def parts (t : UtcTime) : List Nat :=
  [t.year, t.month, t.day, t.hour, t.minute, t.second]

theorem parts_inj {t u : UtcTime} (h : t.parts = u.parts) : t = u := by
  cases t
  cases u
  simpa [parts] using h

theorem IsValid.day_lt {t : UtcTime} (h : t.IsValid) :
    daysBeforeMonth t.year t.month + (t.day - 1) < yearLength t.year := by
  have hmonth := spanBefore_add_le (monthLength t.year) h.month.left
    (Nat.lt_succ_of_le h.month.right)
  have hend : spanBefore (monthLength t.year) 1 (Nat.succ 12) = yearLength t.year :=
    daysBeforeMonth_end t.year
  have hday := h.day
  unfold daysBeforeMonth
  omega

theorem IsValid.time_lt {t : UtcTime} (h : t.IsValid) :
    t.hour * 3600 + t.minute * 60 + t.second < 86400 := by
  have hhour := h.hour
  have hminute := h.minute
  have hsecond := h.second
  omega

theorem dayNumber_lt {t u : UtcTime} (ht : t.IsValid)
    (h : [t.year, t.month, t.day] < [u.year, u.month, u.day]) : t.dayNumber < u.dayNumber := by
  have hday := ht.day
  unfold dayNumber
  simp only [List.cons_lt_cons_iff, List.not_lt_nil, and_false, or_false] at h
  rcases h with hyear | ⟨hyear, hmonth | ⟨hmonth, hlater⟩⟩
  · have hspan := spanBefore_add_le yearLength ht.year hyear
    have hlt := ht.day_lt
    unfold daysBeforeYear
    omega
  · rw [← hyear]
    have hspan := spanBefore_add_le (monthLength t.year) ht.month.left hmonth
    unfold daysBeforeMonth
    omega
  · rw [← hyear, ← hmonth]
    omega

theorem parts_lt_iff {t u : UtcTime} :
    t.parts < u.parts ↔ [t.year, t.month, t.day] < [u.year, u.month, u.day] ∨
      ([t.year, t.month, t.day] = [u.year, u.month, u.day] ∧
        [t.hour, t.minute, t.second] < [u.hour, u.minute, u.second]) := by
  simp only [parts, List.cons_lt_cons_iff, List.not_lt_nil, and_false, or_false, List.cons.injEq,
    and_true]
  simp only [and_or_left, or_assoc, and_assoc]

theorem secondsCounted_lt {t u : UtcTime} (ht : t.IsValid)
    (h : t.parts < u.parts) : t.secondsCounted < u.secondsCounted := by
  have htime := ht.time_lt
  unfold secondsCounted
  rcases parts_lt_iff.mp h with hdate | ⟨hdate, hhour⟩
  · have hnumber := Nat.mul_le_mul_right 86400 (Nat.succ_le_of_lt (dayNumber_lt ht hdate))
    rw [Nat.succ_mul] at hnumber
    exact Nat.lt_add_right _ (Nat.lt_of_lt_of_le (Nat.add_lt_add_left htime _) hnumber)
  · simp only [List.cons.injEq, and_true] at hdate
    have hsame : t.dayNumber = u.dayNumber := by
      unfold dayNumber
      rw [hdate.left, hdate.right.left, hdate.right.right]
    rw [hsame, Nat.add_lt_add_iff_left]
    have hminute := ht.minute
    have hsecond := ht.second
    simp only [List.cons_lt_cons_iff, List.not_lt_nil, and_false, or_false] at hhour
    omega

/-! # Years from March -/

def marchStart (year : Nat) : Nat :=
  365 * year + year / 4 - year / 100 + year / 400

theorem marchStart_succ (year : Nat) :
    marchStart (year + 1) = marchStart year + yearLength (year + 1) := by
  have hdivisors : (400 ∣ year + 1 -> 100 ∣ year + 1) ∧ (100 ∣ year + 1 -> 4 ∣ year + 1) := by
    omega
  have hle : year / 100 ≤ year / 4 := by omega
  unfold marchStart yearLength leapDays IsLeapYear
  rw [Nat.succ_div, Nat.succ_div, Nat.succ_div]
  by_cases hfour : 4 ∣ year + 1
  · by_cases hcentury : 100 ∣ year + 1
    · by_cases hfull : 400 ∣ year + 1
      · simp only [hfour, hcentury, hfull, if_true, and_true, implies_true]
        omega
      · simp only [hfour, hcentury, hfull, if_true, if_false, true_implies, and_false]
        omega
    · have hfull := mt hdivisors.left hcentury
      simp only [hfour, hcentury, hfull, if_true, if_false, false_implies, and_true]
      omega
  · have hcentury := mt hdivisors.right hfour
    simp only [hfour, hcentury, mt hdivisors.left hcentury, if_false, false_and]
    omega

/-- A year begins ten months after the March before it. -/
theorem daysBeforeYear_succ {year : Nat} (h : 1969 ≤ year) :
    daysBeforeYear (year + 1) + daysBeforeEpoch = marchStart year + 306 := by
  rcases Nat.exists_eq_add_of_le h with ⟨distance, rfl⟩
  induction distance with
  | zero => decide
  | succ distance ih =>
      have hspan := spanBefore_succ yearLength (show 1970 ≤ 1969 + distance + 1 by omega)
      have hmarch := marchStart_succ (1969 + distance)
      have hbefore := ih (by omega)
      unfold daysBeforeYear at hbefore ⊢
      rw [← Nat.add_assoc, hspan]
      omega

theorem marchStart_era (year era : Nat) :
    marchStart (year + era * 400) = marchStart year + era * daysPerEra := by
  unfold marchStart daysPerEra
  omega

/-! # Days of an era -/

/-- A day of an era, by the full centuries, cycles of four years and years that lie before it. -/
structure InCycles (day centuries cycles years rest : Nat) : Prop where
  sum : day = 36524 * centuries + 1461 * cycles + 365 * years + rest
  centuries_le : centuries ≤ 3
  cycles_le : cycles ≤ 24
  years_le : years ≤ 3
  rest_le : rest ≤ 365
  /-- A leap day ends a cycle, though not the last one of a century but the fourth. -/
  leap : rest = 365 -> years = 3 ∧ (cycles = 24 -> centuries = 3)

theorem exists_inCycles {day : Nat} (h : day < daysPerEra) :
    exists centuries cycles years rest, InCycles day centuries cycles years rest := by
  unfold daysPerEra at h
  have hcentury : exists centuries left, day = 36524 * centuries + left ∧ centuries ≤ 3 ∧
      left ≤ 36524 ∧ (left = 36524 -> centuries = 3) :=
    ⟨min 3 (day / 36524), day - 36524 * min 3 (day / 36524), by omega, by omega, by omega,
      by omega⟩
  rcases hcentury with ⟨centuries, left, hday, hcenturies, hleft, hlast⟩
  have hyear : exists years rest, left % 1461 = 365 * years + rest ∧ years ≤ 3 ∧ rest ≤ 365 ∧
      (rest = 365 -> years = 3) :=
    ⟨min 3 (left % 1461 / 365), left % 1461 - 365 * min 3 (left % 1461 / 365), by omega, by omega,
      by omega, by omega⟩
  rcases hyear with ⟨years, rest, hrest, hyears, hle, hleap⟩
  exists centuries, left / 1461, years, rest
  constructor
  · omega
  · exact hcenturies
  · omega
  · exact hyears
  · exact hle
  · intro hend
    constructor
    · exact hleap hend
    · intro hcycle
      apply hlast
      omega

variable {day centuries cycles years rest : Nat}

theorem InCycles.yearOfEra (h : InCycles day centuries cycles years rest) :
    yearOfEra day = 100 * centuries + 4 * cycles + years := by
  rcases h with ⟨hsum, hcenturies, hcycles, hyears, hrest, hleap⟩
  have hcentury : day / 36524 - day / 146096 = centuries := by omega
  -- A cycle has a day more than 1460, a century 24 more: together they may fill up another 1460.
  have hextra : exists extra, day / 1460 = 25 * centuries + cycles + extra ∧ extra ≤ rest ∧
      rest < 365 + extra :=
    ⟨(24 * centuries + cycles + 365 * years + rest) / 1460, by omega, by omega, by omega⟩
  rcases hextra with ⟨extra, hquarter, hle, hlt⟩
  have hdays : day - day / 1460 + day / 36524 - day / 146096 =
      365 * (100 * centuries + 4 * cycles + years) + (rest - extra) := by
    omega
  unfold UtcTime.yearOfEra
  rw [hdays]
  omega

theorem InCycles.marchStart (h : InCycles day centuries cycles years rest) :
    marchStart (100 * centuries + 4 * cycles + years) + rest = day := by
  rcases h with ⟨hsum, hcenturies, hcycles, hyears, hrest, hleap⟩
  have hfour : (100 * centuries + 4 * cycles + years) / 4 = 25 * centuries + cycles := by omega
  have hcentury : (100 * centuries + 4 * cycles + years) / 100 = centuries := by omega
  have hera : (100 * centuries + 4 * cycles + years) / 400 = 0 := by omega
  unfold UtcTime.marchStart
  rw [hfour, hcentury, hera]
  omega

theorem InCycles.rest_lt (h : InCycles day centuries cycles years rest) :
    rest < yearLength (100 * centuries + 4 * cycles + years + 1) := by
  rcases h with ⟨hsum, hcenturies, hcycles, hyears, hrest, hleap⟩
  unfold yearLength leapDays
  by_cases hyear : IsLeapYear (100 * centuries + 4 * cycles + years + 1)
  · rw [if_pos hyear]
    omega
  · rw [if_neg hyear]
    unfold IsLeapYear at hyear
    omega

theorem yearOfEra_spec (h : day < daysPerEra) :
    yearOfEra day < 400 ∧ marchStart (yearOfEra day) ≤ day ∧
      day < marchStart (yearOfEra day + 1) := by
  rcases exists_inCycles h with ⟨centuries, cycles, years, rest, hday⟩
  have hyear := hday.yearOfEra
  have hstart := hday.marchStart
  have hrest := hday.rest_lt
  have hnext := marchStart_succ (100 * centuries + 4 * cycles + years)
  have hcenturies := hday.centuries_le
  have hcycles := hday.cycles_le
  have hyears := hday.years_le
  rw [hyear]
  omega

theorem dayOfYear_eq (h : yearOfEra day < 400) :
    dayOfYear day (yearOfEra day) = day - marchStart (yearOfEra day) := by
  unfold dayOfYear marchStart
  omega

/-! # A date from its year from March -/

def ofMarch (year day time : Nat) : UtcTime :=
  let month := civilMonth (monthFromMarch day)
  { year := year + if month ≤ 2 then 1 else 0
    month
    day := day - monthStart (monthFromMarch day) + 1
    hour := time / 3600
    minute := time % 3600 / 60
    second := time % 60 }

section

variable (year time : Nat) (h : day < yearLength (year + 1))

include h

theorem day_lt_of_yearLength : day < 366 := by
  have hleap := leapDays_le (year + 1)
  unfold yearLength at h
  omega

theorem ofMarch_cases :
    (exists month, month < 10 ∧ monthStart month ≤ day ∧ day < monthStart (month + 1) ∧
      ofMarch year day time = ⟨year, month + 3, day - monthStart month + 1, time / 3600,
        time % 3600 / 60, time % 60⟩) ∨
    (306 ≤ day ∧ day < 337 ∧ ofMarch year day time = ⟨year + 1, 1, day - 306 + 1, time / 3600,
        time % 3600 / 60, time % 60⟩) ∨
    (337 ≤ day ∧ ofMarch year day time = ⟨year + 1, 2, day - 337 + 1, time / 3600,
        time % 3600 / 60, time % 60⟩) := by
  have hmonth := monthFromMarch_spec (day_lt_of_yearLength year h)
  rcases hmonth with ⟨hle, hstart, hnext⟩
  by_cases hautumn : monthFromMarch day < 10
  · apply Or.inl
    exists monthFromMarch day
    have hcivil : ¬monthFromMarch day + 3 ≤ 2 := by omega
    simp [ofMarch, civilMonth, hautumn, hstart, hnext, hcivil]
  · have hwinter : monthFromMarch day = 10 ∨ monthFromMarch day = 11 := by omega
    rcases hwinter with hjanuary | hfebruary
    · rw [hjanuary] at hstart hnext
      apply Or.inr
      apply Or.inl
      simp only [ofMarch, hjanuary]
      exact ⟨hstart, hnext, rfl⟩
    · rw [hfebruary] at hstart
      apply Or.inr
      apply Or.inr
      simp only [ofMarch, hfebruary]
      exact ⟨hstart, rfl⟩

theorem isValid_ofMarch (htime : time < 86400) (hsince : 1970 ≤ (ofMarch year day time).year) :
    (ofMarch year day time).IsValid := by
  have hhour : time / 3600 < 24 := by omega
  have hminute : time % 3600 / 60 < 60 := by omega
  have hsecond : time % 60 < 60 := Nat.mod_lt time (by decide)
  rcases ofMarch_cases year time h with ⟨month, hmonth, hstart, hnext, hdate⟩ |
    ⟨hstart, hnext, hdate⟩ | ⟨hstart, hdate⟩
  · rw [hdate] at hsince ⊢
    have hlength := monthStart_succ year hmonth
    exact ⟨hsince, by simp only; omega, by simp only; omega, hhour, hminute, hsecond⟩
  · rw [hdate] at hsince ⊢
    have hlength : monthLength (year + 1) 1 = 31 := rfl
    exact ⟨hsince, by simp, by simp only; omega, hhour, hminute, hsecond⟩
  · rw [hdate] at hsince ⊢
    have hlength : monthLength (year + 1) 2 = 28 + leapDays (year + 1) := rfl
    unfold yearLength at h
    exact ⟨hsince, by simp, by simp only; omega, hhour, hminute, hsecond⟩

theorem dayNumber_ofMarch (hsince : 1970 ≤ (ofMarch year day time).year) :
    (ofMarch year day time).dayNumber + daysBeforeEpoch = marchStart year + day := by
  unfold dayNumber
  rcases ofMarch_cases year time h with ⟨month, hmonth, hstart, hnext, hdate⟩ |
    ⟨hstart, hnext, hdate⟩ | ⟨hstart, hdate⟩
  · rw [hdate] at hsince ⊢
    simp only at hsince ⊢
    rcases Nat.exists_eq_add_of_le' (Nat.le_trans (by decide : 1 ≤ 1970) hsince) with ⟨before, rfl⟩
    have hyear := daysBeforeYear_succ (Nat.le_of_succ_le_succ hsince)
    have hmarch := marchStart_succ before
    have hmonths := daysBeforeMonth_from_march (before + 1) hmonth
    unfold yearLength at hmarch
    omega
  · rw [hdate] at hsince ⊢
    simp only at hsince ⊢
    have hyear := daysBeforeYear_succ (Nat.le_of_succ_le_succ hsince)
    have hmonths : daysBeforeMonth (year + 1) 1 = 0 := rfl
    omega
  · rw [hdate] at hsince ⊢
    simp only at hsince ⊢
    have hyear := daysBeforeYear_succ (Nat.le_of_succ_le_succ hsince)
    have hmonths : daysBeforeMonth (year + 1) 2 = 31 := rfl
    omega

theorem since_ofMarch (hdays : daysBeforeEpoch ≤ marchStart year + day) :
    1970 ≤ (ofMarch year day time).year := by
  have hlt := day_lt_of_yearLength year h
  have hyear : 1969 ≤ year := by
    unfold marchStart daysBeforeEpoch at hdays
    omega
  rcases ofMarch_cases year time h with ⟨month, hmonth, hstart, hnext, hdate⟩ |
    ⟨hstart, hnext, hdate⟩ | ⟨hstart, hdate⟩
  · rw [hdate]
    show 1970 ≤ year
    rcases Nat.eq_or_lt_of_le hyear with hlast | hlater
    · rw [← hlast] at hdays
      have hepoch : marchStart 1969 + 306 = daysBeforeEpoch := by decide
      unfold monthStart at hnext
      omega
    · exact hlater
  · rw [hdate]
    exact Nat.succ_le_succ hyear
  · rw [hdate]
    exact Nat.succ_le_succ hyear

end

/-! # The date of a number of seconds -/

theorem exists_ofMarch (seconds : Nat) :
    exists year day, ofUnix seconds = ofMarch year day (seconds % 86400) ∧
      day < yearLength (year + 1) ∧
      marchStart year + day = seconds / 86400 + daysBeforeEpoch := by
  have hera : (seconds / 86400 + daysBeforeEpoch) % daysPerEra < daysPerEra :=
    Nat.mod_lt _ (by decide)
  have hdays := Nat.div_add_mod' (seconds / 86400 + daysBeforeEpoch) daysPerEra
  rcases yearOfEra_spec hera with ⟨hyear, hstart, hnext⟩
  refine ⟨_, _, rfl, ?_, ?_⟩
  · rw [dayOfYear_eq hyear]
    have hthis := marchStart_era (yearOfEra ((seconds / 86400 + daysBeforeEpoch) % daysPerEra))
      ((seconds / 86400 + daysBeforeEpoch) / daysPerEra)
    have hafter := marchStart_era (yearOfEra ((seconds / 86400 + daysBeforeEpoch) % daysPerEra) + 1)
      ((seconds / 86400 + daysBeforeEpoch) / daysPerEra)
    have hsucc := marchStart_succ (yearOfEra ((seconds / 86400 + daysBeforeEpoch) % daysPerEra) +
      (seconds / 86400 + daysBeforeEpoch) / daysPerEra * 400)
    rw [Nat.add_right_comm] at hafter
    omega
  · rw [marchStart_era, dayOfYear_eq hyear]
    omega

theorem isValid_ofUnix (seconds : Nat) : (ofUnix seconds).IsValid := by
  rcases exists_ofMarch seconds with ⟨year, day, hdate, hday, hdays⟩
  rw [hdate]
  exact isValid_ofMarch year _ hday (Nat.mod_lt seconds (by decide))
    (since_ofMarch year _ hday (hdays ▸ Nat.le_add_left _ _))

theorem secondsCounted_ofUnix (seconds : Nat) : (ofUnix seconds).secondsCounted = seconds := by
  rcases exists_ofMarch seconds with ⟨year, day, hdate, hday, hdays⟩
  have hnumber := dayNumber_ofMarch year (seconds % 86400) hday
    (since_ofMarch year _ hday (hdays ▸ Nat.le_add_left _ _))
  have htime : (ofMarch year day (seconds % 86400)).hour * 3600 +
      (ofMarch year day (seconds % 86400)).minute * 60 +
      (ofMarch year day (seconds % 86400)).second = seconds % 86400 := by
    show seconds % 86400 / 3600 * 3600 + seconds % 86400 % 3600 / 60 * 60 + seconds % 86400 % 60 = _
    omega
  unfold secondsCounted
  rw [hdate, htime, Nat.add_right_cancel (hnumber.trans hdays)]
  exact Nat.div_add_mod' seconds 86400

theorem parts_trichotomy (t u : UtcTime) : t.parts < u.parts ∨ t = u ∨ u.parts < t.parts := by
  by_cases hlt : t.parts < u.parts
  · exact Or.inl hlt
  · by_cases hgt : u.parts < t.parts
    · exact Or.inr (Or.inr hgt)
    · have hsame := List.le_antisymm (List.not_lt.mp hgt) (List.not_lt.mp hlt)
      exact Or.inr (Or.inl (parts_inj hsame))

theorem ofUnix_secondsCounted {t : UtcTime} (h : t.IsValid) : ofUnix t.secondsCounted = t := by
  have hvalid := isValid_ofUnix t.secondsCounted
  have hseconds := secondsCounted_ofUnix t.secondsCounted
  rcases parts_trichotomy (ofUnix t.secondsCounted) t with hlt | heq | hgt
  · have hless := secondsCounted_lt hvalid hlt
    rw [hseconds] at hless
    exact absurd hless (Nat.lt_irrefl _)
  · exact heq
  · have hless := secondsCounted_lt h hgt
    rw [hseconds] at hless
    exact absurd hless (Nat.lt_irrefl _)

theorem parts_ofUnix_lt_iff {seconds later : Nat} :
    (ofUnix seconds).parts < (ofUnix later).parts ↔ seconds < later := by
  have hmono : forall {s t : Nat}, (ofUnix s).parts < (ofUnix t).parts -> s < t := by
    intro s t h
    have hless := secondsCounted_lt (isValid_ofUnix s) h
    rw [secondsCounted_ofUnix, secondsCounted_ofUnix] at hless
    exact hless
  constructor
  · exact hmono
  · intro h
    rcases parts_trichotomy (ofUnix seconds) (ofUnix later) with hlt | heq | hgt
    · exact hlt
    · have hsame := congrArg secondsCounted heq
      rw [secondsCounted_ofUnix, secondsCounted_ofUnix] at hsame
      exact absurd hsame (Nat.ne_of_lt h)
    · exact absurd (hmono hgt) (Nat.lt_asymm h)

end UtcTime
end HttpEngine
