import HttpEngine.Machine.Calendar
import HttpEngine.Proofs.AccessLog.Calendar

/-!
# The date of a machine

No word overflows on the way from a number of seconds to its date, and nothing is cut off: the date
is the one that is reached without words.  This is the date that one comes to by counting, so that
later times have later dates.
-/

namespace HttpEngine
namespace Machine

theorem signed_eq_ok {n : Int} (hlow : -0x8000000000000000 ≤ n) (hhigh : n < 0x8000000000000000) :
    signed n = .ok n :=
  if_pos ⟨hlow, hhigh⟩

theorem signed_natCast {n : Nat} (h : n < 0x8000000000000000) : signed n = .ok (n : Int) :=
  signed_eq_ok (by omega) (by omega)

theorem short_natCast {n : Nat} (h : n < 0x100000000) : short n = .ok n :=
  if_pos ⟨Int.natCast_nonneg n, by omega⟩

theorem signed_sub {a b : Nat} (hle : b ≤ a) (h : a < 0x8000000000000000) :
    signed ((a : Int) - b) = .ok ((a - b : Nat) : Int) := by
  rw [← Int.natCast_sub hle]
  exact signed_natCast (Nat.lt_of_le_of_lt (Nat.sub_le a b) h)

theorem signed_add {a b : Nat} (h : a + b < 0x8000000000000000) :
    signed ((a : Int) + b) = .ok ((a + b : Nat) : Int) :=
  signed_natCast h

theorem signed_mul {a b : Nat} (h : a * b < 0x8000000000000000) :
    signed ((a : Int) * b) = .ok ((a * b : Nat) : Int) := by
  rw [← Int.natCast_mul]
  exact signed_natCast h

/-! # The parts of a date -/

theorem yearOfEra_natCast {day : Nat} (h : day < UtcTime.daysPerEra) :
    yearOfEra day = .ok (UtcTime.yearOfEra day : Int) := by
  unfold UtcTime.daysPerEra at h
  have hshorter : signed (day - (day : Int).tdiv 1460) = .ok ((day - day / 1460 : Nat) : Int) :=
    signed_sub (Nat.div_le_self day 1460) (by omega)
  have hlonger : signed ((day - day / 1460 : Nat) + (day : Int).tdiv 36524) =
      .ok ((day - day / 1460 + day / 36524 : Nat) : Int) :=
    signed_add (b := day / 36524) (by omega)
  have heven : signed ((day - day / 1460 + day / 36524 : Nat) - (day : Int).tdiv 146096) =
      .ok ((day - day / 1460 + day / 36524 - day / 146096 : Nat) : Int) :=
    signed_sub (b := day / 146096) (by omega) (by omega)
  rw [yearOfEra, hshorter, ok_bind, hlonger, ok_bind, heven]
  rfl

theorem dayOfYear_natCast {day year : Nat} (h : day < UtcTime.daysPerEra) (hyear : year < 400)
    (hstart : UtcTime.marchStart year ≤ day) :
    dayOfYear day year = .ok (UtcTime.dayOfYear day year : Int) := by
  unfold UtcTime.daysPerEra at h
  have hzero : year / 400 = 0 := Nat.div_eq_of_lt hyear
  unfold UtcTime.marchStart at hstart
  have hfull : signed (365 * (year : Int)) = .ok ((365 * year : Nat) : Int) :=
    signed_mul (a := 365) (by omega)
  have hwithLeap : signed ((365 * year : Nat) + (year : Int).tdiv 4) =
      .ok ((365 * year + year / 4 : Nat) : Int) :=
    signed_add (b := year / 4) (by omega)
  have hyears : signed ((365 * year + year / 4 : Nat) - (year : Int).tdiv 100) =
      .ok ((365 * year + year / 4 - year / 100 : Nat) : Int) :=
    signed_sub (b := year / 100) (by omega) (by omega)
  have hday : signed ((day : Int) - (365 * year + year / 4 - year / 100 : Nat)) =
      .ok ((day - (365 * year + year / 4 - year / 100) : Nat) : Int) :=
    signed_sub (by omega) (by omega)
  rw [dayOfYear, hfull, ok_bind, hwithLeap, ok_bind, hyears, ok_bind]
  exact hday

theorem monthFromMarch_natCast {day : Nat} (h : day < 366) :
    monthFromMarch day = .ok (UtcTime.monthFromMarch day : Int) := by
  have hscaled : signed (5 * (day : Int)) = .ok ((5 * day : Nat) : Int) :=
    signed_mul (a := 5) (by omega)
  have hshifted : signed ((5 * day : Nat) + 2) = .ok ((5 * day + 2 : Nat) : Int) :=
    signed_add (b := 2) (by omega)
  rw [monthFromMarch, hscaled, ok_bind, hshifted]
  rfl

theorem dayOfMonth_natCast {day month : Nat} (h : day < 366) (hmonth : month ≤ 11)
    (hstart : UtcTime.monthStart month ≤ day) :
    dayOfMonth day month = .ok (day - UtcTime.monthStart month + 1) := by
  unfold UtcTime.monthStart at hstart
  have hscaled : signed (153 * (month : Int)) = .ok ((153 * month : Nat) : Int) :=
    signed_mul (a := 153) (by omega)
  have hshifted : signed ((153 * month : Nat) + 2) = .ok ((153 * month + 2 : Nat) : Int) :=
    signed_add (b := 2) (by omega)
  have hbefore : signed ((day : Int) - ((153 * month + 2 : Nat) : Int).tdiv 5) =
      .ok ((day - (153 * month + 2) / 5 : Nat) : Int) :=
    signed_sub (b := (153 * month + 2) / 5) hstart (by omega)
  have hnumber : signed ((day - (153 * month + 2) / 5 : Nat) + 1) =
      .ok ((day - (153 * month + 2) / 5 + 1 : Nat) : Int) :=
    signed_add (b := 1) (by omega)
  rw [dayOfMonth, hscaled, ok_bind, hshifted, ok_bind, hbefore, ok_bind, hnumber, ok_bind]
  exact short_natCast (by omega)

theorem civilMonth_natCast {month : Nat} (h : month ≤ 11) :
    civilMonth month = .ok (UtcTime.civilMonth month) := by
  unfold civilMonth UtcTime.civilMonth
  by_cases hautumn : month < 10
  · have hsum : signed ((month : Int) + 3) = .ok ((month + 3 : Nat) : Int) :=
      signed_add (b := 3) (by omega)
    rw [if_pos (by omega), if_pos hautumn, hsum, ok_bind]
    exact short_natCast (by omega)
  · have hdifference : signed ((month : Int) - 9) = .ok ((month - 9 : Nat) : Int) :=
      signed_sub (b := 9) (by omega) (by omega)
    rw [if_neg (by omega), if_neg hautumn, hdifference, ok_bind]
    exact short_natCast (by omega)

/-! # The date -/

def Moment.ofTime (t : UtcTime) : Moment :=
  ⟨t.year, t.month, t.day, t.hour, t.minute, t.second⟩

theorem civilYear_natCast {year eras : Nat} (hyear : year < 400) (heras : eras < 1000000000000)
    (month : Nat) :
    civilYear year eras month =
      .ok ((year + eras * 400 + (if month ≤ 2 then 1 else 0) : Nat) : Int) := by
  have hyears : signed ((eras : Int) * 400) = .ok ((eras * 400 : Nat) : Int) :=
    signed_mul (b := 400) (by omega)
  have hearly : signed ((year : Int) + (eras * 400 : Nat)) =
      .ok ((year + eras * 400 : Nat) : Int) :=
    signed_add (by omega)
  rw [civilYear, hyears, ok_bind, hearly, ok_bind]
  by_cases hlate : month ≤ 2
  · rw [if_pos hlate, if_pos hlate]
    exact signed_add (b := 1) (by omega)
  · rw [if_neg hlate, if_neg hlate]
    exact signed_add (b := 0) (by omega)

theorem dayOfYear_lt (days : Nat) : UtcTime.dayOfYear (days % UtcTime.daysPerEra)
    (UtcTime.yearOfEra (days % UtcTime.daysPerEra)) < 366 := by
  rcases UtcTime.yearOfEra_spec (Nat.mod_lt days (by decide)) with ⟨hyear, hstart, hnext⟩
  have hlength := UtcTime.marchStart_succ (UtcTime.yearOfEra (days % UtcTime.daysPerEra))
  have hleap := UtcTime.leapDays_le (UtcTime.yearOfEra (days % UtcTime.daysPerEra) + 1)
  rw [UtcTime.dayOfYear_eq hyear]
  unfold UtcTime.yearLength at hlength
  omega

/-- The days of any number of seconds that a word holds are few enough for a word with a sign. -/
theorem ofUnix_eq_ok (seconds : UInt64) :
    ofUnix seconds = .ok (Moment.ofTime (UtcTime.ofUnix seconds.toNat)) := by
  have hseconds : seconds.toNat < 18446744073709551616 := seconds.toNat_lt
  have hdays : signed (seconds.toNat / 86400 : Nat) = .ok ((seconds.toNat / 86400 : Nat) : Int) :=
    signed_natCast (by omega)
  have htime : short (seconds.toNat % 86400 : Nat) = .ok (seconds.toNat % 86400) :=
    short_natCast (by omega)
  have hshifted : signed ((seconds.toNat / 86400 : Nat) + (UtcTime.daysBeforeEpoch : Nat)) =
      .ok ((seconds.toNat / 86400 + UtcTime.daysBeforeEpoch : Nat) : Int) := by
    unfold UtcTime.daysBeforeEpoch
    exact signed_add (by omega)
  have hera : (seconds.toNat / 86400 + UtcTime.daysBeforeEpoch) / UtcTime.daysPerEra <
      1000000000000 := by
    unfold UtcTime.daysBeforeEpoch UtcTime.daysPerEra
    omega
  have hwithin := dayOfYear_lt (seconds.toNat / 86400 + UtcTime.daysBeforeEpoch)
  rcases UtcTime.yearOfEra_spec (Nat.mod_lt (seconds.toNat / 86400 + UtcTime.daysBeforeEpoch)
    (show 0 < UtcTime.daysPerEra by decide)) with ⟨hyear, hstart, hnext⟩
  have hmonth := UtcTime.monthFromMarch_spec hwithin
  unfold ofUnix
  rw [hdays, ok_bind, htime, ok_bind, hshifted, ok_bind]
  simp only [← Int.natCast_ediv, ← Int.natCast_emod]
  rw [yearOfEra_natCast (Nat.mod_lt _ (by decide)), ok_bind,
    dayOfYear_natCast (Nat.mod_lt _ (by decide)) hyear hstart, ok_bind,
    monthFromMarch_natCast hwithin, ok_bind,
    dayOfMonth_natCast hwithin hmonth.left hmonth.right.left, ok_bind,
    civilMonth_natCast hmonth.left, ok_bind, civilYear_natCast hyear hera]
  rfl

/--
The date of any number of seconds that a word holds is one that the calendar has.  The days of all
years and months before it and the seconds of its day make up the number again, and they do so for
no other date.  Numbers that differ have different dates, and a larger one has a later date.  On
the way to a date no word of the machine overflows, and nothing is cut off.
-/
theorem ofUnix_counts (seconds : UInt64) :
    (UtcTime.ofUnix seconds.toNat).IsValid ∧
    (UtcTime.ofUnix seconds.toNat).secondsCounted = seconds.toNat ∧
    (forall t : UtcTime, t = UtcTime.ofUnix seconds.toNat ↔
      t.IsValid ∧ t.secondsCounted = seconds.toNat) ∧
    (forall other : UInt64,
      UtcTime.ofUnix other.toNat = UtcTime.ofUnix seconds.toNat ↔ other = seconds) ∧
    (forall later : UInt64,
      (UtcTime.ofUnix seconds.toNat).parts < (UtcTime.ofUnix later.toNat).parts ↔
        seconds < later) ∧
    ofUnix seconds = .ok (Moment.ofTime (UtcTime.ofUnix seconds.toNat)) := by
  have hvalid := UtcTime.isValid_ofUnix seconds.toNat
  have hcounted := UtcTime.secondsCounted_ofUnix seconds.toNat
  refine ⟨hvalid, hcounted, ?_, ?_, ?_, ofUnix_eq_ok seconds⟩
  · intro t
    constructor
    · intro h
      exact h ▸ ⟨hvalid, hcounted⟩
    · intro h
      rw [← UtcTime.ofUnix_secondsCounted h.left, h.right]
  · intro other
    constructor
    · intro h
      have hsame := congrArg UtcTime.secondsCounted h
      rw [UtcTime.secondsCounted_ofUnix, hcounted] at hsame
      exact UInt64.toNat_inj.mp hsame
    · intro h
      exact h ▸ rfl
  · intro later
    rw [UtcTime.parts_ofUnix_lt_iff, UInt64.lt_iff_toNat_lt]

example : UtcTime.ofUnix 951868799 = ⟨2000, 2, 29, 23, 59, 59⟩ := by decide

end Machine
end HttpEngine
