import HttpEngine.Decimal.Integer

/-!
# Calendar time

The date and the time of day in UTC for a number of seconds since the beginning of 1970, in the
Gregorian calendar.  Years are counted from March, so that a leap day is the last day of its year,
and grouped into eras of four hundred years, which all have the same length.
-/

namespace HttpEngine

structure UtcTime where
  year : Nat
  month : Nat
  day : Nat
  hour : Nat
  minute : Nat
  second : Nat
  deriving DecidableEq, Repr

namespace UtcTime

/-- Days from the first of March of the year zero to the first of January 1970. -/
def daysBeforeEpoch : Nat := 719468

def daysPerEra : Nat := 146097

/-- The year of an era that a day of the era lies in; both count from zero. -/
def yearOfEra (day : Nat) : Nat :=
  (day - day / 1460 + day / 36524 - day / 146096) / 365

def dayOfYear (dayOfEra yearOfEra : Nat) : Nat :=
  dayOfEra - (365 * yearOfEra + yearOfEra / 4 - yearOfEra / 100)

def monthFromMarch (dayOfYear : Nat) : Nat :=
  (5 * dayOfYear + 2) / 153

def ofUnix (seconds : Nat) : UtcTime :=
  let days := seconds / 86400 + daysBeforeEpoch
  let rest := seconds % 86400
  let era := days / daysPerEra
  let yoe := yearOfEra (days % daysPerEra)
  let doy := dayOfYear (days % daysPerEra) yoe
  let mp := monthFromMarch doy
  let month := if mp < 10 then mp + 3 else mp - 9
  { year := yoe + era * 400 + if month ≤ 2 then 1 else 0
    month
    day := doy - (153 * mp + 2) / 5 + 1
    hour := rest / 3600
    minute := rest % 3600 / 60
    second := rest % 60 }

/-- The date and the time of day for a time that may lie before 1970, which counts as zero. -/
def ofSystem (seconds : Int) : UtcTime :=
  ofUnix seconds.toNat

def text (t : UtcTime) : String :=
  Decimal.padded 2 t.day ++ "/" ++ Decimal.padded 2 t.month ++ "/" ++ Decimal.padded 4 t.year ++
  ":" ++ Decimal.padded 2 t.hour ++ ":" ++ Decimal.padded 2 t.minute ++ ":" ++
  Decimal.padded 2 t.second

def dayName (t : UtcTime) : String :=
  Decimal.padded 2 t.day ++ "." ++ Decimal.padded 2 t.month

end UtcTime
end HttpEngine
