import HttpEngine.AccessLog.Time
import HttpEngine.Machine.Basic

/-!
# The calendar of a machine

The date of a number of seconds, with the days in words of 64 bits with a sign and the parts of the
date in words of 32 bits.
-/

namespace HttpEngine
namespace Machine

/-- A date and a time of the day, of which the year may lie before the year zero. -/
structure Moment where
  year : Int
  month : Nat
  day : Nat
  hour : Nat
  minute : Nat
  second : Nat
  deriving DecidableEq, Repr

def yearOfEra (day : Int) : Except Slip Int := do
  let shorter <- signed (day - day.tdiv 1460)
  let longer <- signed (shorter + day.tdiv 36524)
  let even <- signed (longer - day.tdiv 146096)
  return even.tdiv 365

def dayOfYear (day year : Int) : Except Slip Int := do
  let full <- signed (365 * year)
  let withLeap <- signed (full + year.tdiv 4)
  let start <- signed (withLeap - year.tdiv 100)
  signed (day - start)

def monthFromMarch (day : Int) : Except Slip Int := do
  let scaled <- signed (5 * day)
  let shifted <- signed (scaled + 2)
  return shifted.tdiv 153

def dayOfMonth (day month : Int) : Except Slip Nat := do
  let scaled <- signed (153 * month)
  let shifted <- signed (scaled + 2)
  let before <- signed (day - shifted.tdiv 5)
  let number <- signed (before + 1)
  short number

def civilMonth (month : Int) : Except Slip Nat :=
  if month < 10 then do short (<- signed (month + 3))
  else do short (<- signed (month - 9))

def civilYear (year era : Int) (month : Nat) : Except Slip Int := do
  let years <- signed (era * 400)
  let early <- signed (year + years)
  signed (early + if month ≤ 2 then 1 else 0)

def ofUnix (seconds : UInt64) : Except Slip Moment := do
  let days <- signed (seconds.toNat / 86400 : Nat)
  let time <- short (seconds.toNat % 86400 : Nat)
  let shifted <- signed (days + UtcTime.daysBeforeEpoch)
  let era := shifted / UtcTime.daysPerEra
  let dayOfEra := shifted % UtcTime.daysPerEra
  let year <- yearOfEra dayOfEra
  let day <- dayOfYear dayOfEra year
  let fromMarch <- monthFromMarch day
  let number <- dayOfMonth day fromMarch
  let month <- civilMonth fromMarch
  let civil <- civilYear year era month
  return ⟨civil, month, number, time / 3600, time % 3600 / 60, time % 60⟩

end Machine
end HttpEngine
