/-!
# The shortest decimal of a binary fraction

A double that is not zero is a whole number times a power of two, and stands for every real number
that is nearer to it than to its neighbours.  Of all decimals in that interval this module picks
one with the fewest digits, and of those the nearest.  For each number of digits the only
candidates are the two grid points around the value, so all comparisons are between whole numbers.

Numbers whose leading digit stands for 10^-5 up to 10^15 are written in full, with at least one
digit after the point; all others in scientific notation with a signed exponent.  Zero keeps its
sign.
-/

namespace HttpEngine
namespace Decimal

/-- A decimal: its digits as a number, and the power of ten of the last one. -/
structure Scaled where
  digits : Nat
  exponent : Int
  deriving DecidableEq, Repr

/-- The value `significand * 2 ^ exponent` of a double, without its sign. -/
structure Binary where
  significand : Nat
  exponent : Int
  deriving DecidableEq, Repr

namespace Binary

def minExponent : Int := -1074

/-- The bit that the 64-bit form leaves out: two to the power of 52. -/
def hiddenBit : Nat := 0x10000000000000

def ofBits (bits : UInt64) : Binary :=
  let fraction := bits.toNat % hiddenBit
  let field := bits.toNat / hiddenBit % 0x800
  if field = 0 then ⟨fraction, minExponent⟩
  else ⟨hiddenBit + fraction, minExponent + (field - 1 : Nat)⟩

/-- Whether the gap to the next smaller double is half of the gap to the next larger one. -/
def isNarrowBelow (b : Binary) : Bool :=
  b.significand == hiddenBit && minExponent < b.exponent

end Binary

/--
An interval of reals with a point in it, as whole numbers over one denominator.  The ends belong
to it if it is closed.
-/
structure Rounding where
  low : Nat
  value : Nat
  high : Nat
  scale : Nat
  isClosed : Bool

def Rounding.ofBinary (b : Binary) : Rounding :=
  let up := Nat.pow 2 (b.exponent - 2).toNat
  { low := (4 * b.significand - if b.isNarrowBelow then 1 else 2) * up
    value := 4 * b.significand * up
    high := (4 * b.significand + 2) * up
    scale := Nat.pow 2 (2 - b.exponent).toNat
    isClosed := b.significand % 2 == 0 }

namespace Rounding

/-- Whether `n * num / den` lies in the interval. -/
def contains (r : Rounding) (n num den : Nat) : Bool :=
  let x := n * num * r.scale
  if r.isClosed then r.low * den ≤ x && x ≤ r.high * den
  else r.low * den < x && x < r.high * den

def reaches (r : Rounding) (power : Int) : Bool :=
  Nat.pow 10 power.toNat * r.scale ≤ r.value * Nat.pow 10 (-power).toNat

def climb (r : Rounding) : Nat -> Int -> Int
  | 0, power => power
  | steps + 1, power => if r.reaches (power + 1) then r.climb steps (power + 1) else power

/-- A power of ten that the value reaches, at most four below the last one: ten is `2 ^ 3.32`. -/
def estimate (r : Rounding) : Int :=
  ((r.value.log2 : Int) - r.scale.log2 - 1) * 30103 / 100000 - 1

def magnitude (r : Rounding) : Int :=
  r.climb 4 r.estimate

/--
The grid point nearest to the value among the two around it, if one lies in the interval; the grid
has the step `10 ^ power`.  Of two equally near ones the even one is taken.
-/
def onGrid? (r : Rounding) (power : Int) : Option Nat :=
  let num := Nat.pow 10 power.toNat
  let den := Nat.pow 10 (-power).toNat
  let below := r.value * den / (num * r.scale)
  let rest := r.value * den - below * num * r.scale
  let preferBelow :=
    2 * rest < num * r.scale || (2 * rest == num * r.scale && below % 2 == 0)
  match r.contains below num den, r.contains (below + 1) num den with
  | true, true => some (if preferBelow then below else below + 1)
  | true, false => some below
  | false, true => some (below + 1)
  | false, false => none

end Rounding

def Scaled.trim : Nat -> Scaled -> Scaled
  | 0, s => s
  | fuel + 1, s =>
      if s.digits ≠ 0 ∧ s.digits % 10 = 0 then
        Scaled.trim fuel ⟨s.digits / 10, s.exponent + 1⟩
      else s

/-- The shortest decimal that is read as the given double, which is not zero. -/
def shortest (b : Binary) : Scaled :=
  let r := Rounding.ofBinary b
  let top := r.magnitude
  let found := (List.range 17).findSome? fun (k : Nat) =>
    let power := top - (k : Int)
    (r.onGrid? power).map fun n => (⟨n, power⟩ : Scaled)
  (found.getD ⟨0, 0⟩).trim 20

/-! # Notation -/

def zeros (n : Nat) : List Char :=
  List.replicate n '0'

def Scaled.text (s : Scaled) : List Char :=
  let ds := Nat.toDigits 10 s.digits
  let point : Int := s.exponent + ds.length
  if 0 ≤ s.exponent ∧ point ≤ 16 then
    ds ++ zeros s.exponent.toNat ++ ['.', '0']
  else if 0 < point ∧ point ≤ 16 then
    ds.take point.toNat ++ '.' :: ds.drop point.toNat
  else if -5 < point ∧ point ≤ 0 then
    '0' :: '.' :: (zeros (-point).toNat ++ ds)
  else
    let fraction := match ds.drop 1 with
      | [] => []
      | more => '.' :: more
    let power := point - 1
    ds.take 1 ++ fraction ++ ['e', if power < 0 then '-' else '+'] ++
      Nat.toDigits 10 power.natAbs

def floatText (value : Float) : String :=
  let bits := value.toBits
  let sign := if bits.toNat < 0x8000000000000000 then [] else ['-']
  let binary := Binary.ofBits bits
  let magnitude := if binary.significand = 0 then ['0', '.', '0'] else (shortest binary).text
  String.ofList (sign ++ magnitude)

end Decimal

end HttpEngine
