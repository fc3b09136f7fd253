import HttpEngine.Bytes

/-!
# Whole numbers as text

Numbers are written in decimal without leading zeros, a minus sign only before a negative one, and
hashes in eight hexadecimal digits.  A size is read from one or more decimal digits and has to fit
a 64-bit word; leading zeros are allowed.
-/

namespace HttpEngine
namespace Decimal

/-- One more than the largest size a word holds. -/
def sizeLimit : Nat := 0x10000000000000000

def digits (n : Nat) : List Char :=
  Nat.toDigits 10 n

def natural (n : Nat) : Bytes :=
  Utf8.encodeChars (digits n)

def integer : Int -> Bytes
  | .ofNat n => natural n
  | .negSucc n => 45 :: natural (n + 1)

def padded (width n : Nat) : String :=
  String.ofList ((digits n).leftpad width '0')

def hex8 (n : UInt32) : String :=
  String.ofList ((Nat.toDigits 16 n.toNat).leftpad 8 '0')

def isDigit (byte : UInt8) : Bool :=
  48 ≤ byte && byte ≤ 57

def appendDigit? (n : Nat) (byte : UInt8) : Option Nat :=
  if isDigit byte then
    let m := n * 10 + (byte.toNat - 48)
    if m < sizeLimit then some m else none
  else none

def size? : Bytes -> Option Nat
  | [] => none
  | bytes => bytes.foldlM appendDigit? 0

end Decimal
end HttpEngine
