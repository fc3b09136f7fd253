import HttpEngine.Json.Basic

/-!
# Numbers in JSON

A number is a whole part without needless zeros, then perhaps a fraction and an exponent.  Whole
numbers that fit 64 bits stay whole, except for a negative zero.  For the others the digits are
collected in a 64-bit word as long as they fit; digits beyond that only count for the power of
ten.  The double is then the word, rounded, times or divided by a power of ten, rounded again, and
a number too large for a double is refused.
-/

namespace HttpEngine
namespace JsonNumber

def isDigit (c : Char) : Bool :=
  '0' ≤ c && c ≤ '9'

def digitValue (c : Char) : Nat :=
  c.toNat - 48

def wordMax : Nat := 0xffffffffffffffff

/-- Collects digits while they fit the word; gives the word, the number taken and the rest. -/
def collect (word taken : Nat) : List Char -> Nat × Nat × List Char
  | [] => (word, taken, [])
  | c :: rest =>
      if isDigit c && word * 10 + digitValue c ≤ wordMax then
        collect (word * 10 + digitValue c) (taken + 1) rest
      else (word, taken, c :: rest)

def skipDigits (text : List Char) : Nat × List Char :=
  let digits := text.takeWhile isDigit
  (digits.length, text.dropWhile isDigit)

def maxPower : Nat := 308

def powersOfTen : Array Float :=
  Array.ofFn fun n : Fin (maxPower + 1) => Float.ofScientific 1 false n

def powerOfTen (n : Nat) : Float :=
  if h : n < powersOfTen.size then powersOfTen[n] else Float.ofScientific 1 false n

def divideByPower (value : Float) (power : Nat) : Float :=
  if power ≤ maxPower then value / powerOfTen power
  else if value == 0 then value
  else divideByPower (value / powerOfTen maxPower) (power - maxPower)
termination_by power
decreasing_by simp [maxPower] at *; omega

def scale? (word : Nat) (power : Int) : Option Float :=
  let value := word.toUInt64.toFloat
  if 0 ≤ power then
    if power ≤ maxPower then
      let product := value * powerOfTen power.toNat
      if product.isInf then none else some product
    else if value == 0 then some value
    else none
  else some (divideByPower value power.natAbs)

def double? (isNegative : Bool) (word : Nat) (power : Int) : Option Number :=
  (scale? word power).map fun value => .double (if isNegative then -value else value)

def exponentMax : Nat := 0x7fffffff

/-- The value of some digits, or one more than the largest exponent if it is above that. -/
def exponentValue (digits : List Char) : Nat :=
  digits.foldl (fun n c => min (n * 10 + digitValue c) (exponentMax + 1)) 0

def exponentDigits? (isNegative isDown : Bool) (word : Nat) (power : Int) (text : List Char) :
    Option (Number × List Char) :=
  let (count, rest) := skipDigits text
  if count = 0 then none
  else
    let value := exponentValue (text.take count)
    if value ≤ exponentMax then
      (double? isNegative word (if isDown then power - value else power + value)).map (·, rest)
    else if word ≠ 0 ∧ ¬isDown then none
    else (double? isNegative 0 0).map (·, rest)

def exponent? (isNegative : Bool) (word : Nat) (power : Int) :
    List Char -> Option (Number × List Char)
  | '+' :: rest => exponentDigits? isNegative false word power rest
  | '-' :: rest => exponentDigits? isNegative true word power rest
  | rest => exponentDigits? isNegative false word power rest

def ending? (isNegative : Bool) (word : Nat) (power : Int) :
    List Char -> Option (Number × List Char)
  | 'e' :: rest => exponent? isNegative word power rest
  | 'E' :: rest => exponent? isNegative word power rest
  | rest => (double? isNegative word power).map (·, rest)

def fraction? (isNegative : Bool) (word : Nat) (power : Int) (text : List Char) :
    Option (Number × List Char) :=
  let (word', taken, rest) := collect word 0 text
  let (skipped, rest) := skipDigits rest
  if taken + skipped = 0 then none
  else ending? isNegative word' (power - taken) rest

/-- The number of a whole part, of which some digits may not have fitted the word. -/
def whole? (isNegative : Bool) (word skipped : Nat) : Option Number :=
  if skipped ≠ 0 then double? isNegative word skipped
  else if ¬isNegative then some (.natural word)
  else if word = 0 ∨ 0x8000000000000000 < word then double? isNegative word 0
  else some (.negative (-(word : Int)))

def afterWhole? (isNegative : Bool) (word skipped : Nat) :
    List Char -> Option (Number × List Char)
  | '.' :: rest => fraction? isNegative word skipped rest
  | 'e' :: rest => exponent? isNegative word skipped rest
  | 'E' :: rest => exponent? isNegative word skipped rest
  | rest => (whole? isNegative word skipped).map (·, rest)

def unsigned? (isNegative : Bool) (text : List Char) : Option (Number × List Char) :=
  match text with
  | '0' :: rest => if rest.head?.any isDigit then none else afterWhole? isNegative 0 0 rest
  | _ =>
      let (word, taken, rest) := collect 0 0 text
      if taken = 0 then none
      else
        let (skipped, rest) := skipDigits rest
        afterWhole? isNegative word skipped rest

def read? : List Char -> Option (Number × List Char)
  | '-' :: rest => unsigned? true rest
  | rest => unsigned? false rest

end JsonNumber
end HttpEngine
