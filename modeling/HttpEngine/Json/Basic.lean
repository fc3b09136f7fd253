/-!
# JSON values

A value as it is held after reading: members of an object are sorted by name and every name stands
once, because a later member takes the place of an earlier one of the same name.  Whole numbers
that fit 64 bits are kept exactly; every other number is a double.
-/

namespace HttpEngine

/-- A number: a whole number from 0 on, a negative whole number, or a double. -/
inductive Number where
  | natural (n : Nat)
  | negative (n : Int)
  | double (value : Float)

inductive Json where
  | null
  | bool (value : Bool)
  | number (value : Number)
  | string (text : String)
  | array (items : List Json)
  | object (members : List (String × Json))

instance : Inhabited Json := ⟨.null⟩

/-! # Members -/

def keepLater (member : String × Json) : List (String × Json) -> List (String × Json)
  | [] => [member]
  | held :: rest => if member.1 = held.1 then held :: rest else member :: held :: rest

/-- The sorted members of a list in which a later member replaces an earlier one. -/
def sortMembers (members : List (String × Json)) : List (String × Json) :=
  (members.mergeSort fun a b => !(b.1 < a.1)).foldr keepLater []

namespace Json

def ofMembers (members : List (String × Json)) : Json :=
  .object (sortMembers members)

def ofNat (n : Nat) : Json :=
  .number (.natural n)

def ofText? : Option String -> Json
  | some text => .string text
  | none => .null

def member? (members : List (String × Json)) (name : String) : Option Json :=
  members.lookup name

def text? : Json -> Option String
  | .string text => some text
  | _ => none

/-- The whole number that a value is, if it lies in the range of 64-bit integers with a sign. -/
def integer? : Json -> Option Int
  | .number (.natural n) => if n < 0x8000000000000000 then some n else none
  | .number (.negative n) => some n
  | _ => none

def texts? : Json -> Option (List String)
  | .array items => items.mapM text?
  | _ => none

end Json

end HttpEngine
