import HttpEngine.Json.Number
import HttpEngine.Bytes

/-!
# Reading JSON

One value with white space around it.  Arrays and objects nest at most 127 deep.  Inside a string
controls have to be escaped, and an escaped surrogate has to be the first of a pair.  Reading
counts down a number that no text of the given length can use up.
-/

namespace HttpEngine
namespace JsonText

def isSpace (c : Char) : Bool :=
  c == ' ' || c == '\t' || c == '\n' || c == '\r'

def skipSpace (text : List Char) : List Char :=
  text.dropWhile isSpace

/-! # Strings -/

def hexValue? (c : Char) : Option Nat :=
  if '0' ≤ c ∧ c ≤ '9' then some (c.toNat - 48)
  else if 'a' ≤ c ∧ c ≤ 'f' then some (c.toNat - 87)
  else if 'A' ≤ c ∧ c ≤ 'F' then some (c.toNat - 55)
  else none

def hex4? (a b c d : Char) : Option Nat := do
  let x <- hexValue? a
  let y <- hexValue? b
  let z <- hexValue? c
  let w <- hexValue? d
  return ((x * 16 + y) * 16 + z) * 16 + w

def shortEscape? : Char -> Option Char
  | '"' => some '"'
  | '\\' => some '\\'
  | '/' => some '/'
  | 'b' => some '\x08'
  | 'f' => some '\x0c'
  | 'n' => some '\n'
  | 'r' => some '\r'
  | 't' => some '\t'
  | _ => none

def escape? : List Char -> Option (Char × List Char)
  | 'u' :: a :: b :: c :: d :: rest => do
      let unit <- hex4? a b c d
      if 0xDC00 ≤ unit ∧ unit ≤ 0xDFFF then none
      else if 0xD800 ≤ unit ∧ unit ≤ 0xDBFF then
        match rest with
        | '\\' :: 'u' :: a :: b :: c :: d :: rest => do
            let low <- hex4? a b c d
            if 0xDC00 ≤ low ∧ low ≤ 0xDFFF then
              some (Char.ofNat (0x10000 + (unit - 0xD800) * 0x400 + (low - 0xDC00)), rest)
            else none
        | _ => none
      else some (Char.ofNat unit, rest)
  | c :: rest => (shortEscape? c).map (·, rest)
  | [] => none

/-- Reads a string behind its opening quote; the characters read so far stand latest first. -/
def string? : Nat -> List Char -> List Char -> Option (String × List Char)
  | 0, _, _ => none
  | fuel + 1, read, text =>
      match text with
      | '"' :: rest => some (String.ofList read.reverse, rest)
      | '\\' :: rest =>
          match escape? rest with
          | some (c, rest) => string? fuel (c :: read) rest
          | none => none
      | c :: rest => if c.toNat < 0x20 then none else string? fuel (c :: read) rest
      | [] => none

/-! # Values -/

section Lists

variable {α : Type} (read? : List Char -> Option (α × List Char)) (close : Char)

/--
Reads elements with commas between them up to a mark, from one element on; those read so far stand
latest first.
-/
def listed? : Nat -> List α -> List Char -> Option (List α × List Char)
  | 0, _, _ => none
  | fuel + 1, held, text =>
      match read? (skipSpace text) with
      | none => none
      | some (x, rest) =>
          match skipSpace rest with
          | [] => none
          | c :: rest =>
              if c = ',' then listed? fuel (x :: held) rest
              else if c = close then some ((x :: held).reverse, rest)
              else none

def elements? (fuel : Nat) (text : List Char) : Option (List α × List Char) :=
  match skipSpace text with
  | [] => none
  | c :: rest => if c = close then some ([], rest) else listed? read? close fuel [] text

end Lists

def member? (read? : List Char -> Option (Json × List Char)) (fuel : Nat) :
    List Char -> Option ((String × Json) × List Char)
  | '"' :: rest =>
      match string? fuel [] rest with
      | none => none
      | some (name, rest) =>
          match skipSpace rest with
          | ':' :: rest =>
              (read? (skipSpace rest)).map fun (value, rest) => ((name, value), rest)
          | _ => none
  | _ => none

/-- Reads a value, with the given number of levels below it. -/
def value? : Nat -> Nat -> List Char -> Option (Json × List Char)
  | 0, _, _ => none
  | fuel + 1, depth, text =>
      match text with
      | 'n' :: 'u' :: 'l' :: 'l' :: rest => some (.null, rest)
      | 't' :: 'r' :: 'u' :: 'e' :: rest => some (.bool true, rest)
      | 'f' :: 'a' :: 'l' :: 's' :: 'e' :: rest => some (.bool false, rest)
      | '"' :: rest => (string? fuel [] rest).map fun (s, rest) => (.string s, rest)
      | '[' :: rest =>
          match depth with
          | 0 => none
          | depth + 1 =>
              (elements? (value? fuel depth) ']' fuel rest).map
                fun (items, rest) => (.array items, rest)
      | '{' :: rest =>
          match depth with
          | 0 => none
          | depth + 1 =>
              (elements? (member? (value? fuel depth) fuel) '}' fuel rest).map
                fun (members, rest) => (.ofMembers members, rest)
      | rest => (JsonNumber.read? rest).map fun (n, rest) => (.number n, rest)

def maxDepth : Nat := 127

def ofChars? (text : List Char) : Option Json :=
  match value? (2 * text.length + 2) maxDepth (skipSpace text) with
  | some (value, rest) => if (skipSpace rest).isEmpty then some value else none
  | none => none

end JsonText

def Json.parse? (bytes : Bytes) : Option Json :=
  (Utf8.decodeChars? bytes).bind JsonText.ofChars?

end HttpEngine
