import HttpEngine.Decimal.Shortest
import HttpEngine.Json.Basic

/-!
# Writing JSON

Values are written without space between tokens.  In strings only the quote, the backslash and
controls are escaped.
-/

namespace HttpEngine
namespace JsonText

def escapeChar (c : Char) : List Char :=
  if c = '"' then ['\\', '"']
  else if c = '\\' then ['\\', '\\']
  else if c = '\x08' then ['\\', 'b']
  else if c = '\x0c' then ['\\', 'f']
  else if c = '\n' then ['\\', 'n']
  else if c = '\r' then ['\\', 'r']
  else if c = '\t' then ['\\', 't']
  else if c.toNat < 0x20 then ['\\', 'u'] ++ (Nat.toDigits 16 c.toNat).leftpad 4 '0'
  else [c]

def string (text : String) : String :=
  "\"" ++ String.ofList (text.toList.flatMap escapeChar) ++ "\""

/-- A number; a double that is not finite has no text of its own. -/
def number : Number -> String
  | .natural n => toString n
  | .negative n => toString n
  | .double value => if value.isFinite then Decimal.floatText value else "null"

mutual

def append (out : String) : Json -> String
  | .null => out ++ "null"
  | .bool true => out ++ "true"
  | .bool false => out ++ "false"
  | .number n => out ++ number n
  | .string text => out ++ string text
  | .array items => appendItems (out.push '[') true items ++ "]"
  | .object members => (appendMembers (out.push '\x7b') true members).push '\x7d'

def appendItems (out : String) (isFirst : Bool) : List Json -> String
  | [] => out
  | item :: rest =>
      appendItems (append (if isFirst then out else out.push ',') item) false rest

def appendMembers (out : String) (isFirst : Bool) : List (String × Json) -> String
  | [] => out
  | (name, value) :: rest =>
      let out := (if isFirst then out else out.push ',') ++ string name
      appendMembers (append (out.push ':') value) false rest

end

end JsonText

def Json.render (value : Json) : String :=
  JsonText.append "" value

end HttpEngine
