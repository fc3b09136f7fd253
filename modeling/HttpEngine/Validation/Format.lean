import HttpEngine.Text.Cut

/-!
# Formats of texts

Mail addresses, phone numbers and web addresses, by simple rules on their characters.
-/

namespace HttpEngine

inductive TextFormat where
  | email
  | phone
  | url
  deriving DecidableEq, Repr

namespace TextFormat

def name : TextFormat -> String
  | .email => "email"
  | .phone => "phone"
  | .url => "url"

def ofName? (name : String) : Option TextFormat :=
  [TextFormat.email, .phone, .url].find? fun f => f.name == name

def hasBlank (text : List Char) : Bool :=
  text.any Text.isBlank

/--
A mail address has one at sign with something before it, no white space, and after the sign a
domain that has a dot, does not begin or end with one and has no two in a row.
-/
def isEmail (text : List Char) : Bool :=
  match cut? ['@'] text with
  | none => false
  | some (name, domain) =>
      !name.isEmpty && !domain.contains '@' && !hasBlank text &&
      (cut? ['.'] domain).any (fun cut => !cut.1.isEmpty) &&
      domain.getLast? != some '.' && !holds ['.', '.'] domain

def isDigit (c : Char) : Bool :=
  '0' ≤ c && c ≤ '9'

def isPhoneMark (c : Char) : Bool :=
  c == ' ' || c == '-' || c == '(' || c == ')'

def withoutPlus : List Char -> List Char
  | '+' :: rest => rest
  | text => text

/-- Counts the digits behind some already counted; a character of another kind ends the count. -/
def countDigits? (count : Int32) : List Char -> Option Int32
  | [] => some count
  | c :: rest =>
      if isDigit c then countDigits? (count + 1) rest
      else if isPhoneMark c then countDigits? count rest
      else none

/--
A phone number has seven to fifteen digits with spaces, dashes and parentheses between them, and
may have a plus sign in front.
-/
def isPhone (text : List Char) : Bool :=
  (countDigits? 0 (withoutPlus text)).any fun count => 7 ≤ count && count ≤ 15

def afterScheme? (text : List Char) : Option (List Char) :=
  ("http://".toList.isPrefixOf? text).or ("https://".toList.isPrefixOf? text)

def endsHost (c : Char) : Bool :=
  c == '/' || c == '?' || c == '#'

def isUrl (text : List Char) : Bool :=
  (afterScheme? text).any fun rest =>
    !(rest.takeWhile fun c => !endsHost c).isEmpty && !hasBlank text

def accepts (format : TextFormat) (text : String) : Bool :=
  match format with
  | .email => isEmail text.toList
  | .phone => isPhone text.toList
  | .url => isUrl text.toList

end TextFormat
end HttpEngine
