import HttpEngine.Pairs
import HttpEngine.Bytes

/-!
# Templates of paths

A template is literal text with placeholders between braces; the name of a placeholder is all text
up to the next closing brace.  A placeholder stands for everything up to the next slash, or to the
end of the path.  A template and a path are walked over together, byte by byte.  Pairs are collected
on the way, and a walk that fails in the end has collected some of them all the same.
-/

namespace HttpEngine
namespace Template

/-! # Marks -/

def openingBrace : UInt8 := 123

def closingBrace : UInt8 := 125

def slash : UInt8 := 47

/-! # Matching a path -/

def segment (path : Bytes) : Bytes :=
  path.takeWhile (· != slash)

def afterSegment (path : Bytes) : Bytes :=
  path.dropWhile (· != slash)

abbrev Capture := Bytes × Bytes

def Capture.pair (capture : Capture) : Pair :=
  (Utf8.decodeLossy capture.1, Utf8.decodeLossy capture.2)

/--
Walks over a template and a path, and adds a pair for each placeholder to those that are held, as
long as there are fewer of them than the limit.  Inside a placeholder, the name read so far stands
latest first; a placeholder that is not closed matches nothing.  Says whether the path matches.  A
walk that fails leaves the pairs that it has added.
-/
def collect (limit : Nat) : Option Bytes -> Bytes -> Bytes -> Array Pair -> Bool × Array Pair
  | none, [], path, held => (path.isEmpty, held)
  | some _, [], _, held => (false, held)
  | none, b :: rest, path, held =>
      if b = openingBrace then collect limit (some []) rest path held
      else
        match path with
        | [] => (false, held)
        | p :: path => if b = p then collect limit none rest path held else (false, held)
  | some name, b :: rest, path, held =>
      if b = closingBrace then
        if held.size < limit then
          collect limit none rest (afterSegment path)
            (held.push (Capture.pair (name.reverse, segment path)))
        else (false, held)
      else collect limit (some (b :: name)) rest path held

def matchInto (maxParams : Nat) (template path : String) (held : Array Pair) :
    Bool × Array Pair :=
  collect maxParams none (Utf8.encode template) (Utf8.encode path) held

def match? (maxParams : Nat) (template path : String) : Option (List Pair) :=
  let collected := matchInto maxParams template path #[]
  if collected.1 then some collected.2.toList else none

end Template
end HttpEngine
