/-!
# Byte strings

What travels on a connection and what lies in a file is a list of bytes.  Byte strings are hashed
with djb2: each byte multiplies the hash by 33, as a shift and an addition, and adds itself, all in
32 bits that wrap around.

Texts are encoded in UTF-8, character by character.  Reading goes byte by byte through a decoder
that knows which continuation bytes it may still take.  A byte that does not fit ends the unfinished
character, which is reported as one bad part, and is then read afresh; so a bad part is as long as
some character's beginning, and never longer.  Strict reading refuses any bad part, and lenient
reading puts the replacement character in its place.
-/

namespace HttpEngine

abbrev Bytes := List UInt8

/-! # Marks in byte strings -/

namespace Bytes

def crlf : Bytes := [13, 10]

/-- The blank line that ends a head, with the end of the line before it. -/
def blankLine : Bytes := [13, 10, 13, 10]

def quote : Bytes := [34]

end Bytes

/-! # The hash -/

def djb2Step (hash : UInt32) (byte : UInt8) : UInt32 :=
  (hash <<< 5) + hash + byte.toUInt32

def djb2 (bytes : Bytes) : UInt32 :=
  bytes.foldl djb2Step 5381

/-! # UTF-8 -/

namespace Utf8

def encodeChar (c : Char) : Bytes :=
  String.utf8EncodeChar c

def encodeChars (text : List Char) : Bytes :=
  text.flatMap encodeChar

def encode (text : String) : Bytes :=
  encodeChars text.toList

/--
A character of which the first bytes have been read: how many bytes are still due, the bits
collected, and the range the next byte has to lie in.
-/
structure Unfinished where
  due : Nat
  bits : Nat
  low : Nat
  high : Nat
  deriving DecidableEq, Repr

/--
How a first byte opens a character of two, three or four bytes.  The range of the second byte
leaves out overlong forms, surrogates and values beyond the last code point.
-/
def opening? (byte : Nat) : Option Unfinished :=
  if byte < 0xC2 then none
  else if byte < 0xE0 then some ⟨1, byte - 0xC0, 0x80, 0xBF⟩
  else if byte < 0xF0 then
    some ⟨2, byte - 0xE0, if byte = 0xE0 then 0xA0 else 0x80, if byte = 0xED then 0x9F else 0xBF⟩
  else if byte < 0xF5 then
    some ⟨3, byte - 0xF0, if byte = 0xF0 then 0x90 else 0x80, if byte = 0xF4 then 0x8F else 0xBF⟩
  else none

/-- What has been read, latest first, with `none` for a bad part, and the unfinished character. -/
structure Decoder where
  read : List (Option Char)
  unfinished : Option Unfinished

namespace Decoder

def start : Decoder := ⟨[], none⟩

def begin (read : List (Option Char)) (byte : Nat) : Decoder :=
  if byte < 0x80 then ⟨some (Char.ofNat byte) :: read, none⟩
  else
    match opening? byte with
    | some u => ⟨read, some u⟩
    | none => ⟨none :: read, none⟩

def feed (d : Decoder) (byte : UInt8) : Decoder :=
  let b := byte.toNat
  match d.unfinished with
  | none => begin d.read b
  | some u =>
      if u.low ≤ b ∧ b ≤ u.high then
        let bits := u.bits * 64 + (b - 0x80)
        if u.due ≤ 1 then ⟨some (Char.ofNat bits) :: d.read, none⟩
        else ⟨d.read, some ⟨u.due - 1, bits, 0x80, 0xBF⟩⟩
      else begin (none :: d.read) b

/-- All that was read, in order; an unfinished character at the end is a bad part. -/
def finish (d : Decoder) : List (Option Char) :=
  match d.unfinished with
  | none => d.read.reverse
  | some _ => (none :: d.read).reverse

end Decoder

def scan (bytes : Bytes) : List (Option Char) :=
  (bytes.foldl Decoder.feed Decoder.start).finish

def decodeChars? (bytes : Bytes) : Option (List Char) :=
  let read := scan bytes
  if read.all Option.isSome then some (read.filterMap id) else none

def decode? (bytes : Bytes) : Option String :=
  (decodeChars? bytes).map String.ofList

def replacement : Char := '\uFFFD'

def decodeLossy (bytes : Bytes) : String :=
  String.ofList ((scan bytes).map fun c => c.getD replacement)

end Utf8

end HttpEngine
