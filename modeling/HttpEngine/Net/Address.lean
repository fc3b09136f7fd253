/-!
# Network addresses

Addresses of version 4 and 6 with a port, read from text and written in canonical form: groups in
hexadecimal without leading zeros, the first of the longest runs of zero groups (two at least) as
two colons, and an address that stands for one of version 4 with its last four bytes in decimal.
-/

namespace HttpEngine

inductive IpAddress where
  | v4 (a b c d : UInt8)
  | v6 (groups : List UInt16) {complete : groups.length = 8}
  deriving DecidableEq, Repr

/-- The scope counts for an address of version 6 only, and is zero for one of version 4. -/
structure SocketAddress where
  ip : IpAddress
  port : UInt16
  scope : UInt32
  deriving DecidableEq, Repr

namespace IpAddress

/-! # Writing -/

def dotted (a b c d : UInt8) : String :=
  s!"{a}.{b}.{c}.{d}"

def hexGroup (group : UInt16) : String :=
  String.ofList (Nat.toDigits 16 group.toNat)

def joinGroups (groups : List UInt16) : String :=
  ":".intercalate (groups.map hexGroup)

def longestZeros (position : Nat) (best : Nat × Nat) : List UInt16 -> Nat × Nat
  | [] => best
  | g :: rest =>
      let run := ((g :: rest).takeWhile (· == 0)).length
      longestZeros (position + 1) (if best.2 < run then (position, run) else best) rest

def groupsText : List UInt16 -> String
  | [0, 0, 0, 0, 0, 0xFFFF, x, y] =>
      "::ffff:" ++ dotted (x / 256).toUInt8 x.toUInt8 (y / 256).toUInt8 y.toUInt8
  | groups =>
      let (start, length) := longestZeros 0 (0, 0) groups
      if 2 ≤ length then
        joinGroups (groups.take start) ++ "::" ++ joinGroups (groups.drop (start + length))
      else joinGroups groups

def text : IpAddress -> String
  | .v4 a b c d => dotted a b c d
  | .v6 groups => groupsText groups

/-! # Reading -/

def ofGroups? (groups : List UInt16) : Option IpAddress :=
  if complete : groups.length = 8 then some (@v6 groups complete) else none

def digitValue? (base : Nat) (c : Char) : Option Nat :=
  let value :=
    if '0' ≤ c ∧ c ≤ '9' then c.toNat - 48
    else if 'a' ≤ c ∧ c ≤ 'f' then c.toNat - 87
    else if 'A' ≤ c ∧ c ≤ 'F' then c.toNat - 55
    else base
  if value < base then some value else none

def number? (base bound : Nat) (digits : List Char) : Option Nat :=
  if digits.isEmpty then none
  else
    match digits.mapM (digitValue? base) with
    | some values =>
        let n := values.foldl (fun n d => n * base + d) 0
        if n < bound then some n else none
    | none => none

def octet? (digits : List Char) : Option UInt8 :=
  match digits with
  | '0' :: _ :: _ => none
  | _ => if digits.length ≤ 3 then (number? 10 256 digits).map UInt8.ofNat else none

def group? (digits : List Char) : Option UInt16 :=
  if digits.length ≤ 4 then (number? 16 65536 digits).map UInt16.ofNat else none

def parseV4? (text : List Char) : Option (UInt8 × UInt8 × UInt8 × UInt8) :=
  match text.splitOn '.' with
  | [a, b, c, d] => do
      return (<- octet? a, <- octet? b, <- octet? c, <- octet? d)
  | _ => none

def joinOctets (high low : UInt8) : UInt16 :=
  high.toUInt16 * 256 + low.toUInt16

/-- The groups of one side of an address, of which the last may be an address of version 4. -/
def groups? : List (List Char) -> Option (List UInt16)
  | [] => some []
  | [last] =>
      if last.length ≤ 4 && !last.contains '.' then (group? last).map ([·])
      else (parseV4? last).map fun (a, b, c, d) => [joinOctets a b, joinOctets c d]
  | g :: rest => do
      return (<- group? g) :: (<- groups? rest)

def colonPieces (text : List Char) : List (List Char) :=
  if text.isEmpty then [] else text.splitOn ':'

def splitGap (before : List Char) : List Char -> Option (List Char × List Char)
  | ':' :: ':' :: rest => some (before.reverse, rest)
  | c :: rest => splitGap (c :: before) rest
  | [] => none

def parseV6? (text : List Char) : Option IpAddress :=
  match splitGap [] text with
  | none => do ofGroups? (<- groups? (colonPieces text))
  | some (front, back) => do
      if front.contains '.' then none
      else
        let head <- groups? (colonPieces front)
        let tail <- groups? (colonPieces back)
        if head.length + tail.length < 8 then
          ofGroups? (head ++ List.replicate (8 - head.length - tail.length) 0 ++ tail)
        else none

end IpAddress

namespace SocketAddress

def text (address : SocketAddress) : String :=
  match address.ip with
  | .v4 .. => address.ip.text ++ s!":{address.port}"
  | .v6 _ =>
      let scope := if address.scope = 0 then "" else s!"%{address.scope}"
      "[" ++ address.ip.text ++ scope ++ s!"]:{address.port}"

def port? (digits : List Char) : Option UInt16 :=
  (IpAddress.number? 10 65536 digits).map UInt16.ofNat

def scope? (digits : List Char) : Option UInt32 :=
  (IpAddress.number? 10 0x100000000 digits).map UInt32.ofNat

def parseScoped? (text : List Char) (port : UInt16) : Option SocketAddress :=
  match text.splitOn '%' with
  | [ip] => do
      return ⟨<- IpAddress.parseV6? ip, port, 0⟩
  | [ip, scope] => do
      return ⟨<- IpAddress.parseV6? ip, port, <- scope? scope⟩
  | _ => none

def parse? (text : String) : Option SocketAddress :=
  match text.toList with
  | '[' :: rest =>
      match rest.splitOn ']' with
      | [ip, ':' :: port] => do parseScoped? ip (<- port? port)
      | _ => none
  | other =>
      match other.splitOn ':' with
      | [ip, port] => do
          let (a, b, c, d) <- IpAddress.parseV4? ip
          return ⟨.v4 a b c d, <- port? port, 0⟩
      | _ => none

end SocketAddress
end HttpEngine
