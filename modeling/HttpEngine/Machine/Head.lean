import HttpEngine.Machine.Basic
import HttpEngine.Request.Decode

/-!
# Heads in a machine

Texts are cut at bytes: a byte is searched for, and its place and the next one are where the parts
end and begin.
-/

namespace HttpEngine
namespace Machine

def cutAt (mark : UInt8) (text : List Char) : Except Slip (Option (List Char × List Char)) :=
  match find? [mark] (Utf8.encodeChars text) with
  | some place => do
      let front <- textSlice text 0 place
      let next <- add place 1
      let rest <- textSlice text next (textLength text)
      return some (front, rest)
  | none => return none

/-! # Pairs -/

section

variable {γ : Type} [Collector γ]

def addPiece (held : γ) (piece : List Char) : Except Slip γ := do
  match <- cutAt 61 piece with
  | some (name, value) => return Collector.add held (String.ofList name, String.ofList value)
  | none => return held

def pieceEnd (separator : UInt8) (text : List Char) (start : Nat) : Except Slip Nat := do
  let bytes := Utf8.encodeChars text
  let rest <- slice bytes start bytes.length
  match find? [separator] rest with
  | some place => add start place
  | none => return bytes.length

def addPieces (separator : UInt8) (isTrimmed : Bool) (limit : Nat) (text : List Char) :
    Nat -> Nat -> γ -> Except Slip γ
  | fuel, start, held =>
      if start < textLength text ∧ Collector.size held < limit then
        match fuel with
        | 0 => .error .endless
        | fuel + 1 => do
            let stop <- pieceEnd separator text start
            let piece <- textSlice text start stop
            let held <- addPiece held (Pairs.trimPiece isTrimmed piece)
            let next <- add stop 1
            addPieces separator isTrimmed limit text fuel next held
      else return held

def splitPairs (separator : UInt8) (isTrimmed : Bool) (limit : Nat) (held : γ)
    (text : List Char) : Except Slip γ :=
  addPieces separator isTrimmed limit text (textLength text) 0 held

end

/-! # Numbers -/

def appendDigit? (n : Nat) (byte : UInt8) : Except Slip (Option Nat) :=
  if Decimal.isDigit byte then do
    let digit <- sub byte.toNat 48
    return (word (n * 10)).toOption.bind fun scaled => (word (scaled + digit)).toOption
  else return none

def sizeFrom? (n : Nat) : Bytes -> Except Slip (Option Nat)
  | [] => return some n
  | byte :: rest => do
      match <- appendDigit? n byte with
      | some m => sizeFrom? m rest
      | none => return none

def size? : Bytes -> Except Slip (Option Nat)
  | [] => return none
  | bytes => sizeFrom? 0 bytes

/-! # Heads -/

def parseHeader? (line : List Char) : Except Slip (Option Header) := do
  match <- cutAt 58 line with
  | some (name, value) =>
      if name.isEmpty then return none
      else return some ⟨String.ofList name, String.ofList (value.dropWhile (· == ' '))⟩
  | none => return none

def parseHeaders : List (List Char) -> Except Slip (List Header)
  | [] => return []
  | line :: rest => do
      let first <- parseHeader? line
      let later <- parseHeaders rest
      return first.toList ++ later

def parseTarget (limit : Nat) (target : List Char) : Except Slip (List Char × List Pair) := do
  match <- cutAt 63 target with
  | some (path, query) =>
      let pairs <- splitPairs 38 false limit (#[] : Array Pair) (Pairs.withoutMark query)
      return (path, pairs.toList)
  | none => return (target, [])

def cookiePairs (headers : List Header) (limit : Nat) : Except Slip (List Pair) :=
  match Header.find? headers "cookie" with
  | some value => do
      let pairs <- splitPairs 59 true limit (#[] : Array Pair) value.toList
      return pairs.toList
  | none => return []

def bodyLength (headers : List Header) : Except Slip Nat :=
  match Header.find? headers "content-length" with
  | some value => do
      let size <- size? (Utf8.encodeChars (Text.trim value.toList))
      return size.getD 0
  | none => return 0

def decode (head : Bytes) (peer : SocketAddress) (limits : RequestLimits) (isTrusted : Bool) :
    Except Slip (Except Fault Request) :=
  match Utf8.decodeChars? head with
  | none => return .error .badRequest
  | some text =>
      let all := Request.lines (Request.withoutBlankLine text)
      match Request.firstLine (all.headD []) with
      | .error fault => return .error fault
      | .ok (method, target, version) => do
          let headers <- parseHeaders (all.tail.take limits.maxHeaders)
          let (path, query) <- parseTarget limits.maxQueryParams target
          let cookies <- cookiePairs headers limits.maxCookies
          let contentLength <- bodyLength headers
          return .ok {
            method
            path := String.ofList path
            version
            headers
            query
            cookies
            params := []
            contentLength
            body := none
            upload := none
            clientIp := (Request.forwardedFor? headers isTrusted).getD peer.ip.text
            clientAddress := peer
            error := none
            context := none }

end Machine
end HttpEngine
