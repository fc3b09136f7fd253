import HttpEngine.Decimal.Integer
import HttpEngine.Fault
import HttpEngine.Request.Basic
import HttpEngine.Text.Cut

/-!
# Reading a head

The whole head has to be UTF-8.  Its first line is three parts with single spaces between them: a
method, a target that starts with a slash or is a star, and a version.  Of the lines after it the
first ones, as many as the limit allows, are read as header fields, and lines that are none are
passed over.  Nothing in a header line makes a head fail.
-/

namespace HttpEngine
namespace Request

/-! # The first line -/

def onFirst (c : Char) : List (List Char) -> List (List Char)
  | [] => [[c]]
  | line :: rest => (c :: line) :: rest

def lines : List Char -> List (List Char)
  | [] => [[]]
  | '\r' :: '\n' :: rest => [] :: lines rest
  | c :: rest => onFirst c (lines rest)

/-- Drops one blank line at the end, with the end of the line before it. -/
def withoutBlankLine (text : List Char) : List Char :=
  match text.reverse with
  | '\n' :: '\r' :: '\n' :: '\r' :: rest => rest.reverse
  | _ => text

def isTarget (target : List Char) : Bool :=
  target.head? == some '/' || target == ['*']

def firstLine (line : List Char) : Except Fault (Method × List Char × Version) :=
  match line.splitOn ' ' with
  | [method, target, version] =>
      if method.isEmpty || !isTarget target then .error .badRequest
      else
        match Method.ofBytes? (Utf8.encodeChars method) with
        | none => .error .invalidMethod
        | some m =>
            match Version.ofBytes (Utf8.encodeChars version) with
            | .known v => .ok (m, target, v)
            | .unsupported => .error .unsupportedVersion
            | .malformed => .error .badRequest
  | _ => .error .badRequest

/-! # What follows from the header fields -/

/-- The length of the body: zero unless the field is a size. -/
def bodyLength (headers : List Header) : Nat :=
  match Header.find? headers "content-length" with
  | some value => (Decimal.size? (Utf8.encodeChars (Text.trim value.toList))).getD 0
  | none => 0

def cookiePairs (headers : List Header) (limit : Nat) : List Pair :=
  match Header.find? headers "cookie" with
  | some value => (Pairs.addCookies limit #[] value.toList).toList
  | none => []

/-- The first address of the forwarding field, if it is trusted and not blank. -/
def forwardedFor? (headers : List Header) (isTrusted : Bool) : Option String :=
  if isTrusted then
    match Header.find? headers "x-forwarded-for" with
    | some value =>
        let first := Text.trim (before [','] value.toList)
        if first.isEmpty then none else some (String.ofList first)
    | none => none
  else none

/-! # The head -/

def ofChars (text : List Char) (peer : SocketAddress) (limits : RequestLimits)
    (isTrusted : Bool) : Except Fault Request := do
  let all := lines (withoutBlankLine text)
  let (method, target, version) <- firstLine (all.headD [])
  let headers := (all.tail.take limits.maxHeaders).filterMap Header.parse?
  let (path, query) := match cut? ['?'] target with
    | some (path, query) => (path, (Pairs.addQuery limits.maxQueryParams #[] query).toList)
    | none => (target, [])
  return {
    method
    path := String.ofList path
    version
    headers
    query
    cookies := cookiePairs headers limits.maxCookies
    params := []
    contentLength := bodyLength headers
    body := none
    upload := none
    clientIp := (forwardedFor? headers isTrusted).getD peer.ip.text
    clientAddress := peer
    error := none
    context := none }

def decode (head : Bytes) (peer : SocketAddress) (limits : RequestLimits)
    (isTrusted : Bool) : Except Fault Request :=
  match Utf8.decodeChars? head with
  | some text => ofChars text peer limits isTrusted
  | none => .error .badRequest

end Request
end HttpEngine
