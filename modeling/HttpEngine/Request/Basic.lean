import HttpEngine.Http.Method
import HttpEngine.Json.Parser
import HttpEngine.Net.Address
import HttpEngine.Pairs
import HttpEngine.Storage
import HttpEngine.Text.Cut

/-!
# Requests

What a head says, what the route adds to it, and what has been received of the body: either its
bytes, or the file that it went into.

A header line is a field if it has a colon that is not its first character.  Names are compared
without regard to the case of ASCII letters, and the first field of a name counts.

The limits of a request bound what is received and kept of it.
-/

namespace HttpEngine

/-! # Header fields -/

structure Header where
  name : String
  value : String
  deriving DecidableEq, Repr

namespace Header

/-- Reads a header line.  The value loses the spaces in front and nothing else. -/
def parse? (line : List Char) : Option Header :=
  match cut? [':'] line with
  | some (name, value) =>
      if name.isEmpty then none
      else some ⟨String.ofList name, String.ofList (value.dropWhile (· == ' '))⟩
  | none => none

def sameName (a b : String) : Bool :=
  a.toList.map Char.toLower == b.toList.map Char.toLower

def find? (headers : List Header) (name : String) : Option String :=
  (headers.find? fun h => sameName h.name name).map Header.value

end Header

/-! # Requests -/

structure RequestLimits where
  bufferSize : Nat := 16384
  maxHeaders : Nat := 128
  maxParams : Nat := 64
  maxCookies : Nat := 64
  maxQueryParams : Nat := 64
  uploadDirectory : Path := Path.ofNames ["tmp"]
  fileChunk : Nat := 65536

/-- A body that was written to a file: `serial` and `extension` make up the file's name. -/
structure Upload where
  directory : Path
  serial : UInt64
  extension : String
  filename : Option String
  size : Nat
  contentType : String
  deriving DecidableEq, Repr

namespace Upload

def fileName (serial : UInt64) (extension : String) : FileName :=
  Utf8.encode s!"upload_{serial}{extension}"

def path (u : Upload) : Path :=
  u.directory ++ [fileName u.serial u.extension]

end Upload

inductive Context where
  | number (value : UInt64)
  | text (value : String)
  deriving DecidableEq, Repr

structure Request where
  method : Method
  path : String
  version : Version
  headers : List Header
  query : List Pair
  cookies : List Pair
  params : List Pair
  contentLength : Nat
  body : Option Bytes
  upload : Option Upload
  clientIp : String
  clientAddress : SocketAddress
  error : Option String
  context : Option Context
  deriving DecidableEq, Repr

namespace Request

/-! # Looking things up -/

def header? (r : Request) (name : String) : Option String :=
  Header.find? r.headers name

def userAgent? (r : Request) : Option String :=
  r.header? "user-agent"

def contentType? (r : Request) : Option String :=
  r.header? "content-type"

def query? (r : Request) (name : String) : Option String :=
  Pairs.find? r.query name

def cookie? (r : Request) (name : String) : Option String :=
  Pairs.find? r.cookies name

def param? (r : Request) (name : String) : Option String :=
  Pairs.find? r.params name

def bodyBytes (r : Request) : Bytes :=
  r.body.getD []

def bodyText? (r : Request) : Option String :=
  r.body.bind Utf8.decode?

def json? (r : Request) : Option Json :=
  Json.parse? r.bodyBytes

/-! # Context -/

def contextNumber? (r : Request) : Option UInt64 :=
  match r.context with
  | some (.number n) => some n
  | _ => none

def contextText? (r : Request) : Option String :=
  match r.context with
  | some (.text t) => some t
  | _ => none

def updateNumber (r : Request) (f : UInt64 -> UInt64) : Request :=
  match r.contextNumber? with
  | some n => { r with context := some (.number (f n)) }
  | none => r

def updateText (r : Request) (f : String -> String) : Request :=
  match r.contextText? with
  | some t => { r with context := some (.text (f t)) }
  | none => r

end Request

end HttpEngine
