import HttpEngine.Bytes

/-!
# Methods and versions

The tokens of a request line that the engine knows, and how a token is read.
-/

namespace HttpEngine

inductive Method where
  | get
  | put
  | post
  | head
  | patch
  | delete
  | options
  deriving DecidableEq, Repr

namespace Method

def all : List Method :=
  [.get, .put, .post, .head, .patch, .delete, .options]

def token : Method -> String
  | .get => "GET"
  | .put => "PUT"
  | .post => "POST"
  | .head => "HEAD"
  | .patch => "PATCH"
  | .delete => "DELETE"
  | .options => "OPTIONS"

def ofBytes? (bytes : Bytes) : Option Method :=
  all.find? fun m => Utf8.encode m.token == bytes

def name : Method -> String
  | .get => "Get"
  | .put => "Put"
  | .post => "Post"
  | .head => "Head"
  | .patch => "Patch"
  | .delete => "Delete"
  | .options => "Options"

end Method

inductive Version where
  | http10
  | http11
  deriving DecidableEq, Repr

namespace Version

def token : Version -> String
  | .http10 => "HTTP/1.0"
  | .http11 => "HTTP/1.1"

def name : Version -> String
  | .http10 => "Http10"
  | .http11 => "Http11"

inductive Reading where
  | known (version : Version)
  | unsupported
  | malformed
  deriving DecidableEq, Repr

def ofBytes (bytes : Bytes) : Reading :=
  if bytes = Utf8.encode "HTTP/1.1" then .known .http11
  else if bytes = Utf8.encode "HTTP/1.0" then .known .http10
  else if (Utf8.encode "HTTP/").isPrefixOf bytes then .unsupported
  else .malformed

end Version
end HttpEngine
