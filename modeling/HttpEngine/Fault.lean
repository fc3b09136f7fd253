import HttpEngine.Http.Status

/-!
# What can go wrong with a request

A fault is the reason why a request is not served.  Most faults are answered with a fixed response;
a connection that is lost gets no answer.
-/

namespace HttpEngine

inductive WireError where
  | timedOut
  | unexpectedEof
  | brokenPipe
  | connectionReset
  | connectionAborted
  | permissionDenied
  | writeZero
  deriving DecidableEq, Repr

namespace WireError

def name : WireError -> String
  | .timedOut => "TimedOut"
  | .unexpectedEof => "UnexpectedEof"
  | .brokenPipe => "BrokenPipe"
  | .connectionReset => "ConnectionReset"
  | .connectionAborted => "ConnectionAborted"
  | .permissionDenied => "PermissionDenied"
  | .writeZero => "WriteZero"

def message : WireError -> String
  | .timedOut => "timed out"
  | .unexpectedEof => "unexpected end of file"
  | .brokenPipe => "broken pipe"
  | .connectionReset => "connection reset"
  | .connectionAborted => "connection aborted"
  | .permissionDenied => "permission denied"
  | .writeZero => "write zero"

def reported : List WireError :=
  [.timedOut, .unexpectedEof, .brokenPipe, .connectionReset, .connectionAborted,
   .permissionDenied]

end WireError

inductive Fault where
  | badRequest
  | invalidMethod
  | unsupportedVersion
  | headersTooLarge
  | bodyTooLarge
  | timeout
  | connectionClosed
  | notFound
  | upload
  | wire (error : WireError)
  deriving DecidableEq, Repr

namespace Fault

def ofWire : WireError -> Fault
  | .timedOut => .timeout
  | .unexpectedEof => .connectionClosed
  | e => .wire e

def name : Fault -> String
  | .badRequest => "BadRequest"
  | .invalidMethod => "InvalidMethod"
  | .unsupportedVersion => "UnsupportedVersion"
  | .headersTooLarge => "HeadersTooLarge"
  | .bodyTooLarge => "BodyTooLarge"
  | .timeout => "Timeout"
  | .connectionClosed => "ConnectionClosed"
  | .notFound => "NotFound"
  | .upload => "Upload"
  | .wire _ => "Io"

def describe : Fault -> String
  | .wire e => s!"Io(IoError(Kind({e.name})))"
  | f => f.name

def answer? : Fault -> Option (Status × String)
  | .badRequest => some (.badRequest, "bad request")
  | .invalidMethod => some (.badRequest, "invalid method")
  | .unsupportedVersion => some (.httpVersionNotSupported, "http version not supported")
  | .headersTooLarge => some (.requestHeaderFieldsTooLarge, "request headers too large")
  | .bodyTooLarge => some (.payloadTooLarge, "request body too large")
  | .timeout => some (.requestTimeout, "read timeout")
  | .notFound => some (.notFound, "not found")
  | .upload => some (.internalServerError, "upload failed")
  | .connectionClosed => none
  | .wire _ => none

end Fault
end HttpEngine
