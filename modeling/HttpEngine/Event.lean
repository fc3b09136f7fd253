import HttpEngine.Fault
import HttpEngine.Http.Method
import HttpEngine.Json.Basic

/-!
# Events

What the engine reports about itself: each event with its level, its message and its fields.
-/

namespace HttpEngine

inductive Level where
  | debug
  | info
  | warn
  | error
  deriving DecidableEq, Repr

def Level.name : Level -> String
  | .debug => "DEBUG"
  | .info => "INFO"
  | .warn => "WARN"
  | .error => "ERROR"

inductive Event where
  | headRejected (fault : Fault)
  | bodyFailed (path : String) (fault : Fault)
  | connectionLost (path : String)
  | writeFailed (error : WireError)
  | served (client : String) (method : Method) (path : String) (status : Status)
  | rateExceeded (client : String) (path : String)
  | panicRecovered (method : Method) (path : String) (message : String)
  | middlewaresIgnored (registered max : Nat)
  | uploadFailed
  | bodySaved (size : Nat)
  | uploadRemoved
  | uploadNotRemoved
  | notSerialized
  | fileNotServed
  | logQueueFull (path : String)
  | logStopped
  | logFailed
  | translationsLoaded (locale : String)
  | serverStarted (routes middlewares maxConnections : Nat)
  | serverDraining
  | serverStopped
  deriving DecidableEq, Repr

namespace Event

def level : Event -> Level
  | .headRejected _ | .bodyFailed .. | .connectionLost _ | .writeFailed _ | .served ..
  | .bodySaved _ | .uploadRemoved | .fileNotServed | .translationsLoaded _ => .debug
  | .rateExceeded .. | .middlewaresIgnored .. | .uploadNotRemoved | .logQueueFull _
  | .logStopped | .logFailed => .warn
  | .panicRecovered .. | .uploadFailed | .notSerialized => .error
  | .serverStarted .. | .serverDraining | .serverStopped => .info

def message : Event -> String
  | .headRejected _ => "rejected request head"
  | .bodyFailed .. => "failed to receive body"
  | .connectionLost _ => "connection lost"
  | .writeFailed _ => "failed to write response"
  | .served .. => "request served"
  | .rateExceeded .. => "rate limit exceeded"
  | .panicRecovered .. => "recovered from panic"
  | .middlewaresIgnored .. => "too many middlewares, extra ones are ignored"
  | .uploadFailed => "upload failed"
  | .bodySaved _ => "body saved"
  | .uploadRemoved => "unclaimed upload removed"
  | .uploadNotRemoved => "failed to remove unclaimed upload"
  | .notSerialized => "failed to serialize response body"
  | .fileNotServed => "file not served"
  | .logQueueFull _ => "access log queue full, line dropped"
  | .logStopped => "access log writer stopped, line dropped"
  | .logFailed => "access log write failed"
  | .translationsLoaded _ => "translations loaded"
  | .serverStarted .. => "server started"
  | .serverDraining => "shutting down, draining connections"
  | .serverStopped => "server stopped"

def fields : Event -> List (String × Json)
  | .headRejected fault => [("error", .string fault.describe)]
  | .bodyFailed path fault => [("path", .string path), ("error", .string fault.describe)]
  | .connectionLost path => [("path", .string path)]
  | .writeFailed error => [("error", .string error.message)]
  | .served client method path status =>
      [("client", .string client), ("method", .string method.token), ("path", .string path),
       ("status", .ofNat status.code)]
  | .rateExceeded client path => [("client", .string client), ("path", .string path)]
  | .panicRecovered method path message =>
      [("method", .string method.token), ("path", .string path), ("panic", .string message)]
  | .middlewaresIgnored registered max =>
      [("registered", .ofNat registered), ("max", .ofNat max)]
  | .bodySaved size => [("size", .ofNat size)]
  | .logQueueFull path => [("path", .string path)]
  | .translationsLoaded locale => [("locale", .string locale)]
  | .serverStarted routes middlewares maxConnections =>
      [("routes", .ofNat routes), ("middlewares", .ofNat middlewares),
       ("max_connections", .ofNat maxConnections)]
  | _ => []

def json (e : Event) : Json :=
  .ofMembers (("level", .string e.level.name) :: ("message", .string e.message) :: e.fields)

end Event
end HttpEngine
