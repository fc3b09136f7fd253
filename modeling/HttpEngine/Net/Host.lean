import HttpEngine.Net.Address

/-!
# Hosts

Whether a host lets a program listen at an address.  An address of version 6 that stands for a
group is never listened at.  The ports below 1024 are kept for programs with a privilege, apart from
port zero, which asks for any free port.  An address that is only good on one link has to name, by
its scope, an interface of the host, and any address has to be one of the host's own.
-/

namespace HttpEngine

inductive BindRefusal where
  | invalidArgument
  | permissionDenied
  | noSuchDevice
  | addressNotAvailable
  deriving DecidableEq, Repr

def BindRefusal.message : BindRefusal -> String
  | .invalidArgument => "Invalid argument (os error 22)"
  | .permissionDenied => "Permission denied (os error 13)"
  | .noSuchDevice => "No such device (os error 19)"
  | .addressNotAvailable => "Cannot assign requested address (os error 99)"

structure Host where
  hasPrivilege : Bool
  hasInterface : UInt32 -> Bool
  owns : IpAddress -> Bool

namespace Host

def isReserved (port : UInt16) : Bool :=
  0 < port && port < 1024

def isGroup : IpAddress -> Bool
  | .v6 (g :: _) => g / 256 == 0xFF
  | _ => false

def isOfLink : IpAddress -> Bool
  | .v6 (g :: _) => g / 64 == 0xFE80 / 64
  | _ => false

def scopeRefusal? (host : Host) (address : SocketAddress) : Option BindRefusal :=
  if !isOfLink address.ip then none
  else if address.scope = 0 then some .invalidArgument
  else if host.hasInterface address.scope then none
  else some .noSuchDevice

/-- Why an address cannot be bound, if it cannot; the port is looked at before the address. -/
def refusal? (host : Host) (address : SocketAddress) : Option BindRefusal :=
  if isGroup address.ip then some .invalidArgument
  else if isReserved address.port && !host.hasPrivilege then some .permissionDenied
  else
    match host.scopeRefusal? address with
    | some reason => some reason
    | none => if host.owns address.ip then none else some .addressNotAvailable

end Host
end HttpEngine
