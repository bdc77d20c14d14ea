import ServiceDiscovery.Failure
import ServiceDiscovery.HostPort
import ServiceDiscovery.Net.SocketAddress
/-!
# The network around a host

What a host needs to know in order to connect: which addresses it has a way to, who listens there,
and what names mean. Connecting to an address text first settles what it asks for.
-/

namespace ServiceDiscovery

/-- What an address text asks to be connected to. -/
inductive Target where
  | address (a : SocketAddress)
  | named (host : String) (port : UInt16)
  deriving DecidableEq, Repr

namespace Target

/-- The port that a text writes, which a plus sign may precede. -/
def port? (t : List Char) : Option UInt16 :=
  let digits := if t.head? = some '+' then t.tail else t
  match SocketAddress.readNumber? UInt16.size digits with
  | some (n, []) => some (UInt16.ofNat n)
  | _ => none

/-- A socket address, or else a name and a port with a colon between them. -/
def ofText (s : String) : Except ConnectionFailure Target :=
  match SocketAddress.ofText? s with
  | some a => .ok (.address a)
  | none =>
    match cutLast ':' s.toList with
    | none => .error .invalidAddress
    | some (host, port) =>
      match port? port with
      | some p => .ok (.named (String.ofList host) p)
      | none => .error .invalidPort

end Target

structure Network where
  /-- Whether there is a way to an address. -/
  reaches : IpAddress → Bool
  /-- Whether connections to an address are accepted. -/
  accepts : SocketAddress → Bool
  lookup : String → Except ConnectionFailure IpAddress

namespace Network

/-- What a name means where nobody can be asked. -/
def lookupAlone (name : String) : Except ConnectionFailure IpAddress :=
  match IpAddress.ofText? name with
  | some a => .ok a
  | none =>
    if '\x00' ∈ name.toList then .error .invalidName
    else if name = "localhost" then .ok (.v4 ⟨127, 0, 0, 1⟩)
    else if name = "" then .error .unknownName
    else .error .nameServiceUnavailable

/-- The network of a host that is connected to nothing, not even to itself. -/
def isolated : Network where
  reaches _ := false
  accepts _ := false
  lookup := lookupAlone

/-- Connects to an address; the answer is the socket address that accepted. -/
def connect (n : Network) (address : String) : Except ConnectionFailure SocketAddress := do
  let a ← match ← Target.ofText address with
    | .address a => .ok a
    | .named host port => (n.lookup host).map fun ip => SocketAddress.ofIp ip port
  if !n.reaches a.ip then .error .unreachable
  else if n.accepts a then return a
  else .error .refused

end Network

end ServiceDiscovery
