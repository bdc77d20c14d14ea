import ServiceDiscovery.Net.Ipv6
/-!
# Socket addresses

An IP address with a port, as the address to listen on or to connect to. An IPv6 address stands in
brackets and may name the scope in which it is meant; scope zero is no scope. Ports and scopes may
be written with any number of leading zeros.
-/

namespace ServiceDiscovery

inductive IpAddress where
  | v4 (a : Ipv4)
  | v6 (a : Ipv6)
  deriving DecidableEq, Repr

namespace IpAddress

def ofText? (s : String) : Option IpAddress :=
  match Ipv4.ofText? s with
  | some a => some (.v4 a)
  | none => (Ipv6.ofText? s).map .v6

def text : IpAddress → String
  | v4 a => a.text
  | v6 a => a.text

end IpAddress

inductive SocketAddress where
  | v4 (ip : Ipv4) (port : UInt16)
  | v6 (ip : Ipv6) (scope : UInt32) (port : UInt16)
  deriving DecidableEq, Repr

namespace SocketAddress

def ofIp : IpAddress → UInt16 → SocketAddress
  | .v4 a, p => v4 a p
  | .v6 a, p => v6 a 0 p

def ip : SocketAddress → IpAddress
  | v4 a _ => .v4 a
  | v6 a _ _ => .v6 a

def port : SocketAddress → UInt16
  | v4 _ p => p
  | v6 _ _ p => p

def readNumber? (bound : Nat) (t : List Char) : Option (Nat × List Char) :=
  let (digits, t) := Text.leadingDigits t
  if digits.isEmpty then none else (Text.boundedValue? 10 bound digits).map fun n => (n, t)

def readPort? : List Char → Option (UInt16 × List Char)
  | ':' :: t => (readNumber? UInt16.size t).map fun (n, t) => (UInt16.ofNat n, t)
  | _ => none

def readV4? (t : List Char) : Option (SocketAddress × List Char) := do
  let (ip, t) ← Ipv4.read? t
  let (port, t) ← readPort? t
  return (v4 ip port, t)

/-- Reads the scope after an address, zero if there is none. -/
def readScope (t : List Char) : UInt32 × List Char :=
  match t with
  | '%' :: rest =>
    match readNumber? UInt32.size rest with
    | some (n, rest) => (UInt32.ofNat n, rest)
    | none => (0, t)
  | _ => (0, t)

def readV6? : List Char → Option (SocketAddress × List Char)
  | '[' :: t => do
    let (ip, t) ← Ipv6.read? t
    match readScope t with
    | (scope, ']' :: t) => do
      let (port, t) ← readPort? t
      return (v6 ip scope port, t)
    | _ => none
  | _ => none

/-- The address that all of the given characters write. -/
def ofChars? (t : List Char) : Option SocketAddress :=
  match (readV4? t).or (readV6? t) with
  | some (a, []) => some a
  | _ => none

def ofText? (s : String) : Option SocketAddress := ofChars? s.toList

def write : SocketAddress → List Char
  | v4 ip port => ip.write ++ ':' :: Text.decimal port.toNat
  | v6 ip scope port =>
    let scope := if scope = 0 then [] else '%' :: Text.decimal scope.toNat
    '[' :: ip.write ++ scope ++ ']' :: ':' :: Text.decimal port.toNat

def text (a : SocketAddress) : String := String.ofList a.write

end SocketAddress

end ServiceDiscovery
