import ServiceDiscovery.Cache
import ServiceDiscovery.Dns.Name
import ServiceDiscovery.Net.SocketAddress
/-!
# DNS answers

A name of one label is the name of a service and is answered from the cache alone: the addresses of
its endpoints, a failure while it is watched but not discovered yet, or no such name. Asking never
starts a watch. A name of several labels is answered by a resolver.
-/

namespace ServiceDiscovery.Dns

/-- The record types that can be answered, by number. -/
structure RecordType where
  number : UInt16
  deriving DecidableEq, Repr

namespace RecordType

def a : RecordType := ⟨1⟩

def aaaa : RecordType := ⟨28⟩

/-- Asks for records of every type. -/
def any : RecordType := ⟨255⟩

/-- The type of the records that hold an address. -/
def ofAddress : IpAddress → RecordType
  | .v4 _ => a
  | .v6 _ => aaaa

/-- Whether a query for this type asks for an address. -/
def covers (t : RecordType) (address : IpAddress) : Bool := t = any || t = ofAddress address

end RecordType

/-- What the cache says about a service. -/
inductive ServiceStatus where
  | addresses (list : List IpAddress)
  /-- It is known, but it has no address of the wanted kind. -/
  | empty
  /-- It is watched and has not been discovered yet. -/
  | pending
  | unknown
  deriving DecidableEq, Repr

/-- The addresses that endpoints have, in order. A host that is a name has none. -/
def addressesOf (endpoints : List Endpoint) (t : RecordType) : List IpAddress :=
  (endpoints.filterMap fun e => IpAddress.ofText? e.host).filter t.covers

def serviceStatus (c : Cache) (service : String) (t : RecordType) : ServiceStatus :=
  match c.get? service with
  | none => if c.isWatched service then .pending else .unknown
  | some endpoints =>
    match addressesOf endpoints t with
    | [] => .empty
    | list => .addresses list

inductive ResponseCode where
  | noError
  | serverFailure
  | noSuchName
  deriving DecidableEq, Repr

def ResponseCode.number : ResponseCode → Nat
  | noError => 0
  | serverFailure => 2
  | noSuchName => 3

structure Query where
  name : Name
  recordType : RecordType
  recordClass : UInt16
  deriving DecidableEq, Repr

structure Question where
  id : UInt16
  opcode : Nat
  recursionDesired : Bool
  checkingDisabled : Bool
  query : Query
  deriving DecidableEq, Repr

structure AddressRecord where
  name : Name
  seconds : Nat
  address : IpAddress
  deriving DecidableEq, Repr

structure Answer where
  id : UInt16
  opcode : Nat
  recursionDesired : Bool
  checkingDisabled : Bool
  authoritative : Bool := false
  truncated : Bool := false
  recursionAvailable : Bool := true
  authenticData : Bool := false
  code : ResponseCode
  query : Query
  records : List AddressRecord
  deriving DecidableEq, Repr

/-- What resolves the names of several labels: the addresses of a name, or nothing if it has none. -/
abbrev Resolver := String → Option (List IpAddress)

/-- How long an answer from the cache may be kept, in seconds. -/
def serviceSeconds : Nat := 5

/-- How long a resolved answer may be kept, in seconds. -/
def resolvedSeconds : Nat := 60

def answerService (c : Cache) (name : Name) (t : RecordType) : ResponseCode × List AddressRecord :=
  match serviceStatus c name.text t with
  | .addresses list => (.noError, list.map fun a => ⟨name, serviceSeconds, a⟩)
  | .empty => (.noError, [])
  | .pending => (.serverFailure, [])
  | .unknown => (.noSuchName, [])

def answerResolved (resolve : Resolver) (name : Name) (t : RecordType) :
    ResponseCode × List AddressRecord :=
  match resolve name.text with
  | some list => (.noError, (list.filter t.covers).map fun a => ⟨name, resolvedSeconds, a⟩)
  | none => (.serverFailure, [])

/-- Answers a question. Names are looked up, and stand in the records, in lower case. -/
def answer (c : Cache) (resolve : Resolver) (q : Question) : Answer :=
  let name := q.query.name.lower
  let (code, records) :=
    if '.' ∈ name.text.toList then answerResolved resolve name q.query.recordType
    else answerService c name q.query.recordType
  { id := q.id, opcode := q.opcode, recursionDesired := q.recursionDesired,
    checkingDisabled := q.checkingDisabled, code, query := q.query, records }

/-- The resolver of a host that can ask nobody: it knows the IPv4 addresses that are written out and
the names under `localhost`. -/
def resolveAlone : Resolver := fun name =>
  match Ipv4.ofText? name with
  | some a => some [.v4 a]
  | none => if ".localhost".toList.isSuffixOf name.toList then some [.v4 ⟨127, 0, 0, 1⟩] else none

end ServiceDiscovery.Dns
