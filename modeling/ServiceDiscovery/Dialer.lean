import ServiceDiscovery.Client
import ServiceDiscovery.HostPort
/-!
# The dialer

A dialer turns the address of a service into the address of one of its endpoints, in rotation. An
address that is not of the form host and port, or whose host has no endpoints, is dialled as it is.
One 64-bit cursor serves all services; it moves only when an endpoint is chosen.
-/

namespace ServiceDiscovery

structure Dialer where
  cursor : UInt64 := 0
  deriving DecidableEq, Repr, Inhabited

namespace Dialer

/-- Chooses the next endpoint of a list. -/
def select (d : Dialer) (endpoints : List Endpoint) : Option Endpoint × Dialer :=
  match endpoints with
  | [] => (none, d)
  | _ :: _ => (endpoints[d.cursor.toNat % endpoints.length]?, { d with cursor := d.cursor + 1 })

def resolve (d : Dialer) (c : Client) (address : String) : String × Dialer × Client :=
  match HostPort.ofAddress? address with
  | none => (address, d, c)
  | some target =>
    match c.getEndpoints target.host with
    | (.error _, c) => (address, d, c)
    | (.ok endpoints, c) =>
      match d.select endpoints with
      | (some e, d) => (e.authority, d, c)
      | (none, d) => (address, d, c)

end Dialer

end ServiceDiscovery
