/-!
# Endpoints

An endpoint is one network-reachable instance of a logical service. Its authority is the text that
is dialled: host and port, with brackets around a host that itself contains a colon, so that the
last colon of the text is always the one before the port.
-/

namespace ServiceDiscovery

structure Endpoint where
  host : String
  port : UInt16
  /-- Advisory share of the load. Nothing here gives it a meaning. -/
  weight : UInt32
  deriving DecidableEq, Repr, Inhabited

namespace Endpoint

/-- The `host:port` text of an endpoint. -/
def authority (e : Endpoint) : String :=
  if ':' ∈ e.host.toList then "[" ++ e.host ++ "]:" ++ toString e.port.toNat
  else e.host ++ ":" ++ toString e.port.toNat

end Endpoint

/-- The name under which the discovery server publishes the endpoints of a service. -/
def resourceName (service : String) : String := service ++ "_cluster"

end ServiceDiscovery
