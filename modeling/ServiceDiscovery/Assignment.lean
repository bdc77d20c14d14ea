import ServiceDiscovery.Endpoint
import ServiceDiscovery.Json.Shape
/-!
# Endpoint assignments

An assignment is the full endpoint set of one cluster, in groups that share a locality. Ports are
written with 32 bits there, so not every assignment is a list of endpoints.
-/

namespace ServiceDiscovery

open Json (Shape Fields)

/-- The type of a resource that holds an assignment. -/
def endpointTypeUrl : String := "type.googleapis.com/envoy.config.endpoint.v3.ClusterLoadAssignment"

structure SocketTarget where
  address : String
  port : UInt32
  deriving DecidableEq, Repr

structure LocalityEndpoint where
  target : SocketTarget
  weight : Option UInt32
  deriving DecidableEq, Repr

structure Locality where
  endpoints : List LocalityEndpoint
  deriving DecidableEq, Repr

structure Assignment where
  cluster : String
  localities : List Locality
  deriving DecidableEq, Repr

namespace Endpoint

def shape : Shape Endpoint :=
  .record "Endpoint"
    (.required "host" .string (.required "port" .uint16 (.required "weight" .uint32 .nil)))
    (fun (host, port, weight, ()) => ⟨host, port, weight⟩)
    (fun e => (e.host, e.port, e.weight, ()))

end Endpoint

namespace SocketTarget

def shape : Shape SocketTarget :=
  .record "SocketAddress" (.required "address" .string (.required "port_value" .uint32 .nil))
    (fun (address, port, ()) => ⟨address, port⟩) (fun t => (t.address, t.port, ()))

end SocketTarget

namespace LocalityEndpoint

def shape : Shape LocalityEndpoint :=
  .record "LbEndpoint"
    (.required "address" SocketTarget.shape (.optional "load_balancing_weight" .uint32 .nil))
    (fun (target, weight, ()) => ⟨target, weight⟩) (fun e => (e.target, e.weight, ()))

/-- The endpoint itself, or its port where that is too large for one. -/
def toEndpoint (e : LocalityEndpoint) : Except UInt32 Endpoint :=
  if e.target.port.toNat < UInt16.size then
    .ok ⟨e.target.address, UInt16.ofNat e.target.port.toNat, e.weight.getD 0⟩
  else .error e.target.port

def ofEndpoint (e : Endpoint) : LocalityEndpoint :=
  ⟨⟨e.host, UInt32.ofNat e.port.toNat⟩, some e.weight⟩

end LocalityEndpoint

namespace Locality

def shape : Shape Locality :=
  .record "LocalityLbEndpoints" (.defaulted "lb_endpoints" (.list LocalityEndpoint.shape) [] .nil)
    (fun (endpoints, ()) => ⟨endpoints⟩) (fun l => (l.endpoints, ()))

end Locality

namespace Assignment

def shape : Shape Assignment :=
  .record "ClusterLoadAssignment"
    (.defaulted "cluster_name" .string "" (.defaulted "endpoints" (.list Locality.shape) [] .nil))
    (fun (cluster, localities, ()) => ⟨cluster, localities⟩)
    (fun a => (a.cluster, a.localities, ()))

/-- The assignment that puts each endpoint into a locality of its own. -/
def ofEndpoints (cluster : String) (endpoints : List Endpoint) : Assignment :=
  ⟨cluster, endpoints.map fun e => ⟨[LocalityEndpoint.ofEndpoint e]⟩⟩

/-- The endpoints of all localities in order, or the first port that is too large. -/
def toEndpoints (a : Assignment) : Except UInt32 (List Endpoint) :=
  (a.localities.flatMap Locality.endpoints).mapM LocalityEndpoint.toEndpoint

end Assignment

end ServiceDiscovery
