import ServiceDiscovery.Backoff
import ServiceDiscovery.Json.Printer
import ServiceDiscovery.Net.SocketAddress
/-!
# Configuration

What a process that uses the library can be configured with, what it is configured with where
nothing is said, and the JSON object that stands for a configuration.
-/

namespace ServiceDiscovery

structure Config where
  /-- The discovery server, as `host:port` or with a scheme in front. -/
  serverUri : String := "127.0.0.1:18000"
  /-- Sent with every discovery request. -/
  nodeId : String := "meshglue"
  backoffInitialMs : UInt64 := 200
  backoffMaxMs : UInt64 := 10000
  /-- Takes the place of the IP address to listen on. -/
  bindIp : Option String := none
  /-- Where DNS queries are answered. -/
  dnsBind : SocketAddress := .v4 ⟨127, 0, 0, 1⟩ 5353
  /-- The services to watch from the start. -/
  watch : List String := []
  deriving DecidableEq, Repr

namespace Config

/-- The members of the JSON object that stands for a configuration, in the order of its fields. -/
def members (c : Config) : List (String × Json) :=
  [("server_uri", .string c.serverUri), ("node_id", .string c.nodeId),
    ("backoff_initial_ms", Json.natural c.backoffInitialMs.toNat),
    ("backoff_max_ms", Json.natural c.backoffMaxMs.toNat)] ++
  (match c.bindIp with
    | some ip => [("bind_ip", .string ip)]
    | none => []) ++
  [("dns_bind", .string c.dnsBind.text), ("watch", .array (c.watch.map .string))]

def toJson (c : Config) : Json := Json.ofMembers c.members

/-- The object as it is written. -/
def text (c : Config) : String := String.ofList (Json.writeObject (Json.writeMembers c.members))

/-- The delays between the sessions of a watch. -/
def bounds (c : Config) : Backoff.Bounds where
  initial := Duration.ofMillis c.backoffInitialMs.toNat
  ceiling := Duration.ofMillis c.backoffMaxMs.toNat

end Config

end ServiceDiscovery
