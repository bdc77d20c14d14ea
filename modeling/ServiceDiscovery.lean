import ServiceDiscovery.Config.Load
import ServiceDiscovery.Dns.Answer
import ServiceDiscovery.Frame
import ServiceDiscovery.Net.Network
import ServiceDiscovery.Rehearsal
import ServiceDiscovery.ServerAddress
import ServiceDiscovery.Proofs.Client.Cancellation
import ServiceDiscovery.Proofs.Client.Isolation
import ServiceDiscovery.Proofs.Client.Pacing
import ServiceDiscovery.Proofs.Client.Reconnection
import ServiceDiscovery.Proofs.Client.SingleWatch
import ServiceDiscovery.Proofs.Config.Reload
import ServiceDiscovery.Proofs.Config.Variable
import ServiceDiscovery.Proofs.Decoding
import ServiceDiscovery.Proofs.Dialer.Destinations
import ServiceDiscovery.Proofs.Dialer.Rotation
import ServiceDiscovery.Proofs.Dns.Progress
import ServiceDiscovery.Proofs.Dns.Reachability
import ServiceDiscovery.Proofs.Doubling
import ServiceDiscovery.Proofs.Frame.Replies
import ServiceDiscovery.Proofs.Json.Agreement
import ServiceDiscovery.Proofs.Net.Written
import ServiceDiscovery.Proofs.Publication
