import ServiceDiscovery.Cache
import ServiceDiscovery.Failure
import ServiceDiscovery.Watch
/-!
# The discovery client

A client answers queries from its cache alone. The first query for a service starts a watch that
will fill the cache; until it has, the answer is that the endpoints are not discovered yet. All
watches share the cache, the clock and the switch that cancels them, and nothing else.
-/

namespace ServiceDiscovery

structure Client where
  /-- Sent with every request. -/
  identity : String := "meshglue"
  bounds : Backoff.Bounds := {}
  cache : Cache := {}
  /-- In the order in which they were started. -/
  watches : List Watch := []
  cancelled : Bool := false
  now : Duration := ⟨0⟩
  deriving DecidableEq, Repr, Inhabited

namespace Client

/-- Starts to watch a service, unless that has been done or the client is cancelled. The answer is
whether this call did it. -/
def watch (c : Client) (service : String) : Bool × Client :=
  if c.cancelled then (false, c)
  else
    match c.cache.startWatch service with
    | (false, _) => (false, c)
    | (true, cache) =>
      let w : Watch := { service, identity := c.identity, backoff := { bounds := c.bounds } }
      (true, { c with cache, watches := c.watches ++ [w] })

/-- The endpoints of a service; where there are none yet, a watch is started. -/
def getEndpoints (c : Client) (service : String) : Except Failure (List Endpoint) × Client :=
  match c.cache.get? service with
  | some endpoints => (.ok endpoints, c)
  | none => (.error (.notYetDiscovered service), (c.watch service).2)

/-- Writes the cache directly. -/
def set (c : Client) (service : String) (endpoints : List Endpoint) : Client :=
  { c with cache := c.cache.set service endpoints }

/-- Marks a service as watched without watching it. -/
def startWatch (c : Client) (service : String) : Bool × Client :=
  let (started, cache) := c.cache.startWatch service
  (started, { c with cache })

def cancel (c : Client) : Client := { c with cancelled := true }

def withClock (c : Client) (time : Duration) : Client := { c with now := time }

def watchOf? (c : Client) (service : String) : Option Watch :=
  c.watches.find? fun w => w.service = service

/-- Carries out what an action does inside the client. -/
def perform (c : Client) (service : String) : Action → Client
  | .publish endpoints => c.set service endpoints
  | _ => c

def replaceWatch (c : Client) (w : Watch) : Client :=
  { c with watches := c.watches.map fun v => if v.service = w.service then w else v }

/-- Gives a signal to the watch of a service; the answer is the actions that it starts. -/
def signal (c : Client) (service : String) (s : Signal) : List Action × Client :=
  match c.watchOf? service with
  | none => ([], c)
  | some w =>
    let (w, actions) := w.react c.cancelled c.now s
    (actions, actions.foldl (fun c a => c.perform service a) (c.replaceWatch w))

/-- What happens to a client: the calls of its users, the passing of time, and the signals that its
transport gives to its watches. -/
inductive Event where
  | get (service : String)
  | watch (service : String)
  | set (service : String) (endpoints : List Endpoint)
  | startWatch (service : String)
  | cancel
  | pass (d : Duration)
  | signal (service : String) (s : Signal)
  deriving Repr

/-- One event; the answer is the actions that are started. -/
def step (c : Client) : Event → List Action × Client
  | .get service => ([], (c.getEndpoints service).2)
  | .watch service => ([], (c.watch service).2)
  | .set service endpoints => ([], c.set service endpoints)
  | .startWatch service => ([], (c.startWatch service).2)
  | .cancel => ([], c.cancel)
  | .pass d => ([], c.withClock (c.now.plus d))
  | .signal service s => c.signal service s

def run (c : Client) (events : List Event) : Client :=
  events.foldl (fun c e => (c.step e).2) c

end Client

end ServiceDiscovery
