import ServiceDiscovery.Dialer
/-!
# Rehearsals

A rehearsal plays a client and its dialer against a scripted discovery server, under a clock of its
own. The script says which connection attempts, sends and closes fail or never finish, and what each
receive brings; a receive for which there is nothing yet waits. The clock stands still while anything
can be done without it, so a rehearsal has exactly one course, and its log holds what the server saw.
-/

namespace ServiceDiscovery

/-- What one receive brings. -/
inductive Reply where
  | response (r : Response)
  | failure
  | finish
  deriving Repr

def Reply.signal : Reply → Signal
  | response r => .received r
  | failure => .receiveFailed
  | finish => .ended

/-- How the server treats the streams of one service. A count says how many of the next ones it
concerns; sends that fail come before those that never finish. -/
structure Script where
  failedSends : Nat := 0
  stalledSends : Nat := 0
  failedCloses : Nat := 0
  /-- What the receives to come bring, in order. -/
  replies : List Reply := []
  deriving Repr

inductive Outcome where
  | done
  | failed
  /-- It never finishes. -/
  | stalled
  deriving DecidableEq, Repr

inductive Occurrence where
  | connect (outcome : Outcome)
  | send (request : Request) (outcome : Outcome)
  | close (outcome : Outcome)
  deriving DecidableEq, Repr

structure LogEntry where
  /-- The resource that the stream is for; a connection attempt is for none yet. -/
  resource : String
  occurrence : Occurrence
  time : Duration
  deriving DecidableEq, Repr

structure Rehearsal where
  client : Client := {}
  dialer : Dialer := {}
  /-- How many of the next connection attempts fail; they come before those that never finish. -/
  refusedConnects : Nat := 0
  stalledConnects : Nat := 0
  scripts : List (String × Script) := []
  /-- The services whose watches sleep, with the times at which they wake, in the order in which
  they fell asleep. -/
  sleepers : List (String × Duration) := []
  log : List LogEntry := []
  deriving Repr

namespace Rehearsal

def script (r : Rehearsal) (service : String) : Script :=
  (r.scripts.lookup service).getD {}

def setScript (r : Rehearsal) (service : String) (s : Script) : Rehearsal :=
  { r with scripts := Cache.assign service s r.scripts }

def modifyScript (r : Rehearsal) (service : String) (f : Script → Script) : Rehearsal :=
  r.setScript service (f (r.script service))

def record (r : Rehearsal) (resource : String) (occurrence : Occurrence) : Rehearsal :=
  { r with log := r.log ++ [⟨resource, occurrence, r.client.now⟩] }

/-! ### Actions of watches -/

def connect (r : Rehearsal) : Option Signal × Rehearsal :=
  if r.refusedConnects > 0 then
    (some .connectFailed,
      { r with refusedConnects := r.refusedConnects - 1 }.record "" (.connect .failed))
  else if r.stalledConnects > 0 then
    (none, { r with stalledConnects := r.stalledConnects - 1 }.record "" (.connect .stalled))
  else (some .connected, r.record "" (.connect .done))

def send (r : Rehearsal) (service : String) (q : Request) : Option Signal × Rehearsal :=
  let s := r.script service
  let resource := resourceName service
  if s.failedSends > 0 then
    (some .sendFailed,
      (r.setScript service { s with failedSends := s.failedSends - 1 }).record resource
        (.send q .failed))
  else if s.stalledSends > 0 then
    (none,
      (r.setScript service { s with stalledSends := s.stalledSends - 1 }).record resource
        (.send q .stalled))
  else (some .sent, r.record resource (.send q .done))

def receive (r : Rehearsal) (service : String) : Option Signal × Rehearsal :=
  let s := r.script service
  match s.replies with
  | [] => (none, r)
  | reply :: replies => (some reply.signal, r.setScript service { s with replies })

def close (r : Rehearsal) (service : String) : Option Signal × Rehearsal :=
  let s := r.script service
  let resource := resourceName service
  if s.failedCloses > 0 then
    (some .closed,
      (r.setScript service { s with failedCloses := s.failedCloses - 1 }).record resource
        (.close .failed))
  else (some .closed, r.record resource (.close .done))

/-- A sleep of no length is over at once. -/
def sleep (r : Rehearsal) (service : String) (d : Duration) : Option Signal × Rehearsal :=
  if d.nanos = 0 then (some .wake, r)
  else (none, { r with sleepers := r.sleepers ++ [(service, Timer.wake r.client.now d)] })

/-- Starts an action of a watch; the answer is the signal that follows at once, if one does. -/
def start (r : Rehearsal) (service : String) : Action → Option Signal × Rehearsal
  | .connect => r.connect
  | .send q => r.send service q
  | .receive => r.receive service
  | .close => r.close service
  | .sleep d => r.sleep service d
  | .publish _ => (none, r)

def startAll (r : Rehearsal) (service : String) (actions : List Action) :
    Option Signal × Rehearsal :=
  actions.foldl
    (fun (s, r) a =>
      let (t, r) := r.start service a
      (s.or t, r))
    (none, r)

/-! ### The course of a rehearsal -/

/-- How many sessions and exchanges the script can still bring to an end. -/
def supply (r : Rehearsal) : Nat :=
  r.refusedConnects + r.scripts.foldr (fun (_, s) n => s.failedSends + s.replies.length + n) 0

def settleWithin : (fuel : Nat) → Rehearsal → String → Signal → Rehearsal
  | 0, r, _, _ => r
  | fuel + 1, r, service, s =>
    let (actions, client) := r.client.signal service s
    match { r with client }.startAll service actions with
    | (none, r) => r
    | (some s, r) => settleWithin fuel r service s

/-- Gives a watch a signal and lets it go on until it waits. It takes at most five signals until it
needs more of the script. -/
def settle (r : Rehearsal) (service : String) (s : Signal) : Rehearsal :=
  settleWithin (5 * r.supply + 10) r service s

def launch (r : Rehearsal) : Rehearsal :=
  (r.client.watches.filter fun w => w.phase = .starting).foldl
    (fun r w => r.settle w.service .wake) r

def get (r : Rehearsal) (service : String) : Except Failure (List Endpoint) × Rehearsal :=
  let (answer, client) := r.client.getEndpoints service
  (answer, { r with client }.launch)

def watch (r : Rehearsal) (service : String) : Bool × Rehearsal :=
  let (started, client) := r.client.watch service
  (started, { r with client }.launch)

def resolve (r : Rehearsal) (address : String) : String × Rehearsal :=
  let (resolved, dialer, client) := r.dialer.resolve r.client address
  (resolved, { r with dialer, client }.launch)

def set (r : Rehearsal) (service : String) (endpoints : List Endpoint) : Rehearsal :=
  { r with client := r.client.set service endpoints }

def startWatch (r : Rehearsal) (service : String) : Bool × Rehearsal :=
  let (started, client) := r.client.startWatch service
  (started, { r with client })

/-- Adds a reply to the script of a service. A watch that waits for one takes it. -/
def reply (r : Rehearsal) (service : String) (reply : Reply) : Rehearsal :=
  let r := r.modifyScript service fun s => { s with replies := s.replies ++ [reply] }
  match (r.client.watchOf? service).map Watch.phase with
  | some (.receiving _) =>
    match r.receive service with
    | (none, r) => r
    | (some s, r) => r.settle service s
  | _ => r

def cancel (r : Rehearsal) : Rehearsal :=
  r.client.watches.foldl (fun r w => r.settle w.service .wake)
    { r with client := r.client.cancel, sleepers := [] }

/-- The sleeper that wakes first, of several the one that fell asleep first, and the others. -/
def firstSleeper? : List (String × Duration) → Option ((String × Duration) × List (String × Duration))
  | [] => none
  | s :: rest =>
    match firstSleeper? rest with
    | none => some (s, [])
    | some (t, others) =>
      if t.2.nanos < s.2.nanos then some (t, s :: others) else some (s, rest)

def advanceWithin : (fuel : Nat) → Rehearsal → Duration → Rehearsal
  | 0, r, _ => r
  | fuel + 1, r, target =>
    match firstSleeper? r.sleepers with
    | none => r
    | some ((service, wake), sleepers) =>
      if wake.nanos ≤ target.nanos then
        advanceWithin fuel
          ({ r with client := r.client.withClock wake, sleepers }.settle service .wake) target
      else r

/-- Lets time pass; every sleeper wakes at its own time. A watch that wakes sleeps again only after
it has used up some of the script. -/
def advance (r : Rehearsal) (d : Duration) : Rehearsal :=
  let target := r.client.now.plus d
  let r := advanceWithin (r.sleepers.length + r.supply + 1) r target
  { r with client := r.client.withClock target }

def takeLog (r : Rehearsal) : List LogEntry × Rehearsal := (r.log, { r with log := [] })

end Rehearsal

end ServiceDiscovery
