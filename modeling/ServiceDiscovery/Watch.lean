import ServiceDiscovery.Backoff
import ServiceDiscovery.Message
import ServiceDiscovery.Timer
/-!
# Watches

A watch follows one service. It connects, sends a request, receives a response, answers it with the
next request, and so on until the stream is over; then it closes the stream, waits as its backoff
says and connects again. It is a machine that reacts to signals with a new phase and with actions
that it starts; each action is over when the next signal comes.

A watch whose client has been cancelled starts nothing any more: it closes its stream, if it has
one, and stops.
-/

namespace ServiceDiscovery

/-- What the next request says about the responses before it on the same stream. -/
structure Ack where
  versionInfo : String := ""
  responseNonce : String := ""
  errorDetail : Option String := none
  deriving DecidableEq, Repr, Inhabited

namespace Ack

/-- The response was applied. -/
def accept (r : Response) : Ack := ⟨r.versionInfo, r.nonce, none⟩

/-- The response was not applied: the version stays that of the last one that was, while the nonce
is the rejected one's, so that the server can tell which response is meant. -/
def reject (a : Ack) (r : Response) (f : DecodeFailure) : Ack :=
  ⟨a.versionInfo, r.nonce, some f.message⟩

def request (a : Ack) (identity service : String) : Request where
  clientIdentity := identity
  resourceType := endpointTypeUrl
  resourceNames := [resourceName service]
  versionInfo := a.versionInfo
  responseNonce := a.responseNonce
  errorDetail := a.errorDetail

end Ack

/-- An open stream: what to acknowledge, and how many responses it has brought. -/
structure Exchange where
  ack : Ack := {}
  responses : Nat := 0
  deriving DecidableEq, Repr, Inhabited

inductive Ending where
  | cancelled
  /-- The server closed the stream. -/
  | clean
  | failed (responses : Nat)
  deriving DecidableEq, Repr

/-- Whether the delay after a session is the first one again. -/
def Ending.resets : Ending → Bool
  | cancelled => false
  | clean => true
  | failed responses => responses > 0

inductive Phase where
  /-- To be run for the first time. -/
  | starting
  | connecting
  | sending (x : Exchange)
  | receiving (x : Exchange)
  | closing (e : Ending)
  | sleeping (wake : Duration)
  | stopped
  deriving DecidableEq, Repr, Inhabited

inductive Signal where
  /-- It is run because it was started, because its time has come, or because its client has been
  cancelled. -/
  | wake
  | connected
  | connectFailed
  | sent
  | sendFailed
  | received (r : Response)
  /-- The server closed the stream. -/
  | ended
  | receiveFailed
  /-- The stream is closed, or could not be closed and is given up. -/
  | closed
  deriving Repr

inductive Action where
  | connect
  | send (r : Request)
  | receive
  | close
  /-- Asks the timer for a sleep. -/
  | sleep (d : Duration)
  /-- Puts an endpoint list into the cache. -/
  | publish (endpoints : List Endpoint)
  deriving DecidableEq, Repr

structure Watch where
  service : String
  identity : String
  backoff : Backoff
  phase : Phase := .starting
  deriving DecidableEq, Repr, Inhabited

namespace Watch

def connect (w : Watch) : Watch × List Action := ({ w with phase := .connecting }, [.connect])

def send (w : Watch) (x : Exchange) : Watch × List Action :=
  ({ w with phase := .sending x }, [.send (x.ack.request w.identity w.service)])

def receive (w : Watch) (x : Exchange) : Watch × List Action :=
  ({ w with phase := .receiving x }, [.receive])

def close (w : Watch) (e : Ending) : Watch × List Action :=
  ({ w with phase := .closing e }, [.close])

def stop (w : Watch) : Watch × List Action := ({ w with phase := .stopped }, [])

/-- Applies or rejects a response, and answers it. -/
def apply (w : Watch) (x : Exchange) (r : Response) : Watch × List Action :=
  match r.endpoints with
  | .ok endpoints =>
    let (w, actions) := w.send ⟨.accept r, x.responses + 1⟩
    (w, .publish endpoints :: actions)
  | .error f => w.send ⟨x.ack.reject r f, x.responses + 1⟩

/-- The delay before the session that follows an ending, with what is left of the backoff. -/
def delayAfter (w : Watch) (e : Ending) : Duration × Backoff :=
  (if e.resets then w.backoff.reset else w.backoff).next

/-- Asks the timer for the delay, and waits until that sleep is over. -/
def retry (w : Watch) (now : Duration) (e : Ending) : Watch × List Action :=
  let (delay, backoff) := w.delayAfter e
  ({ w with backoff, phase := .sleeping (Timer.wake now delay) }, [.sleep delay])

/-- The reaction of a watch whose client has not been cancelled. A signal that does not belong to
the phase is ignored. -/
def step (w : Watch) (now : Duration) (s : Signal) : Watch × List Action :=
  match w.phase, s with
  | .starting, .wake => w.connect
  | .connecting, .connected => w.send {}
  | .connecting, .connectFailed => w.retry now (.failed 0)
  | .sending x, .sent => w.receive x
  | .sending x, .sendFailed => w.close (.failed x.responses)
  | .receiving x, .received r => w.apply x r
  | .receiving _, .ended => w.close .clean
  | .receiving x, .receiveFailed => w.close (.failed x.responses)
  | .closing e, .closed => w.retry now e
  | .sleeping wake, .wake => if wake.nanos ≤ now.nanos then w.connect else (w, [])
  | _, _ => (w, [])

def wind (w : Watch) (s : Signal) : Watch × List Action :=
  match w.phase, s with
  | .starting, _ => w.stop
  | .connecting, _ => w.stop
  | .sending _, _ => w.close .cancelled
  | .receiving _, _ => w.close .cancelled
  | .closing _, .closed => w.stop
  | .closing _, _ => (w, [])
  | .sleeping _, _ => w.stop
  | .stopped, _ => (w, [])

def react (w : Watch) (cancelled : Bool) (now : Duration) (s : Signal) : Watch × List Action :=
  if cancelled then w.wind s else w.step now s

end Watch

end ServiceDiscovery
