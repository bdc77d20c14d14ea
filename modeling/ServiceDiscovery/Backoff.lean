import ServiceDiscovery.Duration
/-!
# Exponential backoff

Each retry waits twice as long as the one before, up to a ceiling. The doubling factor is a 32-bit
word: once it no longer fits, or its product with the first delay is too long to be a duration, the
ceiling is the delay.
-/

namespace ServiceDiscovery

namespace Backoff

/-- The delays that a backoff may choose from. -/
structure Bounds where
  initial : Duration := Duration.ofMillis 200
  ceiling : Duration := Duration.ofMillis 10000
  deriving DecidableEq, Repr, Inhabited

/-- The attempt counter stops here. -/
def lastAttempt : Nat := UInt32.size - 1

/-- `2 ^ attempt`, where that fits 32 bits. -/
def factor? (attempt : Nat) : Option Nat :=
  if attempt < 32 then some (Nat.pow 2 attempt) else none

end Backoff

/-- A retry loop's own state: how many delays it has taken since it started afresh. -/
structure Backoff where
  bounds : Backoff.Bounds := {}
  attempt : Nat := 0
  deriving DecidableEq, Repr, Inhabited

namespace Backoff

def delay (b : Backoff) : Duration :=
  match (factor? b.attempt).bind b.bounds.initial.times? with
  | some d => d.least b.bounds.ceiling
  | none => b.bounds.ceiling

def advance (b : Backoff) : Backoff := { b with attempt := min (b.attempt + 1) lastAttempt }

def reset (b : Backoff) : Backoff := { b with attempt := 0 }

def next (b : Backoff) : Duration × Backoff := (b.delay, b.advance)

/-- Takes `n + 1` delays and keeps the last of them. -/
def skip : Nat → Backoff → Duration × Backoff
  | 0, b => b.next
  | n + 1, b => skip n b.advance

end Backoff

end ServiceDiscovery
