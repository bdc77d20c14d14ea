/-!
# Durations

A duration is a whole number of nanoseconds. Its seconds are kept in 64 bits, so a product may be
too long to be a duration at all.
-/

namespace ServiceDiscovery

structure Duration where
  nanos : Nat
  deriving DecidableEq, Repr, Inhabited

namespace Duration

def nanosPerSecond : Nat := 1000000000

def nanosPerMilli : Nat := 1000000

/-- The first length that is too long: 2^64 seconds. -/
def limit : Nat := UInt64.size * nanosPerSecond

def ofParts (seconds nanos : Nat) : Duration := ⟨seconds * nanosPerSecond + nanos⟩

def ofMillis (ms : Nat) : Duration := ⟨ms * nanosPerMilli⟩

def seconds (d : Duration) : Nat := d.nanos / nanosPerSecond

/-- The nanoseconds beyond the last whole second. -/
def subsecond (d : Duration) : Nat := d.nanos % nanosPerSecond

def plus (d e : Duration) : Duration := ⟨d.nanos + e.nanos⟩

def millis (d : Duration) : Nat := d.nanos / nanosPerMilli

def least (d e : Duration) : Duration := ⟨min d.nanos e.nanos⟩

/-- The duration `k` times as long, if it is one. -/
def times? (d : Duration) (k : Nat) : Option Duration :=
  if d.nanos * k < limit then some ⟨d.nanos * k⟩ else none

end Duration

end ServiceDiscovery
