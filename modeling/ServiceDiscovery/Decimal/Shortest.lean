import ServiceDiscovery.Binary64
/-!
# Shortest decimals

Many decimals round to a given binary number. The shortest of them lies on the coarsest decimal
grid that has a point in the interval of those decimals, and of two such points the nearer one is
taken. Where both are equally near a rule for ties decides. All comparisons are between integers.
-/

namespace ServiceDiscovery

/-- The number `digits * 10 ^ exponent`. -/
structure Decimal where
  digits : Nat
  exponent : Int
  deriving DecidableEq, Repr, Inhabited

namespace Decimal

/-- Which of two equally near points is taken. -/
inductive Tie where
  /-- The one with an even last digit. -/
  | even
  /-- The larger one. -/
  | up
  deriving DecidableEq, Repr

/-- Whether the lower one of two equally near points, which are `below` and `below + 1`, is taken. -/
def Tie.keeps (tie : Tie) (below : Nat) : Bool :=
  match tie with
  | even => below % 2 = 0
  | up => false

/-- The integer power of `base`, or one where the exponent is negative. -/
def power (base : Nat) (exponent : Int) : Nat := Nat.pow base exponent.toNat

/-- The reals that round to one binary number, all three bounds in quarters of `2 ^ scale`. -/
structure Interval where
  low : Nat
  middle : Nat
  high : Nat
  closed : Bool
  scale : Int

namespace Interval

def ofBinary64 (d : Binary64) : Interval where
  low := 4 * d.mantissa - (if d.isLeastOfBinade then 1 else 2)
  middle := 4 * d.mantissa
  high := 4 * d.mantissa + 2
  closed := d.mantissa % 2 = 0
  scale := d.scale - 2

/-- What a bound is multiplied by, and what a point of the grid `10 ^ e` is, before comparing. -/
def weights (i : Interval) (e : Int) : Nat × Nat :=
  (power 2 i.scale * power 10 (-e), power 10 e * power 2 (-i.scale))

def contains (i : Interval) (e : Int) (point : Nat) : Bool :=
  let (bound, grid) := i.weights e
  if i.closed then i.low * bound ≤ point * grid && point * grid ≤ i.high * bound
  else i.low * bound < point * grid && point * grid < i.high * bound

/-- The point of the grid `10 ^ e` to choose, if one of the middle's two neighbours is inside. -/
def pick? (i : Interval) (tie : Tie) (e : Int) : Option Nat :=
  let (bound, grid) := i.weights e
  let below := i.middle * bound / grid
  let rest := i.middle * bound - below * grid
  match i.contains e below, i.contains e (below + 1) with
  | true, true =>
    some (if 2 * rest < grid ∨ 2 * rest = grid ∧ tie.keeps below then below else below + 1)
  | true, false => some below
  | false, true => some (below + 1)
  | false, false => none

/-- Tries `n` grids, each ten times finer than the one before. -/
def search (i : Interval) (tie : Tie) : Nat → Int → Decimal
  | 0, e => ⟨0, e⟩
  | n + 1, e =>
    match i.pick? tie e with
    | some digits => ⟨digits, e⟩
    | none => i.search tie n (e - 1)

end Interval

/-- The shortest decimal that rounds to the magnitude of a finite number. -/
def shortest (tie : Tie) (d : Binary64) : Decimal :=
  if d.mantissa = 0 then ⟨0, 0⟩ else (Interval.ofBinary64 d).search tie 660 310

end Decimal

end ServiceDiscovery
