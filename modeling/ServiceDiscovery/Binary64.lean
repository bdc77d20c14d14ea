/-!
# Binary floating point

A number of the binary64 format, kept as its bits so that equality is decidable and tells the two
zeros apart. Its magnitude is `mantissa * 2 ^ scale`, exactly.
-/

namespace ServiceDiscovery

/-- The weight of the highest of sixty-four bits, `2 ^ 63`. -/
abbrev highBit : Nat := 9223372036854775808

structure Binary64 where
  bits : UInt64
  deriving DecidableEq, Repr, Inhabited

namespace Binary64

def ofFloat (x : Float) : Binary64 := ⟨x.toBits⟩

def toFloat (d : Binary64) : Float := Float.ofBits d.bits

def isNegative (d : Binary64) : Bool := d.bits.toNat ≥ highBit

/-- How many fractions there are, `2 ^ 52`. -/
abbrev fractions : Nat := 4503599627370496

def exponentBits (d : Binary64) : Nat := d.bits.toNat / fractions % 2048

def fractionBits (d : Binary64) : Nat := d.bits.toNat % fractions

def isInfinite (d : Binary64) : Bool := d.exponentBits = 2047 && d.fractionBits = 0

def isNaN (d : Binary64) : Bool := d.exponentBits = 2047 && d.fractionBits ≠ 0

/-- The integer part of `mantissa * 2 ^ scale`. -/
def mantissa (d : Binary64) : Nat :=
  if d.exponentBits = 0 then d.fractionBits else d.fractionBits + fractions

def scale (d : Binary64) : Int :=
  if d.exponentBits = 0 then -1074 else (d.exponentBits : Int) - 1075

/-- The gap to the next number below is half the gap to the next one above. -/
def isLeastOfBinade (d : Binary64) : Bool := d.fractionBits = 0 && d.exponentBits > 1

def neg (d : Binary64) : Binary64 := ofFloat (-d.toFloat)

/-- The number nearest to `digits * 10 ^ exponent`, a half going to the even neighbour. -/
def nearest (digits : Nat) (exponent : Int) : Binary64 :=
  match exponent with
  | .ofNat e => ofFloat (Float.ofScientific digits false e)
  | .negSucc e => ofFloat (Float.ofScientific digits true (e + 1))

end Binary64

end ServiceDiscovery
