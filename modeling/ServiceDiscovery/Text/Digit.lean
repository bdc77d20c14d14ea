/-!
# Digits

The values of decimal and hexadecimal digits, and of runs of them.
-/

namespace ServiceDiscovery.Text

def digitValue (c : Char) : Nat := c.toNat - '0'.toNat

def hexValue? (c : Char) : Option Nat :=
  if '0' ≤ c ∧ c ≤ '9' then some (c.toNat - '0'.toNat)
  else if 'a' ≤ c ∧ c ≤ 'f' then some (c.toNat - 'a'.toNat + 10)
  else if 'A' ≤ c ∧ c ≤ 'F' then some (c.toNat - 'A'.toNat + 10)
  else none

def isHexDigit (c : Char) : Bool := (hexValue? c).isSome

/-- The number that decimal digits write, after `n`. -/
def digitsValue (n : Nat) (digits : List Char) : Nat :=
  digits.foldl (fun n c => n * 10 + digitValue c) n

/-- The number that digits write in a base of at most sixteen. -/
def baseValue (base : Nat) (digits : List Char) : Nat :=
  digits.foldl (fun n c => n * base + (hexValue? c).getD 0) 0

/-- The number that digits write in a base of at most sixteen, if it is below `bound`. However many
digits there are, no number much larger is ever computed. -/
def boundedValue? (base bound : Nat) (digits : List Char) : Option Nat :=
  digits.foldlM (fun n c =>
    let m := n * base + (hexValue? c).getD 0
    if m < bound then some m else none) 0

def decimal (n : Nat) : List Char := Nat.toDigits 10 n

/-- The digits that a text begins with, and the rest. -/
def leadingDigits (t : List Char) : List Char × List Char := t.span Char.isDigit

end ServiceDiscovery.Text
