import ServiceDiscovery.Binary64
import ServiceDiscovery.Text.Digit
/-!
# Reading decimals

The number nearest to a written decimal: digits with an optional sign, point and exponent, and at
least one digit before the exponent. A number too large for the format is infinite, and one too
small is zero.
-/

namespace ServiceDiscovery

namespace Binary64

def infinity : Binary64 := ⟨0x7FF0000000000000⟩

def nan : Binary64 := ⟨0x7FF8000000000000⟩

def zero : Binary64 := ⟨0⟩

/-- Takes a sign off a text; the answer is whether it was a minus. -/
def takeSign : List Char → Bool × List Char
  | '-' :: t => (true, t)
  | '+' :: t => (false, t)
  | t => (false, t)

/-- The digits after a point, if there is one. -/
def takeFraction : List Char → List Char × List Char
  | '.' :: t => Text.leadingDigits t
  | t => ([], t)

/-- No text has so many digits that an exponent of this size would not outweigh them. -/
def exponentLimit : Nat := 1000000000000

/-- The exponent that the rest of a text consists of, zero if nothing is left. -/
def exponentOf? : List Char → Option Int
  | [] => some 0
  | c :: t =>
    if c = 'e' ∨ c = 'E' then
      let (isNegative, t) := takeSign t
      let magnitude := (Text.boundedValue? 10 exponentLimit t).getD exponentLimit
      if t.isEmpty ∨ !t.all Char.isDigit then none
      else if isNegative then some (-magnitude) else some magnitude
    else none

/-- How many digits are looked at one by one. No number halfway between two neighbours has as many,
so of the others it only matters whether they are all zero. -/
def manyDigits : Nat := 800

/-- The given digits, or where there are many of them, enough to tell which number is nearest. -/
def decisiveDigits (digits : List Char) : List Char :=
  if (digits.drop manyDigits).all (· = '0') then digits.take manyDigits
  else digits.take manyDigits ++ ['1']

/-- The number nearest to a decimal of the given digits, at any scale: from `10 ^ 400` on it is
infinite and below `10 ^ -400` zero, whatever the digits are. -/
def ofDecimal (digits : List Char) (exponent : Int) : Binary64 :=
  let digits := digits.dropWhile (· = '0')
  let size := digits.length + exponent
  if digits.isEmpty then zero
  else if size > 400 then infinity
  else if size < -400 then zero
  else
    let decisive := decisiveDigits digits
    nearest (Text.digitsValue 0 decisive) (size - decisive.length)

def ofText? (t : List Char) : Option Binary64 :=
  let (isNegative, t) := takeSign t
  let (whole, t) := Text.leadingDigits t
  let (fraction, t) := takeFraction t
  if whole.isEmpty ∧ fraction.isEmpty then none
  else
    (exponentOf? t).map fun e =>
      let x := ofDecimal (whole ++ fraction) (e - fraction.length)
      if isNegative then x.neg else x

end Binary64

end ServiceDiscovery
