import ServiceDiscovery.Decimal.Shortest
/-!
# Written decimals

Two ways to write the shortest decimal of a binary number. The data notation marks every number as
a fraction and writes very large and very small ones with an exponent; the plain notation never
uses an exponent and writes whole numbers without a point.
-/

namespace ServiceDiscovery

namespace Decimal

/-- How to write a decimal. -/
structure Style where
  /-- Whether a number whose leading digit stands for `10 ^ e` is written without an exponent. -/
  isPositional : Int → Bool
  /-- Whether a whole number ends in `.0`. -/
  marksWhole : Bool
  /-- Which of two equally near decimals is written. -/
  tie : Tie

/-- An exponent is used below `10 ^ -5` and from `10 ^ 16` on. -/
def Style.data : Style := ⟨fun e => decide (-5 ≤ e ∧ e ≤ 15), true, .even⟩

def Style.plain : Style := ⟨fun _ => true, false, .up⟩

def zeros (n : Nat) : List Char := List.replicate n '0'

def writeExponent (e : Int) : List Char :=
  'e' :: (if e < 0 then '-' else '+') :: Nat.toDigits 10 e.natAbs

def writePositional (style : Style) (digits : List Char) (exponent : Int) : List Char :=
  match exponent with
  | .ofNat n => digits ++ zeros n ++ (if style.marksWhole then ['.', '0'] else [])
  | .negSucc n =>
    let padded := zeros (n + 2 - digits.length) ++ digits
    padded.take (padded.length - (n + 1)) ++ '.' :: padded.drop (padded.length - (n + 1))

def writeScientific (digits : List Char) (leading : Int) : List Char :=
  match digits with
  | [] => []
  | [d] => d :: writeExponent leading
  | d :: rest => d :: '.' :: rest ++ writeExponent leading

def write (style : Style) (d : Decimal) : List Char :=
  let digits := Nat.toDigits 10 d.digits
  let leading := d.exponent + digits.length - 1
  if style.isPositional leading then writePositional style digits d.exponent
  else writeScientific digits leading

end Decimal

namespace Binary64

def write (style : Decimal.Style) (d : Binary64) : List Char :=
  if d.isNaN then "NaN".toList
  else
    let sign := if d.isNegative then ['-'] else []
    sign ++ if d.isInfinite then "inf".toList else (Decimal.shortest style.tie d).write style

end Binary64

end ServiceDiscovery
