import ServiceDiscovery.Text.Digit
/-!
# Escapes

What a backslash introduces in a quoted text of a settings source: a quote or another backslash, one
of five controls, or a code point in four or eight hexadecimal digits.
-/

namespace ServiceDiscovery.Text

/-- The character that the first `count` characters name in hexadecimal, and the rest. -/
def readHex? (count : Nat) (t : List Char) : Option (Char × List Char) :=
  let digits := t.take count
  let n := baseValue 16 digits
  if digits.length = count ∧ digits.all isHexDigit ∧ n.isValidChar then
    some (Char.ofNat n, t.drop count)
  else none

/-- Reads what follows a backslash. -/
def readEscape? : List Char → Option (Char × List Char)
  | [] => none
  | c :: t =>
    if c = '"' ∨ c = '\\' then some (c, t)
    else if c = 'b' then some ('\x08', t)
    else if c = 'f' then some ('\x0c', t)
    else if c = 'n' then some ('\n', t)
    else if c = 'r' then some ('\r', t)
    else if c = 't' then some ('\t', t)
    else if c = 'u' then readHex? 4 t
    else if c = 'U' then readHex? 8 t
    else none

/-- Whether a character may stand without an escape: the tab is the only control that may. -/
def isUnescaped (c : Char) : Bool := c = '\t' || (' ' ≤ c && c ≠ '\x7f')

end ServiceDiscovery.Text
