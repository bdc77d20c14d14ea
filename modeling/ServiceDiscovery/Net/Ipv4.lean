import ServiceDiscovery.Text.Digit
/-!
# IPv4 addresses

Four octets, written in decimal with points between them. An octet has at most three digits and no
leading zero, so that an address has one text only.
-/

namespace ServiceDiscovery

structure Ipv4 where
  first : UInt8
  second : UInt8
  third : UInt8
  fourth : UInt8
  deriving DecidableEq, Repr, Inhabited

namespace Ipv4

def isOctet (digits : List Char) : Bool :=
  !digits.isEmpty && digits.length ≤ 3 && (digits.length = 1 || digits.head? ≠ some '0') &&
    Text.digitsValue 0 digits < 256

/-- Reads an octet, which takes all the digits there are. -/
def readOctet? (t : List Char) : Option (UInt8 × List Char) :=
  let (digits, t) := Text.leadingDigits t
  if isOctet digits then some (UInt8.ofNat (Text.digitsValue 0 digits), t) else none

def readNextOctet? : List Char → Option (UInt8 × List Char)
  | '.' :: t => readOctet? t
  | _ => none

def read? (t : List Char) : Option (Ipv4 × List Char) := do
  let (a, t) ← readOctet? t
  let (b, t) ← readNextOctet? t
  let (c, t) ← readNextOctet? t
  let (d, t) ← readNextOctet? t
  return (⟨a, b, c, d⟩, t)

def ofText? (s : String) : Option Ipv4 :=
  match read? s.toList with
  | some (a, []) => some a
  | _ => none

def write (a : Ipv4) : List Char :=
  Text.decimal a.first.toNat ++ '.' :: Text.decimal a.second.toNat ++
    '.' :: Text.decimal a.third.toNat ++ '.' :: Text.decimal a.fourth.toNat

def text (a : Ipv4) : String := String.ofList a.write

/-- The first and the second half. -/
def halves (a : Ipv4) : UInt16 × UInt16 :=
  (UInt16.ofNat (a.first.toNat * 256 + a.second.toNat),
    UInt16.ofNat (a.third.toNat * 256 + a.fourth.toNat))

def ofHalves (high low : UInt16) : Ipv4 :=
  ⟨UInt8.ofNat (high.toNat / 256), UInt8.ofNat high.toNat, UInt8.ofNat (low.toNat / 256),
    UInt8.ofNat low.toNat⟩

end Ipv4

end ServiceDiscovery
