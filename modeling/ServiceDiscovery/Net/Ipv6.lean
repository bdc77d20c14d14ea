import ServiceDiscovery.Net.Ipv4
import ServiceDiscovery.Text.Parts
/-!
# IPv6 addresses

Eight groups of sixteen bits, written in hexadecimal with colons between them. Once in a text two
colons stand for the groups of value zero that are missing, and the last two groups may be written
as an IPv4 address. The canonical text drops leading zeros and shortens the longest run of two or
more zero groups, the first of several; an address that maps an IPv4 address is written with it.
-/

namespace ServiceDiscovery

structure Ipv6 where
  groups : List UInt16
  length_eq : groups.length = 8 := by decide
  deriving DecidableEq, Repr

namespace Ipv6

/-! ### Reading -/

def hexDigits (t : List Char) : List Char × List Char := t.span Text.isHexDigit

/-- Reads a group, which takes all the digits there are: four at most. -/
def readGroup? (t : List Char) : Option (UInt16 × List Char) :=
  let (digits, t) := hexDigits t
  if digits.isEmpty ∨ digits.length > 4 then none
  else some (UInt16.ofNat (Text.baseValue 16 digits), t)

/-- Reads a part of an address after the colon that separates it from the part before, if there is
one. -/
def readPart? {α : Type} (first : Bool) (part : List Char → Option (α × List Char)) (t : List Char) :
    Option (α × List Char) :=
  if first then part t
  else
    match t with
    | ':' :: t => part t
    | _ => none

/-- A series of groups, and whether an IPv4 address ends it. -/
structure Series where
  groups : List UInt16
  endsInIpv4 : Bool

/-- Reads at most `limit` groups. An IPv4 address is preferred where there is room for it. -/
def readSeries : (limit : Nat) → (first : Bool) → List Char → Series × List Char
  | 0, _, t => (⟨[], false⟩, t)
  | limit + 1, first, t =>
    match if limit > 0 then readPart? first Ipv4.read? t else none with
    | some (a, t) => (⟨[a.halves.1, a.halves.2], true⟩, t)
    | none =>
      match readPart? first readGroup? t with
      | none => (⟨[], false⟩, t)
      | some (g, t) =>
        let (s, t) := readSeries limit false t
        (⟨g :: s.groups, s.endsInIpv4⟩, t)

def ofGroups? (groups : List UInt16) : Option Ipv6 :=
  if h : groups.length = 8 then some ⟨groups, h⟩ else none

/-- Reads an address that begins a text. Two colons stand for at least one group. -/
def read? (t : List Char) : Option (Ipv6 × List Char) :=
  match readSeries 8 true t with
  | (⟨groups, false⟩, ':' :: ':' :: rest) =>
    if groups.length < 8 then
      let (tail, rest) := readSeries (7 - groups.length) true rest
      let missing := 8 - groups.length - tail.groups.length
      (ofGroups? (groups ++ List.replicate missing 0 ++ tail.groups)).map (·, rest)
    else (ofGroups? groups).map (·, ':' :: ':' :: rest)
  | (s, rest) => (ofGroups? s.groups).map (·, rest)

def ofText? (s : String) : Option Ipv6 :=
  match read? s.toList with
  | some (a, []) => some a
  | _ => none

/-! ### Writing -/

def writeGroups (groups : List UInt16) : List Char :=
  Text.join [':'] (groups.map fun g => Nat.toDigits 16 g.toNat)

/-- The first of the longest runs of zeros: its start and its length. -/
def longestZeros : List UInt16 → Nat × Nat
  | [] => (0, 0)
  | g :: rest =>
    let (start, length) := longestZeros rest
    let here := ((g :: rest).takeWhile (· = 0)).length
    if here ≥ length then (0, here) else (start + 1, length)

/-- The IPv4 address that an address maps. -/
def mapped? (a : Ipv6) : Option Ipv4 :=
  match a.groups with
  | [0, 0, 0, 0, 0, 0xffff, high, low] => some (Ipv4.ofHalves high low)
  | _ => none

def write (a : Ipv6) : List Char :=
  match a.mapped? with
  | some v4 => "::ffff:".toList ++ v4.write
  | none =>
    let (start, length) := longestZeros a.groups
    if length > 1 then
      writeGroups (a.groups.take start) ++ ':' :: ':' :: writeGroups (a.groups.drop (start + length))
    else writeGroups a.groups

def text (a : Ipv6) : String := String.ofList a.write

end Ipv6

end ServiceDiscovery
