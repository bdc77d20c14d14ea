import ServiceDiscovery.Json.Basic
import ServiceDiscovery.Decimal.Style
/-!
# Written JSON

Values are written without any space between tokens. In a string the quote, the backslash and the
characters below the space are escaped and nothing else is, so a written value never holds a line
break.
-/

namespace ServiceDiscovery

namespace Json

def hexDigit (n : Nat) : Char := Nat.digitChar n

def escapeChar (c : Char) : List Char :=
  if c = '"' then ['\\', '"']
  else if c = '\\' then ['\\', '\\']
  else if 32 ≤ c.toNat then [c]
  else if c.toNat = 8 then ['\\', 'b']
  else if c.toNat = 9 then ['\\', 't']
  else if c.toNat = 10 then ['\\', 'n']
  else if c.toNat = 12 then ['\\', 'f']
  else if c.toNat = 13 then ['\\', 'r']
  else ['\\', 'u', '0', '0', hexDigit (c.toNat / 16), hexDigit (c.toNat % 16)]

def writeString (s : String) : List Char := '"' :: s.toList.flatMap escapeChar ++ ['"']

def writeNat (n : Nat) : List Char := Nat.toDigits 10 n

def writeNumber : JsonNumber → List Char
  | .natural n => writeNat n.toNat
  | .negative n => '-' :: writeNat (n.val + 1)
  | .binary x => x.write .data

def commaSeparated : List (List Char) → List Char
  | [] => []
  | [item] => item
  | item :: rest => item ++ ',' :: commaSeparated rest

def writeList (items : List (List Char)) : List Char := '[' :: commaSeparated items ++ [']']

def writeMember (key : String) (value : List Char) : List Char := writeString key ++ ':' :: value

def writeObject (members : List (List Char)) : List Char :=
  '\x7b' :: commaSeparated members ++ ['\x7d']

mutual

def write : Json → List Char
  | null => "null".toList
  | bool true => "true".toList
  | bool false => "false".toList
  | number n => writeNumber n
  | string s => writeString s
  | array items => writeList (writeItems items)
  | object members => writeObject (writeMembers members)

def writeItems : List Json → List (List Char)
  | [] => []
  | v :: rest => write v :: writeItems rest

def writeMembers : List (String × Json) → List (List Char)
  | [] => []
  | (k, v) :: rest => writeMember k (write v) :: writeMembers rest

end

def text (v : Json) : String := String.ofList (write v)

end Json

end ServiceDiscovery
