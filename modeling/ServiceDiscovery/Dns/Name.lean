import ServiceDiscovery.Text.Parts
/-!
# Domain names

A name is a list of labels, and its letters may be written in either case. As text the labels stand
with points between them; a character of a label that is no letter, digit, underscore or inner
hyphen is escaped there, except for an asterisk at the beginning.
-/

namespace ServiceDiscovery.Dns

structure Name where
  /-- From the left, none of them empty. -/
  labels : List (List Char)
  deriving DecidableEq, Repr

namespace Name

/-- The name that a text writes; empty labels are dropped. -/
def ofText (s : String) : Name := ⟨(Text.parts '.' s.toList).filter fun label => !label.isEmpty⟩

def lower (n : Name) : Name := ⟨n.labels.map fun label => label.map Char.toLower⟩

def octal (b : UInt8) : List Char :=
  let digit := fun n => Char.ofNat ('0'.toNat + n % 8)
  [digit (b.toNat / 64), digit (b.toNat / 8), digit b.toNat]

/-- Whether a character of a label stands for itself. -/
def isSafe (first : Bool) (c : Char) : Bool :=
  c.isAlphanum || c = '_' || (c = '-' && !first) || (c = '*' && first)

def writeChar (first : Bool) (c : Char) : List Char :=
  if isSafe first c then [c]
  else if '!' ≤ c ∧ c ≤ '~' then ['\\', c]
  else (String.singleton c).toUTF8.data.toList.flatMap fun b => '\\' :: octal b

def writeLabel : List Char → List Char
  | [] => []
  | c :: rest => writeChar true c ++ rest.flatMap (writeChar false)

/-- The text of a name, without a point at its end. -/
def text (n : Name) : String := String.ofList (Text.join ['.'] (n.labels.map writeLabel))

def fullText (n : Name) : String := n.text ++ "."

end Name

end ServiceDiscovery.Dns
