import ServiceDiscovery.Json.Basic
import ServiceDiscovery.Decimal.Style
import ServiceDiscovery.Text.Quoted
/-!
# Setting values

What a source of settings can give for a key, before it is known what is wanted there. Sources tell
whole numbers apart by whether they can hold a sign at all.
-/

namespace ServiceDiscovery

inductive Setting where
  | unit
  | bool (b : Bool)
  | unsigned (n : Nat)
  | signed (i : Int)
  | float (x : Binary64)
  | text (s : String)
  | list (items : List Setting)
  | table (members : List (String × Setting))
  deriving Repr

namespace Setting

instance : Inhabited Setting := ⟨unit⟩

def describe : Setting → String
  | unit => "unit"
  | bool b => "bool " ++ toString b
  | unsigned n => "unsigned int `" ++ toString n ++ "`"
  | signed i => "signed int `" ++ toString i ++ "`"
  | float x => "float `" ++ String.ofList (x.write .plain) ++ "`"
  | text s => "string " ++ Text.quoted s
  | list _ => "sequence"
  | table _ => "map"

def ofNumber : JsonNumber → Setting
  | .natural n => unsigned n.toNat
  | .negative n => signed (-1 - n.val)
  | .binary x => float x

/-- The member of a table in a file that stands for the whole table. -/
def valueKey : String := "___figment_value_value"

/-- The member of a table in a file that says where the table comes from. -/
def originKey : String := "___figment_value_id"

/-- Whether a value can say where a table comes from. It is not used any further. -/
def isOrigin : Setting → Bool
  | unsigned _ => true
  | _ => false

/-- What a table in a file stands for: the value of one member, if it has that one, or else the table
of all members but the one for its origin, which has to be well formed. -/
def ofFileTable? (members : List (String × Setting)) : Option Setting :=
  if ((members.lookup originKey).map isOrigin).getD true then
    (members.lookup valueKey).or (some (table (members.filter (·.1 ≠ originKey))))
  else none

mutual

/-- The setting that a JSON value in a file stands for. -/
def ofJson? : Json → Option Setting
  | .null => some unit
  | .bool b => some (bool b)
  | .number n => some (ofNumber n)
  | .string s => some (text s)
  | .array items => (ofJsonItems? items).map list
  | .object members => (ofJsonMembers? members).bind ofFileTable?

def ofJsonItems? : List Json → Option (List Setting)
  | [] => some []
  | v :: rest => do return (← ofJson? v) :: (← ofJsonItems? rest)

def ofJsonMembers? : List (String × Json) → Option (List (String × Setting))
  | [] => some []
  | (key, v) :: rest => do return (key, ← ofJson? v) :: (← ofJsonMembers? rest)

end

end Setting

end ServiceDiscovery
