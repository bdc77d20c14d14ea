import ServiceDiscovery.Binary64
/-!
# JSON values

A whole number is kept exactly while it fits 64 bits, with its sign; every other number is a binary
floating point number. The members of an object are kept in increasing order of their keys, each key
once, so that equal objects are equal lists.
-/

namespace ServiceDiscovery

/-- A number. The negative whole numbers are `-1 - n` for a 63-bit `n`. -/
inductive JsonNumber where
  | natural (n : UInt64)
  | negative (n : Fin highBit)
  | binary (x : Binary64)
  deriving DecidableEq, Repr

inductive Json where
  | null
  | bool (b : Bool)
  | number (n : JsonNumber)
  | string (s : String)
  | array (items : List Json)
  | object (members : List (String × Json))
  deriving Repr

namespace Json

instance : Inhabited Json := ⟨null⟩

/-- Puts a member where its key belongs; a member with that key gives way. -/
def insertMember (key : String) (value : Json) : List (String × Json) → List (String × Json)
  | [] => [(key, value)]
  | (k, v) :: rest =>
    if key < k then (key, value) :: (k, v) :: rest
    else if key = k then (key, value) :: rest
    else (k, v) :: insertMember key value rest

/-- The object with the given members; of two with one key the later one counts. -/
def ofMembers (members : List (String × Json)) : Json :=
  object (members.foldl (fun sorted (k, v) => insertMember k v sorted) [])

def natural (n : Nat) : Json := number (.natural (UInt64.ofNat n))

end Json

end ServiceDiscovery
