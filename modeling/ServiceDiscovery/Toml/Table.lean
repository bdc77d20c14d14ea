import ServiceDiscovery.Cache
import ServiceDiscovery.Setting.Basic
/-!
# Tables of a TOML document

A table may be filled in several places of a document, but it is defined in one way only: by its own
header, by dotted keys, or, until it gets a header, by the headers of tables inside it. A key never
gets a second value. Every operation here has no answer where it would break one of these rules.
-/

namespace ServiceDiscovery.Toml

/-- How a table has been defined. -/
inductive Definition where
  /-- By a header, or as an element of a list of tables. -/
  | header
  /-- By the headers of tables inside it only. -/
  | implied
  | dotted
  deriving DecidableEq, Repr

/-- What stands at a key. -/
inductive Node where
  /-- A value, which is complete. -/
  | value (v : Setting)
  | table (definition : Definition) (members : List (String × Node))
  /-- A list of tables, each begun by a header of its own, the last one first. -/
  | tables (last : List (String × Node)) (earlier : List (List (String × Node)))

abbrev Members := List (String × Node)

namespace Members

/-- Gives a dotted key a value: `path` leads to the table in which `key` is new. -/
def define? (m : Members) (path : List String) (key : String) (v : Setting) : Option Members :=
  match path with
  | [] => if (m.lookup key).isSome then none else some (m ++ [(key, .value v)])
  | name :: path =>
    match m.lookup name with
    | none => (define? [] path key v).map fun t => m ++ [(name, .table .dotted t)]
    | some (.value _) => none
    | some (.table .header _) => none
    | some (.table definition t) =>
      if path.isEmpty ∧ definition ≠ .dotted then none
      else (define? t path key v).map fun t => Cache.assign name (.table definition t) m
    | some (.tables last earlier) =>
      if path.isEmpty then none
      else (define? last path key v).map fun t => Cache.assign name (.tables t earlier) m

/-- Changes the table to which a header leads, the last one where there is a list of them. Tables on
the way that are missing are implied. -/
def change? (f : Members → Option Members) (m : Members) (path : List String) : Option Members :=
  match path with
  | [] => f m
  | name :: path =>
    match m.lookup name with
    | none => (change? f [] path).map fun t => m ++ [(name, .table .implied t)]
    | some (.value _) => none
    | some (.table definition t) =>
      (change? f t path).map fun t => Cache.assign name (.table definition t) m
    | some (.tables last earlier) =>
      (change? f last path).map fun t => Cache.assign name (.tables t earlier) m

/-- Opens the table of a header. -/
def openTable? (m : Members) (path : List String) (name : String) : Option Members :=
  change? (fun m =>
    match m.lookup name with
    | none => some (m ++ [(name, .table .header [])])
    | some (.table .implied t) => some (Cache.assign name (.table .header t) m)
    | some _ => none) m path

/-- Begins another table of a list of tables. -/
def openItem? (m : Members) (path : List String) (name : String) : Option Members :=
  change? (fun m =>
    match m.lookup name with
    | none => some (m ++ [(name, .tables [] [])])
    | some (.tables last earlier) => some (Cache.assign name (.tables [] (last :: earlier)) m)
    | some _ => none) m path

end Members

mutual

def Node.toSetting? : Node → Option Setting
  | .value v => some v
  | .table _ members => do Setting.ofFileTable? (← settings? members)
  | .tables last earlier => do
    let v ← Setting.ofFileTable? (← settings? last)
    tableSettings? [v] earlier

def settings? : List (String × Node) → Option (List (String × Setting))
  | [] => some []
  | (key, n) :: rest => do return (key, ← n.toSetting?) :: (← settings? rest)

/-- The list of tables of which the last ones are given as settings, and the ones before them as
tables, the last one first. -/
def tableSettings? (later : List Setting) : List (List (String × Node)) → Option Setting
  | [] => some (.list later)
  | members :: rest => do
    let v ← Setting.ofFileTable? (← settings? members)
    tableSettings? (v :: later) rest

end

end ServiceDiscovery.Toml
