import ServiceDiscovery.Toml.Lexer
import ServiceDiscovery.Toml.Number
import ServiceDiscovery.Toml.Table
import ServiceDiscovery.Text.Parts
/-!
# Reading TOML

Values, and documents of lines: a line gives a key a value, or is the header of the table to which
the keys of the next lines belong.
-/

namespace ServiceDiscovery.Toml

/-- Fewer than this many brackets may be open at a time, and fewer parts may make up a key. -/
def limit : Nat := 80

def readScalar? (t : List Char) : Option (Setting × List Char) :=
  match t with
  | [] => none
  | c :: _ =>
    if c = '"' ∨ c = '\'' then (readText? t).map fun (s, t) => (.text s, t)
    else if c = 't' then (Text.afterWord? "true" t).map fun t => (.bool true, t)
    else if c = 'f' then (Text.afterWord? "false" t).map fun t => (.bool false, t)
    else (readMoment? t).or (readNumber? t)

/-- Reads the items of a list up to the bracket that closes it. A comma may stand before the
bracket. There are no more of them than characters in `room`. -/
def readItems? (value : List Char → Option (Setting × List Char)) :
    (room : List Char) → List Char → Option (List Setting × List Char)
  | [], _ => none
  | _ :: room, t =>
    match skipGap t with
    | ']' :: t => some ([], t)
    | t => do
      let (v, t) ← value t
      match skipGap t with
      | ']' :: t => return ([v], t)
      | ',' :: t => do
        let (vs, t) ← readItems? value room t
        return (v :: vs, t)
      | _ => none

def readKeyValue? (value : List Char → Option (Setting × List Char)) (t : List Char) :
    Option ((List String × Setting) × List Char) := do
  let (key, t) ← readKey? (limit - 1) t
  match t with
  | '=' :: t => do
    let (v, t) ← value (skipBlanks t)
    return ((key, v), t)
  | _ => none

/-- Gives a key a value in a table. -/
def define? (m : Members) (key : List String) (v : Setting) : Option Members := do
  m.define? key.dropLast (← key.getLast?) v

/-- Reads the members of a table on one line up to the bracket that closes it. There are no more of
them than characters in `room`. -/
def readMembers? (value : List Char → Option (Setting × List Char)) :
    (room : List Char) → Members → List Char → Option (Members × List Char)
  | [], _, _ => none
  | _ :: room, m, t => do
    let ((key, v), t) ← readKeyValue? value t
    let m ← define? m key v
    match skipBlanks t with
    | '\x7d' :: t => return (m, t)
    | ',' :: t => readMembers? value room m t
    | _ => none

def readInlineTable? (value : List Char → Option (Setting × List Char)) (t : List Char) :
    Option (Setting × List Char) :=
  match skipBlanks t with
  | '\x7d' :: t => some (.table [], t)
  | _ => do
    let (m, t) ← readMembers? value t [] t
    return (← Setting.ofFileTable? (← settings? m), t)

/-- Reads a value in which at most `depth` brackets are open at a time. -/
def readValue? : (depth : Nat) → List Char → Option (Setting × List Char)
  | 0, '[' :: _ => none
  | 0, '\x7b' :: _ => none
  | depth + 1, '[' :: t =>
    (readItems? (readValue? depth) t t).map fun (items, t) => (.list items, t)
  | depth + 1, '\x7b' :: t => readInlineTable? (readValue? depth) t
  | _, t => readScalar? t

/-! ### Documents -/

/-- What has been read of a document. -/
structure Document where
  root : Members := []
  /-- The key of the last header. -/
  header : List String := []

namespace Document

def readHeader? (d : Document) (t : List Char) : Option (Document × List Char) :=
  match t with
  | '[' :: t => do
    let (key, t) ← readKey? (limit - 1) t
    match t with
    | ']' :: ']' :: t => do
      return (⟨← d.root.openItem? key.dropLast (← key.getLast?), key⟩, ← afterLine? t)
    | _ => none
  | t => do
    let (key, t) ← readKey? (limit - 1) t
    match t with
    | ']' :: t => do
      return (⟨← d.root.openTable? key.dropLast (← key.getLast?), key⟩, ← afterLine? t)
    | _ => none

def readLine? (d : Document) (t : List Char) : Option (Document × List Char) :=
  match t with
  | '[' :: t => d.readHeader? t
  | t => do
    let ((key, v), t) ← readKeyValue? (readValue? (limit - 1)) t
    let root ← Members.change? (fun m => Toml.define? m key v) d.root d.header
    return ({ d with root }, ← afterLine? t)

/-- Reads lines to the end of the text. There are no more of them than characters in `room`. -/
def readLines? : (room : List Char) → Document → List Char → Option Document
  | [], d, _ => some d
  | _ :: room, d, t =>
    match skipBlanks t with
    | [] => some d
    | t =>
      match afterLine? t with
      | some t => readLines? room d t
      | none =>
        match d.readLine? t with
        | some (d, t) => readLines? room d t
        | none => none

end Document

/-- The settings that a text writes. A byte order mark may begin it. -/
def parse? (s : String) : Option (List (String × Setting)) :=
  let t := match s.toList with
    | '\ufeff' :: t => t
    | t => t
  (Document.readLines? t {} t).bind fun d => settings? d.root

end ServiceDiscovery.Toml
