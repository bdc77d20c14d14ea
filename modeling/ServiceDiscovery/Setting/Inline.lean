import ServiceDiscovery.Setting.Basic
import ServiceDiscovery.Decimal.Reader
import ServiceDiscovery.Text.Blank
import ServiceDiscovery.Text.Escape
import ServiceDiscovery.Text.Parts
/-!
# Settings in one line

The grammar of settings that are given as a bare text, such as a variable of the environment:

* `true` and `false`;
* `"quoted"`, with escapes, and `'c'` for a single character;
* `[a, b]` and `{key=value, key=value}`;
* anything else up to a comma or a bracket, which is a number if it can be read as one. Only a text
  with a point in it can be a floating point number.

A text that is not one value as a whole stands for itself.
-/

namespace ServiceDiscovery.Setting

open Text (isPlainBlank afterWord?)

def skipBlanks (t : List Char) : List Char := t.dropWhile isPlainBlank

/-! ### Quoted text -/

/-- The text that is written between quotes, after the characters in `seen`, which are in reverse
order. It is no longer than `room`. -/
def unescapeAfter? : (room : List Char) → (seen : List Char) → List Char → Option (List Char)
  | _, seen, [] => some seen.reverse
  | [], _, _ :: _ => none
  | _ :: room, seen, c :: t =>
    if c = '\\' then
      match Text.readEscape? t with
      | some (c, t) => unescapeAfter? room (c :: seen) t
      | none => none
    else if Text.isUnescaped c then unescapeAfter? room (c :: seen) t
    else none

/-- The first characters of a text that take at most `count` bytes together. -/
def takeBytes : (count : Nat) → List Char → List Char
  | _, [] => []
  | count, c :: t => if c.utf8Size ≤ count then c :: takeBytes (count - c.utf8Size) t else []

/-- The text that is written between quotes. Of the characters before the first escape only as many
bytes are kept as there are characters, which is all of them where they are ASCII. -/
def unescape? (t : List Char) : Option (List Char) :=
  match t.span (· ≠ '\\') with
  | (_, []) => unescapeAfter? t [] t
  | (plain, escaped) =>
    if plain.all Text.isUnescaped then
      unescapeAfter? escaped (takeBytes plain.length plain).reverse escaped
    else none

/-- Cuts a text at the quote that ends the quoted text before it, of which `seen` has been passed. A
backslash keeps the character behind it from ending the text. -/
def cutQuote? (seen : List Char) : List Char → Option (List Char × List Char)
  | [] => none
  | '"' :: t => some (seen.reverse, t)
  | '\\' :: c :: t => cutQuote? (c :: '\\' :: seen) t
  | c :: t => cutQuote? (c :: seen) t

/-- Reads a quoted text whose opening quote is behind. -/
def readQuoted? (t : List Char) : Option (String × List Char) := do
  let (inner, t) ← cutQuote? [] t
  return (String.ofList (← unescape? inner), t)

/-! ### Bare text -/

def isSeparator (c : Char) : Bool :=
  c = ',' || c = '\x7b' || c = '\x7d' || c = '[' || c = ']'

def unsigned? (t : List Char) : Option Nat :=
  let digits := if t.head? = some '+' then t.tail else t
  if !digits.isEmpty ∧ digits.all Char.isDigit then Text.boundedValue? 10 UInt64.size digits
  else none

def signed? (t : List Char) : Option Int :=
  match t with
  | '-' :: digits =>
    if !digits.isEmpty ∧ digits.all Char.isDigit then
      (Text.boundedValue? 10 (highBit + 1) digits).map fun n => -(n : Int)
    else none
  | _ => none

def ofBare (t : List Char) : Setting :=
  match if '.' ∈ t then Binary64.ofText? t else none with
  | some x => float x
  | none =>
    match unsigned? t, signed? t with
    | some n, _ => unsigned n
    | none, some i => signed i
    | none, none => text (String.ofList t)

/-! ### Values -/

/-- Reads items with commas between them up to the closing bracket. A comma may stand before the
bracket. There are no more items than characters in `room`. -/
def readItems? {α : Type} (item : List Char → Option (α × List Char)) (close : Char) :
    (room : List Char) → List Char → Option (List α × List Char)
  | [], _ => none
  | _ :: room, t =>
    if t.head? = some close then some ([], t.tail)
    else do
      let (v, t) ← item t
      match t with
      | [] => none
      | c :: t =>
        if c = ',' then do
          let (vs, t) ← readItems? item close room t
          return (v :: vs, t)
        else if c = close then return ([v], t)
        else none

def isKeyChar (c : Char) : Bool := c.isAlphanum || c = '_' || c = '-'

def readKey? : List Char → Option (String × List Char)
  | '"' :: t => readQuoted? t
  | t =>
    let (key, t) := t.span isKeyChar
    if key.isEmpty then none else some (String.ofList key, t)

/-- Reads a key and its value. -/
def readMember? (value : List Char → Option (Setting × List Char)) (t : List Char) :
    Option ((String × Setting) × List Char) := do
  let (key, t) ← readKey? (skipBlanks t)
  match skipBlanks t with
  | '=' :: t => do
    let (v, t) ← value t
    return ((key, v), t)
  | _ => none

def readScalar? (t : List Char) : Option (Setting × List Char) :=
  match afterWord? "true" t, afterWord? "false" t, t with
  | some t, _, _ => some (bool true, t)
  | none, some t, _ => some (bool false, t)
  | none, none, '"' :: t => (readQuoted? t).map fun (s, t) => (text s, t)
  | none, none, '\'' :: t =>
    match t with
    | c :: '\'' :: t => some (text (String.singleton c), t)
    | _ => none
  | none, none, t =>
    let (bare, t) := t.span fun c => !isSeparator c
    some (ofBare (Text.trim bare), t)

/-- The table of the given members; of two with one key the later one counts. -/
def ofMembers (members : List (String × Setting)) : Setting :=
  table (members.foldl (fun sorted (key, v) => sorted.filter (·.1 ≠ key) ++ [(key, v)]) [])

/-- Reads a value with the blanks around it. There are no more brackets open at a time than
characters in `room`. -/
def read? : (room : List Char) → List Char → Option (Setting × List Char)
  | [], t => some (text "", t)
  | _ :: room, t =>
    let value : Option (Setting × List Char) := match skipBlanks t with
      | '[' :: t =>
        (readItems? (read? room) ']' t t).map fun (items, t) => (list items, t)
      | '\x7b' :: t =>
        (readItems? (readMember? (read? room)) '\x7d' t t).map fun (members, t) =>
          (ofMembers members, t)
      | t => readScalar? t
    value.map fun (v, t) => (v, skipBlanks t)

/-- The setting that a bare text stands for. -/
def ofText (s : String) : Setting :=
  match read? s.toList s.toList with
  | some (v, []) => v
  | _ => text s

end ServiceDiscovery.Setting
