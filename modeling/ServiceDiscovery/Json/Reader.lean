import ServiceDiscovery.Json.Lexer
/-!
# Reading JSON

Readers of lists and objects, over a reader of what they hold, and from them two readers of whole
values: one that builds the value and refuses nesting beyond a given depth, and one that only skips
it, at any depth. Reading stops at the first failure from the left.
-/

namespace ServiceDiscovery

namespace Json

/-- Where a reader of a list or an object stands: before another element, or behind the bracket
that closes it. -/
inductive Next where
  | element (t : Input)
  | closed (t : Input)

def nextItem (first : Bool) (t : Input) : Except Error Next :=
  match skipSpace t with
  | [] => .error .endOfList
  | c :: t =>
    if c = ']' then .ok (.closed t)
    else if first then .ok (.element (c :: t))
    else if c = ',' then
      match skipSpace t with
      | [] => .error .endOfValue
      | d :: t => if d = ']' then .error .trailingComma else .ok (.element (d :: t))
    else .error .expectedListComma

def nextKey (first : Bool) (t : Input) : Except Error Next :=
  match skipSpace t with
  | [] => .error .endOfObject
  | c :: t =>
    if c = '\x7d' then .ok (.closed t)
    else if first then if c = '"' then .ok (.element t) else .error .keyNotString
    else if c = ',' then
      match skipSpace t with
      | [] => .error .endOfValue
      | d :: t =>
        if d = '"' then .ok (.element t)
        else if d = '\x7d' then .error .trailingComma
        else .error .keyNotString
    else .error .expectedObjectComma

def readColon (t : Input) : Except Error Input :=
  match skipSpace t with
  | [] => .error .endOfObject
  | c :: t => if c = ':' then .ok t else .error .expectedColon

/-- Reads the bracket that closes a list of which no further item is wanted. -/
def closeList (t : Input) : Except Error Input :=
  match skipSpace t with
  | [] => .error .endOfList
  | c :: t =>
    if c = ']' then .ok t
    else if c = ',' then
      if (skipSpace t).head? = some ']' then .error .trailingComma else .error .trailingCharacters
    else .error .trailingCharacters

/-- Reads items up to the bracket that closes the list. There are no more of them than characters
in `room`. -/
def readItems {α : Type} (item : Input → Except Error (α × Input)) :
    (room : Input) → (first : Bool) → Input → Except Error (List α × Input)
  | [], _, _ => .error .endOfList
  | _ :: room, first, t => do
    match ← nextItem first t with
    | .closed t => return ([], t)
    | .element t =>
      let (v, t) ← item t
      let (rest, t) ← readItems item room false t
      return (v :: rest, t)

def readList {α : Type} (item : Input → Except Error (α × Input)) (t : Input) :
    Except Error (List α × Input) :=
  readItems item t true t

/-- Reads members up to the bracket that closes the object; `member` is given what has been
gathered so far and the key, and reads from the colon on. -/
def readMembers {σ : Type} (member : σ → String → Input → Except Error (σ × Input)) :
    (room : Input) → (first : Bool) → σ → Input → Except Error (σ × Input)
  | [], _, _, _ => .error .endOfObject
  | _ :: room, first, s, t => do
    match ← nextKey first t with
    | .closed t => return (s, t)
    | .element t =>
      let (key, t) ← readString t
      let (s, t) ← member s key t
      readMembers member room false s t

def readObject {σ : Type} (member : σ → String → Input → Except Error (σ × Input)) (s : σ)
    (t : Input) : Except Error (σ × Input) :=
  readMembers member t true s t

/-! ### Values -/

/-- Reads one of the words, a number or a string, which begins the input. -/
def readScalar : Input → Except Error (Json × Input)
  | [] => .error .endOfValue
  | c :: t =>
    if c = 'n' then (readWord "ull".toList t).map fun t => (null, t)
    else if c = 't' then (readWord "rue".toList t).map fun t => (bool true, t)
    else if c = 'f' then (readWord "alse".toList t).map fun t => (bool false, t)
    else if c = '-' then (readNumber true t).map fun (n, t) => (number n, t)
    else if c.isDigit then (readNumber false (c :: t)).map fun (n, t) => (number n, t)
    else if c = '"' then (readString t).map fun (s, t) => (string s, t)
    else .error .expectedValue

def readEntry (value : Input → Except Error (Json × Input)) (members : List (String × Json))
    (key : String) (t : Input) : Except Error (List (String × Json) × Input) := do
  let (v, t) ← value (← readColon t)
  return (insertMember key v members, t)

/-- Reads a value in which at most `depth` brackets are open at a time. -/
def readValue : (depth : Nat) → Input → Except Error (Json × Input)
  | 0, t =>
    match skipSpace t with
    | '[' :: _ => .error .tooDeep
    | '\x7b' :: _ => .error .tooDeep
    | t => readScalar t
  | depth + 1, t =>
    match skipSpace t with
    | '[' :: t => (readList (readValue depth) t).map fun (items, t) => (array items, t)
    | '\x7b' :: t =>
      (readObject (readEntry (readValue depth)) [] t).map fun (members, t) => (object members, t)
    | t => readScalar t

/-- What a value that begins the input is, where none of its kind is wanted. -/
def mismatch (expected : String) (t : Input) : Error :=
  match t with
  | '[' :: _ => .invalidType .sequence expected
  | '\x7b' :: _ => .invalidType .map expected
  | t =>
    match readScalar t with
    | .ok (v, _) => .invalidType v.toFound expected
    | .error e => e

/-! ### Skipped values

A skipped value may be nested to any depth, so the brackets that are open are kept in a list. -/

/-- The kind of a bracket. -/
inductive Bracket where
  | list
  | object
  deriving DecidableEq, Repr

namespace Bracket

def closing : Bracket → Char
  | list => ']'
  | object => '\x7d'

/-- The failure of a text that ends before the bracket is closed. -/
def unclosed : Bracket → Error
  | list => .endOfList
  | object => .endOfObject

/-- The failure of an element that no comma separates from the one before it. -/
def unseparated : Bracket → Error
  | list => .expectedListComma
  | object => .expectedObjectComma

end Bracket

/-- What is left of a value that is being skipped: the open brackets, the innermost first, whether
nothing has been passed inside that one, and the characters that are left. -/
structure Skipping where
  opened : List Bracket
  first : Bool
  rest : Input

def skipScalar : Input → Except Error Input
  | [] => .error .endOfValue
  | c :: t =>
    if c = '-' then skipNumber t
    else if c.isDigit then skipNumber (c :: t)
    else if c = '"' then skipString t
    else (readScalar (c :: t)).map (·.2)

def skipKey (t : Input) : Except Error Input :=
  match skipSpace t with
  | [] => .error .endOfObject
  | c :: t => do if c = '"' then readColon (← skipString t) else .error .keyNotString

/-- Skips the bracket that opens a value, or a value without brackets. -/
def enterValue (opened : List Bracket) (t : Input) : Except Error Skipping :=
  match skipSpace t with
  | '[' :: t => .ok ⟨.list :: opened, true, t⟩
  | '\x7b' :: t => .ok ⟨.object :: opened, true, t⟩
  | t => (skipScalar t).map fun t => ⟨opened, false, t⟩

/-- Enters the next element inside a bracket. -/
def Bracket.enterElement (b : Bracket) (outer : List Bracket) (t : Input) : Except Error Skipping :=
  match b with
  | .list => enterValue (.list :: outer) t
  | .object => do enterValue (.object :: outer) (← skipKey t)

/-- Moves on inside a bracket: out of it, or into its next element. -/
def Bracket.moveOn (b : Bracket) (outer : List Bracket) (first : Bool) (t : Input) :
    Except Error Skipping :=
  match skipSpace t with
  | [] => .error b.unclosed
  | c :: t =>
    if c = b.closing then .ok ⟨outer, false, t⟩
    else if first then b.enterElement outer (c :: t)
    else if c = ',' then b.enterElement outer t
    else .error b.unseparated

/-- Moves on until no bracket is open. Every move takes a character, so there are no more moves than
characters in `room`. -/
def skipOpened : (room : Input) → Skipping → Except Error Input
  | _, ⟨[], _, t⟩ => .ok t
  | [], ⟨b :: _, _, _⟩ => .error b.unclosed
  | _ :: room, ⟨b :: outer, first, t⟩ =>
    match b.moveOn outer first t with
    | .ok s => skipOpened room s
    | .error e => .error e

def skipValue (t : Input) : Except Error Input := do skipOpened t (← enterValue [] t)

/-! ### Whole texts -/

/-- The deepest nesting that is read. -/
def maxDepth : Nat := 127

/-- Runs a reader on a whole text: nothing but space may be left. -/
def readWhole {α : Type} (reader : Input → Except Error (α × Input)) (s : String) :
    Except Error α := do
  let (v, t) ← reader s.toList
  if (skipSpace t).isEmpty then return v else .error .trailingCharacters

def parse (s : String) : Except Error Json := readWhole (readValue maxDepth) s

end Json

end ServiceDiscovery
