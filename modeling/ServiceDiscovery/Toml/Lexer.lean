import ServiceDiscovery.Text.Escape
/-!
# The words of TOML

Blanks, comments, ends of lines, quoted texts and keys. A reader takes the characters that are left
and gives back what it read together with the characters after it; it has no answer where the text
is malformed.
-/

namespace ServiceDiscovery.Toml

/-! ### Blanks and lines -/

def isBlank (c : Char) : Bool := c = ' ' || c = '\t'

def skipBlanks (t : List Char) : List Char := t.dropWhile isBlank

/-- The text after the end of a line. -/
def afterNewline? : List Char → Option (List Char)
  | '\n' :: t => some t
  | '\r' :: '\n' :: t => some t
  | _ => none

def skipComment : List Char → List Char
  | '#' :: t => t.dropWhile Text.isUnescaped
  | t => t

/-- The text after the rest of a line on which nothing but a comment may stand. -/
def afterLine? (t : List Char) : Option (List Char) :=
  match skipComment (skipBlanks t) with
  | [] => some []
  | t => afterNewline? t

/-- Skips blanks, comments and ends of lines. There are no more lines than characters in `room`. -/
def skipLines : (room : List Char) → List Char → List Char
  | [], t => t
  | _ :: room, t =>
    match afterNewline? (skipComment (skipBlanks t)) with
    | some t => skipLines room t
    | none => skipBlanks t

def skipGap (t : List Char) : List Char := skipLines t t

def skipBlankLines : List Char → List Char
  | '\n' :: t => skipBlankLines t
  | '\r' :: '\n' :: t => skipBlankLines t
  | c :: t => if isBlank c then skipBlankLines t else c :: t
  | [] => []

/-! ### Quoted text -/

/-- One of the four ways to quote a text. -/
structure Quoting where
  quote : Char
  /-- Whether a backslash introduces an escape. -/
  escapes : Bool
  /-- Whether the quote is tripled, and the text may run over several lines. -/
  tripled : Bool

namespace Quoting

/-- The quotes of the text itself that stand before the closing ones, and the rest, if the text is
closed here. Up to two quotes may precede a tripled quote. -/
def close? (q : Quoting) (t : List Char) : Option (List Char × List Char) :=
  if q.tripled then
    let run := ((t.take 5).takeWhile (· = q.quote)).length
    if run < 3 then none else some (List.replicate (run - 3) q.quote, t.drop run)
  else if t.head? = some q.quote then some ([], t.tail)
  else none

/-- The text after a backslash that continues a line on the next one that is not blank. -/
def afterContinuation? (t : List Char) : Option (List Char) :=
  (afterNewline? (skipBlanks t)).map skipBlankLines

/-- Reads a text up to its closing quote, after the characters in `seen`, which are in reverse
order. It is no longer than `room`. -/
def read? (q : Quoting) : (room : List Char) → (seen : List Char) → List Char →
    Option (List Char × List Char)
  | [], _, _ => none
  | _ :: room, seen, t =>
    match q.close? t, t with
    | some (last, rest), _ => some (seen.reverse ++ last, rest)
    | none, [] => none
    | none, c :: rest =>
      if q.escapes ∧ c = '\\' then
        match if q.tripled then afterContinuation? rest else none with
        | some rest => q.read? room seen rest
        | none =>
          match Text.readEscape? rest with
          | some (c, rest) => q.read? room (c :: seen) rest
          | none => none
      else
        match if q.tripled then afterNewline? t else none with
        | some rest => q.read? room ('\n' :: seen) rest
        | none => if Text.isUnescaped c then q.read? room (c :: seen) rest else none

end Quoting

/-- Reads a text whose opening quote is behind. The end of a line straight after a tripled quote
does not count. -/
def readBody? (q : Quoting) (t : List Char) : Option (String × List Char) :=
  let body := if q.tripled then (afterNewline? t).getD t else t
  (q.read? body [] body).map fun (cs, rest) => (String.ofList cs, rest)

def readLine? : List Char → Option (String × List Char)
  | '"' :: t => readBody? ⟨'"', true, false⟩ t
  | '\'' :: t => readBody? ⟨'\'', false, false⟩ t
  | _ => none

def readText? : List Char → Option (String × List Char)
  | '"' :: '"' :: '"' :: t => readBody? ⟨'"', true, true⟩ t
  | '\'' :: '\'' :: '\'' :: t => readBody? ⟨'\'', false, true⟩ t
  | t => readLine? t

/-! ### Keys -/

def isBare (c : Char) : Bool := c.isAlphanum || c = '_' || c = '-'

def readSimpleKey? (t : List Char) : Option (String × List Char) :=
  match readLine? t with
  | some read => some read
  | none =>
    let (bare, t) := t.span isBare
    if bare.isEmpty then none else some (String.ofList bare, t)

/-- The parts of a key, of which there are at most `room`, with points and blanks between them. -/
def readKey? : (room : Nat) → List Char → Option (List String × List Char)
  | 0, _ => none
  | room + 1, t => do
    let (part, t) ← readSimpleKey? (skipBlanks t)
    match skipBlanks t with
    | '.' :: t => do
      let (parts, t) ← readKey? room t
      return (part :: parts, t)
    | t => return ([part], t)

end ServiceDiscovery.Toml
