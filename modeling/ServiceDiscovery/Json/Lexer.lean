import ServiceDiscovery.Json.Error
import ServiceDiscovery.Text.Digit
/-!
# The words of JSON

Readers of the smallest parts of a JSON text: space, the three fixed words, strings and numbers. A
reader takes the characters that are left and gives back what it read together with the characters
after it. Strings and numbers whose value nobody asks for are skipped by laxer rules of their own:
surrogates need not pair up and no magnitude is too large.
-/

namespace ServiceDiscovery

namespace Json

open Text (hexValue? digitValue boundedValue? leadingDigits)

abbrev Input := List Char

def isSpace (c : Char) : Bool := c = ' ' || c = '\n' || c = '\t' || c = '\r'

def skipSpace (t : Input) : Input := t.dropWhile isSpace

def readWord : List Char → Input → Except Error Input
  | [], t => .ok t
  | _ :: _, [] => .error .endOfValue
  | c :: word, d :: t => if d = c then readWord word t else .error .expectedWord

/-! ### Strings -/

def codeUnit? (a b c d : Char) : Option Nat := do
  let a ← hexValue? a
  let b ← hexValue? b
  let c ← hexValue? c
  let d ← hexValue? d
  return ((a * 16 + b) * 16 + c) * 16 + d

/-- The bytes that the characters take in UTF-8. -/
def byteCount (t : List Char) : Nat := t.foldr (fun c n => c.utf8Size + n) 0

/-- Reads the four digits after `\u`. Fewer than four bytes are the end of the text. -/
def readCodeUnit : Input → Except Error (Nat × Input)
  | a :: b :: c :: d :: t =>
    match codeUnit? a b c d with
    | some n => .ok (n, t)
    | none => .error .invalidEscape
  | t => .error (if byteCount t < 4 then .endOfString else .invalidEscape)

def isHighSurrogate (n : Nat) : Bool := 0xD800 ≤ n && n ≤ 0xDBFF

def isLowSurrogate (n : Nat) : Bool := 0xDC00 ≤ n && n ≤ 0xDFFF

/-- The character above the basic plane that a pair of surrogates stands for. -/
def joinSurrogates (high low : Nat) : Char :=
  Char.ofNat (0x10000 + (high - 0xD800) * 0x400 + (low - 0xDC00))

/-- The second half of a pair of surrogates, with its own `\u`. -/
def readLowSurrogate (high : Nat) : Input → Except Error (Char × Input)
  | '\\' :: 'u' :: t =>
    match readCodeUnit t with
    | .error e => .error e
    | .ok (low, t) =>
      if isLowSurrogate low then .ok (joinSurrogates high low, t) else .error .loneSurrogate
  | [] => .error .endOfString
  | ['\\'] => .error .endOfString
  | _ => .error .unpairedSurrogate

/-- Reads what follows `\u`. -/
def readUnicode (t : Input) : Except Error (Char × Input) :=
  match readCodeUnit t with
  | .error e => .error e
  | .ok (n, t) =>
    if isLowSurrogate n then .error .loneSurrogate
    else if isHighSurrogate n then readLowSurrogate n t
    else .ok (Char.ofNat n, t)

def shortEscape? (c : Char) : Option Char :=
  if c = '"' ∨ c = '\\' ∨ c = '/' then some c
  else if c = 'b' then some '\x08'
  else if c = 'f' then some '\x0c'
  else if c = 'n' then some '\n'
  else if c = 'r' then some '\r'
  else if c = 't' then some '\t'
  else none

def readEscape : Input → Except Error (Char × Input)
  | [] => .error .endOfString
  | c :: t =>
    match shortEscape? c with
    | some d => .ok (d, t)
    | none => if c = 'u' then readUnicode t else .error .invalidEscape

def skipEscape : Input → Except Error Input
  | [] => .error .endOfString
  | c :: t =>
    if (shortEscape? c).isSome then .ok t
    else if c = 'u' then
      match readCodeUnit t with
      | .error e => .error e
      | .ok (_, t) => .ok t
    else .error .invalidEscape

theorem readCodeUnit_length {t r : Input} {n : Nat} (h : readCodeUnit t = .ok (n, r)) :
    r.length < t.length := by
  unfold readCodeUnit at h
  split at h
  · split at h
    · simp only [Except.ok.injEq, Prod.mk.injEq] at h
      obtain ⟨_, rfl⟩ := h
      simp only [List.length_cons]
      omega
    · cases h
  · cases h

theorem readLowSurrogate_length {high : Nat} {t r : Input} {c : Char}
    (h : readLowSurrogate high t = .ok (c, r)) : r.length < t.length := by
  unfold readLowSurrogate at h
  split at h
  · split at h
    · cases h
    · next hu =>
      have hlt := readCodeUnit_length hu
      split at h
      · simp only [Except.ok.injEq, Prod.mk.injEq] at h
        obtain ⟨_, rfl⟩ := h
        simp only [List.length_cons]
        omega
      · cases h
  all_goals cases h

theorem readUnicode_length {t r : Input} {c : Char} (h : readUnicode t = .ok (c, r)) :
    r.length < t.length := by
  unfold readUnicode at h
  split at h
  · cases h
  · next hu =>
    have hlt := readCodeUnit_length hu
    split at h
    · cases h
    · split at h
      · have := readLowSurrogate_length h
        omega
      · simp only [Except.ok.injEq, Prod.mk.injEq] at h
        obtain ⟨_, rfl⟩ := h
        exact hlt

theorem readEscape_length {t r : Input} {c : Char} (h : readEscape t = .ok (c, r)) :
    r.length < t.length := by
  unfold readEscape at h
  split at h
  · cases h
  · split at h
    · simp only [Except.ok.injEq, Prod.mk.injEq] at h
      obtain ⟨_, rfl⟩ := h
      simp
    · split at h
      · have := readUnicode_length h
        simp only [List.length_cons]
        omega
      · cases h

theorem skipEscape_length {t r : Input} (h : skipEscape t = .ok r) : r.length < t.length := by
  unfold skipEscape at h
  split at h
  · cases h
  · split at h
    · cases h
      simp
    · split at h
      · split at h
        · cases h
        · next hu =>
          have hlt := readCodeUnit_length hu
          cases h
          simp only [List.length_cons]
          omega
      · cases h

/-- Reads the characters of a string up to its closing quote, after the ones in `seen`, which are
in reverse order. -/
def readChars (seen : List Char) (t : Input) : Except Error (List Char × Input) :=
  match t with
  | [] => .error .endOfString
  | c :: t =>
    if c = '"' then .ok (seen.reverse, t)
    else if c = '\\' then
      match _h : readEscape t with
      | .error e => .error e
      | .ok (d, t') => readChars (d :: seen) t'
    else if c.toNat < 32 then .error .controlCharacter
    else readChars (c :: seen) t
termination_by t.length
decreasing_by
  · have := readEscape_length _h
    simp only [List.length_cons]
    omega
  · simp

def readString (t : Input) : Except Error (String × Input) := do
  let (cs, t) ← readChars [] t
  return (String.ofList cs, t)

def skipString (t : Input) : Except Error Input :=
  match t with
  | [] => .error .endOfString
  | c :: t =>
    if c = '"' then .ok t
    else if c = '\\' then
      match _h : skipEscape t with
      | .error e => .error e
      | .ok t' => skipString t'
    else if c.toNat < 32 then .error .controlCharacter
    else skipString t
termination_by t.length
decreasing_by
  · have := skipEscape_length _h
    simp only [List.length_cons]
    omega
  · simp

/-! ### Numbers -/

/-- A number as written, after its sign. -/
structure Numeral where
  whole : List Char
  fraction : List Char
  /-- Whether the exponent is negative, and its digits. -/
  exponent : Option (Bool × List Char)

def Numeral.isWhole (n : Numeral) : Bool := n.fraction.isEmpty && n.exponent.isNone

/-- The failure of a number that stops too early. -/
def numberCut : Input → Error
  | [] => .endOfValue
  | _ => .invalidNumber

def readFraction : Input → Except Error (List Char × Input)
  | '.' :: t =>
    let (digits, t) := leadingDigits t
    if digits.isEmpty then .error (numberCut t) else .ok (digits, t)
  | t => .ok ([], t)

def readExponentDigits (t : Input) : Except Error ((Bool × List Char) × Input) :=
  let (isNegative, t) := match t with
    | '-' :: t => (true, t)
    | '+' :: t => (false, t)
    | t => (false, t)
  let (digits, t) := leadingDigits t
  if digits.isEmpty then .error (numberCut t) else .ok ((isNegative, digits), t)

def readExponent : Input → Except Error (Option (Bool × List Char) × Input)
  | c :: t =>
    if c = 'e' ∨ c = 'E' then (readExponentDigits t).map fun (e, t) => (some e, t)
    else .ok (none, c :: t)
  | [] => .ok (none, [])

/-- Reads a number after its sign. It does not begin with a zero that another digit follows. -/
def readNumeral (t : Input) : Except Error (Numeral × Input) :=
  match leadingDigits t with
  | ([], t) => .error (numberCut t)
  | ('0' :: _ :: _, _) => .error .invalidNumber
  | (whole, t) => do
    let (fraction, t) ← readFraction t
    let (exponent, t) ← readExponent t
    return (⟨whole, fraction, exponent⟩, t)

/-- Appends digits to a significand for as long as it fits 64 bits; the answer is the significand
and how many digits were left over. -/
def significand (n : Nat) : List Char → Nat × Nat
  | [] => (n, 0)
  | c :: digits =>
    if n * 10 + digitValue c < UInt64.size then significand (n * 10 + digitValue c) digits
    else (n, digits.length + 1)

/-- Multiplies by a power of ten, in steps of at most 308 places: no double holds a larger power.
A number too large for the format is none. -/
def scaled (x : Float) (exponent : Int) : Option Float :=
  if _h : exponent < -308 then
    if x == 0.0 then some x else scaled (x / 1e308) (exponent + 308)
  else if exponent < 0 then some (x / Float.ofScientific 1 false exponent.natAbs)
  else if exponent ≤ 308 then
    let y := x * Float.ofScientific 1 false exponent.natAbs
    if y.isInf then none else some y
  else if x == 0.0 then some x
  else none
termination_by (-exponent).toNat
decreasing_by omega

/-- From here on, `2 ^ 31`, the digits of an exponent are not even looked at. -/
def exponentLimit : Nat := 2147483648

def Numeral.exponent? (n : Numeral) : Option Nat :=
  match n.exponent with
  | none => some 0
  | some (_, digits) => boundedValue? 10 exponentLimit digits

def Numeral.hasNegativeExponent (n : Numeral) : Bool :=
  match n.exponent with
  | none => false
  | some (isNegative, _) => isNegative

/-- The floating point number of a numeral: its first nineteen or twenty digits, as an integer
rounded once, are scaled by the power of ten that puts the point in its place. -/
def Numeral.toFloat? (n : Numeral) : Option Float :=
  let (head, dropped) := significand 0 n.whole
  let (all, unused) := significand head n.fraction
  let places : Int := dropped - (n.fraction.length - unused : Nat)
  match n.exponent? with
  | none => if all ≠ 0 ∧ !n.hasNegativeExponent then none else some 0.0
  | some e => scaled (UInt64.ofNat all).toFloat (if n.hasNegativeExponent then places - e else places + e)

/-- The whole number that the digits before the point write, if it fits 64 bits. Zero has no sign as
a whole number. -/
def Numeral.toWhole? (isNegative : Bool) (n : Numeral) : Option JsonNumber := do
  let value ← boundedValue? 10 UInt64.size n.whole
  if !isNegative then some (.natural (UInt64.ofNat value))
  else if h : 0 < value ∧ value - 1 < highBit then some (.negative ⟨value - 1, h.2⟩)
  else none

def Numeral.toNumber (isNegative : Bool) (n : Numeral) : Except Error JsonNumber :=
  match if n.isWhole then n.toWhole? isNegative else none with
  | some x => .ok x
  | none =>
    match n.toFloat? with
    | some x => .ok (.binary (.ofFloat (if isNegative then -x else x)))
    | none => .error .numberOutOfRange

def readNumber (isNegative : Bool) (t : Input) : Except Error (JsonNumber × Input) := do
  let (n, t) ← readNumeral t
  return (← n.toNumber isNegative, t)

/-- Skips a number whose sign is behind; one that stops too early is never the end of the text. -/
def skipNumber (t : Input) : Except Error Input :=
  match readNumeral t with
  | .ok (_, t) => .ok t
  | .error _ => .error .invalidNumber

end Json

end ServiceDiscovery
