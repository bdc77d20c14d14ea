import ServiceDiscovery.Decimal.Reader
import ServiceDiscovery.Setting.Basic
/-!
# Numbers and moments in TOML

Whole numbers of 64 bits in four bases, floating point numbers, and dates and times. A single
underscore may stand between two digits. A moment has to exist in the calendar; the second sixty is
allowed for the sake of leap seconds.
-/

namespace ServiceDiscovery.Toml

/-! ### Runs of digits -/

/-- The digits that go on a run, each of which an underscore may precede. -/
def readMoreDigits? (isDigit : Char → Bool) : List Char → Option (List Char × List Char)
  | '_' :: c :: t =>
    if isDigit c then (readMoreDigits? isDigit t).map fun (ds, t) => (c :: ds, t) else none
  | ['_'] => none
  | c :: t =>
    if isDigit c then (readMoreDigits? isDigit t).map fun (ds, t) => (c :: ds, t)
    else some ([], c :: t)
  | [] => some ([], [])

/-- Reads a run of at least one digit. The underscores are dropped. -/
def readDigits? (isDigit : Char → Bool) : List Char → Option (List Char × List Char)
  | c :: t =>
    if isDigit c then (readMoreDigits? isDigit t).map fun (ds, t) => (c :: ds, t) else none
  | [] => none

/-- Reads the digits before the point: a zero stands alone. -/
def readWhole? : List Char → Option (List Char × List Char)
  | '0' :: t => some (['0'], t)
  | t => readDigits? Char.isDigit t

/-! ### Numbers -/

/-- The whole number that digits write, if it fits 64 bits with its sign. -/
def integer? (base : Nat) (isNegative : Bool) (digits : List Char) : Option Setting :=
  if isNegative then
    (Text.boundedValue? base (highBit + 1) digits).map fun n => .signed (-(n : Int))
  else (Text.boundedValue? base highBit digits).map fun n => .signed n

def readBase? (base : Nat) (isDigit : Char → Bool) (t : List Char) :
    Option (Setting × List Char) := do
  let (digits, t) ← readDigits? isDigit t
  return (← integer? base false digits, t)

def readFraction? : List Char → Option (List Char × List Char)
  | '.' :: t => (readDigits? Char.isDigit t).map fun (ds, t) => ('.' :: ds, t)
  | t => some ([], t)

def readExponent? : List Char → Option (List Char × List Char)
  | c :: t =>
    if c = 'e' ∨ c = 'E' then
      let (sign, t) := match t with
        | '-' :: t => (['-'], t)
        | '+' :: t => ([], t)
        | t => ([], t)
      (readDigits? Char.isDigit t).map fun (ds, t) => ('e' :: sign ++ ds, t)
    else some ([], c :: t)
  | [] => some ([], [])

/-- A floating point number; one too large for the format is none, if it is positive. -/
def float? (written : List Char) : Option Setting :=
  match Binary64.ofText? written with
  | some x => if x = Binary64.infinity then none else some (.float x)
  | none => none

/-- Reads a decimal number whose sign is behind. -/
def readDecimal? (isNegative : Bool) (t : List Char) : Option (Setting × List Char) := do
  let sign := if isNegative then ['-'] else []
  let (whole, t) ← readWhole? t
  let (fraction, t) ← readFraction? t
  let (exponent, t) ← readExponent? t
  if fraction.isEmpty ∧ exponent.isEmpty then return (← integer? 10 isNegative whole, t)
  else return (← float? (sign ++ whole ++ fraction ++ exponent), t)

def readNumber? : List Char → Option (Setting × List Char)
  | '0' :: 'x' :: t => readBase? 16 Text.isHexDigit t
  | '0' :: 'o' :: t => readBase? 8 (fun c => '0' ≤ c && c ≤ '7') t
  | '0' :: 'b' :: t => readBase? 2 (fun c => c = '0' || c = '1') t
  | t =>
    let (isNegative, t) := Binary64.takeSign t
    let signed := fun (x : Binary64) => Setting.float (if isNegative then x.neg else x)
    match t with
    | 'i' :: 'n' :: 'f' :: t => some (signed Binary64.infinity, t)
    | 'n' :: 'a' :: 'n' :: t => some (signed Binary64.nan, t)
    | t => readDecimal? isNegative t

/-! ### Moments -/

/-- Reads a number of `count` digits between two bounds. -/
def readField? (count low high : Nat) (t : List Char) : Option (Nat × List Char) :=
  let digits := t.take count
  let n := Text.digitsValue 0 digits
  if digits.length = count ∧ digits.all Char.isDigit ∧ low ≤ n ∧ n ≤ high then some (n, t.drop count)
  else none

def readMark? (mark : Char) : List Char → Option (List Char)
  | c :: t => if c = mark then some t else none
  | [] => none

def isLeapYear (year : Nat) : Bool :=
  year % 4 = 0 && (year % 100 ≠ 0 || year % 400 = 0)

def daysOfMonth (year month : Nat) : Nat :=
  if month = 2 then if isLeapYear year then 29 else 28
  else if month = 4 ∨ month = 6 ∨ month = 9 ∨ month = 11 then 30
  else 31

def afterDate? (t : List Char) : Option (List Char) := do
  let (year, t) ← readField? 4 0 9999 t
  let (month, t) ← readField? 2 1 12 (← readMark? '-' t)
  let (_, t) ← readField? 2 1 (daysOfMonth year month) (← readMark? '-' t)
  return t

/-- The text after the fraction of a second, if there is one. -/
def afterSecondFraction? : List Char → Option (List Char)
  | '.' :: t =>
    let (digits, t) := Text.leadingDigits t
    if digits.isEmpty then none else some t
  | t => some t

def afterTime? (t : List Char) : Option (List Char) := do
  let (_, t) ← readField? 2 0 23 t
  let (_, t) ← readField? 2 0 59 (← readMark? ':' t)
  let (_, t) ← readField? 2 0 60 (← readMark? ':' t)
  afterSecondFraction? t

/-- The text after the offset from universal time, if there is one. -/
def afterOffset? : List Char → Option (List Char)
  | c :: t =>
    if c = 'Z' ∨ c = 'z' then some t
    else if c = '+' ∨ c = '-' then do
      let (_, t) ← readField? 2 0 23 t
      let (_, t) ← readField? 2 0 59 (← readMark? ':' t)
      return t
    else some (c :: t)
  | [] => some []

/-- The text after a moment: a date, a time, or both with an offset. -/
def afterMoment? (t : List Char) : Option (List Char) :=
  match afterDate? t with
  | none => afterTime? t
  | some [] => some []
  | some (c :: rest) =>
    if c = 'T' ∨ c = 't' ∨ c = ' ' then
      match afterTime? rest with
      | some rest => afterOffset? rest
      | none => some (c :: rest)
    else some (c :: rest)

/-- Reads a moment. It is a setting of its own kind: a table that holds it as it was written. -/
def readMoment? (t : List Char) : Option (Setting × List Char) :=
  (afterMoment? t).map fun rest =>
    (.table [("moment", .text (String.ofList (t.take (t.length - rest.length))))], rest)

end ServiceDiscovery.Toml
