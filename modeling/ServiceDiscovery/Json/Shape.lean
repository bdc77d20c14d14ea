import ServiceDiscovery.Json.Reader
import ServiceDiscovery.Json.Printer
/-!
# Shapes

A shape says how the values of a type stand in JSON. From it follow four functions: reading a value
out of a text, reading it out of a JSON value that has been read before, and writing it as either of
the two. A record stands as an object, and may also be given as the list of its fields in order.

A text is read once, from the left, and the first failure counts; members are visited in the order
of the text, and a key that is given twice is a failure. Members with unknown keys are skipped.
-/

namespace ServiceDiscovery

namespace Json

mutual

/-- How the values of a type stand in JSON. -/
inductive Shape : Type → Type 1 where
  | string : Shape String
  | uint16 : Shape UInt16
  | uint32 : Shape UInt32
  /-- Any JSON value, as it is. -/
  | any : Shape Json
  /-- A value or `null`. -/
  | optional {α : Type} (s : Shape α) : Shape (Option α)
  | list {α : Type} (s : Shape α) : Shape (List α)
  /-- A record with the given name for messages; `build` and `parts` convert between the fields and
  the value. -/
  | record {σ α β : Type} (name : String) (fields : Fields σ α) (build : α → β) (parts : β → α) :
    Shape β

/-- The fields of a record, in order. The first index is the type of partly read fields. -/
inductive Fields : Type → Type → Type 1 where
  | nil : Fields Unit Unit
  /-- A field with the value it takes where it is left out, if it may be, and with a test for the
  values that are not written. -/
  | cons {σ α β : Type} (name : String) (shape : Shape α) (absent : Option α) (silent : α → Bool)
    (rest : Fields σ β) : Fields (Option α × σ) (α × β)

end

/-- A number as an unsigned one below `bound`. -/
def unsigned (label : String) (bound : Nat) : JsonNumber → Except Error Nat
  | .natural n =>
    if n.toNat < bound then .ok n.toNat else .error (.invalidValue (.integer n.toNat) label)
  | .negative n => .error (.invalidValue (JsonNumber.negative n).toFound label)
  | .binary x => .error (.invalidType (.float x) label)

def readUnsigned (label : String) (bound : Nat) (t : Input) : Except Error (Nat × Input) :=
  match skipSpace t with
  | [] => .error .endOfValue
  | c :: t =>
    if c = '-' ∨ c.isDigit then do
      let (n, t) ← if c = '-' then readNumber true t else readNumber false (c :: t)
      return (← unsigned label bound n, t)
    else .error (mismatch label (c :: t))

def ofUnsigned (label : String) (bound : Nat) : Json → Except Error Nat
  | number n => unsigned label bound n
  | v => .error (.invalidType v.toFound label)

namespace Fields

def size {σ α : Type} : Fields σ α → Nat
  | nil => 0
  | cons _ _ _ _ rest => rest.size + 1

def empty {σ α : Type} : Fields σ α → σ
  | nil => ()
  | cons _ _ _ _ rest => (none, rest.empty)

/-- The fields that have been read, with the defaults of those that have not. -/
def finish {σ α : Type} : Fields σ α → σ → Except Error α
  | nil, () => .ok ()
  | cons name _ absent _ rest, (slot, slots) => do
    match slot.or absent with
    | none => .error (.missingField name)
    | some v => return (v, ← rest.finish slots)

/-- The defaults of all fields; `read` fields came before them, and `owner` says how many are
wanted. -/
def defaults {σ α : Type} (owner : String) : (read : Nat) → Fields σ α → Except Error α
  | _, nil => .ok ()
  | read, cons _ _ absent _ rest => do
    match absent with
    | none => .error (.invalidLength read owner)
    | some v => return (v, ← rest.defaults owner (read + 1))

end Fields

/-- The length that a record wants when it is given as a list. -/
def lengthWanted (name : String) (size : Nat) : String :=
  "struct " ++ name ++ " with " ++ toString size ++ if size = 1 then " element" else " elements"

mutual

/-- Reads a value of the shape. At most `depth` brackets are open at a time, except in skipped
members. -/
def Shape.read {α : Type} : Shape α → (depth : Nat) → Input → Except Error (α × Input)
  | .string, _, t =>
    match skipSpace t with
    | [] => .error .endOfValue
    | '"' :: t => readString t
    | t => .error (mismatch "a string" t)
  | .uint16, _, t => (readUnsigned "u16" UInt16.size t).map fun (n, t) => (UInt16.ofNat n, t)
  | .uint32, _, t => (readUnsigned "u32" UInt32.size t).map fun (n, t) => (UInt32.ofNat n, t)
  | .any, depth, t => readValue depth t
  | .optional s, depth, t =>
    match skipSpace t with
    | 'n' :: t => (readWord "ull".toList t).map fun t => (none, t)
    | t => (s.read depth t).map fun (v, t) => (some v, t)
  | .list s, depth, t =>
    match skipSpace t, depth with
    | [], _ => .error .endOfValue
    | '[' :: _, 0 => .error .tooDeep
    | '[' :: t, depth + 1 => readList (s.read depth) t
    | t, _ => .error (mismatch "a sequence" t)
  | .record name fields build _, depth, t =>
    match skipSpace t, depth with
    | [], _ => .error .endOfValue
    | '[' :: _, 0 => .error .tooDeep
    | '\x7b' :: _, 0 => .error .tooDeep
    | '[' :: t, depth + 1 =>
      (fields.readItems (lengthWanted name fields.size) depth 0 t).map fun (v, t) => (build v, t)
    | '\x7b' :: t, depth + 1 => do
      let (slots, t) ← readObject (fields.readMember depth) fields.empty t
      return (build (← fields.finish slots), t)
    | t, _ => .error (mismatch ("struct " ++ name) t)

/-- Reads the value of a member, from its colon on, into the slot of its field. -/
def Fields.readMember {σ α : Type} :
    Fields σ α → (depth : Nat) → σ → String → Input → Except Error (σ × Input)
  | .nil, _, (), _, t => do return ((), ← skipValue (← readColon t))
  | .cons name shape _ _ rest, depth, (slot, slots), key, t =>
    if key = name then
      if slot.isSome then .error (.duplicateField name)
      else do
        let (v, t) ← shape.read depth (← readColon t)
        return ((some v, slots), t)
    else (rest.readMember depth slots key t).map fun (slots, t) => ((slot, slots), t)

/-- Reads the fields as items of a list, up to the bracket that closes it; `read` of them are
behind. -/
def Fields.readItems {σ α : Type} (owner : String) :
    Fields σ α → (depth : Nat) → (read : Nat) → Input → Except Error (α × Input)
  | .nil, _, _, t => (closeList t).map fun t => ((), t)
  | .cons name shape absent silent rest, depth, read, t => do
    match ← nextItem (read = 0) t with
    | .closed t =>
      return (← (Fields.cons name shape absent silent rest).defaults owner read, t)
    | .element t =>
      let (v, t) ← shape.read depth t
      let (vs, t) ← rest.readItems owner depth (read + 1) t
      return ((v, vs), t)

end

mutual

/-- The value that a JSON value stands for. Unknown members are skipped. -/
def Shape.ofJson {α : Type} : Shape α → Json → Except Error α
  | .string, v =>
    match v with
    | .string s => .ok s
    | v => .error (.invalidType v.toFound "a string")
  | .uint16, v => (ofUnsigned "u16" UInt16.size v).map UInt16.ofNat
  | .uint32, v => (ofUnsigned "u32" UInt32.size v).map UInt32.ofNat
  | .any, v => .ok v
  | .optional s, v =>
    match v with
    | .null => .ok none
    | v => (s.ofJson v).map some
  | .list s, v =>
    match v with
    | .array items => items.mapM s.ofJson
    | v => .error (.invalidType v.toFound "a sequence")
  | .record name fields build _, v =>
    match v with
    | .array items =>
      (fields.ofItems (lengthWanted name fields.size) items.length 0 items).map build
    | .object members => do
      let slots ← members.foldlM (fun slots (key, v) => fields.ofMember slots key v) fields.empty
      return build (← fields.finish slots)
    | v => .error (.invalidType v.toFound ("struct " ++ name))

/-- Puts the value of a member into the slot of its field. -/
def Fields.ofMember {σ α : Type} : Fields σ α → σ → String → Json → Except Error σ
  | .nil, (), _, _ => .ok ()
  | .cons name shape _ _ rest, (slot, slots), key, v =>
    if key = name then
      if slot.isSome then .error (.duplicateField name)
      else do return (some (← shape.ofJson v), slots)
    else (rest.ofMember slots key v).map fun slots => (slot, slots)

/-- The fields that a list gives in order; `total` is the length of the whole list and `read` how
many of its items are behind. -/
def Fields.ofItems {σ α : Type} (owner : String) (total : Nat) :
    Fields σ α → (read : Nat) → List Json → Except Error α
  | .nil, _, items =>
    if items.isEmpty then .ok () else .error (.invalidLength total "fewer elements in array")
  | .cons name shape absent silent rest, read, items =>
    match items with
    | [] => (Fields.cons name shape absent silent rest).defaults owner read
    | v :: items => do
      let v ← shape.ofJson v
      return (v, ← rest.ofItems owner total (read + 1) items)

end

mutual

def Shape.write {α : Type} : Shape α → α → List Char
  | .string, s => writeString s
  | .uint16, n => writeNat n.toNat
  | .uint32, n => writeNat n.toNat
  | .any, v => Json.write v
  | .optional s, v =>
    match v with
    | none => "null".toList
    | some v => s.write v
  | .list s, vs => writeList (vs.map s.write)
  | .record _ fields _ parts, v => writeObject (fields.writeMembers (parts v))

/-- The texts of the members of a record, in the order of its fields. -/
def Fields.writeMembers {σ α : Type} : Fields σ α → α → List (List Char)
  | .nil, () => []
  | .cons name shape _ silent rest, (v, vs) =>
    if silent v then rest.writeMembers vs
    else writeMember name (shape.write v) :: rest.writeMembers vs

end

mutual

def Shape.toJson {α : Type} : Shape α → α → Json
  | .string, s => .string s
  | .uint16, n => natural n.toNat
  | .uint32, n => natural n.toNat
  | .any, v => v
  | .optional s, v =>
    match v with
    | none => null
    | some v => s.toJson v
  | .list s, vs => .array (vs.map s.toJson)
  | .record _ fields _ parts, v => ofMembers (fields.toMembers (parts v))

/-- The members of a record, in the order of its fields. -/
def Fields.toMembers {σ α : Type} : Fields σ α → α → List (String × Json)
  | .nil, () => []
  | .cons name shape _ silent rest, (v, vs) =>
    if silent v then rest.toMembers vs else (name, shape.toJson v) :: rest.toMembers vs

end

namespace Shape

def parse {α : Type} (shape : Shape α) (s : String) : Except Error α :=
  readWhole (shape.read maxDepth) s

def text {α : Type} (shape : Shape α) (v : α) : String := String.ofList (shape.write v)

end Shape

namespace Fields

/-- A field that must be given. -/
def required {σ α β : Type} (name : String) (shape : Shape α) (rest : Fields σ β) :
    Fields (Option α × σ) (α × β) :=
  .cons name shape none (fun _ => false) rest

/-- A field that may be left out, and is always written. -/
def defaulted {σ α β : Type} (name : String) (shape : Shape α) (absent : α) (rest : Fields σ β) :
    Fields (Option α × σ) (α × β) :=
  .cons name shape (some absent) (fun _ => false) rest

/-- A field that is left out, and not written, where there is no value. -/
def optional {σ α β : Type} (name : String) (shape : Shape α) (rest : Fields σ β) :
    Fields (Option (Option α) × σ) (Option α × β) :=
  .cons name (.optional shape) (some none) Option.isNone rest

end Fields

end Json

end ServiceDiscovery
