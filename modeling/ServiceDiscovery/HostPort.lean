/-!
# Host and port

An address is cut at its last colon. What follows must be a non-empty run of decimal digits; what
precedes is the host, and a host that contains colons of its own has to stand in brackets.
-/

namespace ServiceDiscovery

/-- Cuts a list at the last place where `sep` stands. -/
def cutLast {α : Type} [DecidableEq α] (sep : α) : List α → Option (List α × List α)
  | [] => none
  | c :: rest =>
    match cutLast sep rest with
    | some (front, back) => some (c :: front, back)
    | none => if c = sep then some ([], rest) else none

/-- The part of a list before its last element, if that element is `last`. -/
def dropLast? {α : Type} [DecidableEq α] (last : α) : List α → Option (List α)
  | [] => none
  | [c] => if c = last then some [] else none
  | c :: rest => (dropLast? last rest).map (c :: ·)

structure HostPort where
  host : String
  /-- Decimal digits, as they were written. -/
  port : String
  deriving DecidableEq, Repr

namespace HostPort

/-- The host that the text before the last colon names, out of its brackets if it has any. -/
def bareHost : List Char → Option (List Char)
  | '[' :: inner => dropLast? ']' inner
  | host => if ':' ∈ host then none else some host

def isPort (port : List Char) : Bool := !port.isEmpty && port.all Char.isDigit

def splitChars (address : List Char) : Option (List Char × List Char) :=
  match cutLast ':' address with
  | none => none
  | some (front, port) =>
    if isPort port then
      match bareHost front with
      | some host => if host.isEmpty then none else some (host, port)
      | none => none
    else none

/-- Splits `host:port` or `[host]:port`. -/
def ofAddress? (address : String) : Option HostPort :=
  (splitChars address.toList).map fun (host, port) => ⟨String.ofList host, String.ofList port⟩

end HostPort

end ServiceDiscovery
