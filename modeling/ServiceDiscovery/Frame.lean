import ServiceDiscovery.Failure
/-!
# Message frames

On a connection every message is one line of JSON. What has been received is cut at line feeds; a
carriage return before one belongs to the end of the line, and the last line may lack its end. A
line that is too long, is no text or holds no message breaks the connection.
-/

namespace ServiceDiscovery.Frame

def lineFeed : UInt8 := 10

def carriageReturn : UInt8 := 13

/-- The greatest length of a line, without its line feed. -/
def maxLength : Nat := 1024 * 1024

/-- The first line without its line feed, and what follows that, if there is one. -/
def cut (bytes : List UInt8) : List UInt8 × Option (List UInt8) :=
  match bytes.span (· ≠ lineFeed) with
  | (line, []) => (line, none)
  | (line, _ :: rest) => (line, some rest)

/-- A line without the carriage return at its end. One is dropped, not several. -/
def dropReturn (line : List UInt8) : List UInt8 :=
  if line.getLast? = some carriageReturn then line.dropLast else line

def text? (line : List UInt8) : Option String := String.fromUTF8? ⟨line.toArray⟩

/-- Takes the next line, if the stream has not ended, off what a closed stream still holds. -/
def next (bytes : List UInt8) : Except ConnectionFailure (Option String × List UInt8) :=
  match cut bytes with
  | (line, rest) =>
    if line.length > maxLength then .error .lineTooLong
    else if rest.isNone ∧ (line = [] ∨ line = [carriageReturn]) then .ok (none, [])
    else
      match text? (dropReturn line) with
      | some s => .ok (some s, rest.getD [])
      | none => .error .notText

/-- Takes the next response, if the stream has not ended. -/
def receive (bytes : List UInt8) : Except ConnectionFailure (Option Response × List UInt8) :=
  match next bytes with
  | .error f => .error f
  | .ok (none, rest) => .ok (none, rest)
  | .ok (some line, rest) =>
    match Response.shape.parse line with
    | .ok r => .ok (some r, rest)
    | .error e => .error (.malformed e)

def encode (r : Request) : List UInt8 := (Request.shape.text r).toUTF8.data.toList ++ [lineFeed]

end ServiceDiscovery.Frame
