import ServiceDiscovery.Config.Failure
import ServiceDiscovery.Text.Parts
/-!
# Surroundings of a process

The environment of a process and the files in and below its directory. A path is followed name by
name; outside the directory only the directories that contain it are known, and they show no name.
-/

namespace ServiceDiscovery

/-- What a process finds when it starts. -/
structure Surroundings where
  files : List (String × ByteArray) := []
  environment : List (String × String) := []

/-- Where a path leads. -/
inductive Place where
  /-- To the end of the given names, starting at the directory of the process. -/
  | inside (names : List (List Char))
  /-- To a directory that contains the one of the process, or to the root. -/
  | outside
  deriving DecidableEq, Repr

def Place.parent : Place → Place
  | outside => outside
  | inside names => if names.isEmpty then outside else inside names.dropLast

namespace Surroundings

/-- The names on the way to a file. -/
def namesOf (path : String) : List (List Char) :=
  (Text.parts '/' path.toList).filter fun name => name != [] && name != ['.']

/-- The content of the first of some files with the given names on the way to it. -/
def findFile? (names : List (List Char)) : List (String × ByteArray) → Option ByteArray
  | [] => none
  | (path, content) :: rest => if namesOf path = names then some content else findFile? names rest

def isThere (s : Surroundings) (names : List (List Char)) : Bool :=
  s.files.any fun (path, _) => names.isPrefixOf (namesOf path)

/-- The longest name, in bytes. -/
def longestName : Nat := 255

/-- The longest path, in bytes. -/
def longestPath : Nat := 4095

def enterName (s : Surroundings) (place : Place) (name : List Char) : Except FileProblem Place :=
  if (String.ofList name).utf8ByteSize > longestName then .error .nameTooLong
  else
    match place with
    | .outside => .error .missing
    | .inside names =>
      if s.isThere (names ++ [name]) then .ok (.inside (names ++ [name])) else .error .missing

/-- Where one part of a path leads. Only from a directory it leads anywhere, and an empty part or a
point leads nowhere else. -/
def follow (s : Surroundings) (place : Place) (part : List Char) : Except FileProblem Place :=
  let isFile := match place with
    | .outside => false
    | .inside names => (findFile? names s.files).isSome
  if isFile then .error .notDirectory
  else if part = [] ∨ part = ['.'] then .ok place
  else if part = ['.', '.'] then .ok place.parent
  else s.enterName place part

/-- Where a path leads. An empty one leads nowhere. -/
def locate (s : Surroundings) (path : String) : Except FileProblem Place :=
  if path.isEmpty then .error .missing
  else if path.utf8ByteSize > longestPath then .error .nameTooLong
  else
    (Text.parts '/' path.toList).foldlM s.follow
      (if path.toList.head? = some '/' then .outside else .inside [])

def read (s : Surroundings) (path : String) : Except FileProblem ByteArray := do
  match ← s.locate path with
  | .outside => .error .isDirectory
  | .inside names =>
    match findFile? names s.files with
    | some content => .ok content
    | none => .error .isDirectory

def readText (s : Surroundings) (path : String) : Except FileProblem String := do
  match String.fromUTF8? (← s.read path) with
  | some text => .ok text
  | none => .error .notText

end Surroundings

end ServiceDiscovery
