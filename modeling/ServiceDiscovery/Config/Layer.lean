import ServiceDiscovery.Setting.Inline
import ServiceDiscovery.Text.Parts
/-!
# Layers of settings

Settings come from two files and from the environment. Each of these is a layer, and for every key
the highest layer that has it counts, alone: values are replaced whole and never combined.
-/

namespace ServiceDiscovery

/-- Where a setting comes from, lowest first. -/
inductive Source where
  | toml
  | json
  | environment
  deriving DecidableEq, Repr

structure Layer where
  source : Source
  settings : List (String × Setting)
  deriving Repr

/-- The layers, highest first. -/
abbrev Layers := List Layer

/-- The value that counts for a key, and where it comes from. -/
def Layers.find? (layers : Layers) (key : String) : Option (Source × Setting) :=
  layers.findSome? fun layer => (layer.settings.lookup key).map fun v => (layer.source, v)

namespace Layer

/-- A name without a word in front of it, if it has that word there, in letters of either case. -/
def afterWordAnyCase? (word : String) (name : List Char) : Option (List Char) :=
  if (name.take word.length).map Char.toLower = word.toList.map Char.toLower then
    some (name.drop word.length)
  else none

/-- A value inside tables, one for each of the given keys. -/
def nested (v : Setting) : List String → Setting
  | [] => v
  | key :: keys => .table [(key, nested v keys)]

/-- The setting that a variable of the environment gives: the key is the name behind `MESHGLUE_`, in
lower case. Points in it lead into tables, and no part between them is empty. -/
def ofVariable? (name value : String) : Option (String × Setting) := do
  let name ← afterWordAnyCase? "MESHGLUE_" (Text.trim name.toList)
  let keys := (Text.parts '.' (Text.trim name)).map fun part => String.ofList (part.map Char.toLower)
  if "" ∈ keys then none
  match keys with
  | [] => none
  | key :: keys => return (key, nested (Setting.ofText value) keys)

/-- The layer of the environment. Of two variables for one key the later one counts. -/
def ofEnvironment (environment : List (String × String)) : Layer where
  source := .environment
  settings := (environment.filterMap fun (name, value) => ofVariable? name value).reverse

end Layer

end ServiceDiscovery
