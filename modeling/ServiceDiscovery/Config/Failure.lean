import ServiceDiscovery.Config.Layer
/-!
# Configuration failures

Why no configuration can be loaded, and the sentence that says so.
-/

namespace ServiceDiscovery

/-- What is wrong with a setting. -/
inductive SettingProblem where
  | invalidType (found : Setting) (expected : String)
  | invalidValue (found : Setting) (expected : String)
  | invalidAddress
  deriving Repr

/-- Why a file cannot be read as text. -/
inductive FileProblem where
  | missing
  | notDirectory
  | isDirectory
  | nameTooLong
  | notText
  deriving DecidableEq, Repr

/-- Why a file of settings cannot be read. -/
inductive LayerProblem where
  | notText
  | malformed
  deriving DecidableEq, Repr

inductive LoadFailure where
  /-- What is wrong with the TOML file and with the JSON file. -/
  | files (toml json : Option LayerProblem)
  /-- The path is the key and the positions inside its value. -/
  | setting (problem : SettingProblem) (path : List String) (source : Source)
  | identityFile (path : String) (problem : FileProblem)
  | invalidBindIp
  | emptyIdentity
  | zeroInitialDelay
  | reversedDelays (initial ceiling : UInt64)
  deriving Repr

namespace SettingProblem

def message : SettingProblem → String
  | invalidType found expected =>
    "invalid type: found " ++ found.describe ++ ", expected " ++ expected
  | invalidValue found expected =>
    "invalid value " ++ found.describe ++ ", expected " ++ expected
  | invalidAddress => "invalid socket address syntax"

end SettingProblem

namespace Source

/-- How a source names the setting at a path. The environment writes it in capitals. -/
def keyText (s : Source) (path : List String) : String :=
  let written := Text.join ['.'] (path.map String.toList)
  match s with
  | environment => String.ofList (written.map Char.toUpper)
  | _ => "default." ++ String.ofList written

def description : Source → String
  | toml => "meshglue.toml TOML file"
  | json => "meshglue.json JSON file"
  | environment => "`MESHGLUE_` environment variable(s)"

end Source

def FileProblem.message : FileProblem → String
  | missing => "No such file or directory (os error 2)"
  | notDirectory => "Not a directory (os error 20)"
  | isDirectory => "Is a directory (os error 21)"
  | nameTooLong => "File name too long (os error 36)"
  | notText => "stream did not contain valid UTF-8"

namespace LoadFailure

def loading (reason : String) : String := "Failed to load configuration: " ++ reason

def notText (source : Source) : String :=
  FileProblem.notText.message ++ (if source = .toml then "\n in " else " in ") ++ source.description

/-- What is wrong with the files. Malformed contents are told alone, those of the TOML file first. -/
def filesMessage : (toml json : Option LayerProblem) → String
  | some .malformed, _ => "TOML parse error"
  | _, some .malformed => "JSON syntax error"
  | some .notText, some .notText => notText .toml ++ "\n" ++ notText .json
  | some .notText, none => notText .toml
  | none, some .notText => notText .json
  | none, none => ""

def message : LoadFailure → String
  | files toml json => loading (filesMessage toml json)
  | setting problem path source =>
    loading (problem.message ++ " for key \"" ++ source.keyText path ++ "\" in " ++
      source.description)
  | identityFile path problem => "Failed to read " ++ path ++ ": " ++ problem.message
  | invalidBindIp => "Invalid bind_ip: " ++ SettingProblem.invalidAddress.message
  | emptyIdentity => "node_id must not be empty"
  | zeroInitialDelay => "backoff_initial_ms must be greater than zero"
  | reversedDelays initial ceiling =>
    "backoff_max_ms (" ++ toString ceiling.toNat ++ ") is lower than backoff_initial_ms (" ++
      toString initial.toNat ++ ")"

end LoadFailure

end ServiceDiscovery
