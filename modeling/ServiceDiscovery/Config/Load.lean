import ServiceDiscovery.Config.Basic
import ServiceDiscovery.Config.Surroundings
import ServiceDiscovery.Json.Reader
import ServiceDiscovery.Toml.Reader
/-!
# Loading a configuration

A configuration is extracted from the layers of settings, the keys being visited in alphabetical
order. Then the identity may be taken from a file of its own, the address to listen on is moved to
another IP address if one is given, and the result is checked.
-/

namespace ServiceDiscovery

namespace Surroundings

def layer (s : Surroundings) (source : Source) (name : String)
    (parse? : String → Option (List (String × Setting))) : Except LayerProblem Layer :=
  match s.readText name with
  | .error .notText => .error .notText
  | .error _ => .ok ⟨source, []⟩
  | .ok text =>
    match parse? text with
    | some settings => .ok ⟨source, settings⟩
    | none => .error .malformed

/-- The settings that a JSON text writes. -/
def ofJsonText? (text : String) : Option (List (String × Setting)) :=
  match Json.parse text with
  | .ok (.object members) => Setting.ofJsonMembers? members
  | _ => none

def layers (s : Surroundings) : Except LoadFailure Layers :=
  match s.layer .toml "meshglue.toml" Toml.parse?, s.layer .json "meshglue.json" ofJsonText? with
  | .ok toml, .ok json => .ok [Layer.ofEnvironment s.environment, json, toml]
  | .error p, .ok _ => .error (.files (some p) none)
  | .ok _, .error q => .error (.files none (some q))
  | .error p, .error q => .error (.files (some p) (some q))

end Surroundings

/-! ### Extraction -/

namespace Setting

def asText : Setting → Except SettingProblem String
  | .text s => .ok s
  | v => .error (.invalidType v "a string")

def asNumber : Setting → Except SettingProblem UInt64
  | .unsigned n => .ok (UInt64.ofNat n)
  | .signed i =>
    if i < 0 then .error (.invalidValue (.signed i) "u64") else .ok (UInt64.ofNat i.toNat)
  | v => .error (.invalidType v "u64")

def asAddress : Setting → Except SettingProblem SocketAddress
  | .text s =>
    match SocketAddress.ofText? s with
    | some a => .ok a
    | none => .error .invalidAddress
  | v => .error (.invalidType v "socket address")

def asOptionalText : Setting → Except SettingProblem (Option String)
  | .unit => .ok none
  | v => v.asText.map some

end Setting

namespace Layers

/-- Reads the value that counts for a key, or takes the default. -/
def extract {α : Type} (layers : Layers) (key : String) (absent : α)
    (read : Setting → Except SettingProblem α) : Except LoadFailure α :=
  match layers.find? key with
  | none => .ok absent
  | some (source, v) => (read v).mapError fun p => .setting p [key] source

/-- Reads a list of texts, the first of which has the given position. -/
def readTexts (key : String) (source : Source) :
    (position : Nat) → List Setting → Except LoadFailure (List String)
  | _, [] => .ok []
  | position, v :: rest =>
    match v.asText with
    | .error p => .error (.setting p [key, toString position] source)
    | .ok s => (readTexts key source (position + 1) rest).map (s :: ·)

/-- Reads the value that counts for a key as a list of texts, or takes the default. -/
def extractTexts (layers : Layers) (key : String) (absent : List String) :
    Except LoadFailure (List String) :=
  match layers.find? key with
  | none => .ok absent
  | some (source, .list items) => readTexts key source 0 items
  | some (source, v) => .error (.setting (.invalidType v "a sequence") [key] source)

end Layers

namespace Config

def ofLayers (layers : Layers) : Except LoadFailure Config := do
  let d : Config := {}
  let backoffInitialMs ← layers.extract "backoff_initial_ms" d.backoffInitialMs Setting.asNumber
  let backoffMaxMs ← layers.extract "backoff_max_ms" d.backoffMaxMs Setting.asNumber
  let bindIp ← layers.extract "bind_ip" d.bindIp Setting.asOptionalText
  let dnsBind ← layers.extract "dns_bind" d.dnsBind Setting.asAddress
  let nodeId ← layers.extract "node_id" d.nodeId Setting.asText
  let serverUri ← layers.extract "server_uri" d.serverUri Setting.asText
  let watch ← layers.extractTexts "watch" d.watch
  return { serverUri, nodeId, backoffInitialMs, backoffMaxMs, bindIp, dnsBind, watch }

/-- Takes the identity from the file that the environment names, if it names one. -/
def withIdentityFile (c : Config) (s : Surroundings) : Except LoadFailure Config :=
  match s.environment.lookup "MESHGLUE_NODE_ID_FILE" with
  | none => .ok c
  | some path =>
    match s.readText path with
    | .error p => .error (.identityFile path p)
    | .ok text => .ok { c with nodeId := String.ofList (Text.trim text.toList) }

/-- Moves the address to listen on to the IP address that is given for it, if one is. -/
def withBindIp (c : Config) : Except LoadFailure Config :=
  match c.bindIp with
  | none => .ok c
  | some ip =>
    match SocketAddress.ofChars? (ip.toList ++ ':' :: Text.decimal c.dnsBind.port.toNat) with
    | some dnsBind => .ok { c with dnsBind }
    | none => .error .invalidBindIp

def check (c : Config) : Except LoadFailure Config :=
  if c.nodeId.isEmpty then .error .emptyIdentity
  else if c.backoffInitialMs = 0 then .error .zeroInitialDelay
  else if c.backoffMaxMs < c.backoffInitialMs then
    .error (.reversedDelays c.backoffInitialMs c.backoffMaxMs)
  else .ok c

def load (s : Surroundings) : Except LoadFailure Config := do
  let c ← ofLayers (← s.layers)
  let c ← c.withIdentityFile s
  let c ← c.withBindIp
  c.check

end Config

end ServiceDiscovery
