import ServiceDiscovery.Proofs.Config.BindIp
/-!
# What the sources of settings hold

A process finds settings in its variables and in two files. Each of the three is a dictionary: a
file has the settings that its text writes and none if it is not there, and a key has the value of
the last variable that falls on it. Reading either fails or gives just these dictionaries, each as a
layer of its own.
-/

namespace ServiceDiscovery

namespace Surroundings

/-- Whether a variable sets a key to a value and no later one sets the key again. -/
def Sets (environment : List (String × String)) (key : String) (v : Setting) : Prop :=
  ∃ before name value after, environment = before ++ (name, value) :: after ∧
    Layer.ofVariable? name value = some (key, v) ∧
    ∀ other ∈ after, ∀ w, Layer.ofVariable? other.1 other.2 ≠ some (key, w)

/-- Whether a file has just the given settings. One that is not there has none. -/
def FileHolds (s : Surroundings) (name : String)
    (parse? : String → Option (List (String × Setting))) (settings : List (String × Setting)) :
    Prop :=
  (∃ text, s.readText name = .ok text ∧ parse? text = some settings) ∨
    ∃ problem, s.readText name = .error problem ∧ problem ≠ .notText ∧ settings = []

/-- What a process finds in its variables, in the JSON file and in the TOML file. -/
structure Holds (s : Surroundings) (environment json toml : List (String × Setting)) : Prop where
  environment : ∀ key v, environment.lookup key = some v ↔ Sets s.environment key v
  json : s.FileHolds "meshglue.json" ofJsonText? json
  toml : s.FileHolds "meshglue.toml" Toml.parse? toml

/-! ### The layer of the environment -/

section Variables

variable {environment : List (String × String)} {key : String}

theorem lookup_ofEnvironment_cons (given : String × String) :
    (Layer.ofEnvironment (given :: environment)).settings.lookup key =
      ((Layer.ofEnvironment environment).settings.lookup key).or
        ((Layer.ofVariable? given.1 given.2).toList.lookup key) := by
  have hsettings : (Layer.ofEnvironment (given :: environment)).settings =
      (Layer.ofEnvironment environment).settings ++
        (Layer.ofVariable? given.1 given.2).toList := by
    change (List.filterMap (fun v => Layer.ofVariable? v.1 v.2) (given :: environment)).reverse =
      (environment.filterMap fun v => Layer.ofVariable? v.1 v.2).reverse ++ _
    rw [List.filterMap_cons]
    cases Layer.ofVariable? given.1 given.2 with
    | none => rw [Option.toList_none, List.append_nil]
    | some setting => rw [Option.toList_some, List.reverse_cons]
  rw [hsettings, List.lookup_append]

theorem lookup_toList_eq_some_iff {setting : Option (String × Setting)} {v : Setting} :
    setting.toList.lookup key = some v ↔ setting = some (key, v) := by
  cases setting with
  | none => simp
  | some setting =>
      obtain ⟨name, w⟩ := setting
      rw [Option.toList_some, List.lookup_cons]
      by_cases hname : key = name
      · simp [hname]
      · rw [beq_eq_false_iff_ne.mpr hname]
        simp [Ne.symm hname]

theorem lookup_toList_eq_none_iff {setting : Option (String × Setting)} :
    setting.toList.lookup key = none ↔ ∀ w, setting ≠ some (key, w) := by
  rw [Option.eq_none_iff_forall_ne_some]
  exact forall_congr' fun w => not_congr lookup_toList_eq_some_iff

theorem lookup_ofEnvironment_eq_none_iff :
    (Layer.ofEnvironment environment).settings.lookup key = none ↔
      ∀ other ∈ environment, ∀ w, Layer.ofVariable? other.1 other.2 ≠ some (key, w) := by
  induction environment with
  | nil => exact ⟨fun _ => nofun, fun _ => rfl⟩
  | cons given rest ih =>
      rw [lookup_ofEnvironment_cons, Option.or_eq_none_iff, ih, lookup_toList_eq_none_iff,
        List.forall_mem_cons, and_comm]

/-- The layer of the environment has what the variables set. -/
theorem lookup_ofEnvironment_eq_some_iff {v : Setting} :
    (Layer.ofEnvironment environment).settings.lookup key = some v ↔ Sets environment key v := by
  induction environment with
  | nil =>
      refine iff_of_false (fun h => by cases h) ?_
      rintro ⟨before, name, value, after, hsplit, -⟩
      cases before <;> cases hsplit
  | cons given rest ih =>
      rw [lookup_ofEnvironment_cons, Option.or_eq_some_iff, ih, lookup_toList_eq_some_iff,
        lookup_ofEnvironment_eq_none_iff]
      constructor
      · rintro (⟨before, name, value, after, rfl, hset⟩ | ⟨hlast, hset⟩)
        · exact ⟨given :: before, name, value, after, rfl, hset⟩
        · exact ⟨[], given.1, given.2, rest, rfl, hset, hlast⟩
      · rintro ⟨before, name, value, after, hsplit, hset, hlast⟩
        rcases List.cons_eq_append_iff.mp hsplit with ⟨rfl, hcons⟩ | ⟨before, rfl, rfl⟩
        · cases hcons
          exact .inr ⟨hlast, hset⟩
        · exact .inl ⟨before, name, value, after, rfl, hset, hlast⟩

end Variables

/-! ### The three layers -/

section Layers

variable {s : Surroundings} {environment json toml : List (String × Setting)}

theorem layer_eq_ok_iff {source : Source} {name : String}
    {parse? : String → Option (List (String × Setting))} {layer : Layer} :
    s.layer source name parse? = .ok layer ↔
      layer.source = source ∧ s.FileHolds name parse? layer.settings := by
  obtain ⟨origin, settings⟩ := layer
  rw [Surroundings.layer, FileHolds]
  cases hread : s.readText name with
  | ok text =>
      cases hparse : parse? text with
      | none => simp [hparse]
      | some written => simp [hparse, eq_comm]
  | error problem => cases problem <;> simp [eq_comm]

/-- Whoever reads all sources finds what they hold. -/
theorem exists_holds_of_layers {layers : Layers} (h : s.layers = .ok layers) :
    ∃ environment json toml, s.Holds environment json toml ∧
      layers = [⟨.environment, environment⟩, ⟨.json, json⟩, ⟨.toml, toml⟩] := by
  rw [Surroundings.layers] at h
  split at h
  · next toml json htoml hjson =>
    cases h
    obtain ⟨htoml, hholds⟩ := layer_eq_ok_iff.mp htoml
    obtain ⟨hjson, hholds'⟩ := layer_eq_ok_iff.mp hjson
    refine ⟨_, json.settings, toml.settings,
      ⟨fun _ _ => lookup_ofEnvironment_eq_some_iff, hholds', hholds⟩, ?_⟩
    rw [← htoml, ← hjson]
    rfl
  all_goals cases h

/-- What the sources hold is found when they are read. -/
theorem Holds.exists_layers (h : s.Holds environment json toml) :
    ∃ found, s.layers = .ok [⟨.environment, found⟩, ⟨.json, json⟩, ⟨.toml, toml⟩] ∧
      ∀ key, found.lookup key = environment.lookup key := by
  have htoml : s.layer .toml "meshglue.toml" Toml.parse? = .ok ⟨.toml, toml⟩ :=
    layer_eq_ok_iff.mpr ⟨rfl, h.toml⟩
  have hjson : s.layer .json "meshglue.json" ofJsonText? = .ok ⟨.json, json⟩ :=
    layer_eq_ok_iff.mpr ⟨rfl, h.json⟩
  refine ⟨(Layer.ofEnvironment s.environment).settings, ?_, fun key => Option.ext fun v => ?_⟩
  · rw [Surroundings.layers, htoml, hjson]
    rfl
  · rw [lookup_ofEnvironment_eq_some_iff, h.environment]

end Layers

end Surroundings

end ServiceDiscovery
