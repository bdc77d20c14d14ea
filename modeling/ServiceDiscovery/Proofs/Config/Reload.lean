import ServiceDiscovery.Proofs.Config.Precedence
import ServiceDiscovery.Proofs.Json.Shapes
/-!
# What was loaded is loaded again

The JSON object that stands for a configuration holds the settings that the configuration writes, so
a file with that object is a layer that decides every key. What remains is the step that makes one
field out of two, the move of the address to listen on. Done a second time it changes nothing: of the
address it takes the port only, and that port is still there after the first time.
-/

namespace ServiceDiscovery

/-! ### Files and variables -/

theorem fromUTF8?_toUTF8 (s : String) : String.fromUTF8? s.toUTF8 = some s := by
  rw [String.fromUTF8?]
  exact dif_pos s.isValidUTF8

namespace Surroundings

/-- Whether no variable is one that a configuration is loaded from. -/
def Unconfigured (environment : List (String × String)) : Prop :=
  ∀ v ∈ environment, Layer.afterWordAnyCase? "MESHGLUE_" (Text.trim v.1.toList) = none

section OnlyJson

variable {environment : List (String × String)}

theorem ofEnvironment_of_unconfigured (h : Unconfigured environment) :
    Layer.ofEnvironment environment = ⟨.environment, []⟩ := by
  have hnone : environment.filterMap (fun v => Layer.ofVariable? v.1 v.2) = [] := by
    rw [List.filterMap_eq_nil_iff]
    intro v hv
    rw [Layer.ofVariable?, h v hv]
    rfl
  rw [Layer.ofEnvironment]
  change Layer.mk _ (environment.filterMap fun v => Layer.ofVariable? v.1 v.2).reverse = _
  rw [hnone, List.reverse_nil]

theorem lookup_of_unconfigured (h : Unconfigured environment) :
    environment.lookup "MESHGLUE_NODE_ID_FILE" = none := by
  rw [List.lookup_eq_none_iff]
  intro v hv
  rw [bne_iff_ne]
  intro hname
  have hforeign := h v hv
  rw [← hname] at hforeign
  revert hforeign
  decide

theorem readText_json (text : String) :
    readText ⟨[("meshglue.json", text.toUTF8)], environment⟩ "meshglue.json" = .ok text := by
  have hread : read ⟨[("meshglue.json", text.toUTF8)], environment⟩ "meshglue.json" =
      .ok text.toUTF8 := rfl
  rw [readText, hread, ok_bind, fromUTF8?_toUTF8]

theorem readText_toml (content : ByteArray) :
    readText ⟨[("meshglue.json", content)], environment⟩ "meshglue.toml" = .error .missing := rfl

/-- Where there is nothing but a JSON file, only its layer has settings. -/
theorem layers_of_json {text : String} {settings : List (String × Setting)}
    (h : Unconfigured environment) (hsettings : ofJsonText? text = some settings) :
    layers ⟨[("meshglue.json", text.toUTF8)], environment⟩ =
      .ok [⟨.environment, []⟩, ⟨.json, settings⟩, ⟨.toml, []⟩] := by
  rw [layers, layer, layer, readText_toml, readText_json, ofEnvironment_of_unconfigured h]
  dsimp only
  rw [hsettings]

end OnlyJson

end Surroundings

/-! ### What is saved -/

theorem Setting.ofJsonItems?_strings (texts : List String) :
    ofJsonItems? (texts.map .string) = some (texts.map .text) := by
  induction texts with
  | nil => rfl
  | cons text texts ih =>
      rw [List.map_cons, ofJsonItems?, ih]
      rfl

namespace Config

theorem canonical_members (c : Config) : ∀ m ∈ c.members, Json.Canonical 1 m.2 := by
  have hwatch : Json.Canonical 1 (.array (c.watch.map .string)) := by
    refine .array fun v hv => ?_
    obtain ⟨service, -, rfl⟩ := List.mem_map.mp hv
    exact .string 0 service
  simp only [members, List.forall_mem_append, List.forall_mem_cons]
  refine ⟨⟨⟨.string _ _, .string _ _, .natural _ _, .natural _ _, nofun⟩, ?_⟩, .string _ _, hwatch,
    nofun⟩
  cases c.bindIp with
  | none => nofun
  | some ip => exact List.forall_mem_singleton.mpr (.string 1 ip)

theorem parse_text (c : Config) : Json.parse c.text = .ok c.toJson := by
  have hmembers : ∀ m ∈ c.members, Json.Reads (Json.readValue 126) (Json.write m.2) m.2 :=
    fun m hm => ((c.canonical_members m hm).mono (by decide)).reads
  have hread := (Json.reads_object hmembers).reads [] Json.follows_nil
  rw [List.append_nil] at hread
  rw [Json.parse, Json.readWhole, text, String.toList_ofList]
  change (Json.readValue 127 _ >>= _) = _
  rw [hread]
  rfl

example : text {} =
    "\x7b\"server_uri\":\"127.0.0.1:18000\",\"node_id\":\"meshglue\"," ++
      "\"backoff_initial_ms\":200,\"backoff_max_ms\":10000," ++
      "\"dns_bind\":\"127.0.0.1:5353\",\"watch\":[]\x7d" := by
  decide +kernel

/-- The members in the order of their keys. -/
theorem gathered_members (c : Config) :
    Json.gathered [] c.members =
      [("backoff_initial_ms", .natural c.backoffInitialMs.toNat),
        ("backoff_max_ms", .natural c.backoffMaxMs.toNat)] ++
      (match c.bindIp with
        | some ip => [("bind_ip", .string ip)]
        | none => []) ++
      [("dns_bind", .string c.dnsBind.text), ("node_id", .string c.nodeId),
        ("server_uri", .string c.serverUri), ("watch", .array (c.watch.map .string))] := by
  rw [members]
  cases c.bindIp <;>
    simp only [Json.gathered, Json.insertMember, List.cons_append, List.nil_append, List.append_nil,
      List.foldl_cons, List.foldl_nil, String.reduceLT, String.reduceEq, if_true, if_false]

theorem ofJsonMembers?_members (c : Config) :
    Setting.ofJsonMembers? (Json.gathered [] c.members) = some c.settings := by
  have hnumber : ∀ n : UInt64, Setting.ofJson? (.natural n.toNat) = some (.unsigned n.toNat) := by
    intro n
    rw [Json.natural, UInt64.ofNat_toNat]
    rfl
  have hwatch : Setting.ofJson? (.array (c.watch.map .string)) =
      some (.list (c.watch.map .text)) := by
    rw [Setting.ofJson?, Setting.ofJsonItems?_strings]
    rfl
  rw [gathered_members, settings]
  cases c.bindIp with
  | none =>
      simp only [List.append_nil, List.cons_append, List.nil_append, Setting.ofJsonMembers?, hnumber,
        hwatch]
      rfl
  | some ip =>
      simp only [List.cons_append, List.nil_append, Setting.ofJsonMembers?, hnumber, hwatch]
      rfl

theorem ofJsonText?_of_parse {c : Config} {text : String} (h : Json.parse text = .ok c.toJson) :
    Surroundings.ofJsonText? text = some c.settings := by
  rw [Surroundings.ofJsonText?, h]
  exact c.ofJsonMembers?_members

/-! ### Moving again -/

theorem withBindIp_again {c d : Config} (h : c.withBindIp = .ok d) : d.withBindIp = .ok d := by
  obtain ⟨hfields, hport⟩ := withBindIp_eq_ok h
  have hip : d.bindIp = c.bindIp := by rw [hfields]
  rw [withBindIp] at h ⊢
  rw [hip, hport]
  cases hgiven : c.bindIp with
  | none => rfl
  | some ip =>
      rw [hgiven] at h
      dsimp only at h ⊢
      split at h
      · cases h
        rfl
      · cases h

/-- What becomes of the settings that a configuration writes, when nothing else is said. -/
theorem settle_settings (c : Config) :
    settle [⟨.environment, []⟩, ⟨.json, c.settings⟩, ⟨.toml, []⟩] = c.withBindIp >>= check := by
  have hlayers : ofLayers [⟨.environment, []⟩, ⟨.json, c.settings⟩, ⟨.toml, []⟩] = .ok c := by
    have hfound : ∀ key ∈ keys, Layers.find? [⟨.environment, []⟩, ⟨.json, c.settings⟩, ⟨.toml, []⟩]
        key = (c.settings.lookup key).map fun v => (.json, v) := by
      intro key _
      rw [Layers.find?_cons, Layers.find?_cons]
      exact Option.or_none
    exact ofLayers_of_settings hfound
  rw [settle, hlayers, ok_bind]

theorem load_of_parse {c : Config} {text : String} {environment : List (String × String)}
    (h : Surroundings.Unconfigured environment) (hparse : Json.parse text = .ok c.toJson) :
    load ⟨[("meshglue.json", text.toUTF8)], environment⟩ = c.withBindIp >>= check := by
  have hlayers := Surroundings.layers_of_json h (ofJsonText?_of_parse hparse)
  rw [load_eq_settle hlayers (Surroundings.lookup_of_unconfigured h), settle_settings]

/-- **What was loaded is loaded again.** A configuration that was loaded, from whatever files and
variables, is loaded from the JSON text that it is saved as, and so from every text of that object, if
that is the only file and no variable is one of those that are looked at. -/
theorem loaded_again {s : Surroundings} {c : Config} (h : load s = .ok c)
    {environment : List (String × String)} (hothers : Surroundings.Unconfigured environment) :
    load { files := [("meshglue.json", c.text.toUTF8)], environment } = .ok c ∧
    ∀ text, Json.parse text = .ok c.toJson →
      load { files := [("meshglue.json", text.toUTF8)], environment } = .ok c := by
  obtain ⟨⟨d, hmoved⟩, hvalid⟩ := exists_of_load h
  have hagain : c.withBindIp >>= check = .ok c := by
    rw [withBindIp_again hmoved, ok_bind]
    exact check_eq_ok_iff.mpr ⟨rfl, hvalid⟩
  constructor
  · rw [load_of_parse hothers c.parse_text, hagain]
  · intro text htext
    rw [load_of_parse hothers htext, hagain]

/-- Delays up to the longest that can be written, services that need escapes, an identity from a file
of its own, and an address with a zone that takes the place of another one. -/
theorem loaded_again_moved :
    let s : Surroundings :=
      { files := [("meshglue.json", ("\x7b\"backoff_max_ms\":18446744073709551615," ++
            "\"bind_ip\":\"[fe80::1%3]\"\x7d").toUTF8),
          ("meshglue.toml", "dns_bind = '10.0.0.1:53'\nwatch = ['a\"', '\\']\nnode_id = 'm'".toUTF8),
          ("id", " n\n".toUTF8)]
        environment := [("MESHGLUE_NODE_ID_FILE", "id"), ("MESHGLUE_BACKOFF_INITIAL_MS", "1")] }
    let c : Config :=
      { nodeId := "n", backoffInitialMs := 1, backoffMaxMs := 18446744073709551615,
        bindIp := some "[fe80::1%3]", dnsBind := .v6 ⟨[0xfe80, 0, 0, 0, 0, 0, 0, 1], rfl⟩ 3 53,
        watch := ["a\"", "\\"] }
    load s = .ok c ∧ Surroundings.Unconfigured [("PATH", "/bin")] ∧
      load ⟨[("meshglue.json", c.text.toUTF8)], [("PATH", "/bin")]⟩ = .ok c := by
  intro s c
  have hload : load s = .ok c := eq_ok_of_toOption (by decide +kernel)
  have hothers : Surroundings.Unconfigured [("PATH", "/bin")] := by
    unfold Surroundings.Unconfigured
    decide
  exact ⟨hload, hothers, (loaded_again hload hothers).1⟩

end Config

end ServiceDiscovery
