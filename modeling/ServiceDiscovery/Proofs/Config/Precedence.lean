import ServiceDiscovery.Proofs.Config.Extraction
import ServiceDiscovery.Proofs.Config.Sources
import ServiceDiscovery.Proofs.Net.Port
/-!
# Which layer counts

What is loaded depends on the layers only through what is extracted from them, and so on nothing but
the values that count. One field alone is not settled by its own key, the address to listen on, and
what the second key can do to it is bounded by the port, which is put back as it was.
-/

namespace ServiceDiscovery

namespace Config

/-- What is loaded from layers of settings where the identity has no file of its own. -/
def settle (layers : Layers) : Except LoadFailure Config := do
  let c ← ofLayers layers
  let c ← c.withBindIp
  c.check

/-- Whether an address is the one to listen on where a given IP address takes the place of that of
another. -/
def Moved (ip? : Option String) (before after : SocketAddress) : Prop :=
  (ip? = none → after = before) ∧
    ∀ ip, ip? = some ip →
      SocketAddress.ofChars? (ip.toList ++ ':' :: Text.decimal before.port.toNat) = some after

theorem withBindIp_of_moved {c : Config} {dnsBind : SocketAddress}
    (h : Moved c.bindIp c.dnsBind dnsBind) : c.withBindIp = .ok { c with dnsBind } := by
  rw [withBindIp]
  split
  · next habsent => rw [h.1 habsent]
  · next ip hgiven => rw [h.2 ip hgiven]

theorem moved_of_withBindIp {c d : Config} (h : c.withBindIp = .ok d) :
    d = { c with dnsBind := d.dnsBind } ∧ Moved c.bindIp c.dnsBind d.dnsBind := by
  rw [withBindIp] at h
  split at h
  · next habsent =>
    cases h
    exact ⟨rfl, fun _ => rfl, fun _ hip => by cases habsent.symm.trans hip⟩
  · next ip hgiven =>
    split at h
    · next dnsBind hmoved =>
      cases h
      refine ⟨rfl, ?_, ?_⟩
      · intro habsent
        cases habsent.symm.trans hgiven
      · intro ip' hip
        cases hgiven.symm.trans hip
        exact hmoved
    · cases h

theorem withBindIp_eq_error_iff {c : Config} {f : LoadFailure} :
    c.withBindIp = .error f ↔
      f = .invalidBindIp ∧ ∃ ip, c.bindIp = some ip ∧
        SocketAddress.ofChars? (ip.toList ++ ':' :: Text.decimal c.dnsBind.port.toNat) = none := by
  rw [withBindIp]
  cases hip : c.bindIp with
  | none => simp
  | some ip =>
      dsimp only
      generalize hjoined : ip.toList ++ ':' :: Text.decimal c.dnsBind.port.toNat = joined
      cases hmoved : SocketAddress.ofChars? joined with
      | none => simp [hjoined, hmoved, eq_comm]
      | some dnsBind => simp [hjoined, hmoved]

theorem Moved.port_eq {ip? : Option String} {before after : SocketAddress}
    (h : Moved ip? before after) : after.port = before.port := by
  cases ip? with
  | none => rw [h.1 rfl]
  | some ip => exact SocketAddress.port_of_joined (h.2 ip rfl)

/-- Moving the address to listen on changes nothing else, and leaves its port. -/
theorem withBindIp_eq_ok {c d : Config} (h : c.withBindIp = .ok d) :
    d = { c with dnsBind := d.dnsBind } ∧ d.dnsBind.port = c.dnsBind.port :=
  (moved_of_withBindIp h).imp_right Moved.port_eq

/-- What layers settle. The first value that counts and is refused is the failure. Otherwise there
is the configuration that they give, with its address moved, unless that cannot be done or the
outcome does not pass the check. -/
inductive Settles (layers : Layers) : Except LoadFailure Config → Prop where
  | refused {f : LoadFailure} (hfirst : firstRefusal? layers = some f) : Settles layers (.error f)
  | unmoved {c : Config} {ip : String} (hgiven : Given layers c) (hip : c.bindIp = some ip)
      (hunread :
        SocketAddress.ofChars? (ip.toList ++ ':' :: Text.decimal c.dnsBind.port.toNat) = none) :
      Settles layers (.error .invalidBindIp)
  | unsound {c : Config} {dnsBind : SocketAddress} {f : LoadFailure} (hgiven : Given layers c)
      (hmoved : Moved c.bindIp c.dnsBind dnsBind) (hcheck : check { c with dnsBind } = .error f) :
      Settles layers (.error f)
  | loaded {c : Config} {dnsBind : SocketAddress} (hgiven : Given layers c)
      (hmoved : Moved c.bindIp c.dnsBind dnsBind) (hvalid : Valid { c with dnsBind }) :
      Settles layers (.ok { c with dnsBind })

theorem settles_settle (layers : Layers) : Settles layers (settle layers) := by
  rw [settle]
  cases hextracted : ofLayers layers with
  | error f => exact .refused ((failsWith_ofLayers layers f).mp hextracted)
  | ok c =>
      have hgiven := ofLayers_eq_ok_iff_given.mp hextracted
      rw [ok_bind]
      cases hbound : c.withBindIp with
      | error f =>
          obtain ⟨rfl, ip, hip, hunread⟩ := withBindIp_eq_error_iff.mp hbound
          exact .unmoved hgiven hip hunread
      | ok d =>
          obtain ⟨hfields, hmoved⟩ := moved_of_withBindIp hbound
          rw [ok_bind, hfields]
          cases hcheck : check { c with dnsBind := d.dnsBind } with
          | error f => exact .unsound hgiven hmoved hcheck
          | ok e =>
              obtain ⟨rfl, hvalid⟩ := check_eq_ok_iff.mp hcheck
              exact .loaded hgiven hmoved hvalid

theorem settle_eq_of_settles {layers : Layers} {result : Except LoadFailure Config}
    (h : Settles layers result) : settle layers = result := by
  rw [settle]
  cases h with
  | refused hfirst => rw [(failsWith_ofLayers layers _).mpr hfirst]; rfl
  | unmoved hgiven hip hunread =>
      rw [ofLayers_eq_ok_iff_given.mpr hgiven, ok_bind,
        withBindIp_eq_error_iff.mpr ⟨rfl, _, hip, hunread⟩]
      rfl
  | unsound hgiven hmoved hcheck =>
      rw [ofLayers_eq_ok_iff_given.mpr hgiven, ok_bind, withBindIp_of_moved hmoved, ok_bind, hcheck]
  | loaded hgiven hmoved hvalid =>
      rw [ofLayers_eq_ok_iff_given.mpr hgiven, ok_bind, withBindIp_of_moved hmoved, ok_bind,
        check_eq_ok_iff.mpr ⟨rfl, hvalid⟩]

theorem settle_eq_iff {layers : Layers} {result : Except LoadFailure Config} :
    settle layers = result ↔ Settles layers result := by
  refine ⟨?_, settle_eq_of_settles⟩
  rintro rfl
  exact settles_settle layers

theorem load_eq_settle {s : Surroundings} {layers : Layers} (hlayers : s.layers = .ok layers)
    (hunnamed : s.environment.lookup "MESHGLUE_NODE_ID_FILE" = none) : load s = settle layers := by
  have hidentity : ∀ c : Config, c.withIdentityFile s = .ok c := by
    intro c
    rw [withIdentityFile, hunnamed]
  rw [load_eq, hlayers, ok_bind, ofSettings, settle]
  congr 1
  funext c
  rw [hidentity, ok_bind]

theorem settle_eq_ok_iff {layers : Layers} {c : Config} :
    settle layers = .ok c ↔ ∃ d, ofLayers layers = .ok d ∧ d.withBindIp = .ok c ∧ c.Valid := by
  simp only [settle, bind_eq_ok_iff, check_eq_ok_iff]
  constructor
  · rintro ⟨d, hd, e, he, rfl, hvalid⟩
    exact ⟨d, hd, he, hvalid⟩
  · rintro ⟨d, hd, hc, hvalid⟩
    exact ⟨d, hd, c, hc, rfl, hvalid⟩

theorem settle_congr {layers layers' : Layers}
    (h : ∀ key ∈ keys, layers.find? key = layers'.find? key) : settle layers = settle layers' := by
  rw [settle, ofLayers_congr h, settle]

theorem settle_without_bindIp (h : settle layers = .ok c) :
    ∃ d, settle (layers.without "bind_ip") = .ok d ∧ d.bindIp = none ∧
      c = { d with bindIp := c.bindIp, dnsBind := c.dnsBind } ∧
      c.dnsBind.port = d.dnsBind.port := by
  obtain ⟨d, hd, hc, hvalid⟩ := settle_eq_ok_iff.mp h
  obtain ⟨hfields, hport⟩ := withBindIp_eq_ok hc
  obtain ⟨initial, ceiling, -, bind, id, uri, watch⟩ := ofLayers_eq_ok_iff.mp hd
  have hwithout : ofLayers (layers.without "bind_ip") = .ok { d with bindIp := none } := by
    have hnone : (layers.without "bind_ip").extract "bind_ip" none Setting.asOptionalText =
        .ok none := by
      rw [Layers.extract, Layers.find?_without_self]
    refine ofLayers_eq_ok_iff.mpr ⟨?_, ?_, hnone, ?_, ?_, ?_, ?_⟩
    · rwa [Layers.extract_without_of_ne (by decide)]
    · rwa [Layers.extract_without_of_ne (by decide)]
    · rwa [Layers.extract_without_of_ne (by decide)]
    · rwa [Layers.extract_without_of_ne (by decide)]
    · rwa [Layers.extract_without_of_ne (by decide)]
    · rwa [Layers.extractTexts_without_of_ne (by decide)]
  rw [hfields] at hvalid
  have hsettled : settle (layers.without "bind_ip") = .ok { d with bindIp := none } :=
    settle_eq_ok_iff.mpr ⟨_, hwithout, rfl, hvalid.identified, hvalid.initial_pos, hvalid.ordered⟩
  refine ⟨_, hsettled, rfl, ?_, hport⟩
  rw [hfields]

theorem load_of_layers_error {s : Surroundings} {f : LoadFailure} (h : s.layers = .error f) :
    ∃ toml json, load s = .error (.files toml json) := by
  have hload : load s = .error f := by rw [load_eq, h]; rfl
  rw [Surroundings.layers] at h
  split at h
  all_goals cases h
  all_goals exact ⟨_, _, hload⟩

/-- Every key of a configuration has a variable of its own. -/
theorem ofVariable?_key {key : String} (hkey : key ∈ keys) (value : String) :
    Layer.ofVariable? (String.ofList (("meshglue_" ++ key).toList.map Char.toUpper)) value =
      some (key, Setting.ofText value) := by
  simp only [keys, List.mem_cons, List.not_mem_nil, or_false] at hkey
  rcases hkey with rfl | rfl | rfl | rfl | rfl | rfl | rfl <;> rfl

theorem load_of_holds {s : Surroundings} {environment json toml : List (String × Setting)}
    (h : s.Holds environment json toml)
    (hunnamed : s.environment.lookup "MESHGLUE_NODE_ID_FILE" = none) (source : Source) :
    load s = settle [⟨.environment, environment⟩, ⟨.json, json⟩, ⟨.toml, toml⟩,
      ⟨source, settings {}⟩] := by
  obtain ⟨found, hlayers, hlookup⟩ := h.exists_layers
  have hfind : ∀ key, Layers.find? [⟨.environment, found⟩, ⟨.json, json⟩, ⟨.toml, toml⟩] key =
      Layers.find? [⟨.environment, environment⟩, ⟨.json, json⟩, ⟨.toml, toml⟩] key := by
    intro key
    simp only [Layers.find?_cons, hlookup]
  have hdefaults := ofLayers_append_defaults
    [⟨.environment, environment⟩, ⟨.json, json⟩, ⟨.toml, toml⟩] source
  rw [load_eq_settle hlayers hunnamed, settle_congr fun key _ => hfind key, settle, ← hdefaults]
  rfl

/-- **The highest layer that has a key decides it.** Either a file cannot be read, and then nothing
is loaded, or there is what the variables set, what the JSON file holds and what the TOML file
holds; and without a file for the identity a process loads what is settled by just these three, in
this order, above the defaults. Every key of a configuration has a variable of its own.

What counts for a key is the value in the highest layer that has it, whole. Each field is the value
that is read from what counts for its key, or its default, and the first value that counts and is
refused is the failure. So whatever a layer says of a key below the highest one that has it is
without effect, and so is a key that no configuration has. The IP address under `bind_ip`, wherever
it comes from, changes nothing but the address to listen on, and of that not the port. -/
theorem highest_layer_decides :
    (∀ s : Surroundings, (∃ toml json, load s = .error (.files toml json)) ∨
      ∃ environment json toml, s.Holds environment json toml) ∧
    (∀ (s : Surroundings) (environment json toml : List (String × Setting)),
      s.Holds environment json toml →
      s.environment.lookup "MESHGLUE_NODE_ID_FILE" = none →
      ∀ source, load s = settle [⟨.environment, environment⟩, ⟨.json, json⟩, ⟨.toml, toml⟩,
        ⟨source, settings {}⟩]) ∧
    (∀ key ∈ keys, ∀ value,
      Layer.ofVariable? (String.ofList (("meshglue_" ++ key).toList.map Char.toUpper)) value =
        some (key, Setting.ofText value)) ∧
    (∀ (layers : Layers) (key : String) (source : Source) (v : Setting),
      layers.find? key = some (source, v) ↔ layers.Counts key source v) ∧
    (∀ (layers : Layers) (result : Except LoadFailure Config),
      settle layers = result ↔ Settles layers result) ∧
    (∀ layers layers' : Layers, (∀ key ∈ keys, layers.find? key = layers'.find? key) →
      settle layers = settle layers') ∧
    (∀ (key : String) (layers layers' : Layers),
      (layers.DifferBelow key layers' ∨ key ∉ keys ∧ layers.without key = layers'.without key) →
      settle layers = settle layers') ∧
    ∀ (layers : Layers) (c : Config), settle layers = .ok c →
      ∃ d, settle (layers.without "bind_ip") = .ok d ∧ d.bindIp = none ∧
        c = { d with bindIp := c.bindIp, dnsBind := c.dnsBind } ∧
        c.dnsBind.port = d.dnsBind.port := by
  refine ⟨?_, ?_, fun key hkey => ofVariable?_key hkey,
    fun layers key source v => Layers.find?_eq_some_iff, fun layers result => settle_eq_iff,
    fun layers layers' => settle_congr, ?_, fun layers c => settle_without_bindIp⟩
  · intro s
    cases hlayers : s.layers with
    | error f => exact .inl (load_of_layers_error hlayers)
    | ok layers =>
        obtain ⟨environment, json, toml, hholds, -⟩ := Surroundings.exists_holds_of_layers hlayers
        exact .inr ⟨environment, json, toml, hholds⟩
  · intro s environment json toml hholds hunnamed source
    exact load_of_holds hholds hunnamed source
  · rintro key layers layers' (hbelow | ⟨hkey, hwithout⟩)
    · exact settle_congr fun name _ => hbelow.find?_eq name
    · exact settle_congr fun name hname =>
        Layers.find?_eq_of_without_eq hwithout (ne_of_mem_of_not_mem hname hkey)

/-- A variable goes before the JSON file, and the file adds what the variable leaves open. Below the
environment and the JSON file the TOML file is free to say of the services to watch what it likes,
even nonsense. The address comes with brackets from one layer and its port from another. A number as
the identity is refused in the layer that has it, though the one below has a text. -/
theorem highest_layer_decides_shadowed :
    let s : Surroundings :=
      { files := [("meshglue.json", "\x7b\"node_id\":\"n\",\"watch\":[\"a\"]\x7d".toUTF8)]
        environment := [("MESHGLUE_NODE_ID", "m")] }
    let stack (low : Setting) : Layers :=
      [⟨.environment, [("watch", .list [.text "a"])]⟩,
        ⟨.json, [("node_id", .text "n"), ("bind_ip", .text "[::1]")]⟩,
        ⟨.toml, [("watch", low), ("dns_bind", .text "10.0.0.1:53"), ("spare", .bool true)]⟩]
    let c : Config :=
      { nodeId := "n", bindIp := some "[::1]", dnsBind := .v6 ⟨[0, 0, 0, 0, 0, 0, 0, 1], rfl⟩ 0 53,
        watch := ["a"] }
    let mistaken : Layers :=
      [⟨.json, [("node_id", .signed 5)]⟩, ⟨.toml, [("node_id", .text "n")]⟩]
    (∃ environment json toml, s.Holds environment json toml ∧
      environment.lookup "node_id" = some (.text "m") ∧
      settle [⟨.environment, environment⟩, ⟨.json, json⟩, ⟨.toml, toml⟩, ⟨.toml, settings {}⟩] =
        .ok { nodeId := "m", watch := ["a"] }) ∧
      settle (stack (.list [.text "b", .text "c"])) = .ok c ∧ settle (stack (.signed 7)) = .ok c ∧
      settle ((stack .unit).without "spare") = .ok c ∧
      (∃ d, settle ((stack .unit).without "bind_ip") = .ok d ∧ d.dnsBind.port = 53) ∧
      settle mistaken = .error (.setting (.invalidType (.signed 5) "a string") ["node_id"] .json) ∧
      settle (mistaken.take 1) = settle mistaken := by
  intro s stack c mistaken
  obtain ⟨hread, hload, hvariable, -, hsettles, hcongr, hsame, hmoved⟩ := highest_layer_decides
  have hs : load s = .ok { nodeId := "m", watch := ["a"] } := eq_ok_of_toOption (by decide +kernel)
  have hidentity := hvariable "node_id" (by decide) "m"
  have hc : settle (stack (.list [.text "b", .text "c"])) = .ok c :=
    eq_ok_of_toOption (by decide +kernel)
  have hbelow : ∀ low, settle (stack low) = .ok c := by
    intro low
    rw [← hc]
    refine hsame "watch" _ _ (.inl ⟨[], _, _, _, rfl, rfl, rfl, ?_⟩)
    simp [Layers.without]
  have hspare : settle ((stack .unit).without "spare") = .ok c := by
    rw [← hbelow .unit]
    refine hsame "spare" _ _ (.inr ⟨by decide, ?_⟩)
    simp [Layers.without]
  obtain ⟨d, hd, -, -, hport⟩ := hmoved _ _ (hbelow .unit)
  have hfound : ∀ key ∈ keys, Layers.find? (mistaken.take 1) key = mistaken.find? key := by
    intro key hkey
    simp only [keys, List.mem_cons, List.not_mem_nil, or_false] at hkey
    rcases hkey with rfl | rfl | rfl | rfl | rfl | rfl | rfl <;> rfl
  refine ⟨?_, hc, hbelow _, hspare, ⟨d, hd, hport.symm⟩, (hsettles _ _).mpr (.refused rfl),
    hcongr _ _ hfound⟩
  rcases hread s with ⟨toml, json, hfails⟩ | ⟨environment, json, toml, hholds⟩
  · cases hs.symm.trans hfails
  refine ⟨environment, json, toml, hholds, (hholds.environment _ _).mpr ?_, ?_⟩
  · exact ⟨[], _, _, [], rfl, hidentity, fun _ hother => absurd hother List.not_mem_nil⟩
  · exact (hload s _ _ _ hholds (by decide +kernel) .toml).symm.trans hs

end Config

end ServiceDiscovery
