import ServiceDiscovery.Proofs.Config.Check
import ServiceDiscovery.Proofs.Net.Joined
/-!
# Moving the address to listen on

The address to listen on is moved to another IP address by reading that one again, with the port
behind it. Nothing else depends on the setting, so what is loaded is told by what would be loaded
without it; and whether anything is loaded, by whether the address may stand before a port as it is.
-/

namespace ServiceDiscovery

/-! ### Settings -/

theorem lookup_filter_of_ne {α : Type} {key other : String} (h : key ≠ other)
    (settings : List (String × α)) :
    (settings.filter (·.1 ≠ other)).lookup key = settings.lookup key := by
  induction settings with
  | nil => rfl
  | cons setting settings ih =>
      obtain ⟨name, v⟩ := setting
      by_cases hname : name = other
      · subst hname
        rw [List.filter_cons_of_neg (by simp), ih, List.lookup_cons, beq_eq_false_iff_ne.mpr h]
      · rw [List.filter_cons_of_pos (by simpa using hname), List.lookup_cons, List.lookup_cons, ih]

theorem lookup_filter_self {α : Type} (key : String) (settings : List (String × α)) :
    (settings.filter (·.1 ≠ key)).lookup key = none := by
  rw [List.lookup_eq_none_iff]
  intro setting hmem
  exact bne_iff_ne.mpr (of_decide_eq_true (List.mem_filter.mp hmem).2).symm

namespace Layers

/-- The layers without what they say about a key. -/
def without (layers : Layers) (key : String) : Layers :=
  layers.map fun layer => { layer with settings := layer.settings.filter (·.1 ≠ key) }

theorem find?_without_self (layers : Layers) (key : String) :
    (layers.without key).find? key = none := by
  rw [find?, without, List.findSome?_map, List.findSome?_eq_none_iff]
  intro layer _
  change ((layer.settings.filter (·.1 ≠ key)).lookup key).map _ = none
  rw [lookup_filter_self]
  rfl

theorem find?_without_of_ne (layers : Layers) {key other : String} (h : key ≠ other) :
    (layers.without other).find? key = layers.find? key := by
  rw [find?, without, List.findSome?_map, find?]
  congr 1
  funext layer
  change ((layer.settings.filter (·.1 ≠ other)).lookup key).map _ = _
  rw [lookup_filter_of_ne h]

section Extract

variable {layers : Layers} {key other : String}

theorem extract_without_of_ne (h : key ≠ other) {α : Type} (absent : α)
    (read : Setting → Except SettingProblem α) :
    (layers.without other).extract key absent read = layers.extract key absent read := by
  rw [extract, find?_without_of_ne layers h, extract]

theorem extractTexts_without_of_ne (h : key ≠ other) (absent : List String) :
    (layers.without other).extractTexts key absent = layers.extractTexts key absent := by
  rw [extractTexts, find?_without_of_ne layers h, extractTexts]

end Extract

end Layers

namespace Surroundings

/-- The text that counts for a key, if one does. -/
def text? (s : Surroundings) (key : String) : Option String := do
  let (_, v) ← (← s.layers.toOption).find? key
  v.asText.toOption

theorem exists_of_text? {s : Surroundings} {key t : String} (h : s.text? key = some t) :
    ∃ layers source, s.layers = .ok layers ∧ layers.find? key = some (source, .text t) := by
  rw [text?] at h
  cases hlayers : s.layers with
  | error f =>
      rw [hlayers] at h
      cases h
  | ok layers =>
      rw [hlayers] at h
      change ((layers.find? key).bind fun x => x.2.asText.toOption) = some t at h
      obtain ⟨⟨source, v⟩, hv, ht⟩ := Option.bind_eq_some_iff.mp h
      cases v with
      | text u =>
          cases ht
          exact ⟨layers, source, rfl, hv⟩
      | _ => cases ht

end Surroundings

namespace Config

/-- What is extracted from layers of settings: every key by itself. -/
theorem ofLayers_eq_ok_iff {layers : Layers} {c : Config} :
    ofLayers layers = .ok c ↔
      layers.extract "backoff_initial_ms" 200 Setting.asNumber = .ok c.backoffInitialMs ∧
      layers.extract "backoff_max_ms" 10000 Setting.asNumber = .ok c.backoffMaxMs ∧
      layers.extract "bind_ip" none Setting.asOptionalText = .ok c.bindIp ∧
      layers.extract "dns_bind" (.v4 ⟨127, 0, 0, 1⟩ 5353) Setting.asAddress = .ok c.dnsBind ∧
      layers.extract "node_id" "meshglue" Setting.asText = .ok c.nodeId ∧
      layers.extract "server_uri" "127.0.0.1:18000" Setting.asText = .ok c.serverUri ∧
      layers.extractTexts "watch" [] = .ok c.watch := by
  rw [ofLayers]
  simp only [bind_eq_ok_iff]
  constructor
  · rintro ⟨initial, hinitial, ceiling, hceiling, ip, hip, bind, hbind, id, hid, uri, huri, watch,
      hwatch, hc⟩
    cases hc
    exact ⟨hinitial, hceiling, hip, hbind, hid, huri, hwatch⟩
  · rintro ⟨hinitial, hceiling, hip, hbind, hid, huri, hwatch⟩
    exact ⟨_, hinitial, _, hceiling, _, hip, _, hbind, _, hid, _, huri, _, hwatch, rfl⟩

/-- What is made of layers of settings. -/
def ofSettings (s : Surroundings) (layers : Layers) : Except LoadFailure Config := do
  let c ← ofLayers layers
  let c ← c.withIdentityFile s
  let c ← c.withBindIp
  c.check

theorem load_eq (s : Surroundings) : load s = s.layers >>= ofSettings s := rfl

/-- What would be loaded if nothing was said about a key. -/
def loadWithout (s : Surroundings) (key : String) : Except LoadFailure Config := do
  ofSettings s ((← s.layers).without key)

theorem withIdentityFile_bindIp (c : Config) (s : Surroundings) (ip : Option String) :
    { c with bindIp := ip }.withIdentityFile s =
      (c.withIdentityFile s).map fun d => { d with bindIp := ip } := by
  rw [withIdentityFile, withIdentityFile]
  cases s.environment.lookup "MESHGLUE_NODE_ID_FILE" with
  | none => rfl
  | some path =>
      dsimp only
      cases s.readText path <;> rfl

theorem bindIp_withIdentityFile {c d : Config} {s : Surroundings}
    (h : c.withIdentityFile s = .ok d) : d.bindIp = c.bindIp := by
  rw [withIdentityFile] at h
  split at h
  · cases h
    rfl
  · split at h
    · cases h
    · cases h
      rfl

section BindIp

variable {layers : Layers} {s : Surroundings} {c : Config} {source : Source} {ip : String}

theorem ofLayers_of_without (hip : layers.find? "bind_ip" = some (source, .text ip))
    (h : ofLayers (layers.without "bind_ip") = .ok c) :
    c.bindIp = none ∧ ofLayers layers = .ok { c with bindIp := some ip } := by
  obtain ⟨hinitial, hceiling, hnone, hbind, hid, huri, hwatch⟩ := ofLayers_eq_ok_iff.mp h
  rw [Layers.extract_without_of_ne (by decide)] at hinitial hceiling hbind hid huri
  rw [Layers.extractTexts_without_of_ne (by decide)] at hwatch
  rw [Layers.extract, Layers.find?_without_self] at hnone
  have hsome : layers.extract "bind_ip" none Setting.asOptionalText = .ok (some ip) := by
    rw [Layers.extract, hip]
    rfl
  exact ⟨(Except.ok.inj hnone).symm,
    ofLayers_eq_ok_iff.mpr ⟨hinitial, hceiling, hsome, hbind, hid, huri, hwatch⟩⟩

/-- Without an address to move to, what is left is an identity and a check. -/
theorem exists_of_ofSettings_without (hip : layers.find? "bind_ip" = some (source, .text ip))
    (h : ofSettings s (layers.without "bind_ip") = .ok c) :
    c.Valid ∧ ∃ d, ofLayers layers = .ok d ∧
      d.withIdentityFile s = .ok { c with bindIp := some ip } := by
  obtain ⟨extracted, hextracted, h⟩ := exists_of_bind h
  obtain ⟨identified, hidentified, h⟩ := exists_of_bind h
  obtain ⟨bound, hbound, h⟩ := exists_of_bind h
  obtain ⟨rfl, hvalid⟩ := check_eq_ok_iff.mp h
  obtain ⟨hnone, hlayers⟩ := ofLayers_of_without hip hextracted
  rw [withBindIp, bindIp_withIdentityFile hidentified, hnone] at hbound
  cases hbound
  refine ⟨hvalid, _, hlayers, ?_⟩
  rw [withIdentityFile_bindIp, hidentified]
  rfl

end BindIp

/-- **The address to listen on can be moved to every IPv4 address, and to no IPv6 address.** Whatever
else is configured, and in whatever layer the address is given, an IPv4 address takes the place of
the one to listen on, whose port stays and whose family does not matter; everything else is what it
would have been. An IPv6 address is refused. -/
theorem moves_to_ipv4_only {s : Surroundings} {ip : String} {address : IpAddress} {c : Config}
    (hip : s.text? "bind_ip" = some ip) (haddress : IpAddress.ofText? ip = some address)
    (hothers : loadWithout s "bind_ip" = .ok c) :
    ((∃ d, load s = .ok d ∧ d.dnsBind.ip = address ∧ d.dnsBind.port = c.dnsBind.port) ↔
      ∃ a, address = .v4 a) ∧
    load s =
      match address with
      | .v4 a => .ok { c with bindIp := some ip, dnsBind := .v4 a c.dnsBind.port }
      | .v6 _ => .error .invalidBindIp := by
  obtain ⟨layers, source, hlayers, hfound⟩ := s.exists_of_text? hip
  rw [loadWithout, hlayers, ok_bind] at hothers
  obtain ⟨hvalid, extracted, hextracted, hidentified⟩ := exists_of_ofSettings_without hfound hothers
  have hload : load s = { c with bindIp := some ip }.withBindIp >>= check := by
    rw [load_eq, hlayers, ok_bind, ofSettings, hextracted, ok_bind, hidentified, ok_bind]
  rw [withBindIp] at hload
  dsimp only at hload
  rw [SocketAddress.ofChars?_of_address haddress] at hload
  cases address with
  | v4 a =>
      have hcheck : check { c with bindIp := some ip, dnsBind := .v4 a c.dnsBind.port } = .ok _ :=
        check_eq_ok_iff.mpr ⟨rfl, hvalid.identified, hvalid.initial_pos, hvalid.ordered⟩
      have hmoved := hload.trans hcheck
      exact ⟨⟨fun _ => ⟨a, rfl⟩, fun _ => ⟨_, hmoved, rfl, rfl⟩⟩, hmoved⟩
  | v6 a =>
      have hrefused : load s = .error .invalidBindIp := hload
      refine ⟨⟨?_, nofun⟩, hrefused⟩
      rintro ⟨d, hd, -⟩
      rw [hrefused] at hd
      cases hd

/-- An address of either family above another one, an address to listen on of the family that cannot
be moved to, and an identity in a file of its own. -/
theorem moves_to_ipv4_only_mixed :
    let s (ip : String) : Surroundings :=
      { files := [("meshglue.json", ("\x7b\"bind_ip\":\"" ++ ip ++ "\"\x7d").toUTF8),
          ("meshglue.toml", "dns_bind = '[fe80::1]:53'\nbind_ip = '10.0.0.2'\nnode_id = ''".toUTF8),
          ("id", " n\n".toUTF8)]
        environment := [("MESHGLUE_NODE_ID_FILE", "id")] }
    let c : Config :=
      { nodeId := "n", dnsBind := .v6 ⟨[0xfe80, 0, 0, 0, 0, 0, 0, 1], rfl⟩ 0 53 }
    (∀ ip ∈ ["10.0.0.1", "::ffff:10.0.0.1"],
      (s ip).text? "bind_ip" = some ip ∧ loadWithout (s ip) "bind_ip" = .ok c) ∧
    load (s "10.0.0.1") = .ok { c with bindIp := some "10.0.0.1", dnsBind := .v4 ⟨10, 0, 0, 1⟩ 53 } ∧
    load (s "::ffff:10.0.0.1") = .error .invalidBindIp := by
  intro s c
  have hip : ∀ ip ∈ ["10.0.0.1", "::ffff:10.0.0.1"], (s ip).text? "bind_ip" = some ip := by
    decide +kernel
  have hothers : ∀ ip ∈ ["10.0.0.1", "::ffff:10.0.0.1"], loadWithout (s ip) "bind_ip" = .ok c := by
    have hoption : ∀ ip ∈ ["10.0.0.1", "::ffff:10.0.0.1"],
        (loadWithout (s ip) "bind_ip").toOption = some c := by
      decide +kernel
    exact fun ip hmem => eq_ok_of_toOption (hoption ip hmem)
  have hv4 : IpAddress.ofText? "10.0.0.1" = some (.v4 ⟨10, 0, 0, 1⟩) := by decide +kernel
  have hv6 : IpAddress.ofText? "::ffff:10.0.0.1" =
      some (.v6 ⟨[0, 0, 0, 0, 0, 0xffff, 0xa00, 1], rfl⟩) := by decide +kernel
  exact ⟨fun ip hmem => ⟨hip ip hmem, hothers ip hmem⟩,
    (moves_to_ipv4_only (hip _ (by decide)) hv4 (hothers _ (by decide))).2,
    (moves_to_ipv4_only (hip _ (by decide)) hv6 (hothers _ (by decide))).2⟩

/-- Nothing but the IPv6 loopback address in the file: it should be moved to, and is refused. -/
theorem loopback_refused :
    let s : Surroundings :=
      { files := [("meshglue.json", "\x7b\"bind_ip\":\"::1\"\x7d".toUTF8)] }
    let address : IpAddress := .v6 ⟨[0, 0, 0, 0, 0, 0, 0, 1], rfl⟩
    s.text? "bind_ip" = some "::1" ∧ IpAddress.ofText? "::1" = some address ∧
      loadWithout s "bind_ip" = .ok {} ∧
      ¬∃ d, load s = .ok d ∧ d.dnsBind.ip = address ∧ d.dnsBind.port = 5353 := by
  intro s address
  have hload : (load s).toOption = none := by decide +kernel
  refine ⟨by decide +kernel, by decide +kernel, eq_ok_of_toOption (by decide +kernel), ?_⟩
  rintro ⟨d, hd, -⟩
  rw [hd] at hload
  cases hload

end Config

end ServiceDiscovery
