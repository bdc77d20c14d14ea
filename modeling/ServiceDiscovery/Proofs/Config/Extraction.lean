import ServiceDiscovery.Proofs.Config.BindIp
import ServiceDiscovery.Proofs.Net.Written
/-!
# What is extracted from layers

A configuration is extracted key by key, and every key is looked up in the layers on its own: from
the highest layer that has it, and never from two. So each field has the value that counts for its
key, or its default, and what is refused first is the first value that counts and cannot be read.
Layers in which the same counts for the keys of a configuration give the same, whatever else they
hold.
-/

namespace ServiceDiscovery

/-! ### Looking up -/

theorem Setting.asText_eq_ok_iff {v : Setting} {s : String} : v.asText = .ok s ↔ v = .text s := by
  cases v <;> simp [asText]

/-- Whether a value is a number that fits a field of 64 bits. -/
def Setting.IsNumber (v : Setting) (n : UInt64) : Prop :=
  (∃ m, v = unsigned m ∧ n = UInt64.ofNat m) ∨
    ∃ i : Int, v = signed i ∧ 0 ≤ i ∧ n = UInt64.ofNat i.toNat

theorem Setting.asNumber_eq_ok_iff {v : Setting} {n : UInt64} :
    v.asNumber = .ok n ↔ v.IsNumber n := by
  cases v with
  | unsigned m => simp [asNumber, IsNumber, eq_comm]
  | signed i =>
      by_cases hneg : i < 0
      · simp [asNumber, IsNumber, hneg]
      · simp [asNumber, IsNumber, hneg, Int.not_lt.mp hneg, eq_comm]
  | _ => simp [asNumber, IsNumber]

theorem Setting.asOptionalText_eq_ok_iff {v : Setting} {s : Option String} :
    v.asOptionalText = .ok s ↔ v = s.elim unit text := by
  cases v <;> cases s <;> simp [asOptionalText, asText, Except.map]

theorem Setting.asAddress_eq_ok_iff {v : Setting} {a : SocketAddress} :
    v.asAddress = .ok a ↔ ∃ t, v = text t ∧ SocketAddress.ofText? t = some a := by
  unfold asAddress
  cases v with
  | text t =>
      dsimp only
      cases hread : SocketAddress.ofText? t <;> simp [hread]
  | _ => simp

theorem Setting.asNumber_unsigned (n : UInt64) : (unsigned n.toNat).asNumber = .ok n :=
  congrArg Except.ok UInt64.ofNat_toNat

theorem Setting.asAddress_text (a : SocketAddress) : (text a.text).asAddress = .ok a := by
  unfold asAddress
  dsimp only
  rw [a.ofText?_text]

namespace Setting

/-- What is wrong with a value that is to be read. -/
def problem? {α : Type} (read : Setting → Except SettingProblem α) (v : Setting) :
    Option (SettingProblem × List String) :=
  match read v with
  | .ok _ => none
  | .error p => some (p, [])

/-- What is wrong with the first item that is no text, and the position of that item, where the
first one of all has the given position. -/
def textProblem? : (position : Nat) → List Setting → Option (SettingProblem × List String)
  | _, [] => none
  | position, v :: rest =>
    match v.asText with
    | .ok _ => textProblem? (position + 1) rest
    | .error p => some (p, [toString position])

/-- What is wrong with a value that is to be a list of texts. -/
def textsProblem? : Setting → Option (SettingProblem × List String)
  | .list items => textProblem? 0 items
  | v => some (.invalidType v "a sequence", [])

end Setting

namespace Layers

theorem find?_append (layers below : Layers) (key : String) :
    find? (layers ++ below) key = (layers.find? key).or (below.find? key) :=
  List.findSome?_append

theorem find?_cons (top : Layer) (below : Layers) (key : String) :
    find? (top :: below) key =
      ((top.settings.lookup key).map fun v => (top.source, v)).or (below.find? key) := by
  rw [find?, List.findSome?_cons]
  cases (top.settings.lookup key).map fun v => (top.source, v) <;> rfl

/-- Whether a value counts for a key, and where it comes from. It is that of the highest layer that
has the key. -/
def Counts (layers : Layers) (key : String) (source : Source) (v : Setting) : Prop :=
  ∃ above top below, layers = above ++ top :: below ∧
    (∀ layer ∈ above, layer.settings.lookup key = none) ∧ top.source = source ∧
    top.settings.lookup key = some v

theorem find?_eq_some_iff {layers : Layers} {key : String} {source : Source} {v : Setting} :
    layers.find? key = some (source, v) ↔ layers.Counts key source v := by
  rw [find?, List.findSome?_eq_some_iff]
  simp only [Option.map_eq_some_iff, Option.map_eq_none_iff, Prod.mk.injEq]
  constructor
  · rintro ⟨above, top, below, hlayers, ⟨_, hv, hsource, rfl⟩, habove⟩
    exact ⟨above, top, below, hlayers, habove, hsource, hv⟩
  · rintro ⟨above, top, below, hlayers, habove, hsource, hv⟩
    exact ⟨above, top, below, hlayers, ⟨v, hv, hsource, rfl⟩, habove⟩

/-- Whether a key gives a value: the one that is read from what counts for it, or the default. -/
def Gives {α : Type} (layers : Layers) (key : String) (absent : α) (Reads : Setting → α → Prop)
    (a : α) : Prop :=
  (layers.find? key = none ∧ a = absent) ∨
    ∃ source v, layers.find? key = some (source, v) ∧ Reads v a

/-- What is wrong with the value that counts for a key, if anything is. -/
def refusal? (layers : Layers) (key : String)
    (problem? : Setting → Option (SettingProblem × List String)) : Option LoadFailure :=
  (layers.find? key).bind fun found =>
    (problem? found.2).map fun p => .setting p.1 (key :: p.2) found.1

/-- Whether two stacks of layers differ at most in what layers say of a key below the highest one
that has it. -/
def DifferBelow (key : String) (layers layers' : Layers) : Prop :=
  ∃ above top below below', layers = above ++ top :: below ∧ layers' = above ++ top :: below' ∧
    (top.settings.lookup key).isSome = true ∧ without below key = without below' key

theorem find?_eq_of_without_eq {layers layers' : Layers} {key name : String}
    (h : layers.without key = layers'.without key) (hne : name ≠ key) :
    layers.find? name = layers'.find? name := by
  rw [← find?_without_of_ne layers hne, h, find?_without_of_ne layers' hne]

theorem DifferBelow.find?_eq {layers layers' : Layers} {key : String}
    (h : DifferBelow key layers layers') (name : String) :
    layers.find? name = layers'.find? name := by
  obtain ⟨above, top, below, below', rfl, rfl, htop, hbelow⟩ := h
  simp only [find?_append, find?_cons]
  by_cases hname : name = key
  · subst hname
    obtain ⟨v, hv⟩ := Option.isSome_iff_exists.mp htop
    rw [hv, Option.map_some, Option.some_or, Option.some_or]
  · rw [find?_eq_of_without_eq hbelow hname]

variable {layers layers' below : Layers} {key : String}

theorem extract_congr (h : layers.find? key = layers'.find? key) {α : Type} (absent : α)
    (read : Setting → Except SettingProblem α) :
    layers.extract key absent read = layers'.extract key absent read := by
  rw [extract, h, extract]

theorem extractTexts_congr (h : layers.find? key = layers'.find? key) (absent : List String) :
    layers.extractTexts key absent = layers'.extractTexts key absent := by
  rw [extractTexts, h, extractTexts]

theorem extract_eq_ok_iff {α : Type} {source : Source} {v : Setting} {a absent : α}
    {read : Setting → Except SettingProblem α} (h : layers.find? key = some (source, v)) :
    layers.extract key absent read = .ok a ↔ read v = .ok a := by
  rw [extract, h]
  change (read v).mapError _ = _ ↔ _
  cases read v <;> simp [Except.mapError]

/-- A lowest layer that gives the default is as good as none. -/
theorem extract_append {α : Type} {absent : α} {read : Setting → Except SettingProblem α}
    (h : below.extract key absent read = .ok absent) :
    extract (layers ++ below) key absent read = layers.extract key absent read := by
  cases hfound : layers.find? key with
  | some found => simp only [extract, find?_append, hfound, Option.some_or]
  | none =>
      rw [extract] at h
      simp only [extract, find?_append, hfound, Option.none_or, h]

theorem extractTexts_append {absent : List String}
    (h : below.extractTexts key absent = .ok absent) :
    extractTexts (layers ++ below) key absent = layers.extractTexts key absent := by
  cases hfound : layers.find? key with
  | some found => simp only [extractTexts, find?_append, hfound, Option.some_or]
  | none =>
      rw [extractTexts] at h
      simp only [extractTexts, find?_append, hfound, Option.none_or, h]

theorem extract_eq_ok_iff_gives {α : Type} {a absent : α} {read : Setting → Except SettingProblem α}
    {Reads : Setting → α → Prop} (hreads : ∀ {v b}, read v = .ok b ↔ Reads v b) :
    layers.extract key absent read = .ok a ↔ layers.Gives key absent Reads a := by
  cases hfound : layers.find? key with
  | none => simp [extract, Gives, hfound, eq_comm]
  | some found =>
      obtain ⟨source, v⟩ := found
      rw [extract_eq_ok_iff hfound, hreads]
      simp [Gives, hfound]

theorem extract_eq_error_iff {α : Type} {absent : α} {read : Setting → Except SettingProblem α}
    {f : LoadFailure} :
    layers.extract key absent read = .error f ↔
      layers.refusal? key (Setting.problem? read) = some f := by
  rw [extract, refusal?]
  cases layers.find? key with
  | none => simp
  | some found =>
      rw [Option.bind_some, Setting.problem?]
      change (read found.2).mapError _ = _ ↔ _
      cases read found.2 <;> simp [Except.mapError]

theorem readTexts_eq_error_iff {source : Source} {position : Nat} {items : List Setting}
    {f : LoadFailure} :
    readTexts key source position items = .error f ↔
      (Setting.textProblem? position items).map
        (fun p => LoadFailure.setting p.1 (key :: p.2) source) = some f := by
  induction items generalizing position with
  | nil => simp [readTexts, Setting.textProblem?]
  | cons v rest ih =>
      rw [readTexts, Setting.textProblem?]
      cases hv : v.asText with
      | error problem => simp
      | ok s =>
          dsimp only
          rw [← ih]
          cases readTexts key source (position + 1) rest <;> simp [Except.map]

theorem extractTexts_eq_error_iff {absent : List String} {f : LoadFailure} :
    layers.extractTexts key absent = .error f ↔
      layers.refusal? key Setting.textsProblem? = some f := by
  rw [extractTexts, refusal?]
  cases layers.find? key with
  | none => simp
  | some found =>
      obtain ⟨source, v⟩ := found
      cases v with
      | list items => exact readTexts_eq_error_iff
      | _ => simp [Setting.textsProblem?]

/-- A list is read whole, and only if there are nothing but texts in it. -/
theorem readTexts_eq_ok_iff {source : Source} {position : Nat} {items : List Setting}
    {texts : List String} :
    readTexts key source position items = .ok texts ↔ items = texts.map Setting.text := by
  induction items generalizing position texts with
  | nil => simp [readTexts, eq_comm]
  | cons v rest ih =>
      rw [readTexts, eq_comm (a := v :: rest), List.map_eq_cons_iff]
      cases hv : v.asText with
      | error problem =>
          refine iff_of_false (fun h => by cases h) ?_
          rintro ⟨t, later, -, rfl, -⟩
          cases hv
      | ok t =>
          obtain rfl := Setting.asText_eq_ok_iff.mp hv
          dsimp only
          rw [map_eq_ok_iff]
          constructor
          · rintro ⟨later, hlater, rfl⟩
            exact ⟨t, later, rfl, rfl, (ih.mp hlater).symm⟩
          · rintro ⟨u, later, rfl, hu, hlater⟩
            cases hu
            exact ⟨later, ih.mpr hlater.symm, rfl⟩

theorem extractTexts_eq_ok_iff {source : Source} {v : Setting} {absent texts : List String}
    (h : layers.find? key = some (source, v)) :
    layers.extractTexts key absent = .ok texts ↔ v = .list (texts.map .text) := by
  rw [extractTexts, h]
  cases v with
  | list items => simp [readTexts_eq_ok_iff]
  | _ => simp

theorem extractTexts_eq_ok_iff_gives {absent texts : List String} :
    layers.extractTexts key absent = .ok texts ↔
      layers.Gives key absent (fun v ts => v = .list (ts.map .text)) texts := by
  cases hfound : layers.find? key with
  | none => simp [extractTexts, Gives, hfound, eq_comm]
  | some found =>
      obtain ⟨source, v⟩ := found
      rw [extractTexts_eq_ok_iff hfound]
      simp [Gives, hfound]

end Layers

namespace Config

/-- The keys of a configuration, in the order in which they are visited. -/
def keys : List String :=
  ["backoff_initial_ms", "backoff_max_ms", "bind_ip", "dns_bind", "node_id", "server_uri", "watch"]

/-- The settings that a configuration writes, in the order of its keys. -/
def settings (c : Config) : List (String × Setting) :=
  [("backoff_initial_ms", .unsigned c.backoffInitialMs.toNat),
    ("backoff_max_ms", .unsigned c.backoffMaxMs.toNat)] ++
  (match c.bindIp with
    | some ip => [("bind_ip", .text ip)]
    | none => []) ++
  [("dns_bind", .text c.dnsBind.text), ("node_id", .text c.nodeId),
    ("server_uri", .text c.serverUri), ("watch", .list (c.watch.map .text))]

theorem lookup_settings (c : Config) :
    c.settings.lookup "backoff_initial_ms" = some (.unsigned c.backoffInitialMs.toNat) ∧
    c.settings.lookup "backoff_max_ms" = some (.unsigned c.backoffMaxMs.toNat) ∧
    c.settings.lookup "bind_ip" = c.bindIp.map Setting.text ∧
    c.settings.lookup "dns_bind" = some (.text c.dnsBind.text) ∧
    c.settings.lookup "node_id" = some (.text c.nodeId) ∧
    c.settings.lookup "server_uri" = some (.text c.serverUri) ∧
    c.settings.lookup "watch" = some (.list (c.watch.map .text)) := by
  rw [settings]
  cases c.bindIp <;> exact ⟨rfl, rfl, rfl, rfl, rfl, rfl, rfl⟩

theorem ofLayers_congr {layers layers' : Layers}
    (h : ∀ key ∈ keys, layers.find? key = layers'.find? key) :
    ofLayers layers = ofLayers layers' := by
  simp only [keys, List.forall_mem_cons] at h
  obtain ⟨hinitial, hceiling, hip, hbind, hid, huri, hwatch, -⟩ := h
  simp only [ofLayers, Layers.extract_congr hinitial, Layers.extract_congr hceiling,
    Layers.extract_congr hip, Layers.extract_congr hbind, Layers.extract_congr hid,
    Layers.extract_congr huri, Layers.extractTexts_congr hwatch]

/-- **A configuration is extracted from the settings that it writes.** -/
theorem ofLayers_of_settings {layers : Layers} {c : Config} {source : Source}
    (h : ∀ key ∈ keys, layers.find? key = (c.settings.lookup key).map fun v => (source, v)) :
    ofLayers layers = .ok c := by
  simp only [keys, List.forall_mem_cons] at h
  obtain ⟨hinitial, hceiling, hip, hbind, hid, huri, hwatch, -⟩ := h
  obtain ⟨initial, ceiling, ip, bind, id, uri, watch⟩ := c.lookup_settings
  rw [initial] at hinitial
  rw [ceiling] at hceiling
  rw [bind] at hbind
  rw [id] at hid
  rw [uri] at huri
  rw [watch] at hwatch
  refine ofLayers_eq_ok_iff.mpr
    ⟨(Layers.extract_eq_ok_iff hinitial).mpr (Setting.asNumber_unsigned _),
      (Layers.extract_eq_ok_iff hceiling).mpr (Setting.asNumber_unsigned _), ?_,
      (Layers.extract_eq_ok_iff hbind).mpr (Setting.asAddress_text _),
      (Layers.extract_eq_ok_iff hid).mpr rfl, (Layers.extract_eq_ok_iff huri).mpr rfl,
      (Layers.extractTexts_eq_ok_iff hwatch).mpr rfl⟩
  rw [Layers.extract, hip, ip]
  cases c.bindIp <;> rfl

/-- The defaults are as good as a lowest layer that writes them. -/
theorem ofLayers_append_defaults (layers : Layers) (source : Source) :
    ofLayers (layers ++ [⟨source, settings {}⟩]) = ofLayers layers := by
  have hdefaults : ofLayers [⟨source, settings {}⟩] = .ok {} := by
    apply ofLayers_of_settings
    intro key _
    rw [Layers.find?_cons]
    exact Option.or_none
  obtain ⟨hinitial, hceiling, hip, hbind, hid, huri, hwatch⟩ := ofLayers_eq_ok_iff.mp hdefaults
  simp only [ofLayers, Layers.extract_append hinitial, Layers.extract_append hceiling,
    Layers.extract_append hip, Layers.extract_append hbind, Layers.extract_append hid,
    Layers.extract_append huri, Layers.extractTexts_append hwatch]

/-! ### What is extracted -/

/-- Whether the fields of a configuration are the values that layers give, or else the defaults. -/
structure Given (layers : Layers) (c : Config) : Prop where
  backoffInitialMs : layers.Gives "backoff_initial_ms" 200 Setting.IsNumber c.backoffInitialMs
  backoffMaxMs : layers.Gives "backoff_max_ms" 10000 Setting.IsNumber c.backoffMaxMs
  bindIp : layers.Gives "bind_ip" none (fun v ip => v = ip.elim .unit .text) c.bindIp
  dnsBind : layers.Gives "dns_bind" (.v4 ⟨127, 0, 0, 1⟩ 5353)
    (fun v a => ∃ t, v = .text t ∧ SocketAddress.ofText? t = some a) c.dnsBind
  nodeId : layers.Gives "node_id" "meshglue" (fun v t => v = .text t) c.nodeId
  serverUri : layers.Gives "server_uri" "127.0.0.1:18000" (fun v t => v = .text t) c.serverUri
  watch : layers.Gives "watch" [] (fun v ts => v = .list (ts.map .text)) c.watch

/-- What is asked of the value for each key, in the order in which the keys are visited. -/
def demands : List (String × (Setting → Option (SettingProblem × List String))) :=
  [("backoff_initial_ms", Setting.problem? Setting.asNumber),
    ("backoff_max_ms", Setting.problem? Setting.asNumber),
    ("bind_ip", Setting.problem? Setting.asOptionalText),
    ("dns_bind", Setting.problem? Setting.asAddress),
    ("node_id", Setting.problem? Setting.asText),
    ("server_uri", Setting.problem? Setting.asText),
    ("watch", Setting.textsProblem?)]

/-- What is wrong with the first value that counts and is refused. -/
def firstRefusal? (layers : Layers) : Option LoadFailure :=
  demands.findSome? fun demand => layers.refusal? demand.1 demand.2

theorem ofLayers_eq_ok_iff_given {layers : Layers} {c : Config} :
    ofLayers layers = .ok c ↔ Given layers c := by
  rw [ofLayers_eq_ok_iff, Layers.extract_eq_ok_iff_gives Setting.asNumber_eq_ok_iff,
    Layers.extract_eq_ok_iff_gives Setting.asNumber_eq_ok_iff,
    Layers.extract_eq_ok_iff_gives Setting.asOptionalText_eq_ok_iff,
    Layers.extract_eq_ok_iff_gives Setting.asAddress_eq_ok_iff,
    Layers.extract_eq_ok_iff_gives Setting.asText_eq_ok_iff,
    Layers.extract_eq_ok_iff_gives Setting.asText_eq_ok_iff, Layers.extractTexts_eq_ok_iff_gives]
  constructor
  · rintro ⟨hinitial, hceiling, hip, hbind, hid, huri, hwatch⟩
    exact ⟨hinitial, hceiling, hip, hbind, hid, huri, hwatch⟩
  · rintro ⟨hinitial, hceiling, hip, hbind, hid, huri, hwatch⟩
    exact ⟨hinitial, hceiling, hip, hbind, hid, huri, hwatch⟩

/-- Whether a computation fails just with the given failure, if one is given. -/
def FailsWith {α : Type} (x : Except LoadFailure α) (failure? : Option LoadFailure) : Prop :=
  ∀ f, x = .error f ↔ failure? = some f

section FailsWith

variable {α β : Type}

theorem FailsWith.bind {x : Except LoadFailure α} {next : α → Except LoadFailure β}
    {first rest : Option LoadFailure} (hx : FailsWith x first)
    (hnext : ∀ a, FailsWith (next a) rest) : FailsWith (x >>= next) (first.or rest) := by
  intro f
  rw [bind_eq_error_iff, Option.or_eq_some_iff, hx f]
  cases x with
  | error e =>
      have hfirst := (hx e).mp rfl
      simp [hfirst]
  | ok a =>
      have hfirst : first = none :=
        Option.eq_none_iff_forall_ne_some.mpr fun e he => by cases (hx e).mpr he
      simp [hfirst, hnext a f]

theorem findSome?_cons_or (f : α → Option β) (a : α) (rest : List α) :
    (a :: rest).findSome? f = (f a).or (rest.findSome? f) := by
  rw [List.findSome?_cons]
  cases f a <;> rfl

end FailsWith

theorem failsWith_ofLayers (layers : Layers) :
    FailsWith (ofLayers layers) (firstRefusal? layers) := by
  unfold ofLayers firstRefusal? demands
  simp only [findSome?_cons_or]
  -- One stage for each key, in the order of `demands`; after the last one nothing can fail.
  refine FailsWith.bind (fun _ => Layers.extract_eq_error_iff) fun _ => ?_
  refine FailsWith.bind (fun _ => Layers.extract_eq_error_iff) fun _ => ?_
  refine FailsWith.bind (fun _ => Layers.extract_eq_error_iff) fun _ => ?_
  refine FailsWith.bind (fun _ => Layers.extract_eq_error_iff) fun _ => ?_
  refine FailsWith.bind (fun _ => Layers.extract_eq_error_iff) fun _ => ?_
  refine FailsWith.bind (fun _ => Layers.extract_eq_error_iff) fun _ => ?_
  refine FailsWith.bind (fun _ => Layers.extractTexts_eq_error_iff) fun _ => ?_
  exact fun f => ⟨nofun, nofun⟩

end Config

end ServiceDiscovery
