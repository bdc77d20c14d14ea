import ServiceDiscovery.Proofs.Json.Meaning
import ServiceDiscovery.Proofs.Message
/-!
# What a response holds

An assignment stands in a JSON value if the value gives every field what it asks for. The fields that
may be left out are the name of the cluster, the two lists and the weight, which may also be `null`;
members with other names do not count. A value holds one assignment at most, and decoding finds it.

A response then comes down to its first resource. It fails in three ways, and each of them is decided
by the type of that resource, by whether its value holds an assignment, and by the first port of the
assignment that is too large.
-/

namespace ServiceDiscovery

open Json (Shape Fields)

structure SocketTarget.StandsIn (v : Json) (t : SocketTarget) : Prop where
  record : v.IsRecord 2
  address : v.given "address" 0 = [.string t.address]
  /-- The number may be written with 64 bits, but has to be one of 32. -/
  port : ∃ n, v.given "port_value" 1 = [.number (.natural n)] ∧ n.toNat = t.port.toNat

structure LocalityEndpoint.StandsIn (v : Json) (e : LocalityEndpoint) : Prop where
  record : v.IsRecord 2
  target : ∃ w, v.given "address" 0 = [w] ∧ e.target.StandsIn w
  weight :
    match e.weight with
    | none => v.given "load_balancing_weight" 1 = [] ∨ v.given "load_balancing_weight" 1 = [.null]
    | some k =>
      ∃ n, v.given "load_balancing_weight" 1 = [.number (.natural n)] ∧ n.toNat = k.toNat

structure Locality.StandsIn (v : Json) (l : Locality) : Prop where
  record : v.IsRecord 1
  endpoints :
    (v.given "lb_endpoints" 0 = [] ∧ l.endpoints = []) ∨
      ∃ items, v.given "lb_endpoints" 0 = [.array items] ∧
        List.Forall₂ LocalityEndpoint.StandsIn items l.endpoints

structure Assignment.StandsIn (v : Json) (a : Assignment) : Prop where
  record : v.IsRecord 2
  cluster :
    (v.given "cluster_name" 0 = [] ∧ a.cluster = "") ∨
      v.given "cluster_name" 0 = [.string a.cluster]
  localities :
    (v.given "endpoints" 1 = [] ∧ a.localities = []) ∨
      ∃ items, v.given "endpoints" 1 = [.array items] ∧
        List.Forall₂ Locality.StandsIn items a.localities

section Meaning

variable {v : Json}

theorem SocketTarget.means_iff {t : SocketTarget} :
    SocketTarget.shape.Means v t ↔ t.StandsIn v := by
  rw [shape, Shape.Means]
  constructor
  · rintro ⟨hrecord, ⟨address, port, _⟩, hparts, rfl⟩
    obtain ⟨⟨w, haddress, rfl⟩, hrest⟩ := Fields.means_required.mp hparts
    obtain ⟨⟨w, hport, n, rfl, hn⟩, -⟩ := Fields.means_required.mp hrest
    exact ⟨hrecord, haddress, n, hport, hn⟩
  · rintro ⟨hrecord, haddress, n, hport, hn⟩
    refine ⟨hrecord, (t.address, t.port, ()), ?_, rfl⟩
    exact Fields.means_required.mpr ⟨⟨_, haddress, rfl⟩,
      Fields.means_required.mpr ⟨⟨_, hport, n, rfl, hn⟩, trivial⟩⟩

theorem LocalityEndpoint.means_iff {e : LocalityEndpoint} :
    LocalityEndpoint.shape.Means v e ↔ e.StandsIn v := by
  rw [shape, Shape.Means]
  constructor
  · rintro ⟨hrecord, ⟨target, weight, _⟩, hparts, rfl⟩
    obtain ⟨⟨w, htarget, hmeans⟩, hrest⟩ := Fields.means_required.mp hparts
    have hstands := SocketTarget.means_iff.mp hmeans
    cases weight with
    | none =>
        obtain ⟨hweight, -⟩ := Fields.means_optional_none.mp hrest
        exact ⟨hrecord, ⟨w, htarget, hstands⟩, hweight⟩
    | some k =>
        obtain ⟨⟨w', hweight, -, n, rfl, hn⟩, -⟩ := Fields.means_optional_some.mp hrest
        exact ⟨hrecord, ⟨w, htarget, hstands⟩, n, hweight, hn⟩
  · obtain ⟨target, weight⟩ := e
    rintro ⟨hrecord, ⟨w, htarget, hstands⟩, hweight⟩
    have hmeans := SocketTarget.means_iff.mpr hstands
    refine ⟨hrecord, (target, weight, ()), Fields.means_required.mpr ⟨⟨w, htarget, hmeans⟩, ?_⟩, rfl⟩
    cases weight with
    | none => exact Fields.means_optional_none.mpr ⟨hweight, trivial⟩
    | some k =>
        obtain ⟨n, hweight, hn⟩ := hweight
        exact Fields.means_optional_some.mpr ⟨⟨_, hweight, nofun, n, rfl, hn⟩, trivial⟩

/-- A list of records is given by a list of values that hold one each. -/
theorem exists_list_means_iff {α : Type} {s : Shape α} {holds : Json → α → Prop}
    (h : ∀ {v x}, s.Means v x ↔ holds v x) {values : List Json} {xs : List α} :
    (∃ w, values = [w] ∧ (Shape.list s).Means w xs) ↔
      ∃ items, values = [.array items] ∧ List.Forall₂ holds items xs := by
  have hs : s.Means = holds := by
    funext v x
    exact propext h
  subst hs
  constructor
  · rintro ⟨w, hw, hmeans⟩
    rw [Shape.Means] at hmeans
    obtain ⟨items, rfl, hitems⟩ := hmeans
    exact ⟨items, hw, hitems⟩
  · rintro ⟨items, hw, hitems⟩
    refine ⟨_, hw, ?_⟩
    rw [Shape.Means]
    exact ⟨items, rfl, hitems⟩

theorem Locality.means_iff {l : Locality} : Locality.shape.Means v l ↔ l.StandsIn v := by
  rw [shape, Shape.Means]
  constructor
  · rintro ⟨hrecord, ⟨endpoints, _⟩, hparts, rfl⟩
    obtain ⟨hendpoints, -⟩ := Fields.means_defaulted.mp hparts
    rw [exists_list_means_iff LocalityEndpoint.means_iff] at hendpoints
    exact ⟨hrecord, hendpoints⟩
  · rintro ⟨hrecord, hendpoints⟩
    rw [← exists_list_means_iff LocalityEndpoint.means_iff] at hendpoints
    exact ⟨hrecord, (l.endpoints, ()), Fields.means_defaulted.mpr ⟨hendpoints, trivial⟩, rfl⟩

theorem Assignment.means_iff {a : Assignment} : Assignment.shape.Means v a ↔ a.StandsIn v := by
  rw [shape, Shape.Means]
  constructor
  · rintro ⟨hrecord, ⟨cluster, localities, _⟩, hparts, rfl⟩
    obtain ⟨hcluster, hrest⟩ := Fields.means_defaulted.mp hparts
    obtain ⟨hlocalities, -⟩ := Fields.means_defaulted.mp hrest
    rw [exists_list_means_iff Locality.means_iff] at hlocalities
    refine ⟨hrecord, hcluster.imp id ?_, hlocalities⟩
    rintro ⟨w, hw, rfl⟩
    exact hw
  · rintro ⟨hrecord, hcluster, hlocalities⟩
    rw [← exists_list_means_iff Locality.means_iff] at hlocalities
    exact ⟨hrecord, (a.cluster, a.localities, ()),
      Fields.means_defaulted.mpr ⟨hcluster.imp id fun hw => ⟨_, hw, rfl⟩,
        Fields.means_defaulted.mpr ⟨hlocalities, trivial⟩⟩, rfl⟩

end Meaning

/-- The assignment that is read is the one that stands there. -/
theorem Assignment.ofJson_eq_ok_iff {v : Json} {a : Assignment} :
    Assignment.shape.ofJson v = .ok a ↔ a.StandsIn v := by
  rw [Assignment.shape.ofJson_eq_ok_iff Assignment.shape_sound, Assignment.means_iff]

/-! ### Ports -/

namespace Assignment

/-- What the assignment lists, in the order of the document. -/
def entries (a : Assignment) : List LocalityEndpoint := a.localities.flatMap Locality.endpoints

/-- The first port in the order of the document that is too large. -/
def excessPort (a : Assignment) : Option UInt32 :=
  (a.entries.map fun e => e.target.port).find? fun port => 65535 < port.toNat

end Assignment

/-- The endpoint that is meant where the port is not too large. -/
def LocalityEndpoint.plain (e : LocalityEndpoint) : Endpoint :=
  ⟨e.target.address, e.target.port.toUInt16, e.weight.getD 0⟩

theorem mapM_toEndpoint (entries : List LocalityEndpoint) :
    entries.mapM LocalityEndpoint.toEndpoint =
      match (entries.map fun e => e.target.port).find? fun port => 65535 < port.toNat with
      | some port => .error port
      | none => .ok (entries.map LocalityEndpoint.plain) := by
  induction entries with
  | nil => rfl
  | cons e entries ih =>
      rw [List.mapM_cons, ih, List.map_cons, List.find?_cons, LocalityEndpoint.toEndpoint]
      by_cases hport : e.target.port.toNat < UInt16.size
      · have hle : ¬65535 < e.target.port.toNat := Nat.not_lt.mpr (Nat.le_of_lt_succ hport)
        rw [if_pos hport, decide_eq_false hle, ok_bind]
        cases (entries.map fun e => e.target.port).find? fun port => 65535 < port.toNat with
        | some port => rfl
        | none => rfl
      · have hlt : 65535 < e.target.port.toNat := Nat.lt_of_succ_le (Nat.not_lt.mp hport)
        rw [if_neg hport, decide_eq_true hlt]
        rfl

theorem Assignment.endpoints_eq (a : Assignment) :
    a.endpoints =
      match a.excessPort with
      | some port => .error (.portOutOfRange port)
      | none => .ok (a.entries.map LocalityEndpoint.plain) := by
  rw [endpoints, toEndpoints, mapM_toEndpoint]
  change Except.mapError _ (match a.excessPort with | some _ => _ | none => _) = _
  cases a.excessPort with
  | some port => rfl
  | none => rfl

theorem Assignment.excessPort_eq_none_iff {a : Assignment} :
    a.excessPort = none ↔ ∀ e ∈ a.entries, e.target.port.toNat ≤ 65535 := by
  rw [excessPort, List.find?_eq_none]
  simp

theorem Assignment.endpoints_eq_ok_iff_plain {a : Assignment} {endpoints : List Endpoint} :
    a.endpoints = .ok endpoints ↔
      (∀ e ∈ a.entries, e.target.port.toNat ≤ 65535) ∧
        endpoints = a.entries.map LocalityEndpoint.plain := by
  rw [a.endpoints_eq, ← excessPort_eq_none_iff]
  cases a.excessPort with
  | some port => exact ⟨nofun, nofun⟩
  | none => exact ⟨fun h => ⟨rfl, (Except.ok.inj h).symm⟩, fun h => congrArg Except.ok h.2.symm⟩

theorem Assignment.endpoints_eq_error_iff {a : Assignment} {f : DecodeFailure} :
    a.endpoints = .error f ↔ ∃ port, a.excessPort = some port ∧ f = .portOutOfRange port := by
  rw [a.endpoints_eq]
  cases a.excessPort with
  | some port =>
      constructor
      · intro h
        exact ⟨port, rfl, (Except.error.inj h).symm⟩
      · rintro ⟨port, h, rfl⟩
        cases h
        rfl
  | none => exact ⟨nofun, nofun⟩

/-! ### Responses -/

namespace Resource

variable {r : Resource}

theorem decode_eq_ok_iff {a : Assignment} :
    r.decode = .ok a ↔ r.typeUrl = endpointTypeUrl ∧ a.StandsIn r.value := by
  rw [decode, ← Assignment.ofJson_eq_ok_iff]
  split_ifs with htype
  · rw [and_iff_right htype]
    cases Assignment.shape.ofJson r.value with
    | error reason => exact iff_of_false (fun h => by cases h) fun h => by cases h
    | ok a => exact ⟨fun h => congrArg Except.ok (Except.ok.inj h), fun h => by cases h; rfl⟩
  · exact iff_of_false (fun h => by cases h) fun h => htype h.1

theorem decode_eq_error_iff {f : DecodeFailure} :
    r.decode = .error f ↔
      (r.typeUrl ≠ endpointTypeUrl ∧ f = .unsupportedType r.typeUrl) ∨
        (r.typeUrl = endpointTypeUrl ∧
          ∃ reason, Assignment.shape.ofJson r.value = .error reason ∧ f = .malformed reason) := by
  rw [decode]
  split_ifs with htype
  · rw [and_iff_right htype, or_iff_right fun h => h.1 htype]
    cases Assignment.shape.ofJson r.value with
    | error reason =>
        constructor
        · intro h
          exact ⟨reason, rfl, (Except.error.inj h).symm⟩
        · rintro ⟨reason, h, rfl⟩
          cases h
          rfl
    | ok a =>
        refine iff_of_false (fun h => by cases h) ?_
        rintro ⟨reason, h, -⟩
        cases h
  · rw [or_iff_left fun h => htype h.1, and_iff_right htype]
    exact ⟨fun h => (Except.error.inj h).symm, congrArg Except.error ∘ Eq.symm⟩

end Resource

namespace Response

variable {version nonce : String} {first : Resource} {others : List Resource}

theorem endpoints_eq_ok_iff {endpoints : List Endpoint} :
    Response.endpoints ⟨version, nonce, first :: others⟩ = .ok endpoints ↔
      first.typeUrl = endpointTypeUrl ∧ ∃ a : Assignment, a.StandsIn first.value ∧
        (∀ e ∈ a.entries, e.target.port.toNat ≤ 65535) ∧
          endpoints = a.entries.map LocalityEndpoint.plain := by
  change (first.decode >>= Assignment.endpoints) = _ ↔ _
  simp only [bind_eq_ok_iff, Resource.decode_eq_ok_iff, Assignment.endpoints_eq_ok_iff_plain,
    and_assoc, exists_and_left]

theorem endpoints_eq_error_iff {f : DecodeFailure} :
    Response.endpoints ⟨version, nonce, first :: others⟩ = .error f ↔
      (first.typeUrl ≠ endpointTypeUrl ∧ f = .unsupportedType first.typeUrl) ∨
        (first.typeUrl = endpointTypeUrl ∧
          ((∃ reason, Assignment.shape.ofJson first.value = .error reason ∧
              f = .malformed reason) ∨
            ∃ a : Assignment, a.StandsIn first.value ∧
              ∃ port, a.excessPort = some port ∧ f = .portOutOfRange port)) := by
  change (first.decode >>= Assignment.endpoints) = _ ↔ _
  simp only [bind_eq_error_iff, Resource.decode_eq_error_iff, Resource.decode_eq_ok_iff,
    Assignment.endpoints_eq_error_iff, and_assoc, exists_and_left, or_assoc, and_or_left]

end Response

theorem Assignment.exists_error_iff {v : Json} :
    (∃ reason, Assignment.shape.ofJson v = .error reason) ↔ ∀ a : Assignment, ¬a.StandsIn v := by
  simp only [← Assignment.ofJson_eq_ok_iff]
  cases Assignment.shape.ofJson v with
  | error reason => exact ⟨nofun, fun _ => ⟨reason, rfl⟩⟩
  | ok a => exact ⟨nofun, fun h => absurd rfl (h a)⟩

/-- **A response holds what its first resource holds, or fails for what is wrong there.** Without
resources it holds no endpoints. -/
theorem response_holds_first (version nonce : String) (first : Resource) (others : List Resource) :
    let r : Response := ⟨version, nonce, first :: others⟩
    (⟨version, nonce, []⟩ : Response).endpoints = .ok [] ∧
    (∀ version' nonce' others',
      (⟨version', nonce', first :: others'⟩ : Response).endpoints = r.endpoints) ∧
    (∀ endpoints, r.endpoints = .ok endpoints ↔
      first.typeUrl = endpointTypeUrl ∧ ∃ a : Assignment, a.StandsIn first.value ∧
        (∀ e ∈ a.entries, e.target.port.toNat ≤ 65535) ∧
          endpoints = a.entries.map LocalityEndpoint.plain) ∧
    (∀ typeUrl, r.endpoints = .error (.unsupportedType typeUrl) ↔
      first.typeUrl ≠ endpointTypeUrl ∧ typeUrl = first.typeUrl) ∧
    ((∃ reason, r.endpoints = .error (.malformed reason)) ↔
      first.typeUrl = endpointTypeUrl ∧ ∀ a : Assignment, ¬a.StandsIn first.value) ∧
    (∀ port, r.endpoints = .error (.portOutOfRange port) ↔
      first.typeUrl = endpointTypeUrl ∧
        ∃ a : Assignment, a.StandsIn first.value ∧ a.excessPort = some port) ∧
    ∀ f, r.endpoints = .error f → f.typeUrl = first.typeUrl := by
  intro r
  refine ⟨rfl, fun _ _ _ => rfl, fun _ => Response.endpoints_eq_ok_iff, fun typeUrl => ?_, ?_,
    fun port => ?_, fun f h => ?_⟩
  · simp [r, Response.endpoints_eq_error_iff]
  · simp [r, Response.endpoints_eq_error_iff, ← Assignment.exists_error_iff]
  · simp [r, Response.endpoints_eq_error_iff]
  · rcases Response.endpoints_eq_error_iff.mp h with
      ⟨-, rfl⟩ | ⟨htype, ⟨reason, -, rfl⟩ | ⟨a, -, port, -, rfl⟩⟩
    · rfl
    · exact htype.symm
    · exact htype.symm

/-- A record given as a list, a weight that is left out and one that is `null`, a member that does not
count and a group that is left empty. The last port is one, or is too large before another that is
too large as well. -/
theorem response_holds_first_mixed :
    let number (n : UInt64) : Json := .number (.natural n)
    let value (port : UInt64) : Json :=
      .object [("endpoints", .array [
        .object [("lb_endpoints", .array [.array [.array [.string "h", number 80]],
          .object [("address", .object [("address", .string "::1"), ("port_value", number port)]),
            ("load_balancing_weight", .null), ("zone", .bool true)]])],
        .object [],
        .array [.array [.array [.array [.string "g", number port], number 4294967295]]]])]
    let r (port : UInt64) : Response :=
      ⟨"1", "n", [⟨endpointTypeUrl, value port⟩, ⟨"", .null⟩]⟩
    let f : DecodeFailure := .portOutOfRange 70000
    (r 65535).endpoints =
      .ok [⟨"h", 80, 0⟩, ⟨"::1", 65535, 0⟩, ⟨"g", 65535, 4294967295⟩] ∧
    (r 70000).endpoints = .error f ∧ f.typeUrl = endpointTypeUrl ∧
    f.message =
      "failed to decode " ++ endpointTypeUrl ++ " resource: port 70000 out of range" := by
  intro number value r f
  let a (port : UInt32) : Assignment :=
    ⟨"", [⟨[⟨⟨"h", 80⟩, none⟩, ⟨⟨"::1", port⟩, none⟩]⟩, ⟨[]⟩, ⟨[⟨⟨"g", port⟩, some 4294967295⟩]⟩]⟩
  have hright : (a 65535).StandsIn (value 65535) :=
    Assignment.ofJson_eq_ok_iff.mp (eq_ok_of_toOption (by decide +kernel))
  have hwrong : (a 70000).StandsIn (value 70000) :=
    Assignment.ofJson_eq_ok_iff.mp (eq_ok_of_toOption (by decide +kernel))
  obtain ⟨-, -, hok, -⟩ :=
    response_holds_first "1" "n" ⟨endpointTypeUrl, value 65535⟩ [⟨"", .null⟩]
  obtain ⟨-, -, -, -, -, hport, htype⟩ :=
    response_holds_first "1" "n" ⟨endpointTypeUrl, value 70000⟩ [⟨"", .null⟩]
  have herror : (r 70000).endpoints = .error f :=
    (hport 70000).mpr ⟨rfl, a 70000, hwrong, by decide +kernel⟩
  exact ⟨(hok _).mpr ⟨rfl, a 65535, hright, by decide +kernel, by decide +kernel⟩, herror,
    htype f herror, by decide +kernel⟩

end ServiceDiscovery
