import ServiceDiscovery.Proofs.Message
/-!
# Published endpoint lists come back

An assignment stands for a list of endpoints if each of its endpoints has a port that is one; the
groups do not matter. The assignment made of a list stands for that list, and nothing on the way of
a response through a text touches it: the payload comes back as it was sent, and what stands behind
the first resource is read but never looked at.
-/

namespace ServiceDiscovery

open Json (Canonical)

namespace LocalityEndpoint

/-- The endpoint is the one that is meant here. A missing weight is zero. -/
structure Describes (e : LocalityEndpoint) (x : Endpoint) : Prop where
  host_eq : x.host = e.target.address
  port_eq : x.port.toNat = e.target.port.toNat
  weight_eq : x.weight = e.weight.getD 0

theorem toEndpoint_eq_ok_iff {e : LocalityEndpoint} {x : Endpoint} :
    e.toEndpoint = .ok x ↔ e.Describes x := by
  rw [toEndpoint]
  split_ifs with hport
  · constructor
    · intro h
      cases h
      exact ⟨rfl, UInt16.toNat_ofNat_of_lt' hport, rfl⟩
    · intro h
      obtain ⟨host, port, weight⟩ := x
      obtain ⟨rfl, hvalue, rfl⟩ := h
      rw [← hvalue, UInt16.ofNat_toNat]
  · constructor
    · intro h
      cases h
    · intro h
      exact absurd (h.port_eq ▸ x.port.toNat_lt) hport

theorem describes_ofEndpoint (x : Endpoint) : (ofEndpoint x).Describes x := by
  have hlarge : x.port.toNat < UInt32.size := Nat.lt_trans x.port.toNat_lt (by decide)
  exact ⟨rfl, (UInt32.toNat_ofNat_of_lt' hlarge).symm, rfl⟩

end LocalityEndpoint

namespace Assignment

theorem endpoints_eq_ok_iff {a : Assignment} {endpoints : List Endpoint} :
    a.endpoints = .ok endpoints ↔
      List.Forall₂ LocalityEndpoint.Describes (a.localities.flatMap Locality.endpoints)
        endpoints := by
  have hlist : a.endpoints = .ok endpoints ↔ a.toEndpoints = .ok endpoints := by
    rw [Assignment.endpoints]
    cases a.toEndpoints with
    | error port => exact ⟨nofun, nofun⟩
    | ok found => exact ⟨fun h => congrArg Except.ok (Except.ok.inj h), fun h => by rw [h]; rfl⟩
  rw [hlist, toEndpoints, mapM_eq_ok_iff]
  simp only [LocalityEndpoint.toEndpoint_eq_ok_iff]

theorem localities_ofEndpoints (cluster : String) (endpoints : List Endpoint) :
    (ofEndpoints cluster endpoints).localities.flatMap Locality.endpoints =
      endpoints.map LocalityEndpoint.ofEndpoint := by
  rw [ofEndpoints, List.flatMap_map, List.map_eq_flatMap]

theorem endpoints_ofEndpoints (cluster : String) (endpoints : List Endpoint) :
    (ofEndpoints cluster endpoints).endpoints = .ok endpoints := by
  rw [endpoints_eq_ok_iff, localities_ofEndpoints, List.forall₂_map_left_iff, List.forall₂_same]
  exact fun x _ => LocalityEndpoint.describes_ofEndpoint x

end Assignment

theorem Response.endpoints_of_first {a : Assignment} {endpoints : List Endpoint}
    (h : a.endpoints = .ok endpoints) (version nonce : String) (others : List Resource) :
    Response.endpoints ⟨version, nonce, .ofAssignment a :: others⟩ = .ok endpoints := by
  change (Resource.ofAssignment a).decode.bind Assignment.endpoints = _
  rw [a.decode_ofAssignment]
  exact h

/-- **Published lists come back.** A response whose first resource publishes a list of endpoints
brings that list, in its order and with its repetitions, through a text, whatever resources follow.
An assignment stands for the endpoints that it describes, however they are grouped; publishing these
anew leads to the same list, and from there on to the same assignment. -/
theorem published_lists_come_back :
    (∀ (cluster : String) (endpoints : List Endpoint) (version nonce : String)
      (others : List Resource), (∀ x ∈ others, Canonical 100 x.value) →
      let published := Resource.ofAssignment (.ofEndpoints cluster endpoints)
      let r : Response := ⟨version, nonce, published :: others⟩
      ∃ received, Response.shape.parse (Response.shape.text r) = .ok received ∧
        received.endpoints = .ok endpoints) ∧
    ∀ (a : Assignment) (endpoints : List Endpoint),
      (a.endpoints = .ok endpoints ↔
        List.Forall₂ LocalityEndpoint.Describes (a.localities.flatMap Locality.endpoints)
          endpoints) ∧
      (a.endpoints = .ok endpoints → ∀ cluster,
        let again := Assignment.ofEndpoints cluster endpoints
        again.endpoints = .ok endpoints ∧
          again.endpoints.map (Assignment.ofEndpoints cluster) = .ok again) := by
  refine ⟨?_, fun a endpoints => ⟨Assignment.endpoints_eq_ok_iff, fun _ cluster => ?_⟩⟩
  · intro cluster endpoints version nonce others hothers published r
    have hpublished : Canonical 124 published.value := (Assignment.canonical _).mono (by decide)
    have hcanonical : ∀ x ∈ r.resources, Canonical 124 x.value :=
      List.forall_mem_cons.mpr ⟨hpublished, fun x hx => (hothers x hx).mono (by decide)⟩
    have hlist := Assignment.endpoints_ofEndpoints cluster endpoints
    exact ⟨r, Response.parse_text hcanonical, Response.endpoints_of_first hlist version nonce others⟩
  · have hlist := Assignment.endpoints_ofEndpoints cluster endpoints
    refine ⟨hlist, ?_⟩
    rw [hlist]
    rfl

/-- Both ends of the ports and the weights, a repetition, and behind them what is no assignment; and
an assignment with an empty group and an endpoint without a weight. -/
theorem published_lists_come_back_extreme :
    let endpoints : List Endpoint :=
      [⟨"::1", 65535, 4294967295⟩, ⟨"", 0, 0⟩, ⟨"::1", 65535, 4294967295⟩]
    let others : List Resource := [⟨endpointTypeUrl, .string "\n"⟩, ⟨"", .null⟩]
    let r : Response := ⟨"1", "n", .ofAssignment (.ofEndpoints "c" endpoints) :: others⟩
    let a : Assignment := ⟨"d", [⟨[]⟩, ⟨[⟨⟨"h", 80⟩, none⟩, ⟨⟨"h", 81⟩, some 2⟩]⟩]⟩
    (∀ x ∈ others, Canonical 100 x.value) ∧
      (∃ received, Response.shape.parse (Response.shape.text r) = .ok received ∧
        received.endpoints = .ok endpoints) ∧
      a.endpoints = .ok [⟨"h", 80, 0⟩, ⟨"h", 81, 2⟩] ∧
      (Assignment.ofEndpoints "c" [⟨"h", 80, 0⟩, ⟨"h", 81, 2⟩]).endpoints =
        .ok [⟨"h", 80, 0⟩, ⟨"h", 81, 2⟩] := by
  intro endpoints others r a
  have hothers : ∀ x ∈ others, Canonical 100 x.value := by
    simp only [others, List.forall_mem_cons]
    exact ⟨.string _ _, .null _, nofun⟩
  have ha : a.endpoints = .ok [⟨"h", 80, 0⟩, ⟨"h", 81, 2⟩] := by decide
  exact ⟨hothers, published_lists_come_back.1 "c" endpoints "1" "n" others hothers, ha,
    ((published_lists_come_back.2 a _).2 ha "c").1⟩

end ServiceDiscovery
