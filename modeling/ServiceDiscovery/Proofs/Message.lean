import ServiceDiscovery.Message
import ServiceDiscovery.Proofs.Json.Shapes
/-!
# Messages come back as they were sent

The shapes of all messages are sound, so what is left to say of each is how deeply its values nest. A
payload stands three brackets deep in a response, and an assignment nests six deep by itself.
-/

namespace ServiceDiscovery

open Json (Canonical)

theorem SocketTarget.shape_sound : SocketTarget.shape.Sound :=
  ⟨by decide, fun _ => rfl, .required trivial (.required trivial trivial)⟩

theorem LocalityEndpoint.shape_sound : LocalityEndpoint.shape.Sound :=
  ⟨by decide, fun _ => rfl, .required SocketTarget.shape_sound (.optional rfl trivial trivial)⟩

theorem Locality.shape_sound : Locality.shape.Sound :=
  ⟨by decide, fun _ => rfl, .defaulted LocalityEndpoint.shape_sound trivial⟩

theorem Assignment.shape_sound : Assignment.shape.Sound :=
  ⟨by decide, fun _ => rfl, .defaulted trivial (.defaulted Locality.shape_sound trivial)⟩

theorem Resource.shape_sound : Resource.shape.Sound :=
  ⟨by decide, fun _ => rfl, .required trivial (.defaulted trivial trivial)⟩

theorem Response.shape_sound : Response.shape.Sound :=
  ⟨by decide, fun _ => rfl,
    .defaulted trivial (.defaulted trivial (.defaulted Resource.shape_sound trivial))⟩

theorem Request.shape_sound : Request.shape.Sound :=
  ⟨by decide, fun _ => rfl,
    .required trivial (.required trivial (.required trivial
      (.defaulted trivial (.defaulted trivial (.optional rfl trivial trivial)))))⟩

theorem Assignment.canonical (a : Assignment) : Canonical 6 (Assignment.shape.toJson a) := by
  have hendpoint : ∀ e : LocalityEndpoint, LocalityEndpoint.shape.Fits 2 e := fun e =>
    ⟨⟨trivial, trivial, trivial⟩, fun _ _ => trivial, trivial⟩
  have hlocality : ∀ l : Locality, Locality.shape.Fits 4 l := fun l =>
    ⟨fun e _ => hendpoint e, trivial⟩
  have hfits : Assignment.shape.Fits 6 a := ⟨trivial, fun l _ => hlocality l, trivial⟩
  exact Assignment.shape.canonical_toJson hfits

theorem Assignment.decode_ofAssignment (a : Assignment) : (Resource.ofAssignment a).decode = .ok a := by
  have hvalue := Assignment.shape.ofJson_toJson Assignment.shape_sound a
  rw [Resource.ofAssignment, Resource.decode, if_pos rfl, hvalue]
  rfl

theorem Request.shape_fits (depth : Nat) (r : Request) : Request.shape.Fits (depth + 2) r :=
  ⟨trivial, trivial, fun _ _ => trivial, trivial, trivial, fun _ _ => trivial, trivial⟩

theorem Response.shape_fits {depth : Nat} {r : Response}
    (h : ∀ x ∈ r.resources, Canonical depth x.value) : Response.shape.Fits (depth + 3) r :=
  ⟨trivial, trivial, fun x hx => ⟨trivial, h x hx, trivial⟩, trivial⟩

theorem Request.parse_text (r : Request) : Request.shape.parse (Request.shape.text r) = .ok r :=
  Json.Shape.parse_text Request.shape_sound (Request.shape_fits 125 r)

theorem Response.parse_text {r : Response} (h : ∀ x ∈ r.resources, Canonical 124 x.value) :
    Response.shape.parse (Response.shape.text r) = .ok r :=
  Json.Shape.parse_text Response.shape_sound (Response.shape_fits h)

/-- **Messages come back as they were sent.** A request does, whatever its strings hold; a response
does if its payloads have whole numbers only and do not nest too deeply, as all payloads made of
assignments do; and the assignment that such a payload was made of comes back out of it. -/
theorem messages_come_back :
    (∀ r : Request, Request.shape.parse (Request.shape.text r) = .ok r) ∧
    (∀ r : Response, (∀ x ∈ r.resources, Canonical 100 x.value) →
      Response.shape.parse (Response.shape.text r) = .ok r ∧
      (Response.shape.parse (Response.shape.text r)).map Response.endpoints = .ok r.endpoints) ∧
    ∀ a : Assignment,
      Canonical 100 (Resource.ofAssignment a).value ∧ (Resource.ofAssignment a).decode = .ok a := by
  refine ⟨Request.parse_text, fun r hr => ?_, fun a => ⟨?_, a.decode_ofAssignment⟩⟩
  · have hparse := Response.parse_text fun x hx => (hr x hx).mono (by decide)
    rw [hparse]
    exact ⟨rfl, rfl⟩
  · exact a.canonical.mono (by decide)

/-- The payload holds both ends of the range of whole numbers, and the strings what is escaped. -/
theorem messages_come_back_extreme :
    let payload : Json :=
      .object [("", .array [.number (.negative (Fin.last _)), .object []]), ("\"k\\", .null),
        ("n", .number (.natural (UInt64.ofNat (UInt64.size - 1))))]
    let r : Response := ⟨"\x01\n\x7f", "😀\u2028", [⟨"t", payload⟩, ⟨"", .string "\r\"\\/"⟩]⟩
    (∀ x ∈ r.resources, Canonical 100 x.value) ∧
      Response.shape.parse (Response.shape.text r) = .ok r := by
  intro payload r
  have hpayload : Canonical 100 payload := by
    refine .object (by decide +kernel) ?_
    simp only [List.forall_mem_cons]
    refine ⟨.array ?_, .null _, .natural _ _, nofun⟩
    simp only [List.forall_mem_cons]
    exact ⟨.negative _ _, .object .nil nofun, nofun⟩
  have hr : ∀ x ∈ r.resources, Canonical 100 x.value := by
    simp only [r, List.forall_mem_cons]
    exact ⟨hpayload, .string _ _, nofun⟩
  exact ⟨hr, (messages_come_back.2.1 r hr).1⟩

end ServiceDiscovery
