import ServiceDiscovery.Proofs.Json.Shapes
/-!
# What a JSON value stands for

A JSON value stands for a value of a shape, or for none; which one is said here without reading
anything in order. For a record it comes down to what the JSON value gives to each field: an object
the values of the members with the field's name, a list the item at the field's place. A field has to
be given one value that stands for something, or none at all if it may be left out.

Reading goes through the members in the order of their keys and fills slots on the way. A member with
the name of one field leaves the slots of all others alone, so a slot only sees the members of its
own name, and is full after the first.
-/

namespace ServiceDiscovery

namespace Json

/-- What a value gives to a field of a record. -/
def given (v : Json) (name : String) (place : Nat) : List Json :=
  match v with
  | object members => (members.filter (·.1 = name)).map Prod.snd
  | array items => items[place]?.toList
  | _ => []

/-- Whether a value can be a record of so many fields. -/
def IsRecord (v : Json) (size : Nat) : Prop :=
  match v with
  | object _ => True
  | array items => items.length ≤ size
  | _ => False

mutual

/-- Which values of a shape a JSON value stands for: one at most. -/
def Shape.Means {α : Type} : Shape α → Json → α → Prop
  | .string, v, s => v = .string s
  | .uint16, v, n => ∃ m, v = .number (.natural m) ∧ m.toNat = n.toNat
  | .uint32, v, n => ∃ m, v = .number (.natural m) ∧ m.toNat = n.toNat
  | .any, v, x => v = x
  | .optional s, v, x =>
    match x with
    | none => v = .null
    | some x => v ≠ .null ∧ s.Means v x
  | .list s, v, xs => ∃ items, v = .array items ∧ List.Forall₂ s.Means items xs
  | .record _ fields build _, v, x =>
    v.IsRecord fields.size ∧ ∃ parts, fields.Means v 0 parts ∧ build parts = x

/-- Which values a JSON value gives to the fields of a record, the first of which has the given
place. -/
def Fields.Means {σ α : Type} : Fields σ α → Json → (place : Nat) → α → Prop
  | .nil, _, _, _ => True
  | .cons name shape absent _ rest, v, place, (x, xs) =>
    ((v.given name place = [] ∧ absent = some x) ∨
      ∃ w, v.given name place = [w] ∧ shape.Means w x) ∧
    rest.Means v (place + 1) xs

end

section Kinds

variable {σ α β : Type} {name : String} {shape : Shape α} {rest : Fields σ β} {v : Json}
  {place : Nat} {xs : β}

theorem Fields.means_required {x : α} :
    (Fields.required name shape rest).Means v place (x, xs) ↔
      (∃ w, v.given name place = [w] ∧ shape.Means w x) ∧ rest.Means v (place + 1) xs := by
  rw [Fields.required, Fields.Means]
  simp

theorem Fields.means_defaulted {absent x : α} :
    (Fields.defaulted name shape absent rest).Means v place (x, xs) ↔
      ((v.given name place = [] ∧ x = absent) ∨ ∃ w, v.given name place = [w] ∧ shape.Means w x) ∧
        rest.Means v (place + 1) xs := by
  rw [Fields.defaulted, Fields.Means, Option.some_inj, @eq_comm _ absent x]

theorem Fields.means_optional_none :
    (Fields.optional name shape rest).Means v place (none, xs) ↔
      (v.given name place = [] ∨ v.given name place = [.null]) ∧ rest.Means v (place + 1) xs := by
  rw [Fields.optional, Fields.Means]
  simp [Shape.Means]

theorem Fields.means_optional_some {x : α} :
    (Fields.optional name shape rest).Means v place (some x, xs) ↔
      (∃ w, v.given name place = [w] ∧ w ≠ .null ∧ shape.Means w x) ∧
        rest.Means v (place + 1) xs := by
  rw [Fields.optional, Fields.Means]
  simp [Shape.Means]

end Kinds

theorem ofUnsigned_eq_ok_iff {label : String} {bound n : Nat} {v : Json} :
    ofUnsigned label bound v = .ok n ↔
      ∃ m, v = .number (.natural m) ∧ m.toNat = n ∧ n < bound := by
  constructor
  · intro h
    match v, h with
    | .number (.natural m), h =>
        rw [ofUnsigned, unsigned] at h
        split_ifs at h with hbound
        cases h
        exact ⟨m, rfl, rfl, hbound⟩
  · rintro ⟨m, rfl, rfl, hbound⟩
    rw [ofUnsigned, unsigned, if_pos hbound]

/-! ### Members -/

section Given

variable {name : String} {place : Nat} {m : String × Json} {members : List (String × Json)}

theorem given_cons_of_eq (h : m.1 = name) :
    (object (m :: members)).given name place = m.2 :: (object members).given name place := by
  simp [given, h]

theorem given_cons_of_ne (h : m.1 ≠ name) :
    (object (m :: members)).given name place = (object members).given name place := by
  simp [given, h]

end Given

/-- What becomes of a slot when the values of the members of its name come along. -/
inductive Filled {α : Type} (shape : Shape α) : Option α → List Json → Option α → Prop
  | untouched (slot : Option α) : Filled shape slot [] slot
  | once {w : Json} {x : α} (h : shape.ofJson w = .ok x) : Filled shape none [w] (some x)

theorem filled_some_iff {α : Type} {shape : Shape α} {x : α} {values : List Json}
    {slot : Option α} : Filled shape (some x) values slot ↔ values = [] ∧ slot = some x := by
  constructor
  · intro h
    cases h with
    | untouched => exact ⟨rfl, rfl⟩
  · rintro ⟨rfl, rfl⟩
    exact .untouched _

theorem exists_filled_iff {α : Type} {shape : Shape α} {absent : Option α} {x : α}
    {values : List Json} :
    (∃ slot, Filled shape none values slot ∧ slot.or absent = some x) ↔
      (values = [] ∧ absent = some x) ∨ ∃ w, values = [w] ∧ shape.ofJson w = .ok x := by
  constructor
  · rintro ⟨slot, hfilled, hslot⟩
    cases hfilled with
    | untouched => exact .inl ⟨rfl, hslot⟩
    | once hx =>
        cases hslot
        exact .inr ⟨_, rfl, hx⟩
  · rintro (⟨rfl, habsent⟩ | ⟨w, rfl, hx⟩)
    · exact ⟨none, .untouched none, habsent⟩
    · exact ⟨some x, .once hx, rfl⟩

/-- A member that no field is named after changes nothing. -/
theorem Fields.ofMember_of_not_mem {σ α : Type} {key : String} {v : Json} :
    (f : Fields σ α) → key ∉ f.names → ∀ slots, f.ofMember slots key v = .ok slots
  | .nil, _, () => rfl
  | .cons name shape absent silent rest, hkey, (slot, slots) => by
      rw [Fields.names, List.mem_cons, not_or] at hkey
      have hrest := rest.ofMember_of_not_mem (v := v) hkey.2 slots
      exact Fields.ofMember_cons_iff.mpr (.inr ⟨hkey.1, rfl, hrest⟩)

theorem Fields.foldlM_nil (members : List (String × Json)) :
    members.foldlM (fun slots m => Fields.nil.ofMember slots m.1 m.2) () = .ok () := by
  induction members with
  | nil => rfl
  | cons m members ih => exact ih

section Cons

variable {σ α β : Type} {name : String} {shape : Shape α} {absent : Option α} {silent : α → Bool}
  {rest : Fields σ β} {x : α} {xs : β}

/-- The first slot sees the members of its name, the other slots see all members. -/
theorem Fields.foldlM_cons_iff (hname : name ∉ rest.names) (place : Nat)
    {members : List (String × Json)} {slot slot' : Option α} {slots slots' : σ} :
    members.foldlM
        (fun slots m => (Fields.cons name shape absent silent rest).ofMember slots m.1 m.2)
        (slot, slots) = .ok (slot', slots') ↔
      Filled shape slot ((Json.object members).given name place) slot' ∧
        members.foldlM (fun slots m => rest.ofMember slots m.1 m.2) slots = .ok slots' := by
  induction members generalizing slot slots with
  | nil =>
      constructor
      · intro h
        cases h
        exact ⟨.untouched _, rfl⟩
      · rintro ⟨hslot, hslots⟩
        cases hslots
        cases hslot
        rfl
  | cons m members ih =>
      rw [List.foldlM_cons, List.foldlM_cons, bind_eq_ok_iff]
      by_cases hm : m.1 = name
      · have hpass := rest.ofMember_of_not_mem (v := m.2) (hm ▸ hname) slots
        rw [given_cons_of_eq hm, hpass, ok_bind]
        constructor
        · rintro ⟨⟨slot₁, slots₁⟩, hfirst, hlater⟩
          rcases Fields.ofMember_cons_iff.mp hfirst with ⟨-, rfl, rfl, x, rfl, hx⟩ | ⟨hne, -, -⟩
          · obtain ⟨hfilled, hrest⟩ := ih.mp hlater
            obtain ⟨hnone, rfl⟩ := filled_some_iff.mp hfilled
            rw [hnone]
            exact ⟨.once hx, hrest⟩
          · exact absurd hm hne
        · rintro ⟨hfilled, hrest⟩
          generalize (object members).given name place = values at hfilled ih
          cases hfilled with
          | once hx =>
              exact ⟨(some _, slots),
                Fields.ofMember_cons_iff.mpr (.inl ⟨hm, rfl, rfl, _, rfl, hx⟩),
                ih.mpr ⟨filled_some_iff.mpr ⟨rfl, rfl⟩, hrest⟩⟩
      · rw [given_cons_of_ne hm, bind_eq_ok_iff]
        constructor
        · rintro ⟨⟨slot₁, slots₁⟩, hfirst, hlater⟩
          rcases Fields.ofMember_cons_iff.mp hfirst with ⟨heq, -⟩ | ⟨-, rfl, hmember⟩
          · exact absurd heq hm
          · obtain ⟨hfilled, hrest⟩ := ih.mp hlater
            exact ⟨hfilled, slots₁, hmember, hrest⟩
        · rintro ⟨hfilled, slots₁, hmember, hrest⟩
          exact ⟨(slot, slots₁), Fields.ofMember_cons_iff.mpr (.inr ⟨hm, rfl, hmember⟩),
            ih.mpr ⟨hfilled, hrest⟩⟩

theorem Fields.finish_cons_iff {slot : Option α} {slots : σ} :
    (Fields.cons name shape absent silent rest).finish (slot, slots) = .ok (x, xs) ↔
      slot.or absent = some x ∧ rest.finish slots = .ok xs := by
  rw [Fields.finish]
  cases slot.or absent with
  | none => exact iff_of_false (fun h => by cases h) fun h => by cases h.1
  | some y =>
      change (rest.finish slots >>= fun ys => .ok (y, ys)) = _ ↔ _
      rw [bind_eq_ok_iff]
      constructor
      · rintro ⟨ys, hrest, h⟩
        cases h
        exact ⟨rfl, hrest⟩
      · rintro ⟨h, hrest⟩
        cases h
        exact ⟨xs, hrest, rfl⟩

theorem Fields.means_cons_of_members (hname : name ∉ rest.names)
    (hvalue : ∀ {w}, shape.ofJson w = .ok x ↔ shape.Means w x) {members : List (String × Json)}
    {place : Nat}
    (hrest : (∃ slots, members.foldlM (fun slots m => rest.ofMember slots m.1 m.2) rest.empty =
        .ok slots ∧ rest.finish slots = .ok xs) ↔ rest.Means (.object members) (place + 1) xs) :
    (∃ slots, members.foldlM
        (fun slots m => (Fields.cons name shape absent silent rest).ofMember slots m.1 m.2)
        (none, rest.empty) = .ok slots ∧
      (Fields.cons name shape absent silent rest).finish slots = .ok (x, xs)) ↔
    (Fields.cons name shape absent silent rest).Means (.object members) place (x, xs) := by
  rw [Fields.Means, ← hrest]
  simp only [← hvalue]
  rw [← exists_filled_iff]
  constructor
  · rintro ⟨⟨slot, slots⟩, hfold, hfinish⟩
    obtain ⟨hfilled, hslots⟩ := (Fields.foldlM_cons_iff hname place).mp hfold
    obtain ⟨hslot, hlater⟩ := Fields.finish_cons_iff.mp hfinish
    exact ⟨⟨slot, hfilled, hslot⟩, slots, hslots, hlater⟩
  · rintro ⟨⟨slot, hfilled, hslot⟩, slots, hslots, hlater⟩
    exact ⟨(slot, slots), (Fields.foldlM_cons_iff hname place).mpr ⟨hfilled, hslots⟩,
      Fields.finish_cons_iff.mpr ⟨hslot, hlater⟩⟩

end Cons

/-! ### Items -/

section Cons

variable {σ α β : Type} {name owner : String} {shape : Shape α} {absent : Option α}
  {silent : α → Bool} {rest : Fields σ β} {x : α} {xs : β} {items : List Json} {place : Nat}

theorem Fields.defaults_cons_iff :
    (Fields.cons name shape absent silent rest).defaults owner place = .ok (x, xs) ↔
      absent = some x ∧ rest.defaults owner (place + 1) = .ok xs := by
  cases absent with
  | none => exact iff_of_false (fun h => by cases h) fun h => by cases h.1
  | some y =>
      change (rest.defaults owner (place + 1) >>= fun ys => .ok (y, ys)) = _ ↔ _
      rw [bind_eq_ok_iff]
      constructor
      · rintro ⟨ys, hrest, h⟩
        cases h
        exact ⟨rfl, hrest⟩
      · rintro ⟨h, hrest⟩
        cases h
        exact ⟨xs, hrest, rfl⟩

/-- A list that is over gives nothing to the fields that are left. -/
theorem Fields.defaults_eq_ok_iff {σ α : Type} (owner : String) {items : List Json} :
    (f : Fields σ α) → ∀ {place : Nat} {xs : α}, items.length ≤ place →
      (f.defaults owner place = .ok xs ↔ f.Means (.array items) place xs)
  | .nil, _, (), _ => ⟨fun _ => trivial, fun _ => rfl⟩
  | .cons name shape absent silent rest, place, (x, xs), hplace => by
      have hrest : rest.defaults owner (place + 1) = .ok xs ↔ _ :=
        rest.defaults_eq_ok_iff owner (Nat.le_succ_of_le hplace)
      have hnone : (Json.array items).given name place = [] := by
        rw [given, List.getElem?_eq_none hplace]
        rfl
      rw [Fields.defaults_cons_iff, hrest, Fields.Means, hnone]
      simp

theorem Fields.means_cons_of_items (hvalue : ∀ {w}, shape.ofJson w = .ok x ↔ shape.Means w x)
    (hrest : rest.ofItems owner items.length (place + 1) (items.drop (place + 1)) = .ok xs ↔
      items.length ≤ place + 1 + rest.size ∧ rest.Means (.array items) (place + 1) xs) :
    (Fields.cons name shape absent silent rest).ofItems owner items.length place
        (items.drop place) = .ok (x, xs) ↔
      items.length ≤ place + (rest.size + 1) ∧
        (Fields.cons name shape absent silent rest).Means (.array items) place (x, xs) := by
  by_cases hplace : items.length ≤ place
  · rw [List.drop_eq_nil_of_le hplace, ← Fields.defaults_eq_ok_iff owner _ hplace]
    exact (and_iff_right (Nat.le_add_right_of_le hplace)).symm
  · have hplace := Nat.lt_of_not_le hplace
    have hgiven : (Json.array items).given name place = [items[place]] := by
      rw [given, List.getElem?_eq_getElem hplace]
      rfl
    rw [List.drop_eq_getElem_cons hplace, Fields.Means, hgiven]
    change (shape.ofJson items[place] >>= fun v =>
      rest.ofItems owner items.length (place + 1) (items.drop (place + 1)) >>= fun vs =>
        .ok (v, vs)) = .ok (x, xs) ↔ _
    rw [Nat.add_right_comm, Nat.add_assoc] at hrest
    rw [bind_eq_ok_iff]
    constructor
    · rintro ⟨y, hy, hlater⟩
      obtain ⟨ys, hys, h⟩ := exists_of_bind hlater
      cases h
      obtain ⟨hlength, hmeans⟩ := hrest.mp hys
      exact ⟨hlength, .inr ⟨_, rfl, hvalue.mp hy⟩, hmeans⟩
    · rintro ⟨hlength, hfirst, hmeans⟩
      rcases hfirst with ⟨hnone, -⟩ | ⟨w, hw, hx⟩
      · cases hnone
      · cases hw
        refine ⟨x, hvalue.mpr hx, ?_⟩
        rw [hrest.mpr ⟨hlength, hmeans⟩, ok_bind]

end Cons

/-! ### Values -/

theorem Shape.means_record {σ α β : Type} {name : String} {fields : Fields σ α} {build : α → β}
    {parts : β → α} {v : Json} {x : β}
    (hmembers : ∀ members xs,
      (∃ slots, members.foldlM (fun slots m => fields.ofMember slots m.1 m.2) fields.empty =
        .ok slots ∧ fields.finish slots = .ok xs) ↔ fields.Means (.object members) 0 xs)
    (hitems : ∀ items xs,
      fields.ofItems (lengthWanted name fields.size) (List.length items) 0 items = .ok xs ↔
        items.length ≤ fields.size ∧ fields.Means (.array items) 0 xs) :
    (Shape.record name fields build parts).ofJson v = .ok x ↔
      (Shape.record name fields build parts).Means v x := by
  rw [Shape.Means]
  cases v with
  | array items =>
      change (fields.ofItems _ items.length 0 items).map build = .ok x ↔
        items.length ≤ fields.size ∧ _
      simp only [map_eq_ok_iff, hitems, and_assoc, exists_and_left]
  | object members =>
      change (members.foldlM (fun slots m => fields.ofMember slots m.1 m.2) fields.empty >>=
        fun slots => fields.finish slots >>= fun parts => .ok (build parts)) = .ok x ↔ True ∧ _
      simp only [bind_eq_ok_iff, ← hmembers, true_and, Except.ok.injEq]
      constructor
      · rintro ⟨slots, hslots, parts, hparts, hbuild⟩
        exact ⟨parts, ⟨slots, hslots, hparts⟩, hbuild⟩
      · rintro ⟨parts, ⟨slots, hslots, hparts⟩, hbuild⟩
        exact ⟨slots, hslots, parts, hparts, hbuild⟩
  | _ => exact ⟨nofun, fun h => h.1.elim⟩

theorem Shape.means_optional {α : Type} {s : Shape α} {v : Json}
    (hvalue : ∀ {x}, s.ofJson v = .ok x ↔ s.Means v x) :
    ∀ x, (Shape.optional s).ofJson v = .ok x ↔ (Shape.optional s).Means v x
  | none => by
      change _ ↔ v = .null
      cases v with
      | null => exact ⟨fun _ => rfl, fun _ => rfl⟩
      | _ =>
          change (s.ofJson _).map some = _ ↔ _
          rw [map_eq_ok_iff]
          exact ⟨nofun, nofun⟩
  | some x => by
      change _ ↔ v ≠ .null ∧ s.Means v x
      rw [← hvalue]
      cases v with
      | null => exact ⟨nofun, fun h => absurd rfl h.1⟩
      | _ =>
          change (s.ofJson _).map some = _ ↔ _
          rw [map_eq_ok_iff]
          simp

mutual

/-- **Reading a value finds what it stands for**, and fails if that is nothing. -/
theorem Shape.ofJson_eq_ok_iff {α : Type} : (s : Shape α) → s.Sound → ∀ {v : Json} {x : α},
    s.ofJson v = .ok x ↔ s.Means v x
  | .string, _, v, x => by
      rw [Shape.Means]
      cases v with
      | string s => simp [Shape.ofJson]
      | _ => simp [Shape.ofJson]
  | .uint16, _, v, x => by
      rw [Shape.ofJson, Shape.Means, map_eq_ok_iff]
      simp only [ofUnsigned_eq_ok_iff]
      constructor
      · rintro ⟨n, ⟨m, rfl, rfl, hbound⟩, rfl⟩
        exact ⟨m, rfl, (UInt16.toNat_ofNat_of_lt' hbound).symm⟩
      · rintro ⟨m, rfl, hm⟩
        exact ⟨x.toNat, ⟨m, rfl, hm, x.toNat_lt⟩, UInt16.ofNat_toNat⟩
  | .uint32, _, v, x => by
      rw [Shape.ofJson, Shape.Means, map_eq_ok_iff]
      simp only [ofUnsigned_eq_ok_iff]
      constructor
      · rintro ⟨n, ⟨m, rfl, rfl, hbound⟩, rfl⟩
        exact ⟨m, rfl, (UInt32.toNat_ofNat_of_lt' hbound).symm⟩
      · rintro ⟨m, rfl, hm⟩
        exact ⟨x.toNat, ⟨m, rfl, hm, x.toNat_lt⟩, UInt32.ofNat_toNat⟩
  | .any, _, v, x => by
      rw [Shape.ofJson, Shape.Means]
      exact ⟨Except.ok.inj, congrArg Except.ok⟩
  | .optional s, hs, v, x => Shape.means_optional (s.ofJson_eq_ok_iff hs.2) x
  | .list s, hs, v, xs => by
      have hitem : ∀ {v x}, s.ofJson v = .ok x ↔ s.Means v x := s.ofJson_eq_ok_iff hs
      rw [Shape.Means]
      cases v with
      | array items =>
          change items.mapM s.ofJson = .ok xs ↔ _
          rw [mapM_eq_ok_iff]
          simp only [hitem, Json.array.injEq, exists_eq_left']
      | _ => simp [Shape.ofJson]
  | .record name fields build parts, hs, v, x => by
      obtain ⟨hnames, -, hfields⟩ := hs
      refine Shape.means_record (fun members xs => ?_) fun items xs => ?_
      · exact fields.ofMembers_eq_ok_iff hfields hnames members 0 xs
      · rw [← Nat.zero_add fields.size]
        exact fields.ofItems_eq_ok_iff _ hfields items 0 xs

theorem Fields.ofMembers_eq_ok_iff {σ α : Type} : (f : Fields σ α) → f.Sound → f.names.Nodup →
    ∀ (members : List (String × Json)) (place : Nat) (xs : α),
      (∃ slots, members.foldlM (fun slots m => f.ofMember slots m.1 m.2) f.empty = .ok slots ∧
        f.finish slots = .ok xs) ↔ f.Means (.object members) place xs
  | .nil, _, _, members, _, () =>
      ⟨fun _ => trivial, fun _ => ⟨(), Fields.foldlM_nil members, rfl⟩⟩
  | .cons name shape absent silent rest, hs, hnames, members, place, (x, xs) => by
      obtain ⟨hname, hrestNames⟩ := List.nodup_cons.mp hnames
      have hrest := rest.ofMembers_eq_ok_iff hs.2.2 hrestNames members (place + 1) xs
      exact Fields.means_cons_of_members hname (shape.ofJson_eq_ok_iff hs.2.1) hrest

theorem Fields.ofItems_eq_ok_iff {σ α : Type} (owner : String) : (f : Fields σ α) → f.Sound →
    ∀ (items : List Json) (place : Nat) (xs : α),
      f.ofItems owner items.length place (items.drop place) = .ok xs ↔
        items.length ≤ place + f.size ∧ f.Means (.array items) place xs
  | .nil, _, items, place, () => by
      rw [Fields.ofItems, Fields.size, Fields.Means, Nat.add_zero]
      simp
  | .cons name shape absent silent rest, hs, items, place, (x, xs) => by
      have hrest := rest.ofItems_eq_ok_iff owner hs.2.2 items (place + 1) xs
      exact Fields.means_cons_of_items (shape.ofJson_eq_ok_iff hs.2.1) hrest

end

end Json

end ServiceDiscovery
