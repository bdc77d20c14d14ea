import ServiceDiscovery.Json.Shape
import ServiceDiscovery.Proofs.Json.Weight
/-!
# What a shape reads was written

The values of a shape weigh what their strings need, and reading one takes more than it weighs. Of a
record only this has to be known: that it consists of its fields and of nothing else, and that what is
taken for a missing field weighs nothing. Both are asked by `Exact`. The members of an object may come
in any order, so while they are read it is the slots filled so far that are weighed.
-/

namespace ServiceDiscovery

namespace Json

mutual

/-- The room that the strings of a value need, with one byte for each element of a list. -/
def Shape.weight {α : Type} : Shape α → α → Nat
  | .string, s => writtenSize s
  | .uint16, _ => 0
  | .uint32, _ => 0
  | .any, v => v.weight
  | .optional s, v => v.elim 0 s.weight
  | .list s, vs => total s.weight vs
  | .record _ fields _ parts, v => fields.weight (parts v)

def Fields.weight {σ α : Type} : Fields σ α → α → Nat
  | .nil, () => 0
  | .cons _ shape _ _ rest, (v, vs) => shape.weight v + rest.weight vs

end

def Fields.slotsWeight {σ α : Type} : Fields σ α → σ → Nat
  | .nil, () => 0
  | .cons _ shape _ _ rest, (slot, slots) => slot.elim 0 shape.weight + rest.slotsWeight slots

mutual

/-- Whether a value of the shape holds only what was read. -/
def Shape.Exact {α : Type} : Shape α → Prop
  | .string => True
  | .uint16 => True
  | .uint32 => True
  | .any => True
  | .optional s => s.Exact
  | .list s => s.Exact
  | .record _ fields build parts => (∀ vs, parts (build vs) = vs) ∧ fields.Exact

def Fields.Exact {σ α : Type} : Fields σ α → Prop
  | .nil => True
  | .cons _ shape absent _ rest =>
    (∀ v ∈ absent, shape.weight v = 0) ∧ shape.Exact ∧ rest.Exact

end

section Kinds

variable {σ α β : Type} {name : String} {shape : Shape α} {rest : Fields σ β}

theorem Fields.Exact.required (hshape : shape.Exact) (hrest : rest.Exact) :
    (Fields.required name shape rest).Exact := ⟨nofun, hshape, hrest⟩

theorem Fields.Exact.defaulted {absent : α} (habsent : shape.weight absent = 0)
    (hshape : shape.Exact) (hrest : rest.Exact) :
    (Fields.defaulted name shape absent rest).Exact := by
  refine ⟨?_, hshape, hrest⟩
  rintro v ⟨⟩
  exact habsent

end Kinds

/-! ### Fields -/

theorem Fields.slotsWeight_empty {σ α : Type} : (f : Fields σ α) → f.slotsWeight f.empty = 0
  | .nil => rfl
  | .cons _ _ _ _ rest => by
      rw [Fields.empty, Fields.slotsWeight, rest.slotsWeight_empty]
      rfl

theorem Fields.finish_le {σ α : Type} : (f : Fields σ α) → f.Exact → ∀ {slots : σ} {vs : α},
    f.finish slots = .ok vs → f.weight vs ≤ f.slotsWeight slots
  | .nil, _, (), (), _ => Nat.le_refl _
  | .cons name shape absent silent rest, hexact, (slot, slots), vs, h => by
      rw [Fields.finish] at h
      cases hslot : slot.or absent with
      | none =>
          rw [hslot] at h
          cases h
      | some v =>
          rw [hslot] at h
          obtain ⟨later, hlater, h⟩ := exists_of_bind h
          cases h
          have hrest := rest.finish_le hexact.2.2 hlater
          have hv : shape.weight v ≤ slot.elim 0 shape.weight := by
            cases slot with
            | none =>
                rw [hexact.1 v hslot]
                exact Nat.zero_le _
            | some v' =>
                cases hslot
                exact Nat.le_refl _
          rw [Fields.weight, Fields.slotsWeight]
          omega

theorem Fields.weight_defaults {σ α : Type} {owner : String} : (f : Fields σ α) → f.Exact →
    ∀ {read : Nat} {vs : α}, f.defaults owner read = .ok vs → f.weight vs = 0
  | .nil, _, _, (), _ => rfl
  | .cons name shape absent silent rest, hexact, read, vs, h => by
      cases absent with
      | none => cases h
      | some v =>
          obtain ⟨later, hlater, h⟩ := exists_of_bind h
          cases h
          rw [Fields.weight, hexact.1 v rfl, rest.weight_defaults hexact.2.2 hlater]

/-! ### Readers -/

theorem readUnsigned_lt {label : String} {bound : Nat} {t rest : Input} {n : Nat}
    (h : readUnsigned label bound t = .ok (n, rest)) : byteCount rest < byteCount t := by
  have hspace := byteCount_skipSpace_le t
  unfold readUnsigned at h
  split at h
  · cases h
  · next c u hu =>
      have hlt := lt_of_skipSpace_eq hu
      rw [hu] at hspace
      split_ifs at h with hsigned hminus
      · obtain ⟨⟨x, t'⟩, hnumber, h⟩ := exists_of_bind h
        obtain ⟨n', _, h⟩ := exists_of_bind h
        cases h
        have hnumberLt := readNumber_lt hnumber
        omega
      · obtain ⟨⟨x, t'⟩, hnumber, h⟩ := exists_of_bind h
        obtain ⟨n', _, h⟩ := exists_of_bind h
        cases h
        have hnumberLt := readNumber_lt hnumber
        omega

mutual

/-- **What a shape reads was written.** -/
theorem Shape.weighs {α : Type} : (s : Shape α) → s.Exact → ∀ depth, Weighs (s.read depth) s.weight
  | .string, _, depth, t, v, rest, h => by
      rw [Shape.read] at h
      split at h
      · cases h
      · next hspace =>
          have hlt := lt_of_skipSpace_eq hspace
          have hstring := readString_le h
          rw [Shape.weight]
          omega
      · cases h
  | .uint16, _, depth, t, v, rest, h => by
      obtain ⟨⟨n, t'⟩, hread, hv⟩ := exists_of_map h
      cases hv
      rw [Shape.weight, Nat.zero_add]
      exact readUnsigned_lt hread
  | .uint32, _, depth, t, v, rest, h => by
      obtain ⟨⟨n, t'⟩, hread, hv⟩ := exists_of_map h
      cases hv
      rw [Shape.weight, Nat.zero_add]
      exact readUnsigned_lt hread
  | .any, _, depth, t, v, rest, h => readValue_weighs depth h
  | .optional s, hexact, depth, t, v, rest, h => by
      rw [Shape.read] at h
      split at h
      · next hspace =>
          obtain ⟨t', hword, hv⟩ := exists_of_map h
          cases hv
          have hlt := lt_of_skipSpace_eq hspace
          have hle := readWord_le hword
          rw [Shape.weight, Option.elim_none]
          omega
      · obtain ⟨⟨v', t'⟩, hread, hv⟩ := exists_of_map h
        cases hv
        have hspace := byteCount_skipSpace_le t
        have hlt := s.weighs hexact depth hread
        rw [Shape.weight, Option.elim_some]
        omega
  | .list s, hexact, depth, t, v, rest, h => by
      unfold Shape.read at h
      split at h
      · cases h
      · cases h
      · next hspace =>
          have hlt := lt_of_skipSpace_eq hspace
          have hle := readItems_le (s.weighs hexact _) h
          rw [Shape.weight]
          omega
      · cases h
  | .record name fields build parts, hexact, depth, t, v, rest, h => by
      unfold Shape.read at h
      split at h
      · cases h
      · cases h
      · cases h
      · next hspace =>
          obtain ⟨⟨vs, t'⟩, hitems, hv⟩ := exists_of_map h
          cases hv
          have hlt := lt_of_skipSpace_eq hspace
          have hle := fields.readItems_weight_le hexact.2 hitems
          rw [Shape.weight, hexact.1]
          omega
      · next hspace =>
          obtain ⟨⟨slots, t'⟩, hmembers, h⟩ := exists_of_bind h
          obtain ⟨vs, hfinish, h⟩ := exists_of_bind h
          cases h
          have hlt := lt_of_skipSpace_eq hspace
          have hle := readMembers_le (fields.readMember_weight_le hexact.2) hmembers
          have hvs := fields.finish_le hexact.2 hfinish
          rw [fields.slotsWeight_empty] at hle
          rw [Shape.weight, hexact.1]
          omega
      · cases h

theorem Fields.readMember_weight_le {σ α : Type} : (f : Fields σ α) → f.Exact →
    ∀ {depth : Nat} {slots : σ} {key : String} {t : Input} {slots' : σ} {rest : Input},
      f.readMember depth slots key t = .ok (slots', rest) →
        f.slotsWeight slots' + byteCount rest ≤ f.slotsWeight slots + byteCount t
  | .nil, _, depth, (), key, t, (), rest, h => by
      obtain ⟨t', hcolon, h⟩ := exists_of_bind h
      obtain ⟨t'', hskip, h⟩ := exists_of_bind h
      cases h
      exact Nat.add_le_add_left (Nat.le_trans (skipValue_le hskip) (readColon_le hcolon)) _
  | .cons name shape absent silent rest, hexact, depth, (slot, slots), key, t, slots', t', h => by
      rw [Fields.readMember] at h
      split_ifs at h with hname hfilled
      · obtain ⟨u, hcolon, h⟩ := exists_of_bind h
        obtain ⟨⟨v, u'⟩, hread, h⟩ := exists_of_bind h
        cases h
        have hcolonLe := readColon_le hcolon
        have hlt := shape.weighs hexact.2.1 depth hread
        rw [Fields.slotsWeight, Fields.slotsWeight, Option.elim_some]
        omega
      · obtain ⟨⟨later, u⟩, hread, h⟩ := exists_of_map h
        cases h
        have hle := rest.readMember_weight_le hexact.2.2 hread
        rw [Fields.slotsWeight, Fields.slotsWeight]
        omega

theorem Fields.readItems_weight_le {σ α : Type} {owner : String} : (f : Fields σ α) → f.Exact →
    ∀ {depth read : Nat} {t : Input} {vs : α} {rest : Input},
      f.readItems owner depth read t = .ok (vs, rest) →
        f.weight vs + byteCount rest ≤ byteCount t
  | .nil, _, depth, read, t, (), rest, h => by
      obtain ⟨t', hclose, h⟩ := exists_of_map h
      cases h
      rw [Fields.weight, Nat.zero_add]
      exact closeList_le hclose
  | .cons name shape absent silent rest, hexact, depth, read, t, vs, t', h => by
      rw [Fields.readItems] at h
      obtain ⟨n, hnext, h⟩ := exists_of_bind h
      have hnextLe := nextItem_le hnext
      cases n with
      | closed u =>
          obtain ⟨vs', hdefaults, h⟩ := exists_of_bind h
          cases h
          rw [(Fields.cons name shape absent silent rest).weight_defaults hexact hdefaults,
            Nat.zero_add]
          exact hnextLe
      | element u =>
          obtain ⟨⟨v, u'⟩, hread, h⟩ := exists_of_bind h
          obtain ⟨⟨later, u''⟩, hlater, h⟩ := exists_of_bind h
          cases h
          have hlt := shape.weighs hexact.2.1 depth hread
          have hle := rest.readItems_weight_le hexact.2.2 hlater
          rw [Next.rest] at hnextLe
          rw [Fields.weight]
          omega

end

theorem Shape.weight_lt_of_parse {α : Type} {s : Shape α} (hexact : s.Exact) {text : String} {v : α}
    (h : s.parse text = .ok v) : s.weight v < byteCount text.toList := by
  obtain ⟨⟨v', t⟩, hread, h⟩ := exists_of_bind h
  have hlt := s.weighs hexact maxDepth hread
  simp only at h
  split_ifs at h
  cases h
  omega

end Json

end ServiceDiscovery
