import ServiceDiscovery.Json.Shape
import ServiceDiscovery.Proofs.Json.Values
/-!
# Shapes are read as they are written

A value of a shape comes back whether it goes through a text or through a JSON value. Both hold for
every shape that is `Sound`: the fields of a record have different names, a field that is not written
is the one that is taken when it is missing, and what may be absent is never written as `null` when
it is there. Nothing else about a record counts, so a new message needs no new proof.

In a text the members of a record come in the order of its fields. In a JSON value they come in the
order of their keys, and what has to be known is that putting two members into different slots can
be done in either order.
-/

namespace ServiceDiscovery

namespace Json

def Fields.names {σ α : Type} : Fields σ α → List String
  | .nil => []
  | .cons name _ _ _ rest => name :: rest.names

/-- Whether no value of the shape is written as `null`. -/
def Shape.present {α : Type} : Shape α → Bool
  | .any => false
  | .optional _ => false
  | _ => true

mutual

/-- What makes a shape unambiguous. -/
def Shape.Sound {α : Type} : Shape α → Prop
  | .string => True
  | .uint16 => True
  | .uint32 => True
  | .any => True
  | .optional s => s.present = true ∧ s.Sound
  | .list s => s.Sound
  | .record _ fields build parts =>
    fields.names.Nodup ∧ (∀ v, build (parts v) = v) ∧ fields.Sound

def Fields.Sound {σ α : Type} : Fields σ α → Prop
  | .nil => True
  | .cons _ shape absent silent rest =>
    (∀ v, silent v = true → absent = some v) ∧ shape.Sound ∧ rest.Sound

end

mutual

/-- Whether a value is written with at most `depth` brackets open at a time. The JSON values in it
have to be canonical. -/
def Shape.Fits {α : Type} : Shape α → (depth : Nat) → α → Prop
  | .string, _, _ => True
  | .uint16, _, _ => True
  | .uint32, _, _ => True
  | .any, depth, v => Canonical depth v
  | .optional s, depth, v => ∀ x ∈ v, s.Fits depth x
  | .list _, 0, _ => False
  | .list s, depth + 1, vs => ∀ v ∈ vs, s.Fits depth v
  | .record _ _ _ _, 0, _ => False
  | .record _ fields _ parts, depth + 1, v => fields.Fits depth (parts v)

def Fields.Fits {σ α : Type} : Fields σ α → (depth : Nat) → α → Prop
  | .nil, _, _ => True
  | .cons _ shape _ _ rest, depth, (v, vs) => shape.Fits depth v ∧ rest.Fits depth vs

end

/-- The slots that are filled once everything that is written has been read. -/
def Fields.filled {σ α : Type} : Fields σ α → α → σ
  | .nil, () => ()
  | .cons _ _ _ silent rest, (v, vs) => (if silent v then none else some v, rest.filled vs)

theorem Fields.finish_filled {σ α : Type} :
    (f : Fields σ α) → f.Sound → ∀ vs, f.finish (f.filled vs) = .ok vs
  | .nil, _, () => rfl
  | .cons name shape absent silent rest, h, (v, vs) => by
      have hrest := rest.finish_filled h.2.2 vs
      rw [Fields.filled, Fields.finish, hrest]
      cases hsilent : silent v with
      | true =>
          rw [h.1 v hsilent]
          rfl
      | false => rfl

section Kinds

variable {σ α β : Type} {name : String} {shape : Shape α} {rest : Fields σ β}

theorem Fields.Sound.required (hshape : shape.Sound) (hrest : rest.Sound) :
    (Fields.required name shape rest).Sound := ⟨nofun, hshape, hrest⟩

theorem Fields.Sound.defaulted {absent : α} (hshape : shape.Sound) (hrest : rest.Sound) :
    (Fields.defaulted name shape absent rest).Sound := ⟨nofun, hshape, hrest⟩

theorem Fields.Sound.optional (hpresent : shape.present = true) (hshape : shape.Sound)
    (hrest : rest.Sound) : (Fields.optional name shape rest).Sound := by
  refine ⟨fun v hv => ?_, ⟨hpresent, hshape⟩, hrest⟩
  rw [Option.isNone_iff_eq_none.mp hv]

end Kinds

/-! ### Through a text -/

theorem Reads.map {α β : Type} {reader : Input → Except Error (α × Input)} {text : List Char} {v : α}
    (h : Reads reader text v) (f : α → β) :
    Reads (fun t => (reader t).map fun (v, t) => (f v, t)) text (f v) := by
  refine ⟨h.opens, fun rest hrest => ?_⟩
  rw [h.reads rest hrest]
  rfl

theorem unsigned_natural (label : String) {bound n : Nat} (hbound : bound ≤ UInt64.size)
    (hn : n < bound) : unsigned label bound (.natural (UInt64.ofNat n)) = .ok n := by
  have hvalue : (UInt64.ofNat n).toNat = n := by
    rw [UInt64.toNat_ofNat']
    exact Nat.mod_eq_of_lt (Nat.lt_of_lt_of_le hn hbound)
  rw [unsigned, hvalue, if_pos hn]

theorem reads_unsigned (label : String) {bound n : Nat} (hbound : bound ≤ UInt64.size)
    (hn : n < bound) : Reads (readUnsigned label bound) (writeNat n) n := by
  refine ⟨opens_writeNat n, fun rest hrest => ?_⟩
  have hread := readNumber_natural (Nat.lt_of_lt_of_le hn hbound) hrest
  obtain ⟨c, digits, hwritten, hdigit⟩ := exists_digit_writeNat n
  rw [hwritten, List.cons_append] at hread ⊢
  rw [readUnsigned, skipSpace_cons _ (isSpace_of_isDigit hdigit)]
  change (if c = '-' ∨ c.isDigit = true then _ else _) = _
  rw [if_pos (.inr hdigit), if_neg (ne_of_isDigit hdigit rfl), hread, ok_bind]
  change (unsigned label bound (.natural (UInt64.ofNat n)) >>= _) = _
  rw [unsigned_natural label hbound hn, ok_bind]
  rfl

theorem Shape.head?_write {α : Type} (s : Shape α) (h : s.present = true) (v : α) :
    ∃ c t, s.write v = c :: t ∧ c ≠ 'n' := by
  cases s with
  | string => exact ⟨_, _, rfl, by decide⟩
  | uint16 =>
      obtain ⟨c, digits, hwritten, hdigit⟩ := exists_digit_writeNat v.toNat
      exact ⟨c, digits, hwritten, ne_of_isDigit hdigit rfl⟩
  | uint32 =>
      obtain ⟨c, digits, hwritten, hdigit⟩ := exists_digit_writeNat v.toNat
      exact ⟨c, digits, hwritten, ne_of_isDigit hdigit rfl⟩
  | any => cases h
  | optional s => cases h
  | list s => exact ⟨_, _, rfl, by decide⟩
  | record name fields build parts => exact ⟨_, _, rfl, by decide⟩

theorem Reads.optional {α : Type} {s : Shape α} {depth : Nat} {v : α} (hpresent : s.present = true)
    (h : Reads (s.read depth) (s.write v) v) :
    Reads ((Shape.optional s).read depth) (s.write v) (some v) := by
  refine ⟨h.opens, fun rest hrest => ?_⟩
  have hread := h.reads rest hrest
  have hspace := (h.opens.append rest).skipSpace_eq
  obtain ⟨c, t, hwritten, hnull⟩ := s.head?_write hpresent v
  rw [hwritten, List.cons_append] at hread hspace ⊢
  rw [Shape.read, hspace]
  split
  · next heq => exact absurd (List.cons.inj heq).1 hnull
  · rw [hread]
    rfl

theorem Reads.list {α : Type} {s : Shape α} {depth : Nat} {vs : List α}
    (h : ∀ v ∈ vs, Reads (s.read depth) (s.write v) v) :
    Reads ((Shape.list s).read (depth + 1)) ((Shape.list s).write vs) vs := by
  refine ⟨rfl, fun rest _ => ?_⟩
  rw [Shape.write, writeList, List.append_assoc]
  change readList (s.read depth) (commaSeparated (vs.map s.write) ++ ']' :: rest) = _
  exact readList_written h rest

theorem Reads.record {σ α β : Type} {name : String} {fields : Fields σ α} {build : α → β}
    {parts : β → α} {depth : Nat} {v : β} {named : String → Prop} (hsound : fields.Sound)
    (hbuild : build (parts v) = v)
    (h : Gathers (fields.readMember depth) named fields.empty (fields.writeMembers (parts v))
      (fields.filled (parts v))) :
    Reads ((Shape.record name fields build parts).read (depth + 1))
      ((Shape.record name fields build parts).write v) v := by
  refine ⟨rfl, fun rest _ => ?_⟩
  rw [Shape.write, writeObject, List.append_assoc]
  change (readObject (fields.readMember depth) fields.empty
    (commaSeparated (fields.writeMembers (parts v)) ++ '\x7d' :: rest) >>= _) = _
  rw [readObject_written h, ok_bind]
  change (fields.finish (fields.filled (parts v)) >>= _) = _
  rw [fields.finish_filled hsound, ok_bind, hbuild]
  rfl

/-- The members of the later fields pass by the first one. -/
theorem Gathers.pass {σ α β : Type} {name : String} {shape : Shape α} {absent : Option α}
    {silent : α → Bool} {rest : Fields σ β} {depth : Nat} {slots slots' : σ}
    {texts : List (List Char)} (hname : name ∉ rest.names) (slot : Option α)
    (h : Gathers (rest.readMember depth) (· ∈ rest.names) slots texts slots') :
    Gathers ((Fields.cons name shape absent silent rest).readMember depth)
      (· ∈ name :: rest.names) (slot, slots) texts (slot, slots') := by
  induction h with
  | nil slots => exact .nil _
  | @cons s s' s'' key text texts hkey hmember _ ih =>
      have hne : key ≠ name := by
        rintro rfl
        exact hname hkey
      refine .cons (List.mem_cons_of_mem name hkey) (fun after hafter => ?_) ih
      rw [Fields.readMember, if_neg hne, hmember after hafter]
      rfl

mutual

theorem Shape.reads {α : Type} : (s : Shape α) → s.Sound → ∀ {depth : Nat} {v : α},
    s.Fits depth v → Reads (s.read depth) (s.write v) v
  | .string, _, _, v, _ => by
      refine ⟨rfl, fun rest _ => ?_⟩
      rw [Shape.write, writeString_append, Shape.read]
      exact readString_escaped v rest
  | .uint16, _, _, v, _ => by
      have hread := (reads_unsigned "u16" (by decide) v.toNat_lt).map UInt16.ofNat
      rw [UInt16.ofNat_toNat] at hread
      exact hread
  | .uint32, _, _, v, _ => by
      have hread := (reads_unsigned "u32" (by decide) v.toNat_lt).map UInt32.ofNat
      rw [UInt32.ofNat_toNat] at hread
      exact hread
  | .any, _, _, _, hfits => hfits.reads
  | .optional s, hs, depth, none, _ => by
      refine ⟨rfl, fun rest _ => ?_⟩
      change (readWord "ull".toList ("ull".toList ++ rest)).map _ = _
      rw [readWord_append]
      rfl
  | .optional s, hs, depth, some v, hfits => (s.reads hs.2 (hfits v rfl)).optional hs.1
  | .list s, hs, depth + 1, vs, hfits => .list fun v hv => s.reads hs (hfits v hv)
  | .record name fields build parts, hs, depth + 1, v, hfits =>
      .record hs.2.2 (hs.2.1 v) (fields.gathers hs.2.2 hs.1 hfits)

theorem Fields.gathers {σ α : Type} : (f : Fields σ α) → f.Sound → f.names.Nodup →
    ∀ {depth : Nat} {vs : α}, f.Fits depth vs →
      Gathers (f.readMember depth) (· ∈ f.names) f.empty (f.writeMembers vs) (f.filled vs)
  | .nil, _, _, _, (), _ => .nil ()
  | .cons name shape absent silent rest, hs, hnames, depth, (v, vs), hfits => by
      obtain ⟨hname, hrestNames⟩ := List.nodup_cons.mp hnames
      have hrest := rest.gathers hs.2.2 hrestNames hfits.2
      have hvalue := shape.reads hs.2.1 hfits.1
      rw [Fields.writeMembers, Fields.filled, Fields.empty]
      cases silent v with
      | true => exact hrest.pass hname none
      | false =>
          refine .cons List.mem_cons_self (fun after hafter => ?_) (hrest.pass hname (some v))
          rw [Fields.readMember, if_pos rfl, readColon_colon, ok_bind, hvalue.reads after hafter]
          rfl

end

/-- **What is written is read back**, from a text that holds nothing else. -/
theorem Shape.parse_text {α : Type} {s : Shape α} (hs : s.Sound) {v : α}
    (hfits : s.Fits maxDepth v) : s.parse (s.text v) = .ok v := by
  have hread := (s.reads hs hfits).reads [] follows_nil
  rw [List.append_nil] at hread
  rw [Shape.parse, readWhole, Shape.text, String.toList_ofList, hread]
  rfl

/-! ### Members in order -/

theorem mem_insertMember {key : String} {value : Json} {members : List (String × Json)}
    {m : String × Json} (h : m ∈ insertMember key value members) :
    m = (key, value) ∨ m ∈ members := by
  induction members with
  | nil => exact .inl (List.mem_singleton.mp h)
  | cons first rest ih =>
      rw [insertMember] at h
      split_ifs at h with hlt heq
      · exact List.mem_cons.mp h
      · rcases List.mem_cons.mp h with hm | hm
        · exact .inl hm
        · exact .inr (List.mem_cons_of_mem first hm)
      · rcases List.mem_cons.mp h with hm | hm
        · exact .inr (hm ▸ List.mem_cons_self)
        · rcases ih hm with hm | hm
          · exact .inl hm
          · exact .inr (List.mem_cons_of_mem first hm)

theorem insertMember_sorted {key : String} {value : Json} {members : List (String × Json)}
    (h : members.Pairwise fun m n => m.1 < n.1) :
    (insertMember key value members).Pairwise fun m n => m.1 < n.1 := by
  induction members with
  | nil => exact List.pairwise_singleton _ _
  | cons first rest ih =>
      obtain ⟨hfirst, hrest⟩ := List.pairwise_cons.mp h
      rw [insertMember]
      split_ifs with hlt heq
      · refine List.pairwise_cons.mpr ⟨fun m hm => ?_, h⟩
        rcases List.mem_cons.mp hm with rfl | hm
        · exact hlt
        · exact String.lt_trans hlt (hfirst m hm)
      · rw [heq]
        exact List.pairwise_cons.mpr ⟨hfirst, hrest⟩
      · refine List.pairwise_cons.mpr ⟨fun m hm => ?_, ih hrest⟩
        have hkey : first.1 < key :=
          Std.lt_of_le_of_ne (String.not_lt.mp hlt) (Ne.symm heq)
        rcases mem_insertMember hm with rfl | hm
        · exact hkey
        · exact hfirst m hm

theorem insertMember_perm {key : String} {value : Json} {members : List (String × Json)}
    (h : key ∉ members.map Prod.fst) :
    (insertMember key value members).Perm ((key, value) :: members) := by
  induction members with
  | nil => exact .refl _
  | cons first rest ih =>
      rw [List.map_cons, List.mem_cons, not_or] at h
      rw [insertMember]
      split_ifs with hlt heq
      · exact .refl _
      · exact absurd heq h.1
      · exact ((ih h.2).cons first).trans (.swap _ _ _)

theorem ofMembers_eq (members : List (String × Json)) :
    ofMembers members = object (gathered [] members) := rfl

theorem gathered_sorted {before members : List (String × Json)}
    (h : before.Pairwise fun m n => m.1 < n.1) :
    (gathered before members).Pairwise fun m n => m.1 < n.1 := by
  induction members generalizing before with
  | nil => exact h
  | cons m rest ih => exact ih (insertMember_sorted h)

theorem mem_gathered {before members : List (String × Json)} {m : String × Json}
    (h : m ∈ gathered before members) : m ∈ before ∨ m ∈ members := by
  induction members generalizing before with
  | nil => exact .inl h
  | cons first rest ih =>
      rcases ih h with hm | hm
      · rcases mem_insertMember hm with rfl | hm
        · exact .inr List.mem_cons_self
        · exact .inl hm
      · exact .inr (List.mem_cons_of_mem first hm)

theorem gathered_perm {before members : List (String × Json)}
    (h : ((before ++ members).map Prod.fst).Nodup) :
    (gathered before members).Perm (before ++ members) := by
  induction members generalizing before with
  | nil =>
      rw [List.append_nil]
      exact .refl _
  | cons m rest ih =>
      have hmiddle : (before ++ m :: rest).Perm ((m :: before) ++ rest) := List.perm_middle
      have hnew : m.1 ∉ before.map Prod.fst := by
        have hnodup := (hmiddle.map Prod.fst).nodup_iff.mp h
        rw [List.cons_append, List.map_cons, List.map_append, List.nodup_cons] at hnodup
        exact fun hm => hnodup.1 (List.mem_append_left _ hm)
      have hinsert : (insertMember m.1 m.2 before ++ rest).Perm ((m :: before) ++ rest) :=
        (insertMember_perm hnew).append_right rest
      have hnodup : ((insertMember m.1 m.2 before ++ rest).map Prod.fst).Nodup :=
        ((hinsert.trans hmiddle.symm).map Prod.fst).nodup_iff.mpr h
      exact (ih hnodup).trans (hinsert.trans hmiddle.symm)

/-! ### Through a JSON value -/

section Cons

variable {σ α β : Type} {name key : String} {shape : Shape α} {absent : Option α}
  {silent : α → Bool} {rest : Fields σ β} {slot slot' : Option α} {slots slots' : σ} {v : Json}

/-- A member fills the slot of the first field or goes on to the later ones. -/
theorem Fields.ofMember_cons_iff :
    (Fields.cons name shape absent silent rest).ofMember (slot, slots) key v = .ok (slot', slots') ↔
      (key = name ∧ slot = none ∧ slots' = slots ∧ ∃ x, slot' = some x ∧ shape.ofJson v = .ok x) ∨
        (key ≠ name ∧ slot' = slot ∧ rest.ofMember slots key v = .ok slots') := by
  rw [Fields.ofMember]
  by_cases hname : key = name
  · rw [if_pos hname]
    cases slot with
    | some x => simp [hname]
    | none =>
        cases hvalue : shape.ofJson v with
        | error e => simp [hname, bind, Except.bind]
        | ok x => simp [hname, bind, Except.bind, pure, Except.pure, eq_comm, and_comm]
  · rw [if_neg hname]
    cases hrest : rest.ofMember slots key v with
    | error e => simp [hname, Except.map]
    | ok later => simp [hname, Except.map, eq_comm]

end Cons

/-- Two members with different keys can be taken in either order. -/
theorem Fields.ofMember_comm {σ α : Type} : (f : Fields σ α) →
    ∀ {slots slots₁ slots₂ : σ} {m n : String × Json}, m.1 ≠ n.1 →
      f.ofMember slots m.1 m.2 = .ok slots₁ → f.ofMember slots₁ n.1 n.2 = .ok slots₂ →
        ∃ slots', f.ofMember slots n.1 n.2 = .ok slots' ∧ f.ofMember slots' m.1 m.2 = .ok slots₂
  | .nil, (), (), (), _, _, _, _, _ => ⟨(), rfl, rfl⟩
  | .cons name shape absent silent rest, (slot, slots), (slot₁, slots₁), (slot₂, slots₂), m, n,
      hne, hm, hn => by
      rcases Fields.ofMember_cons_iff.mp hm with ⟨hmname, rfl, rfl, x, rfl, hx⟩ | ⟨hmname, rfl, hmrest⟩
      · rcases Fields.ofMember_cons_iff.mp hn with ⟨hnname, hslot, -⟩ | ⟨hnname, rfl, hnrest⟩
        · cases hslot
        · exact ⟨(none, slots₂), Fields.ofMember_cons_iff.mpr (.inr ⟨hnname, rfl, hnrest⟩),
            Fields.ofMember_cons_iff.mpr (.inl ⟨hmname, rfl, rfl, x, rfl, hx⟩)⟩
      · rcases Fields.ofMember_cons_iff.mp hn with
          ⟨hnname, rfl, rfl, x, rfl, hx⟩ | ⟨hnname, rfl, hnrest⟩
        · exact ⟨(some x, slots), Fields.ofMember_cons_iff.mpr (.inl ⟨hnname, rfl, rfl, x, rfl, hx⟩),
            Fields.ofMember_cons_iff.mpr (.inr ⟨hmname, rfl, hmrest⟩)⟩
        · obtain ⟨slots', hnfirst, hmlater⟩ := rest.ofMember_comm hne hmrest hnrest
          exact ⟨(_, slots'), Fields.ofMember_cons_iff.mpr (.inr ⟨hnname, rfl, hnfirst⟩),
            Fields.ofMember_cons_iff.mpr (.inr ⟨hmname, rfl, hmlater⟩)⟩

theorem foldlM_perm {σ : Type} {f : σ → String × Json → Except Error σ}
    (hcomm : ∀ {s s₁ s₂ : σ} {m n : String × Json}, m.1 ≠ n.1 → f s m = .ok s₁ →
      f s₁ n = .ok s₂ → ∃ s', f s n = .ok s' ∧ f s' m = .ok s₂)
    {members others : List (String × Json)} (hperm : members.Perm others)
    (hnodup : (members.map Prod.fst).Nodup) {s s' : σ} (h : members.foldlM f s = .ok s') :
    others.foldlM f s = .ok s' := by
  induction hperm generalizing s with
  | nil => exact h
  | cons m hperm ih =>
      obtain ⟨s₁, hm, hrest⟩ := exists_of_bind h
      rw [List.foldlM_cons, hm, ok_bind]
      exact ih (List.nodup_cons.mp hnodup).2 hrest
  | swap m n rest =>
      obtain ⟨s₁, hn, hlater⟩ := exists_of_bind h
      obtain ⟨s₂, hm, hrest⟩ := exists_of_bind hlater
      have hne : n.1 ≠ m.1 := fun heq =>
        (List.nodup_cons.mp hnodup).1 (heq ▸ List.mem_cons_self)
      obtain ⟨s₃, hm', hn'⟩ := hcomm hne hn hm
      rw [List.foldlM_cons, hm', ok_bind, List.foldlM_cons, hn', ok_bind]
      exact hrest
  | trans hfirst hsecond ihfirst ihsecond =>
      exact ihsecond ((hfirst.map Prod.fst).nodup_iff.mp hnodup) (ihfirst hnodup h)

/-- The members of later fields pass by the first one. -/
theorem Fields.foldlM_pass {σ α β : Type} {name : String} {shape : Shape α} {absent : Option α}
    {silent : α → Bool} {rest : Fields σ β} {slots slots' : σ} {members : List (String × Json)}
    (hname : name ∉ members.map Prod.fst) (slot : Option α)
    (h : members.foldlM (fun slots m => rest.ofMember slots m.1 m.2) slots = .ok slots') :
    members.foldlM
      (fun slots m => (Fields.cons name shape absent silent rest).ofMember slots m.1 m.2)
      (slot, slots) = .ok (slot, slots') := by
  induction members generalizing slots with
  | nil =>
      cases h
      rfl
  | cons m members ih =>
      rw [List.map_cons, List.mem_cons, not_or] at hname
      obtain ⟨s₁, hm, hlater⟩ := exists_of_bind h
      have hpass : (Fields.cons name shape absent silent rest).ofMember (slot, slots) m.1 m.2 =
          .ok (slot, s₁) := Fields.ofMember_cons_iff.mpr (.inr ⟨Ne.symm hname.1, rfl, hm⟩)
      rw [List.foldlM_cons, hpass, ok_bind]
      exact ih hname.2 hlater

theorem Fields.names_toMembers {σ α : Type} : (f : Fields σ α) → (vs : α) →
    ((f.toMembers vs).map Prod.fst).Sublist f.names
  | .nil, () => .slnil
  | .cons name shape absent silent rest, (v, vs) => by
      have hrest := rest.names_toMembers vs
      rw [Fields.toMembers, Fields.names]
      cases silent v with
      | true => exact hrest.cons name
      | false => exact hrest.cons_cons name

theorem Shape.toJson_ne_null {α : Type} (s : Shape α) (h : s.present = true) (v : α) :
    s.toJson v ≠ null := by
  cases s with
  | any => cases h
  | optional s => cases h
  | _ =>
      intro hnull
      cases hnull

theorem mapM_ofJson {α : Type} {s : Shape α} {vs : List α}
    (h : ∀ v ∈ vs, s.ofJson (s.toJson v) = .ok v) : (vs.map s.toJson).mapM s.ofJson = .ok vs := by
  induction vs with
  | nil => rfl
  | cons v vs ih =>
      obtain ⟨hv, hvs⟩ := List.forall_mem_cons.mp h
      rw [List.map_cons, List.mapM_cons, hv, ok_bind, ih hvs, ok_bind]
      rfl

mutual

/-- **The value that was made of something stands for it.** -/
theorem Shape.ofJson_toJson {α : Type} : (s : Shape α) → s.Sound → ∀ v, s.ofJson (s.toJson v) = .ok v
  | .string, _, _ => rfl
  | .uint16, _, v => by
      change (unsigned "u16" UInt16.size (.natural (UInt64.ofNat v.toNat))).map UInt16.ofNat = _
      rw [unsigned_natural "u16" (by decide) v.toNat_lt, Except.map, UInt16.ofNat_toNat]
  | .uint32, _, v => by
      change (unsigned "u32" UInt32.size (.natural (UInt64.ofNat v.toNat))).map UInt32.ofNat = _
      rw [unsigned_natural "u32" (by decide) v.toNat_lt, Except.map, UInt32.ofNat_toNat]
  | .any, _, _ => rfl
  | .optional s, _, none => rfl
  | .optional s, hs, some v => by
      have hvalue := s.ofJson_toJson hs.2 v
      have hnull := s.toJson_ne_null hs.1 v
      rw [Shape.toJson]
      generalize s.toJson v = j at hvalue hnull ⊢
      cases j with
      | null => exact absurd rfl hnull
      | _ =>
          change (s.ofJson _).map some = _
          rw [hvalue]
          rfl
  | .list s, hs, vs => mapM_ofJson fun v _ => s.ofJson_toJson hs v
  | .record name fields build parts, hs, v => by
      obtain ⟨hnames, hbuild, hfields⟩ := hs
      have hnodup := (fields.names_toMembers (parts v)).nodup hnames
      have hperm : (gathered [] (fields.toMembers (parts v))).Perm
          ([] ++ fields.toMembers (parts v)) := gathered_perm hnodup
      have hinOrder := foldlM_perm (f := fun slots m => fields.ofMember slots m.1 m.2)
        fields.ofMember_comm hperm.symm hnodup (fields.ofMembers_toMembers hfields hnames (parts v))
      rw [Shape.toJson, ofMembers_eq]
      change ((gathered [] (fields.toMembers (parts v))).foldlM
        (fun slots m => fields.ofMember slots m.1 m.2) fields.empty >>= _) = _
      rw [hinOrder, ok_bind, fields.finish_filled hfields, ok_bind, hbuild]
      rfl

theorem Fields.ofMembers_toMembers {σ α : Type} : (f : Fields σ α) → f.Sound → f.names.Nodup →
    ∀ vs, (f.toMembers vs).foldlM (fun slots m => f.ofMember slots m.1 m.2) f.empty =
      .ok (f.filled vs)
  | .nil, _, _, () => rfl
  | .cons name shape absent silent rest, hs, hnames, (v, vs) => by
      obtain ⟨hname, hrestNames⟩ := List.nodup_cons.mp hnames
      have hrest := rest.ofMembers_toMembers hs.2.2 hrestNames vs
      have hvalue := shape.ofJson_toJson hs.2.1 v
      have hpassed : name ∉ (rest.toMembers vs).map Prod.fst := fun hmem =>
        hname ((rest.names_toMembers vs).subset hmem)
      rw [Fields.toMembers, Fields.filled, Fields.empty]
      cases silent v with
      | true => exact Fields.foldlM_pass hpassed none hrest
      | false =>
          have hfirst : (Fields.cons name shape absent silent rest).ofMember (none, rest.empty) name
              (shape.toJson v) = .ok (some v, rest.empty) :=
            Fields.ofMember_cons_iff.mpr (.inl ⟨rfl, rfl, rfl, v, rfl, hvalue⟩)
          rw [if_neg Bool.false_ne_true, if_neg Bool.false_ne_true, List.foldlM_cons, hfirst,
            ok_bind]
          exact Fields.foldlM_pass hpassed (some v) hrest

end

mutual

theorem Shape.canonical_toJson {α : Type} : (s : Shape α) → ∀ {depth : Nat} {v : α},
    s.Fits depth v → Canonical depth (s.toJson v)
  | .string, _, v, _ => .string _ v
  | .uint16, _, v, _ => .natural _ _
  | .uint32, _, v, _ => .natural _ _
  | .any, _, _, hfits => hfits
  | .optional s, _, none, _ => .null _
  | .optional s, _, some v, hfits => s.canonical_toJson (hfits v rfl)
  | .list s, depth + 1, vs, hfits => by
      refine .array fun j hj => ?_
      obtain ⟨v, hv, rfl⟩ := List.mem_map.mp hj
      exact s.canonical_toJson (hfits v hv)
  | .record name fields build parts, depth + 1, v, hfits => by
      refine .object (gathered_sorted .nil) fun m hm => ?_
      rcases mem_gathered hm with hm | hm
      · cases hm
      · exact fields.canonical_toMembers hfits m hm

theorem Fields.canonical_toMembers {σ α : Type} : (f : Fields σ α) → ∀ {depth : Nat} {vs : α},
    f.Fits depth vs → ∀ m ∈ f.toMembers vs, Canonical depth m.2
  | .nil, _, (), _, _, hm => nomatch hm
  | .cons name shape absent silent rest, depth, (v, vs), hfits, m, hm => by
      have hrest := rest.canonical_toMembers hfits.2
      rw [Fields.toMembers] at hm
      cases hsilent : silent v with
      | true =>
          rw [hsilent, if_pos rfl] at hm
          exact hrest m hm
      | false =>
          rw [hsilent, if_neg Bool.false_ne_true] at hm
          rcases List.mem_cons.mp hm with rfl | hm
          · exact shape.canonical_toJson hfits.1
          · exact hrest m hm

end

end Json

end ServiceDiscovery
