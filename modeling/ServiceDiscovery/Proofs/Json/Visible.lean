import ServiceDiscovery.Proofs.Json.Shapes
/-!
# Written values are on one line

The characters below the space are escaped in strings and stand nowhere else in a written value, so
no line break does, whatever the strings hold.
-/

namespace ServiceDiscovery

namespace Json

/-- The characters below the space, which are the controls, do not occur. -/
def Visible (t : List Char) : Prop := ∀ c ∈ t, 32 ≤ c.toNat

instance (t : List Char) : Decidable (Visible t) := List.decidableBAll _ t

theorem visible_nil : Visible [] := nofun

theorem visible_cons {c : Char} {t : List Char} (hc : 32 ≤ c.toNat) (ht : Visible t) :
    Visible (c :: t) := List.forall_mem_cons.mpr ⟨hc, ht⟩

theorem Visible.append {t u : List Char} (ht : Visible t) (hu : Visible u) : Visible (t ++ u) :=
  List.forall_mem_append.mpr ⟨ht, hu⟩

theorem Visible.of_isDigit {t : List Char} (h : ∀ c ∈ t, c.isDigit = true) : Visible t := by
  intro c hc
  have hdigit := h c hc
  simp only [Char.isDigit, Bool.and_eq_true, decide_eq_true_eq, UInt32.le_iff_toNat_le] at hdigit
  exact Nat.le_trans (by decide) hdigit.1

theorem visible_writeNat (n : Nat) : Visible (writeNat n) :=
  .of_isDigit fun _ hc => isDigit_of_mem_writeNat hc

theorem visible_escapeChar (c : Char) : Visible (escapeChar c) := by
  have hcode : ∀ n < 32,
      Visible ['\\', 'u', '0', '0', hexDigit (n / 16), hexDigit (n % 16)] := by decide
  unfold escapeChar
  split_ifs with hquote hbackslash hplain h8 h9 h10 h12 h13
  · decide
  · decide
  · exact visible_cons hplain visible_nil
  · decide
  · decide
  · decide
  · decide
  · decide
  · exact hcode c.toNat (Nat.lt_of_not_le hplain)

theorem visible_writeString (s : String) : Visible (writeString s) := by
  have hescaped : Visible (s.toList.flatMap escapeChar) := by
    intro c hc
    obtain ⟨d, _, hc⟩ := List.mem_flatMap.mp hc
    exact visible_escapeChar d c hc
  exact visible_cons (by decide) (hescaped.append (visible_cons (by decide) visible_nil))

theorem visible_commaSeparated {texts : List (List Char)} (h : ∀ t ∈ texts, Visible t) :
    Visible (commaSeparated texts) := by
  cases texts with
  | nil => exact visible_nil
  | cons text texts =>
      obtain ⟨htext, htexts⟩ := List.forall_mem_cons.mp h
      rw [commaSeparated_cons]
      refine htext.append fun c hc => ?_
      obtain ⟨t, ht, hc⟩ := List.mem_flatMap.mp hc
      exact visible_cons (by decide) (htexts t ht) c hc

theorem visible_writeList {texts : List (List Char)} (h : ∀ t ∈ texts, Visible t) :
    Visible (writeList texts) :=
  visible_cons (by decide)
    ((visible_commaSeparated h).append (visible_cons (by decide) visible_nil))

theorem visible_writeObject {texts : List (List Char)} (h : ∀ t ∈ texts, Visible t) :
    Visible (writeObject texts) :=
  visible_cons (by decide)
    ((visible_commaSeparated h).append (visible_cons (by decide) visible_nil))

theorem visible_writeMember {text : List Char} (key : String) (h : Visible text) :
    Visible (writeMember key text) :=
  (visible_writeString key).append (visible_cons (by decide) h)

theorem visible_writeMembers {members : List (String × Json)}
    (h : ∀ m ∈ members, Visible (write m.2)) : ∀ t ∈ writeMembers members, Visible t := by
  induction members with
  | nil => nofun
  | cons m rest ih =>
      obtain ⟨hm, hrest⟩ := List.forall_mem_cons.mp h
      rw [writeMembers]
      exact List.forall_mem_cons.mpr ⟨visible_writeMember m.1 hm, ih hrest⟩

theorem Canonical.visible {depth : Nat} {v : Json} (h : Canonical depth v) : Visible (write v) := by
  induction h with
  | null depth =>
      decide
  | bool depth b =>
      cases b <;> decide
  | natural depth n => exact visible_writeNat n.toNat
  | negative depth n => exact visible_cons (by decide) (visible_writeNat (n.val + 1))
  | string depth s => exact visible_writeString s
  | array hitems ih =>
      rw [write, writeItems_eq]
      exact visible_writeList (List.forall_mem_map.mpr ih)
  | object hsorted hmembers ih => exact visible_writeObject (visible_writeMembers ih)

mutual

/-- **A written value holds no control character.** -/
theorem Shape.visible_write {α : Type} : (s : Shape α) → ∀ {depth : Nat} {v : α},
    s.Fits depth v → Visible (s.write v)
  | .string, _, v, _ => visible_writeString v
  | .uint16, _, v, _ => visible_writeNat v.toNat
  | .uint32, _, v, _ => visible_writeNat v.toNat
  | .any, _, _, hfits => hfits.visible
  | .optional _, _, none, _ => (Canonical.null 0).visible
  | .optional s, _, some v, hfits => s.visible_write (hfits v rfl)
  | .list s, _ + 1, _, hfits =>
      visible_writeList (List.forall_mem_map.mpr fun v hv => s.visible_write (hfits v hv))
  | .record _ fields _ _, _ + 1, _, hfits =>
      visible_writeObject (fields.visible_writeMembers hfits)

theorem Fields.visible_writeMembers {σ α : Type} : (f : Fields σ α) → ∀ {depth : Nat} {vs : α},
    f.Fits depth vs → ∀ t ∈ f.writeMembers vs, Visible t
  | .nil, _, (), _ => nofun
  | .cons name shape _ silent rest, _, (v, vs), hfits => by
      have hrest := rest.visible_writeMembers hfits.2
      rw [Fields.writeMembers]
      split_ifs
      · exact hrest
      · exact List.forall_mem_cons.mpr
          ⟨visible_writeMember name (shape.visible_write hfits.1), hrest⟩

end

end Json

end ServiceDiscovery
