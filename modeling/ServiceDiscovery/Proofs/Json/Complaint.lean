import Mathlib.Data.Nat.Digits.Defs
import ServiceDiscovery.Proofs.Decimal
import ServiceDiscovery.Proofs.Json.ShapeWeight
/-!
# How long complaints are

The sentence about a value that is not of the shape asked for may quote a string of the value, and it
is itself a string of the message that carries it. So what was escaped once is now escaped twice, and
a character that could stand by itself may have become the name of its code point: where it took one
byte it takes seven, and none grows more than that. All else in such a sentence is a number or comes
from the names in the shape.
-/

namespace ServiceDiscovery

namespace Json

/-! ### Digits -/

theorem byteCount_escapeChar_digitChar {n : Nat} (h : n < 16) :
    byteCount (escapeChar (Nat.digitChar n)) = 1 := by
  have hall : ∀ n < 16, byteCount (escapeChar (Nat.digitChar n)) = 1 := by decide
  exact hall n h

theorem escapedSize_toDigits {base : Nat} (hbase : 1 < base) (hsixteen : base ≤ 16) (n : Nat) :
    escapedSize (Nat.toDigits base n) = (Nat.toDigits base n).length := by
  induction n using Nat.strong_induction_on with
  | _ n ih =>
      rw [Nat.toDigits_eq_if hbase]
      split_ifs with hsmall
      · rw [escapedSize_cons, escapedSize_nil, byteCount_escapeChar_digitChar (by omega),
          List.length_singleton]
      · have hshorter := ih _ (Nat.div_lt_self (by omega) hbase)
        have hlast : n % base < 16 := Nat.lt_of_lt_of_le (Nat.mod_lt n (by omega)) hsixteen
        rw [escapedSize_append, hshorter, escapedSize_cons, escapedSize_nil,
          byteCount_escapeChar_digitChar hlast, List.length_append, List.length_singleton]

theorem writtenSize_toString (n : Nat) :
    writtenSize (toString n) = (Nat.toDigits 10 n).length := by
  have hrepr : toString n = String.ofList (Nat.toDigits 10 n) := rfl
  rw [hrepr, writtenSize_ofList, escapedSize_toDigits (by decide) (by decide)]

theorem writtenSize_toString_le_succ (n : Nat) : writtenSize (toString n) ≤ n + 1 := by
  rw [writtenSize_toString]
  exact Nat.toDigits_length 10 n (n + 1) (Nat.succ_pos n)
    (Nat.lt_trans (Nat.lt_succ_self n) (Nat.lt_pow_self (by decide)))

theorem writtenSize_toString_word {n : Nat} (h : n ≤ UInt64.size) :
    writtenSize (toString n) ≤ 20 := by
  rw [writtenSize_toString]
  exact Nat.toDigits_length 10 n 20 (by decide) (Nat.lt_of_le_of_lt h (by decide))

/-! ### Quotation -/

theorem two_le_byteCount_escapeChar {c : Char} (h : 128 ≤ c.toNat) :
    2 ≤ byteCount (escapeChar c) := by
  have hquote : c ≠ '"' := by
    rintro rfl
    revert h
    decide
  have hbackslash : c ≠ '\\' := by
    rintro rfl
    revert h
    decide
  have hsize : c.utf8Size ≠ 1 := by
    intro hone
    have hle : c.toNat ≤ 127 := UInt32.le_iff_toNat_le.mp (Char.utf8Size_eq_one_iff.mp hone)
    omega
  have hpos := c.utf8Size_pos
  rw [escapeChar_of_plain hquote hbackslash (by omega), byteCount_cons, byteCount_nil]
  omega

theorem toNat_lt (c : Char) : c.toNat < 1114112 := by
  have hvalue : c.toNat = c.val.toNat := rfl
  rcases c.valid with hlow | ⟨_, hhigh⟩ <;> omega

theorem escapedSize_hexDigits_le {n : Nat} (digits : Nat) (hdigits : 0 < digits)
    (h : n < Nat.pow 16 digits) : escapedSize (Text.hexDigits n) ≤ digits := by
  rw [Text.hexDigits, escapedSize_toDigits (by decide) (by decide)]
  exact Nat.toDigits_length 16 n digits hdigits h

/-- **No character grows more than sevenfold** when a text is quoted in a message. -/
theorem escapedSize_quoteChar_le (c : Char) :
    escapedSize (Text.quoteChar c) ≤ 7 * byteCount (escapeChar c) := by
  unfold Text.quoteChar
  split_ifs with hquote hbackslash htab hreturn hfeed hzero hprintable
  · subst hquote
    decide
  · subst hbackslash
    decide
  · subst htab
    decide
  · subst hreturn
    decide
  · subst hfeed
    decide
  · have hchar : c = Char.ofNat 0 := by rw [← hzero, Char.ofNat_toNat]
    subst hchar
    decide
  · rw [escapedSize_cons, escapedSize_nil]
    omega
  · have hframe : byteCount (escapeChar '\\') + byteCount (escapeChar 'u') +
        byteCount (escapeChar '\x7b') + byteCount (escapeChar '\x7d') = 5 := by decide
    rw [List.cons_append, List.cons_append, List.cons_append, escapedSize_cons, escapedSize_cons,
      escapedSize_cons, escapedSize_append, escapedSize_cons, escapedSize_nil]
    rcases Nat.lt_or_ge c.toNat 128 with hseven | hseven
    · have hcode := escapedSize_hexDigits_le 2 (by decide)
        (Nat.lt_of_lt_of_le hseven (by decide))
      have hsize := byteCount_escapeChar_pos c
      omega
    · have hcode := escapedSize_hexDigits_le 6 (by decide)
        (Nat.lt_of_lt_of_le (toNat_lt c) (by decide))
      have hsize := two_le_byteCount_escapeChar hseven
      omega

theorem escapedSize_quoteChars_le (t : List Char) :
    escapedSize (t.flatMap Text.quoteChar) ≤ 7 * escapedSize t := by
  induction t with
  | nil => exact Nat.le_refl _
  | cons c t ih =>
      have hfirst := escapedSize_quoteChar_le c
      rw [List.flatMap_cons, escapedSize_append, escapedSize_cons]
      omega

theorem writtenSize_quoted_le (s : String) :
    writtenSize (Text.quoted s) ≤ 7 * writtenSize s + 4 := by
  have hquote : byteCount (escapeChar '"') = 2 := by decide
  have hinner := escapedSize_quoteChars_le s.toList
  rw [Text.quoted, writtenSize_ofList, List.cons_append, escapedSize_cons, escapedSize_append,
    escapedSize_cons, escapedSize_nil, hquote, writtenSize]
  omega

/-! ### Sentences -/

theorem writtenSize_toString_int {i : Int} (h : i.natAbs ≤ UInt64.size) :
    writtenSize (toString i) ≤ 21 := by
  cases i with
  | ofNat n =>
      have hdigits := writtenSize_toString_word (n := n) h
      exact Nat.le_succ_of_le hdigits
  | negSucc n =>
      have hdigits := writtenSize_toString_word (n := n + 1) h
      have htext : toString (Int.negSucc n) = "-" ++ toString (n + 1) := rfl
      have hminus : writtenSize "-" = 1 := rfl
      rw [htext, writtenSize_append, hminus]
      omega

theorem writtenSize_integer_le {i : Int} (h : i.natAbs ≤ UInt64.size) :
    writtenSize (Found.integer i).message ≤ 31 := by
  have hdigits := writtenSize_toString_int h
  have hopen : writtenSize "integer `" = 9 := rfl
  have hclose : writtenSize "`" = 1 := rfl
  have hmessage : (Found.integer i).message = "integer `" ++ toString i ++ "`" := rfl
  simp only [hmessage, writtenSize_append, hopen, hclose]
  omega

theorem writtenSize_float_le (x : Binary64) : writtenSize (Found.float x).message ≤ 275 := by
  have hnumber := escapedSize_le (x.write .data)
  have htext : writtenSize (String.ofList (x.write .data)) = escapedSize (x.write .data) :=
    writtenSize_ofList _
  have hlength := x.length_write_le
  have hopen : writtenSize "floating point `" = 16 := rfl
  have hclose : writtenSize "`" = 1 := rfl
  have hmessage : (Found.float x).message =
      "floating point `" ++ String.ofList (x.write .data) ++ "`" := rfl
  simp only [hmessage, writtenSize_append, htext, hopen, hclose]
  omega

/-- What a sentence says of a value is no longer than seven times the value. -/
theorem writtenSize_toFound_le (v : Json) : writtenSize v.toFound.message ≤ 7 * v.weight + 275 := by
  cases v with
  | null => exact Nat.le_trans (by decide) (Nat.le_add_left _ _)
  | bool b => cases b <;> exact Nat.le_trans (by decide) (Nat.le_add_left _ _)
  | number n =>
      refine Nat.le_trans ?_ (Nat.le_add_left _ _)
      cases n with
      | natural n =>
          have hsize : (n.toNat : Int).natAbs ≤ UInt64.size := Nat.le_of_lt n.toNat_lt_size
          exact Nat.le_trans (writtenSize_integer_le hsize) (by decide)
      | negative n =>
          have hsize : (-1 - (n.val : Int)).natAbs ≤ UInt64.size := by
            have hlt := n.isLt
            have hword : UInt64.size = 2 * highBit := rfl
            omega
          exact Nat.le_trans (writtenSize_integer_le hsize) (by decide)
      | binary x => exact writtenSize_float_le x
  | string s =>
      have hquoted := writtenSize_quoted_le s
      have hopen : writtenSize "string " = 7 := rfl
      have hmessage : (toFound (string s)).message = "string " ++ Text.quoted s := rfl
      rw [hmessage, writtenSize_append, hopen, weight]
      omega
  | array items =>
      have hsize : writtenSize Found.sequence.message = 8 := rfl
      rw [toFound, hsize]
      omega
  | object members =>
      have hsize : writtenSize Found.map.message = 3 := rfl
      rw [toFound, hsize]
      omega

theorem writtenSize_invalidType_le (v : Json) (expected : String) :
    writtenSize (Error.invalidType v.toFound expected).message ≤
      7 * v.weight + writtenSize expected + 301 := by
  have hfound := writtenSize_toFound_le v
  have hopen : writtenSize "invalid type: " = 14 := rfl
  have hexpected : writtenSize ", expected " = 11 := rfl
  have hmessage : (Error.invalidType v.toFound expected).message =
      "invalid type: " ++ v.toFound.message ++ ", expected " ++ expected := rfl
  simp only [hmessage, writtenSize_append, hopen, hexpected]
  omega

theorem writtenSize_invalidValue_le (v : Json) (expected : String) :
    writtenSize (Error.invalidValue v.toFound expected).message ≤
      7 * v.weight + writtenSize expected + 301 := by
  have hfound := writtenSize_toFound_le v
  have hopen : writtenSize "invalid value: " = 15 := rfl
  have hexpected : writtenSize ", expected " = 11 := rfl
  have hmessage : (Error.invalidValue v.toFound expected).message =
      "invalid value: " ++ v.toFound.message ++ ", expected " ++ expected := rfl
  simp only [hmessage, writtenSize_append, hopen, hexpected]
  omega

theorem writtenSize_invalidLength_le (length : Nat) (expected : String) :
    writtenSize (Error.invalidLength length expected).message ≤
      length + writtenSize expected + 27 := by
  have hlength := writtenSize_toString_le_succ length
  have hopen : writtenSize "invalid length " = 15 := rfl
  have hexpected : writtenSize ", expected " = 11 := rfl
  have hmessage : (Error.invalidLength length expected).message =
      "invalid length " ++ toString length ++ ", expected " ++ expected := rfl
  simp only [hmessage, writtenSize_append, hopen, hexpected]
  omega

theorem writtenSize_missingField (name : String) :
    writtenSize (Error.missingField name).message = writtenSize name + 16 := by
  have hopen : writtenSize "missing field `" = 15 := rfl
  have hclose : writtenSize "`" = 1 := rfl
  have hmessage : (Error.missingField name).message =
      "missing field `" ++ name ++ "`" := rfl
  simp only [hmessage, writtenSize_append, hopen, hclose]
  omega

theorem writtenSize_duplicateField (name : String) :
    writtenSize (Error.duplicateField name).message = writtenSize name + 18 := by
  have hopen : writtenSize "duplicate field `" = 17 := rfl
  have hclose : writtenSize "`" = 1 := rfl
  have hmessage : (Error.duplicateField name).message =
      "duplicate field `" ++ name ++ "`" := rfl
  simp only [hmessage, writtenSize_append, hopen, hclose]
  omega

/-! ### Shapes -/

mutual

/-- The room that all names in a shape need, with one byte for each field. -/
def Shape.wording {α : Type} : Shape α → Nat
  | .string => writtenSize "a string"
  | .uint16 => writtenSize "u16"
  | .uint32 => writtenSize "u32"
  | .any => 0
  | .optional s => s.wording
  | .list s => writtenSize "a sequence" + s.wording
  | .record name fields _ _ =>
    writtenSize ("struct " ++ name) + writtenSize (lengthWanted name fields.size) + fields.wording

def Fields.wording {σ α : Type} : Fields σ α → Nat
  | .nil => writtenSize "fewer elements in array"
  | .cons name shape _ _ rest => writtenSize name + shape.wording + rest.wording + 1

end

theorem Fields.size_le_wording {σ α : Type} : (f : Fields σ α) → f.size ≤ f.wording
  | .nil => Nat.zero_le _
  | .cons _ _ _ _ rest => by
      have hrest := rest.size_le_wording
      rw [Fields.size, Fields.wording]
      omega

/-! ### Failures of shapes -/

theorem ofUnsigned_complaint {label : String} {bound : Nat} {v : Json} {e : Error}
    (h : ofUnsigned label bound v = .error e) :
    writtenSize e.message ≤ 7 * v.weight + writtenSize label + 301 := by
  unfold ofUnsigned at h
  split at h
  · next n =>
      unfold unsigned at h
      split at h
      · split_ifs at h
        cases h
        exact writtenSize_invalidValue_le (number (.natural _)) label
      · cases h
        exact writtenSize_invalidValue_le (number (.negative _)) label
      · cases h
        exact writtenSize_invalidType_le (number (.binary _)) label
  · cases h
    exact writtenSize_invalidType_le v label

theorem Fields.finish_complaint {σ α : Type} : (f : Fields σ α) → ∀ {slots : σ} {e : Error},
    f.finish slots = .error e → writtenSize e.message ≤ f.wording + 16
  | .nil, (), _, h => nomatch h
  | .cons name shape absent silent rest, (slot, slots), e, h => by
      rw [Fields.finish] at h
      rw [Fields.wording]
      cases hslot : slot.or absent with
      | none =>
          rw [hslot] at h
          cases h
          rw [writtenSize_missingField]
          omega
      | some v =>
          rw [hslot] at h
          rcases exists_of_bind_error h with hrest | ⟨vs, -, h⟩
          · have hle := rest.finish_complaint hrest
            omega
          · cases h

theorem Fields.defaults_complaint {σ α : Type} {owner : String} : (f : Fields σ α) →
    ∀ {read : Nat} {e : Error}, f.defaults owner read = .error e →
      writtenSize e.message ≤ read + f.size + writtenSize owner + 27
  | .nil, _, _, h => nomatch h
  | .cons name shape absent silent rest, read, e, h => by
      rw [Fields.size]
      cases absent with
      | none =>
          cases h
          have hle := writtenSize_invalidLength_le read owner
          omega
      | some v =>
          rcases exists_of_bind_error h with hrest | ⟨vs, -, h⟩
          · have hle := rest.defaults_complaint hrest
            omega
          · cases h

mutual

/-- **Complaints are no longer than seven times the value**, but for what the shape says. -/
theorem Shape.complaint {α : Type} : (s : Shape α) → ∀ {v : Json} {e : Error},
    s.ofJson v = .error e → writtenSize e.message ≤ 7 * v.weight + s.wording + 301
  | .string, v, e, h => by
      unfold Shape.ofJson at h
      split at h
      · cases h
      · cases h
        exact writtenSize_invalidType_le v "a string"
  | .uint16, v, e, h => ofUnsigned_complaint (of_map_error h)
  | .uint32, v, e, h => ofUnsigned_complaint (of_map_error h)
  | .any, v, e, h => nomatch h
  | .optional s, v, e, h => by
      unfold Shape.ofJson at h
      split at h
      · cases h
      · exact s.complaint (of_map_error h)
  | .list s, v, e, h => by
      unfold Shape.ofJson at h
      rw [Shape.wording]
      split at h
      · next items =>
          obtain ⟨w, hw, hfailed⟩ := mem_of_mapM_error h
          have hle := s.complaint hfailed
          have hweight : weight w ≤ total weight items := le_total_of_mem hw
          rw [weight, weightItems_eq]
          omega
      · cases h
        have hle := writtenSize_invalidType_le v "a sequence"
        omega
  | .record name fields build parts, v, e, h => by
      unfold Shape.ofJson at h
      rw [Shape.wording]
      split at h
      · next items =>
          have hle := fields.items_complaint (length_le_total weight items)
            (Nat.le_of_eq (Nat.zero_add _)) (of_map_error h)
          rw [weight, weightItems_eq]
          omega
      · next members =>
          rw [weight]
          rcases exists_of_bind_error h with hmembers | ⟨slots, -, h⟩
          · obtain ⟨m, hm, slots, hfailed⟩ := mem_of_foldlM_error hmembers
            have hle := fields.member_complaint hfailed
            have hweight := weight_le_weightMembers hm
            omega
          · rcases exists_of_bind_error h with hfinish | ⟨vs, -, h⟩
            · have hle := fields.finish_complaint hfinish
              omega
            · cases h
      · cases h
        have hle := writtenSize_invalidType_le v ("struct " ++ name)
        omega

theorem Fields.member_complaint {σ α : Type} : (f : Fields σ α) →
    ∀ {slots : σ} {key : String} {v : Json} {e : Error}, f.ofMember slots key v = .error e →
      writtenSize e.message ≤ 7 * v.weight + f.wording + 301
  | .nil, (), key, v, e, h => nomatch h
  | .cons name shape absent silent rest, (slot, slots), key, v, e, h => by
      rw [Fields.ofMember] at h
      rw [Fields.wording]
      split_ifs at h with hname hfilled
      · cases h
        rw [writtenSize_duplicateField]
        omega
      · rcases exists_of_bind_error h with hv | ⟨v', -, h⟩
        · have hle := shape.complaint hv
          omega
        · cases h
      · have hle := rest.member_complaint (of_map_error h)
        omega

/-- The items that are behind are counted as part of the whole list. -/
theorem Fields.items_complaint {σ α : Type} {owner : String} {length whole : Nat} :
    (f : Fields σ α) → ∀ {read : Nat} {items : List Json} {e : Error}, length ≤ whole →
      read + total weight items ≤ whole → f.ofItems owner length read items = .error e →
        writtenSize e.message ≤ 7 * whole + writtenSize owner + f.wording + 301
  | .nil, read, items, e, hlength, hwhole, h => by
      rw [Fields.ofItems] at h
      split_ifs at h
      cases h
      have hle := writtenSize_invalidLength_le length "fewer elements in array"
      rw [Fields.wording]
      omega
  | .cons name shape absent silent rest, read, items, e, hlength, hwhole, h => by
      cases items with
      | nil =>
          have hle := (Fields.cons name shape absent silent rest).defaults_complaint h
          have hsize := (Fields.cons name shape absent silent rest).size_le_wording
          rw [total_nil] at hwhole
          omega
      | cons v items =>
          rw [total_cons] at hwhole
          rw [Fields.wording]
          rcases exists_of_bind_error h with hv | ⟨v', -, h⟩
          · have hle := shape.complaint hv
            omega
          · rcases exists_of_bind_error h with hrest | ⟨vs, -, h⟩
            · have hle := rest.items_complaint hlength (by omega) hrest
              omega
            · cases h

end

end Json

end ServiceDiscovery
