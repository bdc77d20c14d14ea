import Mathlib.Tactic.SplitIfs
import ServiceDiscovery.Proofs.Json.Values
/-!
# Sizes of texts

How many bytes a text takes in UTF-8, and how many it takes once it is escaped in a written string,
where no character takes more than six. A list or an object takes the bytes of its elements and one
for each of them.
-/

namespace ServiceDiscovery

namespace Json

@[simp] theorem byteCount_nil : byteCount [] = 0 := rfl

@[simp] theorem byteCount_cons (c : Char) (t : List Char) :
    byteCount (c :: t) = c.utf8Size + byteCount t := rfl

@[simp] theorem byteCount_append (t u : List Char) :
    byteCount (t ++ u) = byteCount t + byteCount u := by
  induction t with
  | nil => rw [List.nil_append, byteCount_nil, Nat.zero_add]
  | cons c t ih => rw [List.cons_append, byteCount_cons, byteCount_cons, ih, Nat.add_assoc]

theorem byteCount_le_of_suffix {t u : List Char} (h : t <:+ u) : byteCount t ≤ byteCount u := by
  obtain ⟨before, rfl⟩ := h
  rw [byteCount_append]
  exact Nat.le_add_left _ _

theorem byteCount_flatMap_replicate (f : Char → List Char) (c : Char) (k : Nat) :
    byteCount ((List.replicate k c).flatMap f) = k * byteCount (f c) := by
  induction k with
  | zero => rw [List.replicate_zero, List.flatMap_nil, byteCount_nil, Nat.zero_mul]
  | succ k ih =>
      rw [List.replicate_succ, List.flatMap_cons, byteCount_append, ih, Nat.succ_mul, Nat.add_comm]

theorem length_le_byteCount (t : List Char) : t.length ≤ byteCount t := by
  induction t with
  | nil => exact Nat.le_refl _
  | cons c t ih =>
      have hpos := c.utf8Size_pos
      rw [List.length_cons, byteCount_cons]
      omega

/-- The room that characters need in a written string. -/
def escapedSize (t : List Char) : Nat := byteCount (t.flatMap escapeChar)

@[simp] theorem escapedSize_nil : escapedSize [] = 0 := rfl

@[simp] theorem escapedSize_cons (c : Char) (t : List Char) :
    escapedSize (c :: t) = byteCount (escapeChar c) + escapedSize t := by
  rw [escapedSize, List.flatMap_cons, byteCount_append, escapedSize]

@[simp] theorem escapedSize_append (t u : List Char) :
    escapedSize (t ++ u) = escapedSize t + escapedSize u := by
  rw [escapedSize, List.flatMap_append, byteCount_append, escapedSize, escapedSize]

theorem escapedSize_reverse (t : List Char) : escapedSize t.reverse = escapedSize t := by
  induction t with
  | nil => rfl
  | cons c t ih =>
      rw [List.reverse_cons, escapedSize_append, ih, escapedSize_cons, escapedSize_cons,
        escapedSize_nil]
      omega

theorem escapeChar_of_plain {c : Char} (hquote : c ≠ '"') (hbackslash : c ≠ '\\')
    (hcontrol : ¬ c.toNat < 32) : escapeChar c = [c] := by
  rw [escapeChar, if_neg hquote, if_neg hbackslash, if_pos (Nat.le_of_not_lt hcontrol)]

theorem byteCount_escapeChar_pos (c : Char) : 0 < byteCount (escapeChar c) := by
  have hnil : escapeChar c ≠ [] := by
    unfold escapeChar
    split_ifs <;> exact List.cons_ne_nil _ _
  exact Nat.lt_of_lt_of_le (List.length_pos_iff.mpr hnil) (length_le_byteCount _)

theorem byteCount_escapeChar_le (c : Char) : byteCount (escapeChar c) ≤ 6 := by
  have hcode : ∀ n < 32,
      byteCount ['\\', 'u', '0', '0', hexDigit (n / 16), hexDigit (n % 16)] = 6 := by decide
  unfold escapeChar
  split_ifs with hquote hbackslash hplain h8 h9 h10 h12 h13
  · decide
  · decide
  · have hsize := c.utf8Size_le_four
    rw [byteCount_cons, byteCount_nil]
    omega
  · decide
  · decide
  · decide
  · decide
  · decide
  · exact Nat.le_of_eq (hcode c.toNat (Nat.lt_of_not_le hplain))

theorem escapedSize_le (t : List Char) : escapedSize t ≤ 6 * t.length := by
  induction t with
  | nil => exact Nat.le_refl _
  | cons c t ih =>
      have hfirst := byteCount_escapeChar_le c
      rw [escapedSize_cons, List.length_cons]
      omega

/-- The room that a text needs between the quotes of a written string. -/
def writtenSize (s : String) : Nat := escapedSize s.toList

@[simp] theorem writtenSize_append (s u : String) :
    writtenSize (s ++ u) = writtenSize s + writtenSize u := by
  rw [writtenSize, String.toList_append, escapedSize_append, writtenSize, writtenSize]

@[simp] theorem writtenSize_ofList (t : List Char) :
    writtenSize (String.ofList t) = escapedSize t := by
  rw [writtenSize, String.toList_ofList]

theorem byteCount_writeString (s : String) : byteCount (writeString s) = writtenSize s + 2 := by
  have hquote : ('"' : Char).utf8Size = 1 := rfl
  rw [writeString, byteCount_append, byteCount_cons, byteCount_cons, byteCount_nil, hquote,
    writtenSize, escapedSize]
  omega

/-! ### Elements -/

/-- The weight of some values, with one byte for each. -/
def total {α : Type} (weight : α → Nat) (vs : List α) : Nat :=
  vs.foldr (fun v n => weight v + n + 1) 0

@[simp] theorem total_nil {α : Type} (weight : α → Nat) : total weight [] = 0 := rfl

@[simp] theorem total_cons {α : Type} (weight : α → Nat) (v : α) (vs : List α) :
    total weight (v :: vs) = weight v + total weight vs + 1 := rfl

theorem total_append {α : Type} (weight : α → Nat) (vs us : List α) :
    total weight (vs ++ us) = total weight vs + total weight us := by
  induction vs with
  | nil => rw [List.nil_append, total_nil, Nat.zero_add]
  | cons v vs ih =>
      rw [List.cons_append, total_cons, total_cons, ih]
      omega

theorem le_total_of_mem {α : Type} {weight : α → Nat} {vs : List α} {v : α} (h : v ∈ vs) :
    weight v ≤ total weight vs := by
  induction vs with
  | nil => cases h
  | cons first vs ih =>
      rw [total_cons]
      rcases List.mem_cons.mp h with rfl | h
      · omega
      · have hle := ih h
        omega

theorem length_le_total {α : Type} (weight : α → Nat) (vs : List α) :
    vs.length ≤ total weight vs := by
  induction vs with
  | nil => exact Nat.le_refl _
  | cons v vs ih =>
      rw [total_cons, List.length_cons]
      omega

theorem byteCount_commaTail (texts : List (List Char)) :
    byteCount (commaTail texts) = total byteCount texts := by
  have hcomma : (',' : Char).utf8Size = 1 := rfl
  induction texts with
  | nil => rfl
  | cons text texts ih =>
      rw [commaTail] at ih
      rw [commaTail, List.flatMap_cons, List.cons_append, byteCount_cons, byteCount_append, hcomma,
        ih, total_cons]
      omega

theorem byteCount_commaSeparated (text : List Char) (texts : List (List Char)) :
    byteCount (commaSeparated (text :: texts)) + 1 = total byteCount (text :: texts) := by
  rw [commaSeparated_cons, byteCount_append, byteCount_commaTail, total_cons]

theorem byteCount_writeObject {texts : List (List Char)} (h : texts ≠ []) :
    byteCount (writeObject texts) = total byteCount texts + 1 := by
  obtain ⟨text, texts, rfl⟩ := List.exists_cons_of_ne_nil h
  have hopen : ('\x7b' : Char).utf8Size = 1 := rfl
  have hclose : ('\x7d' : Char).utf8Size = 1 := rfl
  have hmembers := byteCount_commaSeparated text texts
  rw [writeObject, byteCount_append, byteCount_cons, byteCount_cons, byteCount_nil, hopen, hclose]
  omega

theorem byteCount_writeList_singleton (text : List Char) :
    byteCount (writeList [text]) = byteCount text + 2 := by
  have hopen : ('[' : Char).utf8Size = 1 := rfl
  have hclose : (']' : Char).utf8Size = 1 := rfl
  rw [writeList, byteCount_append, byteCount_cons, byteCount_cons, byteCount_nil, hopen, hclose,
    commaSeparated]
  omega

theorem byteCount_writeMember (key : String) (text : List Char) :
    byteCount (writeMember key text) = writtenSize key + byteCount text + 3 := by
  have hcolon : (':' : Char).utf8Size = 1 := rfl
  rw [writeMember, byteCount_append, byteCount_cons, byteCount_writeString, hcolon]
  omega

end Json

end ServiceDiscovery
