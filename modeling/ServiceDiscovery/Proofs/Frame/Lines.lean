import Mathlib.Data.List.TakeWhile
import ServiceDiscovery.Frame
import ServiceDiscovery.Proofs.Json.Visible
/-!
# Lines of bytes

A stream is cut at its line feeds. No byte of a character beyond the seven-bit alphabet is a line
feed, and no written message holds one, so the bytes of a message are one line.
-/

namespace ServiceDiscovery

namespace Frame

/-! ### Texts as bytes -/

def bytesOf (s : String) : List UInt8 := s.toUTF8.data.toList

theorem text?_eq_some_iff {line : List UInt8} {s : String} :
    text? line = some s ↔ line = bytesOf s := by
  have hbytes : ∀ b : ByteArray, (⟨b.data.toList.toArray⟩ : ByteArray) = b := fun b => rfl
  rw [text?, String.fromUTF8?]
  constructor
  · intro h
    split_ifs at h with hvalid
    cases h
    rfl
  · rintro rfl
    rw [bytesOf, hbytes]
    exact dif_pos s.isValidUTF8

theorem bytesOf_eq (s : String) : bytesOf s = s.toList.flatMap String.utf8EncodeChar := by
  have hencoded : s.toUTF8 = s.toList.utf8Encode := s.utf8Encode_toList.symm
  rw [bytesOf, hencoded, List.utf8Encode, List.data_toByteArray]

/-- A byte below 128 encodes the character of that number. -/
theorem of_mem_utf8EncodeChar {c : Char} {b : UInt8} (h : b ∈ String.utf8EncodeChar c) :
    128 ≤ b.toNat ∨ b.toNat = c.toNat := by
  have hvalue : c.toNat = c.val.toNat := rfl
  unfold String.utf8EncodeChar at h
  simp only at h
  split_ifs at h with hone htwo hthree
  · obtain rfl := List.mem_singleton.mp h
    right
    rw [UInt8.toNat_ofNat_of_lt' (Nat.lt_of_le_of_lt hone (by decide)), hvalue]
  all_goals
    left
    simp only [List.mem_cons, List.not_mem_nil, or_false] at h
    rcases h with rfl | rfl | rfl | rfl <;> simp <;> omega

theorem not_mem_bytesOf {s : String} (h : Json.Visible s.toList) {b : UInt8} (hb : b.toNat < 32) :
    b ∉ bytesOf s := by
  rw [bytesOf_eq]
  intro hmem
  obtain ⟨c, hc, hbc⟩ := List.mem_flatMap.mp hmem
  have hvisible := h c hc
  rcases of_mem_utf8EncodeChar hbc with hbyte | hbyte <;> omega

theorem length_bytesOf (s : String) : (bytesOf s).length = Json.byteCount s.toList := by
  rw [bytesOf_eq]
  generalize s.toList = cs
  induction cs with
  | nil => rfl
  | cons c cs ih =>
      rw [List.flatMap_cons, List.length_append, ih, String.length_utf8EncodeChar]
      rfl

/-! ### Streams as lines -/

/-- A stream is a last line without a line feed, or a line with one and a stream behind it. -/
theorem streamInduction {motive : List UInt8 → Prop}
    (last : ∀ line, lineFeed ∉ line → motive line)
    (more : ∀ line rest, lineFeed ∉ line → motive rest → motive (line ++ lineFeed :: rest))
    (bytes : List UInt8) : motive bytes := by
  by_cases hmem : lineFeed ∈ bytes
  · obtain ⟨line, rest, hbytes, hline⟩ := List.eq_append_cons_of_mem hmem
    have hshorter : rest.length < bytes.length := by
      rw [hbytes, List.length_append, List.length_cons]
      omega
    rw [hbytes]
    exact more line rest hline (streamInduction last more rest)
  · exact last bytes hmem
termination_by bytes.length

theorem cut_last {line : List UInt8} (h : lineFeed ∉ line) : cut line = (line, none) := by
  have hall : ∀ b ∈ line, decide (b ≠ lineFeed) = true := fun b hb =>
    decide_eq_true (ne_of_mem_of_not_mem hb h)
  rw [cut, List.span_eq_takeWhile_dropWhile, List.takeWhile_eq_self_iff.mpr hall,
    List.dropWhile_eq_nil_iff.mpr hall]

theorem cut_more {line : List UInt8} (h : lineFeed ∉ line) (rest : List UInt8) :
    cut (line ++ lineFeed :: rest) = (line, some rest) := by
  have hall : ∀ b ∈ line, decide (b ≠ lineFeed) = true := fun b hb =>
    decide_eq_true (ne_of_mem_of_not_mem hb h)
  rw [cut, List.span_eq_takeWhile_dropWhile, List.takeWhile_append_of_pos hall,
    List.dropWhile_append_of_pos hall, List.takeWhile_cons_of_neg (by decide),
    List.dropWhile_cons_of_neg (by decide), List.append_nil]

/-- The lines of a closed stream. What stands behind the last line feed is a line too, unless it is
nothing or a lone carriage return. -/
def lines (bytes : List UInt8) : List (List UInt8) :=
  let parts := bytes.splitOn lineFeed
  if parts.getLast? = some [] ∨ parts.getLast? = some [carriageReturn] then parts.dropLast
  else parts

theorem lines_last {line : List UInt8} (h : lineFeed ∉ line) :
    lines line = if line = [] ∨ line = [carriageReturn] then [] else [line] := by
  simp only [lines, List.splitOn_eq_singleton h, List.getLast?_singleton, Option.some.injEq,
    List.dropLast_singleton]

theorem lines_more {line : List UInt8} (h : lineFeed ∉ line) (rest : List UInt8) :
    lines (line ++ lineFeed :: rest) = line :: lines rest := by
  obtain ⟨part, parts, hparts⟩ := List.exists_cons_of_ne_nil (List.splitOn_ne_nil lineFeed rest)
  simp only [lines, List.splitOn_append_cons_self_of_not_mem h, hparts, List.getLast?_cons_cons]
  split_ifs <;> rfl

end Frame

end ServiceDiscovery
