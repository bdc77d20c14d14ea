import ServiceDiscovery.Json.Lexer
import ServiceDiscovery.Json.Printer
import ServiceDiscovery.Proofs.Digits
/-!
# Written words are read back

The smallest parts of a written JSON text, each followed by whatever comes after it. A string needs
nothing of what follows, since its closing quote ends it. A number ends where its digits end, so what
follows must not be taken for more of it: behind a written value comes a comma, a closing bracket or
nothing.
-/

namespace ServiceDiscovery

namespace Json

open Text (hexValue? boundedValue? leadingDigits)

/-! ### What stands around a value -/

/-- What may come behind a value. -/
def Follows (t : Input) : Prop := ∀ c ∈ t.head?, c = ',' ∨ c = ']' ∨ c = '\x7d'

/-- The first character of a value. -/
def isOpening (c : Char) : Bool := !isSpace c && c ≠ ']' && c ≠ '\x7d'

def Opens (t : Input) : Prop := t.head?.any isOpening = true

theorem follows_nil : Follows [] := nofun

theorem follows_cons {c : Char} (t : Input) (h : c = ',' ∨ c = ']' ∨ c = '\x7d') :
    Follows (c :: t) := by
  intro d hd
  cases hd
  exact h

theorem skipSpace_cons {c : Char} (t : Input) (h : isSpace c = false) :
    skipSpace (c :: t) = c :: t := by
  rw [skipSpace, List.dropWhile_cons_of_neg (by rw [h]; exact Bool.false_ne_true)]

theorem Follows.skipSpace_eq {t : Input} (h : Follows t) : skipSpace t = t := by
  cases t with
  | nil => rfl
  | cons c t =>
      apply skipSpace_cons
      rcases h c rfl with rfl | rfl | rfl <;> rfl

theorem Opens.exists_cons {t : Input} (h : Opens t) :
    ∃ c rest, t = c :: rest ∧ isSpace c = false ∧ c ≠ ']' ∧ c ≠ '\x7d' := by
  cases t with
  | nil => cases h
  | cons c rest =>
      obtain ⟨h, hbrace⟩ := Bool.and_eq_true_iff.mp h
      obtain ⟨hspace, hbracket⟩ := Bool.and_eq_true_iff.mp h
      exact ⟨c, rest, rfl, by simpa using hspace, of_decide_eq_true hbracket,
        of_decide_eq_true hbrace⟩

theorem Opens.append {t : Input} (h : Opens t) (rest : Input) : Opens (t ++ rest) := by
  obtain ⟨c, t, rfl, -⟩ := h.exists_cons
  exact h

theorem Opens.skipSpace_eq {t : Input} (h : Opens t) : skipSpace t = t := by
  obtain ⟨c, t, rfl, hspace, -⟩ := h.exists_cons
  exact skipSpace_cons t hspace

theorem readWord_append (word : List Char) (rest : Input) : readWord word (word ++ rest) = .ok rest := by
  induction word with
  | nil => rfl
  | cons c word ih => rw [List.cons_append, readWord, if_pos rfl, ih]

/-! ### Strings -/

theorem readChars_plain {c : Char} (seen : List Char) (t : Input) (hquote : c ≠ '"')
    (hbackslash : c ≠ '\\') (hcontrol : ¬ c.toNat < 32) :
    readChars seen (c :: t) = readChars (c :: seen) t := by
  rw [readChars, if_neg hquote, if_neg hbackslash, if_neg hcontrol]

theorem readChars_escape {c : Char} {t rest : Input} (seen : List Char)
    (h : readEscape t = .ok (c, rest)) :
    readChars seen ('\\' :: t) = readChars (c :: seen) rest := by
  rw [readChars, if_neg (by decide), if_pos rfl]
  split
  · next hfailed =>
      rw [h] at hfailed
      cases hfailed
  · next hread =>
      rw [h] at hread
      cases hread
      rfl

/-- A control character is escaped by its code, unless it has a short escape. -/
theorem readCodeUnit_code {n : Nat} (h : n < 32) (t : Input) :
    readCodeUnit ('0' :: '0' :: hexDigit (n / 16) :: hexDigit (n % 16) :: t) = .ok (n, t) := by
  have hcode : ∀ n < 32,
      codeUnit? '0' '0' (hexDigit (n / 16)) (hexDigit (n % 16)) = some n := by decide
  rw [readCodeUnit, hcode n h]

theorem readEscape_code {n : Nat} (h : n < 32) (t : Input) :
    readEscape ('u' :: '0' :: '0' :: hexDigit (n / 16) :: hexDigit (n % 16) :: t) =
      .ok (Char.ofNat n, t) := by
  have hlow : isLowSurrogate n = false := by
    have hle : ¬ 0xDC00 ≤ n := by omega
    simp [isLowSurrogate, hle]
  have hhigh : isHighSurrogate n = false := by
    have hle : ¬ 0xD800 ≤ n := by omega
    simp [isHighSurrogate, hle]
  change readUnicode _ = _
  simp only [readUnicode, readCodeUnit_code h, hlow, hhigh, Bool.false_eq_true, if_false]

theorem skipEscape_code {n : Nat} (h : n < 32) (t : Input) :
    skipEscape ('u' :: '0' :: '0' :: hexDigit (n / 16) :: hexDigit (n % 16) :: t) = .ok t := by
  rw [skipEscape, if_neg (by decide), if_pos rfl, readCodeUnit_code h]

/-- How a character stands in a string: as it is, or behind a backslash. -/
inductive StandsAs (c : Char) : List Char → Prop
  | plain (hquote : c ≠ '"') (hbackslash : c ≠ '\\') (hcontrol : ¬ c.toNat < 32) : StandsAs c [c]
  | escaped {text : List Char} (hread : ∀ rest, readEscape (text ++ rest) = .ok (c, rest))
      (hskip : ∀ rest, skipEscape (text ++ rest) = .ok rest) : StandsAs c ('\\' :: text)

theorem standsAs_escapeChar (c : Char) : StandsAs c (escapeChar c) := by
  have hchar : ∀ n, c.toNat = n → c = Char.ofNat n := by
    rintro n rfl
    exact (Char.ofNat_toNat c).symm
  unfold escapeChar
  split_ifs with hquote hbackslash hplain h8 h9 h10 h12 h13
  · subst hquote
    exact .escaped (fun _ => rfl) fun _ => rfl
  · subst hbackslash
    exact .escaped (fun _ => rfl) fun _ => rfl
  · exact .plain hquote hbackslash (Nat.not_lt.mpr hplain)
  · rw [hchar 8 h8]
    exact .escaped (fun _ => rfl) fun _ => rfl
  · rw [hchar 9 h9]
    exact .escaped (fun _ => rfl) fun _ => rfl
  · rw [hchar 10 h10]
    exact .escaped (fun _ => rfl) fun _ => rfl
  · rw [hchar 12 h12]
    exact .escaped (fun _ => rfl) fun _ => rfl
  · rw [hchar 13 h13]
    exact .escaped (fun _ => rfl) fun _ => rfl
  · have hcontrol := Nat.lt_of_not_le hplain
    have hread := readEscape_code hcontrol
    rw [Char.ofNat_toNat] at hread
    exact .escaped hread (skipEscape_code hcontrol)

theorem readChars_escapeChar (seen : List Char) (c : Char) (t : Input) :
    readChars seen (escapeChar c ++ t) = readChars (c :: seen) t := by
  have hstands := standsAs_escapeChar c
  generalize escapeChar c = text at hstands
  cases hstands with
  | plain hquote hbackslash hcontrol => exact readChars_plain seen t hquote hbackslash hcontrol
  | escaped hread => exact readChars_escape seen (hread t)

theorem readChars_escaped (seen cs : List Char) (rest : Input) :
    readChars seen (cs.flatMap escapeChar ++ '"' :: rest) = .ok (seen.reverse ++ cs, rest) := by
  induction cs generalizing seen with
  | nil => rw [List.flatMap_nil, List.nil_append, readChars, if_pos rfl, List.append_nil]
  | cons c cs ih =>
      rw [List.flatMap_cons, List.append_assoc, readChars_escapeChar, ih, List.reverse_cons,
        List.append_assoc, List.singleton_append]

theorem writeString_append (s : String) (rest : Input) :
    writeString s ++ rest = '"' :: (s.toList.flatMap escapeChar ++ '"' :: rest) := by
  rw [writeString, List.append_assoc]
  rfl

/-- A string is read back from behind its opening quote. -/
theorem readString_escaped (s : String) (rest : Input) :
    readString (s.toList.flatMap escapeChar ++ '"' :: rest) = .ok (s, rest) := by
  have hchars := readChars_escaped [] s.toList rest
  rw [readString, hchars]
  change Except.ok (String.ofList s.toList, rest) = _
  rw [String.ofList_toList]

/-! ### Whole numbers -/

theorem isDigit_of_mem_writeNat {n : Nat} {c : Char} (h : c ∈ writeNat n) : c.isDigit = true :=
  Text.isDigit_of_mem_decimal h

theorem writeNat_ne_nil (n : Nat) : writeNat n ≠ [] := Text.decimal_ne_nil n

theorem boundedValue?_writeNat {bound n : Nat} (h : n < bound) :
    boundedValue? 10 bound (writeNat n) = some n :=
  Text.boundedValue?_decimal h

theorem not_isDigit_of_follows {t : Input} (h : Follows t) : ∀ c ∈ t.head?, c.isDigit = false := by
  intro c hc
  rcases h c hc with rfl | rfl | rfl <;> rfl

theorem leadingDigits_writeNat (n : Nat) {rest : Input} (hrest : Follows rest) :
    leadingDigits (writeNat n ++ rest) = (writeNat n, rest) :=
  Text.leadingDigits_decimal (not_isDigit_of_follows hrest)

theorem readFraction_of_follows {t : Input} (h : Follows t) : readFraction t = .ok ([], t) := by
  cases t with
  | nil => rfl
  | cons c t => rcases h c rfl with rfl | rfl | rfl <;> rfl

theorem readExponent_of_follows {t : Input} (h : Follows t) : readExponent t = .ok (none, t) := by
  cases t with
  | nil => rfl
  | cons c t => rcases h c rfl with rfl | rfl | rfl <;> rfl

theorem readNumeral_writeNat (n : Nat) {rest : Input} (hrest : Follows rest) :
    readNumeral (writeNat n ++ rest) = .ok (⟨writeNat n, [], none⟩, rest) := by
  have hzero : ∀ d digits, writeNat n ≠ '0' :: d :: digits := by
    intro d digits hwritten
    rcases Nat.eq_zero_or_pos n with rfl | hpos
    · cases hwritten
    · exact Text.head?_decimal hpos (congrArg List.head? hwritten)
  rw [readNumeral, leadingDigits_writeNat n hrest]
  split
  · next hnil => exact absurd (congrArg Prod.fst hnil) (writeNat_ne_nil n)
  · next hleading => exact absurd (congrArg Prod.fst hleading) (hzero _ _)
  · next hleading =>
      cases hleading
      rw [readFraction_of_follows hrest]
      change (readExponent rest).bind _ = _
      rw [readExponent_of_follows hrest]
      rfl

theorem readNumber_natural {n : Nat} (h : n < UInt64.size) {rest : Input} (hrest : Follows rest) :
    readNumber false (writeNat n ++ rest) = .ok (.natural (UInt64.ofNat n), rest) := by
  have hvalue : (⟨writeNat n, [], none⟩ : Numeral).toNumber false =
      .ok (.natural (UInt64.ofNat n)) := by
    simp [Numeral.toNumber, Numeral.isWhole, Numeral.toWhole?, boundedValue?_writeNat h]
  rw [readNumber, readNumeral_writeNat n hrest]
  change ((⟨writeNat n, [], none⟩ : Numeral).toNumber false).bind _ = _
  rw [hvalue]
  rfl

theorem readNumber_negative (n : Fin highBit) {rest : Input} (hrest : Follows rest) :
    readNumber true (writeNat (n.val + 1) ++ rest) = .ok (.negative n, rest) := by
  have hfits : n.val + 1 < UInt64.size := by
    have hlt := n.isLt
    have hsize : highBit < UInt64.size := by decide
    omega
  have hvalue : (⟨writeNat (n.val + 1), [], none⟩ : Numeral).toNumber true =
      .ok (.negative n) := by
    simp [Numeral.toNumber, Numeral.isWhole, Numeral.toWhole?, boundedValue?_writeNat hfits]
  rw [readNumber, readNumeral_writeNat _ hrest]
  change ((⟨writeNat (n.val + 1), [], none⟩ : Numeral).toNumber true).bind _ = _
  rw [hvalue]
  rfl

end Json

end ServiceDiscovery
