import ServiceDiscovery.Proofs.Digits
import ServiceDiscovery.Setting.Inline
/-!
# Which bare texts are numbers

A bare text is tried as a number before it stands for itself, and whatever a number can be read from
is none of the texts that do. The three readers look at it one after the other, and each of them
accepts more than is ever written: a plus, zeros in front, a point with digits on one side of it
only. What they have in common is that no text between two bounds is left out, and that one without
a point is never tried as a floating point number.
-/

namespace ServiceDiscovery

namespace Setting

open Text (baseValue boundedValue?_eq leadingDigits span_append)

/-! ### The grammar -/

/-- Digits, one at least. -/
structure Digits (t : List Char) : Prop where
  ne_nil : t ≠ []
  isDigit : ∀ c ∈ t, c.isDigit = true

/-- A sign or nothing. -/
inductive Sign : List Char → Prop
  | absent : Sign []
  | given {c : Char} : c = '+' ∨ c = '-' → Sign [c]

/-- A power of ten behind a decimal, or nothing. -/
inductive Exponent : List Char → Prop
  | absent : Exponent []
  | given {c : Char} {sign digits : List Char} :
      c = 'e' ∨ c = 'E' → Sign sign → Digits digits → Exponent (c :: (sign ++ digits))

/-- A number of at most sixty-four bits, perhaps with a plus. -/
inductive Unsigned : List Char → Prop
  | plain {digits : List Char} : Digits digits → baseValue 10 digits < UInt64.size → Unsigned digits
  | plus {digits : List Char} :
      Digits digits → baseValue 10 digits < UInt64.size → Unsigned ('+' :: digits)

/-- A number with a minus that a signed word of sixty-four bits has room for. -/
inductive Negative : List Char → Prop
  | minus {digits : List Char} :
      Digits digits → baseValue 10 digits ≤ highBit → Negative ('-' :: digits)

/-- A decimal with a point, and digits on one side of it at least. -/
inductive Pointed : List Char → Prop
  | mk {sign whole fraction exponent : List Char} : Sign sign → Digits (whole ++ fraction) →
      Exponent exponent → Pointed (sign ++ (whole ++ '.' :: (fraction ++ exponent)))

/-- What a bare text is taken for a number by. -/
def Numeral (t : List Char) : Prop := Unsigned t ∨ Negative t ∨ Pointed t

theorem digits_iff {t : List Char} :
    (!t.isEmpty) = true ∧ t.all Char.isDigit = true ↔ Digits t := by
  rw [List.all_eq_true, Bool.not_eq_true', List.isEmpty_eq_false_iff]
  exact ⟨fun h => ⟨h.1, h.2⟩, fun h => ⟨h.ne_nil, h.isDigit⟩⟩

theorem not_sign_of_isDigit {c : Char} (h : c.isDigit = true) : ¬ (c = '+' ∨ c = '-') := by
  rintro (rfl | rfl) <;> exact absurd h (by decide)

theorem Digits.not_sign {t : List Char} (h : Digits t) :
    ∀ c ∈ t.head?, ¬ (c = '+' ∨ c = '-') :=
  fun c hc => not_sign_of_isDigit (h.isDigit c (List.mem_of_mem_head? hc))

/-! ### Whole numbers -/

theorem isSome_boundedValue? {bound : Nat} (hbound : 0 < bound) (digits : List Char) :
    (Text.boundedValue? 10 bound digits).isSome = true ↔ baseValue 10 digits < bound := by
  rw [boundedValue?_eq (by decide) hbound]
  split_ifs with h
  · exact iff_of_true rfl h
  · exact iff_of_false Bool.false_ne_true h

theorem unsigned?_isSome_iff {t : List Char} : (unsigned? t).isSome = true ↔ Unsigned t := by
  have hread : ∀ digits : List Char,
      (if (!digits.isEmpty) = true ∧ digits.all Char.isDigit = true then
        Text.boundedValue? 10 UInt64.size digits else none).isSome = true ↔
      Digits digits ∧ baseValue 10 digits < UInt64.size := by
    intro digits
    by_cases hdigits : Digits digits
    · rw [if_pos (digits_iff.mpr hdigits), and_iff_right hdigits, isSome_boundedValue? (by decide)]
    · rw [if_neg fun h => hdigits (digits_iff.mp h)]
      exact iff_of_false Bool.false_ne_true fun h => hdigits h.1
  rw [unsigned?, hread]
  constructor
  · rintro ⟨hdigits, hbound⟩
    split_ifs at hdigits hbound with hplus
    · obtain ⟨digits, rfl⟩ := List.head?_eq_some_iff.mp hplus
      exact .plus hdigits hbound
    · exact .plain hdigits hbound
  · rintro (⟨hdigits, hbound⟩ | ⟨hdigits, hbound⟩)
    · have hplus : t.head? ≠ some '+' := fun hplus => hdigits.not_sign _ hplus (.inl rfl)
      rw [if_neg hplus]
      exact ⟨hdigits, hbound⟩
    · exact ⟨hdigits, hbound⟩

theorem signed?_isSome_iff {t : List Char} : (signed? t).isSome = true ↔ Negative t := by
  have hread : ∀ digits : List Char, (signed? ('-' :: digits)).isSome = true ↔
      Digits digits ∧ baseValue 10 digits < highBit + 1 := by
    intro digits
    rw [signed?]
    by_cases hdigits : Digits digits
    · rw [if_pos (digits_iff.mpr hdigits), and_iff_right hdigits,
        ← isSome_boundedValue? (by decide)]
      cases Text.boundedValue? 10 (highBit + 1) digits <;> rfl
    · rw [if_neg fun h => hdigits (digits_iff.mp h)]
      exact iff_of_false Bool.false_ne_true fun h => hdigits h.1
  constructor
  · intro h
    by_cases hminus : t.head? = some '-'
    · obtain ⟨digits, rfl⟩ := List.head?_eq_some_iff.mp hminus
      obtain ⟨hdigits, hbound⟩ := (hread digits).mp h
      exact .minus hdigits (Nat.le_of_lt_succ hbound)
    · rw [signed?] at h
      · cases h
      · rintro digits rfl
        exact hminus rfl
  · rintro ⟨hdigits, hbound⟩
    exact (hread _).mpr ⟨hdigits, Nat.lt_succ_of_le hbound⟩

/-! ### Decimals -/

section Decimals

open Binary64

theorem exists_sign (t : List Char) : ∃ sign, Sign sign ∧ t = sign ++ (takeSign t).2 := by
  unfold takeSign
  split
  · exact ⟨['-'], .given (.inr rfl), rfl⟩
  · exact ⟨['+'], .given (.inl rfl), rfl⟩
  · exact ⟨[], .absent, rfl⟩

/-- A sign is taken off, and no other one behind it. -/
theorem takeSign_append {sign t : List Char} (hsign : Sign sign)
    (ht : ∀ c ∈ t.head?, ¬ (c = '+' ∨ c = '-')) : (takeSign (sign ++ t)).2 = t := by
  cases hsign with
  | given h => rcases h with rfl | rfl <;> rfl
  | absent =>
      rw [List.nil_append, takeSign]
      · rintro u rfl
        exact ht _ rfl (.inr rfl)
      · rintro u rfl
        exact ht _ rfl (.inl rfl)

theorem isSome_exponentOf?_mark {c : Char} (hc : c = 'e' ∨ c = 'E') (t : List Char) :
    (exponentOf? (c :: t)).isSome = true ↔ Digits (takeSign t).2 := by
  rw [exponentOf?, if_pos hc]
  dsimp only
  generalize (takeSign t).2 = digits
  have hbad : digits.isEmpty = true ∨ (!digits.all Char.isDigit) = true ↔ ¬ Digits digits := by
    rw [← digits_iff]
    cases digits.isEmpty <;> cases digits.all Char.isDigit <;> decide
  by_cases hdigits : Digits digits
  · rw [if_neg fun h => hbad.mp h hdigits]
    split <;> exact iff_of_true rfl hdigits
  · rw [if_pos (hbad.mpr hdigits)]
    exact iff_of_false Bool.false_ne_true hdigits

theorem exponentOf?_isSome_iff {t : List Char} : (exponentOf? t).isSome = true ↔ Exponent t := by
  constructor
  · intro h
    cases t with
    | nil => exact .absent
    | cons c t =>
        by_cases hc : c = 'e' ∨ c = 'E'
        · obtain ⟨sign, hsign, ht⟩ := exists_sign t
          rw [ht]
          exact .given hc hsign ((isSome_exponentOf?_mark hc t).mp h)
        · rw [exponentOf?, if_neg hc] at h
          cases h
  · rintro (_ | ⟨hc, hsign, hdigits⟩)
    · rfl
    · rw [isSome_exponentOf?_mark hc, takeSign_append hsign hdigits.not_sign]
      exact hdigits

theorem Sign.point_not_mem {t : List Char} (h : Sign t) : '.' ∉ t := by
  rcases h with _ | rfl | rfl <;> decide

theorem point_not_mem_of_isDigit {t : List Char} (h : ∀ c ∈ t, c.isDigit = true) : '.' ∉ t :=
  fun hpoint => absurd (h '.' hpoint) (by decide)

theorem Exponent.point_not_mem {t : List Char} (h : Exponent t) : '.' ∉ t := by
  rcases h with _ | ⟨hc, hsign, hdigits⟩
  · exact List.not_mem_nil
  · rw [List.mem_cons, List.mem_append]
    rintro (rfl | hpoint | hpoint)
    · exact absurd hc (by decide)
    · exact hsign.point_not_mem hpoint
    · exact point_not_mem_of_isDigit hdigits.isDigit hpoint

theorem Exponent.isDigit_head? {t : List Char} (h : Exponent t) :
    ∀ c ∈ t.head?, c.isDigit = false := by
  rcases h with _ | ⟨rfl | rfl, -, -⟩
  · exact nofun
  all_goals
    rintro c ⟨⟩
    rfl

theorem takeFraction_of_ne {t : List Char} (h : t.head? ≠ some '.') : takeFraction t = ([], t) := by
  rw [takeFraction]
  rintro u rfl
  exact h rfl

/-- The digits that a text begins with, and what is left. -/
theorem exists_leadingDigits (t : List Char) : ∃ digits rest,
    leadingDigits t = (digits, rest) ∧ t = digits ++ rest ∧ ∀ c ∈ digits, c.isDigit = true := by
  rw [leadingDigits, List.span_eq_takeWhile_dropWhile]
  exact ⟨_, _, rfl, List.takeWhile_append_dropWhile.symm, List.all_eq_true.mp List.all_takeWhile⟩

/-- Nothing but digits on one side of the point and an exponent is asked for. -/
theorem isSome_ofText? {t whole rest fraction exponent : List Char}
    (hwhole : leadingDigits (takeSign t).2 = (whole, rest))
    (hfraction : takeFraction rest = (fraction, exponent)) :
    (Binary64.ofText? t).isSome = true ↔ whole ++ fraction ≠ [] ∧ Exponent exponent := by
  rw [Binary64.ofText?, ← exponentOf?_isSome_iff, Ne, List.append_eq_nil_iff]
  simp only [hwhole, hfraction, List.isEmpty_iff]
  by_cases hempty : whole = [] ∧ fraction = []
  · rw [if_pos hempty]
    exact iff_of_false Bool.false_ne_true fun h => h.1 hempty
  · rw [if_neg hempty, Option.isSome_map, and_iff_right hempty]

theorem ofText?_isSome_iff {t : List Char} (hpoint : '.' ∈ t) :
    (Binary64.ofText? t).isSome = true ↔ Pointed t := by
  constructor
  · intro h
    obtain ⟨sign, hsign, ht⟩ := exists_sign t
    obtain ⟨whole, rest, hread, hwhole, hdigits⟩ := exists_leadingDigits (takeSign t).2
    rw [hwhole] at ht
    by_cases hrest : rest.head? = some '.'
    · obtain ⟨u, rfl⟩ := List.head?_eq_some_iff.mp hrest
      obtain ⟨fraction, exponent, hread', rfl, hdigits'⟩ := exists_leadingDigits u
      obtain ⟨hne, hexponent⟩ := (isSome_ofText? hread hread').mp h
      rw [ht]
      exact .mk hsign ⟨hne, List.forall_mem_append.mpr ⟨hdigits, hdigits'⟩⟩ hexponent
    · -- Without a fraction no point can be left over for the exponent.
      obtain ⟨-, hexponent⟩ := (isSome_ofText? hread (takeFraction_of_ne hrest)).mp h
      rw [ht, List.mem_append, List.mem_append] at hpoint
      rcases hpoint with hpoint | hpoint | hpoint
      · exact absurd hpoint hsign.point_not_mem
      · exact absurd hpoint (point_not_mem_of_isDigit hdigits)
      · exact absurd hpoint hexponent.point_not_mem
  · rintro ⟨hsign, hdigits, hexponent⟩
    next sign whole fraction exponent =>
    obtain ⟨hwhole, hfraction⟩ := List.forall_mem_append.mp hdigits.isDigit
    have hunsigned :
        ∀ c ∈ (whole ++ '.' :: (fraction ++ exponent)).head?, ¬ (c = '+' ∨ c = '-') := by
      cases whole with
      | nil =>
          rintro c ⟨⟩
          decide
      | cons d whole =>
          rintro c ⟨⟩
          exact not_sign_of_isDigit (hwhole d List.mem_cons_self)
    have hread : leadingDigits (takeSign (sign ++ (whole ++ '.' :: (fraction ++ exponent)))).2 =
        (whole, '.' :: (fraction ++ exponent)) := by
      rw [takeSign_append hsign hunsigned]
      exact span_append hwhole (by rintro c ⟨⟩; rfl)
    have hread' : takeFraction ('.' :: (fraction ++ exponent)) = (fraction, exponent) :=
      span_append hfraction hexponent.isDigit_head?
    exact (isSome_ofText? hread hread').mpr ⟨hdigits.ne_nil, hexponent⟩

end Decimals

theorem ofBare_eq_text_iff {t : List Char} : ofBare t = text (String.ofList t) ↔ ¬ Numeral t := by
  have hpointed : (if '.' ∈ t then Binary64.ofText? t else none).isSome = true ↔ Pointed t := by
    split_ifs with hpoint
    · exact ofText?_isSome_iff hpoint
    · refine iff_of_false Bool.false_ne_true ?_
      rintro ⟨-, -, -⟩
      simp at hpoint
  rw [ofBare, Numeral, ← unsigned?_isSome_iff, ← signed?_isSome_iff, ← hpointed]
  cases (if '.' ∈ t then Binary64.ofText? t else none) with
  | some x => simp
  | none => cases unsigned? t <;> cases signed? t <;> simp

/-! ### The characters of a number -/

def isNumeralChar (c : Char) : Bool :=
  c.isDigit || c = '+' || c = '-' || c = '.' || c = 'e' || c = 'E'

/-- Whether all characters of a text may be in a number. -/
def Numeric (t : List Char) : Prop := ∀ c ∈ t, isNumeralChar c = true

theorem Sign.numeric {t : List Char} (h : Sign t) : Numeric t := by
  rcases h with _ | rfl | rfl
  · exact List.forall_mem_nil _
  all_goals exact List.forall_mem_singleton.mpr rfl

theorem numeric_of_isDigit {t : List Char} (h : ∀ c ∈ t, c.isDigit = true) : Numeric t := by
  intro c hc
  simp [isNumeralChar, h c hc]

theorem Exponent.numeric {t : List Char} (h : Exponent t) : Numeric t := by
  rcases h with _ | ⟨hc, hsign, hdigits⟩
  · exact List.forall_mem_nil _
  · refine List.forall_mem_cons.mpr ⟨?_, List.forall_mem_append.mpr
      ⟨hsign.numeric, numeric_of_isDigit hdigits.isDigit⟩⟩
    rcases hc with rfl | rfl <;> rfl

theorem Numeral.numeric {t : List Char} (h : Numeral t) : Numeric t := by
  rcases h with (⟨hdigits, -⟩ | ⟨hdigits, -⟩) | ⟨hdigits, -⟩ | ⟨hsign, hdigits, hexponent⟩
  · exact numeric_of_isDigit hdigits.isDigit
  · exact List.forall_mem_cons.mpr ⟨rfl, numeric_of_isDigit hdigits.isDigit⟩
  · exact List.forall_mem_cons.mpr ⟨rfl, numeric_of_isDigit hdigits.isDigit⟩
  · obtain ⟨hwhole, hfraction⟩ := List.forall_mem_append.mp hdigits.isDigit
    refine List.forall_mem_append.mpr ⟨hsign.numeric, List.forall_mem_append.mpr
      ⟨numeric_of_isDigit hwhole, List.forall_mem_cons.mpr ⟨rfl, ?_⟩⟩⟩
    exact List.forall_mem_append.mpr ⟨numeric_of_isDigit hfraction, hexponent.numeric⟩

end Setting

end ServiceDiscovery
