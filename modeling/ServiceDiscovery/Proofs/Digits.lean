import Mathlib.Data.List.TakeDrop
import Mathlib.Data.Nat.Init
import ServiceDiscovery.Text.Digit
/-!
# Digits are read back

A run of digits ends where a character stands that is none. Written numbers are such runs, and what
they write is the number again, in every base up to sixteen.
-/

namespace ServiceDiscovery

namespace Text

/-! ### Runs -/

section Span

variable {p : Char → Bool}

theorem span_append {t rest : List Char} (ht : ∀ c ∈ t, p c = true)
    (hrest : ∀ c ∈ rest.head?, p c = false) : (t ++ rest).span p = (t, rest) := by
  rw [List.span_eq_takeWhile_dropWhile, List.takeWhile_append_of_pos ht,
    List.dropWhile_append_of_pos ht]
  cases rest with
  | nil => rw [List.takeWhile_nil, List.append_nil, List.dropWhile_nil]
  | cons c rest =>
      have hc : ¬ p c = true := by
        rw [hrest c rfl]
        exact Bool.false_ne_true
      rw [List.takeWhile_cons_of_neg hc, List.append_nil, List.dropWhile_cons_of_neg hc]

/-- A character that cannot be in a run does not let it go on. -/
theorem span_extend {c : Char} (hc : p c = false) (t rest : List Char) :
    (t ++ c :: rest).span p = ((t.span p).1, (t.span p).2 ++ c :: rest) := by
  simp only [List.span_eq_takeWhile_dropWhile]
  induction t with
  | nil => simp [hc]
  | cons d t ih =>
      obtain ⟨htake, hdrop⟩ := Prod.mk.inj ih
      cases hd : p d with
      | false => simp [hd]
      | true => simp [hd, htake, hdrop]

end Span

theorem drop_takeWhile {α : Type} (p : α → Bool) (t : List α) :
    t.drop (t.takeWhile p).length = t.dropWhile p := by
  induction t with
  | nil => rfl
  | cons c t ih =>
      cases hc : p c with
      | true => simp [hc, ih]
      | false => simp [hc]

/-! ### Numbers -/

theorem isDigit_iff {c : Char} : c.isDigit = true ↔ '0' ≤ c ∧ c ≤ '9' := by
  simp [Char.isDigit, Char.le_def]

theorem isHexDigit_of_isDigit {c : Char} (h : c.isDigit = true) : isHexDigit c = true := by
  rw [isHexDigit, hexValue?, if_pos (isDigit_iff.mp h)]
  rfl

theorem isDigit_eq_false {c : Char} (h : isHexDigit c = false) : c.isDigit = false :=
  Bool.eq_false_iff.mpr fun hdigit =>
    Bool.false_ne_true (h.symm.trans (isHexDigit_of_isDigit hdigit))

theorem hexValue?_digitChar {n : Nat} (h : n < 16) : hexValue? (Nat.digitChar n) = some n := by
  have hall : ∀ n < 16, hexValue? (Nat.digitChar n) = some n := by decide
  exact hall n h

section Bounded

variable {base : Nat} (hbase : 0 < base)

include hbase

/-- More digits never write a smaller number. -/
theorem le_foldl_digits (digits : List Char) (n : Nat) :
    n ≤ digits.foldl (fun n c => n * base + (hexValue? c).getD 0) n := by
  induction digits generalizing n with
  | nil => exact Nat.le_refl n
  | cons c digits ih =>
      rw [List.foldl_cons]
      calc n ≤ n * base + (hexValue? c).getD 0 :=
            Nat.le_add_right_of_le (Nat.le_mul_of_pos_right n hbase)
        _ ≤ _ := ih _

/-- A number is computed up to the bound and no further, but below it nothing is lost. -/
theorem boundedValue?_eq {bound : Nat} (hbound : 0 < bound) (digits : List Char) :
    boundedValue? base bound digits =
      if baseValue base digits < bound then some (baseValue base digits) else none := by
  -- Behind a digit that reaches the bound no other digit is read.
  have hafter : ∀ n < bound, digits.foldlM (fun n c =>
        let m := n * base + (hexValue? c).getD 0
        if m < bound then some m else none) n =
      let m := digits.foldl (fun n c => n * base + (hexValue? c).getD 0) n
      if m < bound then some m else none := by
    induction digits with
    | nil => exact fun n hn => (if_pos hn).symm
    | cons c digits ih =>
        intro n _
        rw [List.foldlM_cons, List.foldl_cons]
        dsimp only
        by_cases hc : n * base + (hexValue? c).getD 0 < bound
        · rw [if_pos hc]
          exact ih _ hc
        · have hlast := Nat.le_trans (Nat.le_of_not_lt hc) (le_foldl_digits hbase digits _)
          rw [if_neg hc, if_neg (Nat.not_lt.mpr hlast)]
          rfl
  exact hafter 0 hbound

end Bounded

section Base

variable {base : Nat} (hbase : 1 < base)

include hbase

/-- What holds of every number below the base with its digit, and of every other number if it holds
of the number without its last digit, holds of all numbers with what they are written as. -/
theorem toDigits_induction {P : Nat → List Char → Prop}
    (digit : ∀ n, n < base → P n [Nat.digitChar n])
    (step : ∀ n digits, base ≤ n → P (n / base) digits →
      P n (digits ++ [Nat.digitChar (n % base)])) (n : Nat) : P n (Nat.toDigits base n) := by
  induction n using Nat.strong_induction_on with
  | _ n ih =>
      rw [Nat.toDigits_eq_if hbase]
      split_ifs with hn
      · exact digit n hn
      · have hle := Nat.le_of_not_lt hn
        have hless : n / base < n := Nat.div_lt_self (by omega) hbase
        exact step n _ hle (ih _ hless)

variable (hsixteen : base ≤ 16)

include hsixteen

theorem hexValue?_last (n : Nat) : hexValue? (Nat.digitChar (n % base)) = some (n % base) :=
  hexValue?_digitChar (Nat.lt_of_lt_of_le (Nat.mod_lt n (by omega)) hsixteen)

theorem baseValue_toDigits (n : Nat) : baseValue base (Nat.toDigits base n) = n := by
  refine toDigits_induction (P := fun n t => baseValue base t = n) hbase
    (fun n hn => ?_) (fun n digits _ ih => ?_) n
  · simp [baseValue, hexValue?_digitChar (Nat.lt_of_lt_of_le hn hsixteen)]
  · rw [baseValue] at ih
    rw [baseValue, List.foldl_append, ih]
    simp [hexValue?_last hbase hsixteen, Nat.div_add_mod']

theorem boundedValue?_toDigits {bound n : Nat} (h : n < bound) :
    boundedValue? base bound (Nat.toDigits base n) = some n := by
  rw [boundedValue?_eq (Nat.zero_lt_of_lt hbase) (Nat.zero_lt_of_lt h),
    baseValue_toDigits hbase hsixteen, if_pos h]

theorem isHexDigit_of_mem_toDigits {n : Nat} {c : Char} (h : c ∈ Nat.toDigits base n) :
    isHexDigit c = true := by
  revert h
  refine toDigits_induction (P := fun n t => c ∈ t → isHexDigit c = true) hbase
    (fun n hn h => ?_) (fun n digits _ ih h => ?_) n
  · rw [List.mem_singleton.mp h, isHexDigit,
      hexValue?_digitChar (Nat.lt_of_lt_of_le hn hsixteen)]
    rfl
  · rcases List.mem_append.mp h with h | h
    · exact ih h
    · rw [List.mem_singleton.mp h, isHexDigit, hexValue?_last hbase hsixteen]
      rfl

end Base

section Decimal

variable {n : Nat}

theorem isDigit_of_mem_decimal {c : Char} (h : c ∈ decimal n) : c.isDigit = true :=
  Nat.isDigit_of_mem_toDigits (by decide) (by decide) h

theorem decimal_ne_nil (n : Nat) : decimal n ≠ [] := Nat.toDigits_ne_nil

theorem boundedValue?_decimal {bound : Nat} (h : n < bound) :
    boundedValue? 10 bound (decimal n) = some n :=
  boundedValue?_toDigits (by decide) (by decide) h

/-- No number is written with a zero in front. -/
theorem head?_decimal (h : 0 < n) : (decimal n).head? ≠ some '0' := by
  have hdigit : ∀ n < 10, 0 < n → Nat.digitChar n ≠ '0' := by decide
  obtain ⟨c, digits, hwritten, hc⟩ : ∃ c digits, decimal n = c :: digits ∧ c ≠ '0' := by
    revert h
    refine toDigits_induction (P := fun n t => 0 < n → ∃ c digits, t = c :: digits ∧ c ≠ '0')
      (by decide : 1 < 10) (fun n hn h => ?_) (fun n digits hn ih _ => ?_) n
    · exact ⟨_, [], rfl, hdigit n hn h⟩
    · obtain ⟨c, digits, rfl, hc⟩ := ih (Nat.div_pos hn (by decide))
      exact ⟨c, _, rfl, hc⟩
  rw [hwritten]
  exact fun hhead => hc (Option.some.inj hhead)

theorem leadingDigits_decimal {rest : List Char} (h : ∀ c ∈ rest.head?, c.isDigit = false) :
    leadingDigits (decimal n ++ rest) = (decimal n, rest) :=
  span_append (fun _ hc => isDigit_of_mem_decimal hc) h

end Decimal

end Text

end ServiceDiscovery
