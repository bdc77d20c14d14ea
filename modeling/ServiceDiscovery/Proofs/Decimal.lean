import Mathlib.Data.Nat.Digits.Defs
import Mathlib.Tactic.NormNum
import ServiceDiscovery.Decimal.Style
/-!
# Written decimals are short

The search for the shortest decimal goes to a finer grid only if the interval holds no point of the
one before, and then the interval is no wider than one step of that grid. So on the grid where the
search ends, the number is at most a few steps of it for every unit of its mantissa, which leaves it
eighteen digits. Together with the rule for exponents this bounds the length of the text.
-/

namespace ServiceDiscovery

namespace Decimal

theorem power_pos {base : Nat} (h : 0 < base) (e : Int) : 0 < power base e := Nat.pow_pos h

theorem power_mono {base : Nat} (h : 0 < base) {e f : Int} (hle : e ≤ f) :
    power base e ≤ power base f := Nat.pow_le_pow_right h (Int.toNat_le_toNat hle)

namespace Interval

/-- The middle lies inside the interval, which is at least three quarters wide. -/
structure Wide (i : Interval) : Prop where
  width : i.low + 3 ≤ i.high
  low_lt : i.low < i.middle
  lt_high : i.middle < i.high

/-- A step of the grid is not much smaller than a quarter. -/
def Coarse (i : Interval) (e : Int) : Prop := 3 * (i.weights e).1 ≤ 10 * (i.weights e).2

theorem bound_pos (i : Interval) (e : Int) : 0 < (i.weights e).1 :=
  Nat.mul_pos (power_pos (by decide) _) (power_pos (by decide) _)

theorem grid_pos (i : Interval) (e : Int) : 0 < (i.weights e).2 :=
  Nat.mul_pos (power_pos (by decide) _) (power_pos (by decide) _)

/-- A step to a finer grid multiplies the bounds by ten, or it divides the points. -/
theorem weights_finer (i : Interval) (e : Int) :
    (i.weights (e - 1)).1 = 10 * (i.weights e).1 ∧ (i.weights (e - 1)).2 = (i.weights e).2 ∨
      (i.weights (e - 1)).1 = (i.weights e).1 ∧ (i.weights e).2 = 10 * (i.weights (e - 1)).2 := by
  rcases Int.lt_or_le 0 e with hpos | hle
  · right
    have hbound : (-(e - 1)).toNat = (-e).toNat := by omega
    have hgrid : e.toNat = (e - 1).toNat + 1 := by omega
    simp only [weights, power, hbound, hgrid, Nat.pow_eq, Nat.pow_succ, true_and]
    ring
  · left
    have hbound : (-(e - 1)).toNat = (-e).toNat + 1 := by omega
    have hgrid : (e - 1).toNat = e.toNat := by omega
    simp only [weights, power, hbound, hgrid, Nat.pow_eq, Nat.pow_succ, and_true]
    ring

theorem lt_of_contains_eq_false {i : Interval} {e : Int} {point : Nat}
    (h : i.contains e point = false) :
    point * (i.weights e).2 ≤ i.low * (i.weights e).1 ∨
      i.high * (i.weights e).1 ≤ point * (i.weights e).2 := by
  simp only [contains] at h
  split_ifs at h
  · simp only [Bool.and_eq_false_iff, decide_eq_false_iff_not] at h
    omega
  · simp only [Bool.and_eq_false_iff, decide_eq_false_iff_not] at h
    omega

/-- An interval without a point of the grid is no wider than a step. -/
theorem bound_le_of_pick?_eq_none {i : Interval} {tie : Tie} {e : Int} (hwide : i.Wide)
    (h : i.pick? tie e = none) : 3 * (i.weights e).1 ≤ (i.weights e).2 := by
  have hbound := i.bound_pos e
  have hdiv := Nat.div_add_mod' (i.middle * (i.weights e).1) (i.weights e).2
  have hmod := Nat.mod_lt (i.middle * (i.weights e).1) (i.grid_pos e)
  have hwidth := Nat.mul_le_mul_right (i.weights e).1 hwide.width
  have hlow := Nat.mul_lt_mul_of_pos_right hwide.low_lt hbound
  have hhigh := Nat.mul_lt_mul_of_pos_right hwide.lt_high hbound
  simp only [pick?] at h
  split at h
  · cases h
  · cases h
  · cases h
  · next hbelow habove =>
      have hbelow := lt_of_contains_eq_false hbelow
      have habove := lt_of_contains_eq_false habove
      rw [Nat.add_mul, Nat.one_mul] at habove
      rw [Nat.add_mul] at hwidth
      omega

theorem coarse_finer {i : Interval} {e : Int} (h : 3 * (i.weights e).1 ≤ (i.weights e).2) :
    i.Coarse (e - 1) := by
  have hgrid := i.grid_pos (e - 1)
  rw [Coarse]
  rcases i.weights_finer e with ⟨hbound, hstep⟩ | ⟨hbound, hstep⟩ <;> omega

/-- A point that is picked is one of the two next to the middle. -/
theorem le_of_pick?_eq_some {i : Interval} {tie : Tie} {e : Int} {point : Nat}
    (h : i.pick? tie e = some point) :
    point ≤ i.middle * (i.weights e).1 / (i.weights e).2 + 1 := by
  simp only [pick?] at h
  split at h
  · split_ifs at h
    · cases h
      exact Nat.le_succ _
    · cases h
      exact Nat.le_refl _
  · cases h
    exact Nat.le_succ _
  · cases h
    exact Nat.le_refl _
  · cases h

theorem point_le {i : Interval} {tie : Tie} {e : Int} {point : Nat} (hcoarse : i.Coarse e)
    (h : i.pick? tie e = some point) : 3 * point ≤ 10 * i.middle + 3 := by
  have hgrid := i.grid_pos e
  have hdiv : i.middle * (i.weights e).1 / (i.weights e).2 * 3 ≤ 10 * i.middle := by
    apply Nat.le_of_mul_le_mul_right _ hgrid
    have hquotient := Nat.div_mul_le_self (i.middle * (i.weights e).1) (i.weights e).2
    calc i.middle * (i.weights e).1 / (i.weights e).2 * 3 * (i.weights e).2
        = 3 * (i.middle * (i.weights e).1 / (i.weights e).2 * (i.weights e).2) := by ring
      _ ≤ 3 * (i.middle * (i.weights e).1) := Nat.mul_le_mul_left 3 hquotient
      _ = i.middle * (3 * (i.weights e).1) := by ring
      _ ≤ i.middle * (10 * (i.weights e).2) := Nat.mul_le_mul_left _ hcoarse
      _ = 10 * i.middle * (i.weights e).2 := by ring
  have hle := le_of_pick?_eq_some h
  omega

/-- What the search finds. -/
theorem search_le {i : Interval} (tie : Tie) (hwide : i.Wide) (n : Nat) {e : Int}
    (hcoarse : i.Coarse e) :
    3 * (i.search tie n e).digits ≤ 10 * i.middle + 3 ∧
      e - n ≤ (i.search tie n e).exponent ∧ (i.search tie n e).exponent ≤ e := by
  induction n generalizing e with
  | zero => exact ⟨Nat.zero_le _, Int.sub_le_self e (by decide), Int.le_refl _⟩
  | succ n ih =>
      rw [search]
      split
      · next hpick =>
          refine ⟨point_le hcoarse hpick, ?_, Int.le_refl _⟩
          change e - (n + 1 : Nat) ≤ e
          omega
      · next hpick =>
          obtain ⟨hdigits, hlow, hhigh⟩ := ih (coarse_finer (bound_le_of_pick?_eq_none hwide hpick))
          exact ⟨hdigits, by omega, by omega⟩

theorem wide_ofBinary64 {d : Binary64} (h : d.mantissa ≠ 0) : (ofBinary64 d).Wide := by
  have hpos := Nat.pos_of_ne_zero h
  refine ⟨?_, ?_, Nat.lt_add_of_pos_right (by decide)⟩
  all_goals
    simp only [ofBinary64]
    split_ifs <;> omega

/-- No number reaches the grid on which the search begins. -/
theorem coarse_ofBinary64 (d : Binary64) : (ofBinary64 d).Coarse 310 := by
  have hscale : d.scale - 2 ≤ 970 := by
    have hexponent : d.exponentBits < 2048 := Nat.mod_lt _ (by decide)
    rw [Binary64.scale]
    split_ifs <;> omega
  have hbound : power 2 (d.scale - 2) ≤ power 2 970 := power_mono (by decide) hscale
  have hgrid : power 2 970 ≤ power 10 310 := by decide +kernel
  have hstep : power 10 310 ≤ power 10 310 * power 2 (-(d.scale - 2)) :=
    Nat.le_mul_of_pos_right _ (power_pos (by decide) _)
  have hsmall : power 10 (-310) = 1 := rfl
  simp only [Coarse, weights, ofBinary64, hsmall, Nat.mul_one]
  omega

end Interval

/-- The decimal that is written has at most eighteen digits, and neither a very large nor a very
small exponent. -/
theorem shortest_le (tie : Tie) (d : Binary64) :
    (shortest tie d).digits < 1000000000000000000 ∧
      -350 ≤ (shortest tie d).exponent ∧ (shortest tie d).exponent ≤ 310 := by
  rw [shortest]
  split_ifs with hzero
  · exact ⟨by decide, by decide, by decide⟩
  · have hmantissa : d.mantissa < 2 * Binary64.fractions := by
      have hfraction : d.fractionBits < Binary64.fractions := Nat.mod_lt _ (by decide)
      rw [Binary64.mantissa]
      split_ifs <;> omega
    obtain ⟨hdigits, hlow, hhigh⟩ := Interval.search_le tie (Interval.wide_ofBinary64 hzero) 660
      (Interval.coarse_ofBinary64 d)
    have hmiddle : (Interval.ofBinary64 d).middle = 4 * d.mantissa := rfl
    have hfractions : Binary64.fractions = 4503599627370496 := rfl
    refine ⟨?_, by omega, by omega⟩
    omega

/-! ### Lengths -/

theorem length_writeExponent_le {e : Int} (hlow : -999 ≤ e) (hhigh : e ≤ 999) :
    (writeExponent e).length ≤ 5 := by
  have hsmall : e.natAbs < 1000 := by omega
  have hdigits := Nat.toDigits_length 10 e.natAbs 3 (by decide) hsmall
  rw [writeExponent, List.length_cons, List.length_cons]
  omega

theorem length_writeScientific_le (digits : List Char) {leading : Int} (hlow : -999 ≤ leading)
    (hhigh : leading ≤ 999) : (writeScientific digits leading).length ≤ digits.length + 6 := by
  have hexponent := length_writeExponent_le hlow hhigh
  unfold writeScientific
  split
  · exact Nat.zero_le _
  · rw [List.length_cons, List.length_singleton]
    omega
  · rw [List.length_cons, List.cons_append, List.length_cons, List.length_append, List.length_cons]
    omega

theorem length_writePositional_le (style : Style) (digits : List Char) (exponent : Int) :
    (writePositional style digits exponent).length ≤ digits.length + exponent.natAbs + 2 := by
  cases exponent with
  | ofNat n =>
      have hmark : (if style.marksWhole then ['.', '0'] else []).length ≤ 2 := by
        split_ifs <;> decide
      rw [writePositional, List.length_append, List.length_append, zeros, List.length_replicate]
      change _ ≤ digits.length + n + 2
      omega
  | negSucc n =>
      change _ ≤ digits.length + (n + 1) + 2
      rw [writePositional]
      simp only [List.length_append, List.length_cons, List.length_take, List.length_drop, zeros,
        List.length_replicate]
      omega

theorem length_write_le {d : Decimal} (hdigits : d.digits < 1000000000000000000)
    (hlow : -350 ≤ d.exponent) (hhigh : d.exponent ≤ 310) : (d.write .data).length ≤ 42 := by
  have hlength := Nat.toDigits_length 10 d.digits 18 (by decide) hdigits
  have hpos : 0 < (Nat.toDigits 10 d.digits).length := Nat.length_toDigits_pos
  by_cases hpositional :
      Style.data.isPositional (d.exponent + (Nat.toDigits 10 d.digits).length - 1) = true
  · have hwrite : d.write .data = writePositional .data (Nat.toDigits 10 d.digits) d.exponent :=
      if_pos hpositional
    have hleading := of_decide_eq_true hpositional
    have hle := length_writePositional_le .data (Nat.toDigits 10 d.digits) d.exponent
    rw [hwrite]
    omega
  · have hwrite : d.write .data = writeScientific (Nat.toDigits 10 d.digits)
        (d.exponent + (Nat.toDigits 10 d.digits).length - 1) := if_neg hpositional
    rw [hwrite]
    exact Nat.le_trans (length_writeScientific_le _ (by omega) (by omega)) (by omega)

end Decimal

/-- **Written numbers are short.** -/
theorem Binary64.length_write_le (d : Binary64) : (d.write .data).length ≤ 43 := by
  obtain ⟨hdigits, hlow, hhigh⟩ := Decimal.shortest_le .even d
  have hdecimal := Decimal.length_write_le hdigits hlow hhigh
  have hsign : (if d.isNegative then ['-'] else []).length ≤ 1 := by split_ifs <;> decide
  rw [write]
  by_cases hnan : d.isNaN = true
  · rw [if_pos hnan]
    decide
  · rw [if_neg hnan, List.length_append]
    by_cases hinfinite : d.isInfinite = true
    · have hinf : "inf".toList.length = 3 := rfl
      rw [if_pos hinfinite, hinf]
      omega
    · rw [if_neg hinfinite]
      change _ + ((Decimal.shortest .even d).write .data).length ≤ 43
      omega

end ServiceDiscovery
