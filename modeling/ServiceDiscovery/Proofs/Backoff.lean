import Mathlib.Logic.Function.Iterate
import ServiceDiscovery.Backoff
/-!
# The delays of a backoff

A backoff that starts afresh doubles its first delay until the ceiling is reached, or until the
factor no longer fits its word: from there on the ceiling is the delay. Under a ceiling that is a
duration the products that are too long are all beyond it, so only the width of the factor shows.
-/

namespace ServiceDiscovery.Backoff

theorem skip_eq (n : Nat) (b : Backoff) : (skip n b).1 = (advance^[n] b).delay := by
  induction n generalizing b with
  | zero => rfl
  | succ n ih => rw [skip, ih, Function.iterate_succ_apply]

/-- The counter of a backoff that has taken `n` delays; it is saturated far beyond the last factor. -/
theorem iterate_advance (n : Nat) (bounds : Bounds) :
    advance^[n] { bounds } = { bounds, attempt := min n lastAttempt } := by
  induction n with
  | zero => rfl
  | succ n ih =>
      rw [Function.iterate_succ_apply', ih, advance]
      congr 1
      change min (min n lastAttempt + 1) lastAttempt = _
      omega

theorem reset_iterate_advance (n : Nat) (bounds : Bounds) :
    (advance^[n] { bounds }).reset = { bounds } := by
  rw [iterate_advance, reset]

section Bounds

variable {bounds : Bounds}

theorem delay_nanos (hceiling : bounds.ceiling.nanos ≤ Duration.limit) (attempt : Nat) :
    ({ bounds, attempt : Backoff }).delay.nanos =
      if attempt < 32 then min (bounds.initial.nanos * Nat.pow 2 attempt) bounds.ceiling.nanos
      else bounds.ceiling.nanos := by
  by_cases hfits : attempt < 32
  · have hfactor : factor? attempt = some (Nat.pow 2 attempt) := if_pos hfits
    rw [if_pos hfits, delay, hfactor, Option.bind_some, Duration.times?]
    by_cases hlength : bounds.initial.nanos * Nat.pow 2 attempt < Duration.limit
    · rw [if_pos hlength]
      rfl
    · rw [if_neg hlength]
      exact (Nat.min_eq_right (Nat.le_trans hceiling (Nat.le_of_not_lt hlength))).symm
  · have hfactor : factor? attempt = none := if_neg hfits
    rw [if_neg hfits, delay, hfactor]
    rfl

theorem skip_nanos (hceiling : bounds.ceiling.nanos ≤ Duration.limit) (n : Nat) :
    (skip n { bounds }).1.nanos =
      if n < 32 then min (bounds.initial.nanos * Nat.pow 2 n) bounds.ceiling.nanos
      else bounds.ceiling.nanos := by
  have hsaturated : 32 ≤ lastAttempt := by decide
  rw [skip_eq, iterate_advance, delay_nanos hceiling]
  by_cases hfits : n < 32
  · rw [Nat.min_eq_left (Nat.le_trans (Nat.le_of_lt hfits) hsaturated)]
  · rw [if_neg hfits, if_neg (by omega)]

theorem skip_le_ceiling (hceiling : bounds.ceiling.nanos ≤ Duration.limit) (n : Nat) :
    (skip n { bounds }).1.nanos ≤ bounds.ceiling.nanos := by
  rw [skip_nanos hceiling]
  split
  · exact Nat.min_le_right _ _
  · exact Nat.le_refl _

theorem skip_le_succ (hceiling : bounds.ceiling.nanos ≤ Duration.limit) (n : Nat) :
    (skip n { bounds }).1.nanos ≤ (skip (n + 1) { bounds }).1.nanos := by
  rw [skip_nanos hceiling (n + 1)]
  split
  case isTrue hfits =>
    have hdouble : Nat.pow 2 n ≤ Nat.pow 2 (n + 1) := Nat.pow_le_pow_right (by decide) (by omega)
    have hproduct := Nat.mul_le_mul_left bounds.initial.nanos hdouble
    rw [skip_nanos hceiling, if_pos (by omega)]
    omega
  case isFalse => exact skip_le_ceiling hceiling n

section Ordered

variable (hceiling : bounds.ceiling.nanos ≤ Duration.limit)
  (hordered : bounds.initial.nanos ≤ bounds.ceiling.nanos)

include hceiling hordered

theorem skip_zero : (skip 0 { bounds }).1 = bounds.initial := by
  have hnanos : (skip 0 { bounds }).1.nanos = bounds.initial.nanos := by
    rw [skip_nanos hceiling, if_pos (by decide)]
    change min (bounds.initial.nanos * 1) _ = _
    rw [Nat.mul_one, Nat.min_eq_left hordered]
  exact congrArg Duration.mk hnanos

theorem initial_le_skip (n : Nat) : bounds.initial.nanos ≤ (skip n { bounds }).1.nanos := by
  induction n with
  | zero => exact Nat.le_of_eq (congrArg Duration.nanos (skip_zero hceiling hordered).symm)
  | succ n ih => exact Nat.le_trans ih (skip_le_succ hceiling n)

end Ordered

end Bounds

end ServiceDiscovery.Backoff
