import ServiceDiscovery.Proofs.Backoff
import ServiceDiscovery.Proofs.Config.Check
/-!
# Where delays stop doubling

A retry loop takes delays and resets its backoff. Each delay that it takes is decided by its rank,
the number of delays taken before it since the last reset. In unbounded arithmetic that would be the
first delay doubled as often as the rank says, or the ceiling if that is less; and so it is while the
factor fits its word. From rank 32 on the ceiling is the delay, which is the same only if doubling
has reached it by then.
-/

namespace ServiceDiscovery

namespace Backoff

/-- What a retry loop does with its backoff. -/
inductive Use where
  | take
  | reset
  deriving DecidableEq, Repr

/-- The delays that a loop is given. -/
def taken (b : Backoff) : List Use → List Duration
  | [] => []
  | .take :: rest => b.next.1 :: taken b.next.2 rest
  | .reset :: rest => taken b.reset rest

/-- The ranks of the delays that are taken, if `n` of them lie behind. -/
def ranks (n : Nat) : List Use → List Nat
  | [] => []
  | .take :: rest => n :: ranks (n + 1) rest
  | .reset :: rest => ranks 0 rest

/-- The first delay doubled `n` times, or the ceiling if that is less. -/
def Bounds.doubled (bounds : Bounds) (n : Nat) : Duration :=
  (Duration.mk (bounds.initial.nanos * Nat.pow 2 n)).least bounds.ceiling

theorem taken_iterate_advance (bounds : Bounds) (n : Nat) (uses : List Use) :
    (advance^[n] { bounds }).taken uses = (ranks n uses).map fun k => (skip k { bounds }).1 := by
  induction uses generalizing n with
  | nil => rfl
  | cons use rest ih =>
      cases use with
      | take =>
          have hnext : (advance^[n] { bounds }).next.2 = advance^[n + 1] { bounds } :=
            (Function.iterate_succ_apply' advance n _).symm
          rw [taken, ranks, List.map_cons, hnext, ih (n + 1), skip_eq n]
          rfl
      | reset =>
          rw [taken, ranks, reset_iterate_advance]
          exact ih 0

section Bounds

variable {bounds : Bounds} (hceiling : bounds.ceiling.nanos ≤ Duration.limit)

include hceiling

theorem skip_eq_ite (n : Nat) :
    (skip n { bounds }).1 = if n < 32 then bounds.doubled n else bounds.ceiling := by
  have hnanos := skip_nanos hceiling n
  split
  case isTrue hfits =>
    rw [if_pos hfits] at hnanos
    exact congrArg Duration.mk hnanos
  case isFalse hfits =>
    rw [if_neg hfits] at hnanos
    exact congrArg Duration.mk hnanos

theorem skip_eq_doubled_iff (n : Nat) :
    (skip n { bounds }).1 = bounds.doubled n ↔
      n < 32 ∨ bounds.ceiling.nanos ≤ bounds.initial.nanos * Nat.pow 2 n := by
  rw [skip_eq_ite hceiling]
  by_cases hfits : n < 32
  · rw [if_pos hfits]
    exact ⟨fun _ => .inl hfits, fun _ => rfl⟩
  · rw [if_neg hfits, or_iff_right hfits]
    constructor
    · intro h
      rw [h]
      exact Nat.min_le_left _ _
    · intro h
      exact congrArg Duration.mk (Nat.min_eq_right h).symm

end Bounds

/-- Multiples of milliseconds compare as the milliseconds do. -/
theorem ceiling_le_doubled_iff (c : Config) (n : Nat) :
    c.bounds.ceiling.nanos ≤ c.bounds.initial.nanos * Nat.pow 2 n ↔
      c.backoffMaxMs.toNat ≤ c.backoffInitialMs.toNat * Nat.pow 2 n := by
  have hinitial : c.bounds.initial.nanos * Nat.pow 2 n =
      c.backoffInitialMs.toNat * Nat.pow 2 n * Duration.nanosPerMilli :=
    Nat.mul_right_comm _ _ _
  rw [hinitial]
  exact Nat.mul_le_mul_right_iff (by decide)

/-- **When the delays double up to the ceiling.** A loop with configured bounds is given, at every
rank below 32, the first delay doubled that often or the ceiling if that is less, and from there on
the ceiling. So its delays are those of unbounded arithmetic exactly if doubling has reached the
ceiling at each rank from 32 on that the loop comes to; and those of all loops are, exactly if it has
at rank 32. -/
theorem doubles_up_to_ceiling_iff (c : Config) :
    let b : Backoff := { bounds := c.bounds }
    (∀ uses, b.taken uses =
      (ranks 0 uses).map fun n => if n < 32 then c.bounds.doubled n else c.bounds.ceiling) ∧
    (∀ uses, b.taken uses = (ranks 0 uses).map c.bounds.doubled ↔
      ∀ n ∈ ranks 0 uses,
        n < 32 ∨ c.backoffMaxMs.toNat ≤ c.backoffInitialMs.toNat * Nat.pow 2 n) ∧
    ((∀ uses, b.taken uses = (ranks 0 uses).map c.bounds.doubled) ↔
      c.backoffMaxMs.toNat ≤ c.backoffInitialMs.toNat * Nat.pow 2 32) := by
  intro b
  have hceiling := c.ceiling_le_limit
  have htaken : ∀ uses, b.taken uses = (ranks 0 uses).map fun n => (skip n b).1 :=
    taken_iterate_advance c.bounds 0
  have hdoubled : ∀ uses, b.taken uses = (ranks 0 uses).map c.bounds.doubled ↔
      ∀ n ∈ ranks 0 uses,
        n < 32 ∨ c.backoffMaxMs.toNat ≤ c.backoffInitialMs.toNat * Nat.pow 2 n := by
    intro uses
    rw [htaken uses, List.map_inj_left]
    simp only [b, skip_eq_doubled_iff hceiling, ceiling_le_doubled_iff]
  refine ⟨fun uses => ?_, hdoubled, ?_, ?_⟩
  · rw [htaken uses]
    exact List.map_congr_left fun n _ => skip_eq_ite hceiling n
  · intro h
    have hlast : 32 ∈ ranks 0 (List.replicate 33 .take) := by decide
    exact ((hdoubled _).mp (h _) 32 hlast).resolve_left (by decide)
  · intro h uses
    refine (hdoubled uses).mpr fun n _ => ?_
    by_cases hfits : n < 32
    · exact .inl hfits
    · have hpower : Nat.pow 2 32 ≤ Nat.pow 2 n :=
        Nat.pow_le_pow_right (by decide) (Nat.le_of_not_lt hfits)
      exact .inr (Nat.le_trans h (Nat.mul_le_mul_left _ hpower))

/-- A first delay of one millisecond under a ceiling of 2^33: the delay of rank 32 should be half the
ceiling, and is the ceiling. -/
theorem ceiling_before_doubled :
    let s : Surroundings :=
      { environment := [("MESHGLUE_BACKOFF_INITIAL_MS", "1"),
          ("MESHGLUE_BACKOFF_MAX_MS", "8589934592")] }
    let c : Config := { backoffInitialMs := 1, backoffMaxMs := 8589934592 }
    let b : Backoff := { bounds := c.bounds }
    let uses := List.replicate 33 Use.take
    Config.load s = .ok c ∧
      (b.taken uses).getLast? = some (.ofMillis 8589934592) ∧
      ((ranks 0 uses).map c.bounds.doubled).getLast? = some (.ofMillis 4294967296) ∧
      b.taken uses ≠ (ranks 0 uses).map c.bounds.doubled := by
  intro s c b uses
  exact ⟨eq_ok_of_toOption (by decide +kernel), by decide +kernel, by decide +kernel,
    by decide +kernel⟩

end Backoff

end ServiceDiscovery
