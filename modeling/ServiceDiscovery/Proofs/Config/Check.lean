import ServiceDiscovery.Config.Load
import ServiceDiscovery.Proofs.Except
/-!
# What a loaded configuration has passed

The check is the last step of loading and changes nothing, so whatever can be loaded has passed it,
wherever its settings came from.
-/

namespace ServiceDiscovery

namespace Config

/-- What the check asks of a configuration. -/
structure Valid (c : Config) : Prop where
  identified : c.nodeId.isEmpty = false
  initial_pos : 0 < c.backoffInitialMs.toNat
  ordered : c.backoffInitialMs.toNat ≤ c.backoffMaxMs.toNat

theorem check_eq_ok_iff {c d : Config} : c.check = .ok d ↔ c = d ∧ c.Valid := by
  rw [check]
  by_cases hid : c.nodeId.isEmpty = true
  · rw [if_pos hid]
    exact ⟨nofun, fun h => absurd (h.2.identified.symm.trans hid) Bool.noConfusion⟩
  · rw [if_neg hid]
    by_cases hzero : c.backoffInitialMs = 0
    · rw [if_pos hzero]
      refine ⟨nofun, fun h => ?_⟩
      have hpos := h.2.initial_pos
      rw [hzero] at hpos
      exact absurd hpos (by decide)
    · rw [if_neg hzero]
      by_cases hreversed : c.backoffMaxMs < c.backoffInitialMs
      · rw [if_pos hreversed]
        refine ⟨nofun, fun h => absurd h.2.ordered ?_⟩
        exact Nat.not_le_of_lt (UInt64.lt_iff_toNat_lt.mp hreversed)
      · rw [if_neg hreversed]
        have hvalid : c.Valid :=
          ⟨Bool.eq_false_iff.mpr hid,
            Nat.pos_of_ne_zero fun h => hzero (UInt64.toNat_inj.mp (h.trans UInt64.toNat_zero.symm)),
            Nat.le_of_not_lt fun h => hreversed (UInt64.lt_iff_toNat_lt.mpr h)⟩
        exact ⟨fun h => ⟨Except.ok.inj h, hvalid⟩, fun h => congrArg Except.ok h.1⟩

/-- The last two steps of loading. -/
theorem exists_of_load {s : Surroundings} {c : Config} (h : load s = .ok c) :
    (∃ d : Config, d.withBindIp = .ok c) ∧ c.Valid := by
  obtain ⟨layers, -, h⟩ := exists_of_bind h
  obtain ⟨extracted, -, h⟩ := exists_of_bind h
  obtain ⟨identified, -, h⟩ := exists_of_bind h
  obtain ⟨moved, hmoved, h⟩ := exists_of_bind h
  obtain ⟨rfl, hvalid⟩ := check_eq_ok_iff.mp h
  exact ⟨⟨identified, hmoved⟩, hvalid⟩

theorem valid_of_load {s : Surroundings} {c : Config} (h : load s = .ok c) : c.Valid :=
  (exists_of_load h).2

/-! ### The bounds of its delays -/

section Bounds

variable {c : Config}

theorem ceiling_le_limit (c : Config) : c.bounds.ceiling.nanos ≤ Duration.limit := by
  have hword : c.backoffMaxMs.toNat < UInt64.size := c.backoffMaxMs.toNat_lt
  have hscale : Duration.nanosPerMilli ≤ Duration.nanosPerSecond := by decide
  exact Nat.mul_le_mul (Nat.le_of_lt hword) hscale

theorem Valid.initial_le_ceiling (h : c.Valid) :
    c.bounds.initial.nanos ≤ c.bounds.ceiling.nanos :=
  Nat.mul_le_mul_right _ h.ordered

theorem Valid.bounds_pos (h : c.Valid) : 0 < c.bounds.initial.nanos :=
  Nat.mul_pos h.initial_pos (by decide)

end Bounds

end Config

end ServiceDiscovery
