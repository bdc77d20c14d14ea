import Mathlib.Data.List.Perm.Subperm
import Mathlib.Order.Interval.Finset.Nat
import ServiceDiscovery.Proofs.Dialer.Calls
/-!
# Rotation

As many calls for a service as it has endpoints are given each of the endpoints once if and only if
their ranks have different residues modulo that number. Calls that follow one another directly do.
Calls between which other services are asked for need not, since the cursor counts those as well:
a service of two endpoints that is asked for in turn with another one only ever sees the first.
-/

namespace ServiceDiscovery

namespace Dialer

/-! ### Residues -/

/-- Different residues are all the residues if there are enough of them. -/
theorem residues_perm {ranks : List Nat} {n : Nat} (hlength : ranks.length = n)
    (hnodup : (ranks.map (· % n)).Nodup) : (ranks.map (· % n)).Perm (List.range n) := by
  have hsubset : ranks.map (· % n) ⊆ List.range n := by
    intro i hi
    obtain ⟨rank, hrank, rfl⟩ := List.mem_map.mp hi
    have hpos : 0 < n := hlength ▸ List.length_pos_of_mem hrank
    exact List.mem_range.mpr (Nat.mod_lt rank hpos)
  refine (List.subperm_of_subset hnodup hsubset).perm_of_length_le ?_
  rw [List.length_range, List.length_map, hlength]

theorem residues_nodup_range' (rank n : Nat) : ((List.range' rank n).map (· % n)).Nodup := by
  have hmem : ∀ i ∈ List.range' rank n, i ∈ (Finset.Ico rank (rank + n) : Set Nat) := by
    intro i hi
    rw [List.mem_range'_1] at hi
    exact Finset.mem_coe.mpr (Finset.mem_Ico.mpr hi)
  refine List.Nodup.map_on (fun i hi j hj hij => ?_) List.nodup_range'
  exact Nat.mod_injOn_Ico rank n (hmem i hi) (hmem j hj) hij

theorem residues_nodup_of_infix {ranks : List Nat} {start n : Nat}
    (h : ranks <:+: List.range' start n) : (ranks.map (· % ranks.length)).Nodup := by
  obtain ⟨before, later, hranks⟩ := h
  obtain ⟨k, _, hfront, _⟩ := List.range'_eq_append_iff.mp hranks.symm
  obtain ⟨m, _, _, hback⟩ := List.range'_eq_append_iff.mp hfront.symm
  have hlength : ranks.length = k - m := by rw [hback, List.length_range']
  rw [hlength, hback]
  exact residues_nodup_range' _ _

theorem map_getElem?_range {α : Type} (l : List α) :
    (List.range l.length).map (fun i => l[i]?) = l.map some := by
  induction l with
  | nil => rfl
  | cons a rest ih =>
      rw [List.length_cons, List.range_succ_eq_map, List.map_cons, List.map_map, List.map_cons,
        ← ih]
      rfl

/-! ### Turns of calls -/

section Turn

variable {turn : List Call} {endpoints : List Endpoint}
  (hlength : turn.length = endpoints.length)
  (hchoice : ∀ k ∈ turn, k.choice = endpoints[k.rank % endpoints.length]?)

include hlength hchoice

theorem choices_perm_iff (hdistinct : endpoints.Nodup) :
    (turn.map Call.choice).Perm (endpoints.map some) ↔
      (turn.map fun k => k.rank % endpoints.length).Nodup := by
  have hchoices : turn.map Call.choice =
      ((turn.map Call.rank).map (· % endpoints.length)).map fun i => endpoints[i]? := by
    rw [List.map_map, List.map_map]
    exact List.map_congr_left hchoice
  have hresidues : (turn.map fun k => k.rank % endpoints.length) =
      (turn.map Call.rank).map (· % endpoints.length) := by
    rw [List.map_map]
    rfl
  rw [hresidues, hchoices]
  constructor
  · intro hperm
    have hnodup : (endpoints.map some).Nodup := hdistinct.map (Option.some_injective _)
    rw [← hperm.nodup_iff] at hnodup
    exact hnodup.of_map
  · intro hnodup
    rw [← map_getElem?_range]
    exact (residues_perm (by rw [List.length_map, hlength]) hnodup).map _

theorem choices_perm_of_infix (hdistinct : endpoints.Nodup) {start n : Nat}
    (hranks : turn.map Call.rank <:+: List.range' start n) :
    (turn.map Call.choice).Perm (endpoints.map some) := by
  rw [choices_perm_iff hlength hchoice hdistinct]
  have hresidues := residues_nodup_of_infix hranks
  rw [List.length_map, hlength, List.map_map] at hresidues
  exact hresidues

end Turn

theorem answers_perm {turn : List Call} {endpoints : List Endpoint}
    (hanswer : ∀ k ∈ turn, k.answer = k.choice.elim k.address Endpoint.authority)
    (hperm : (turn.map Call.choice).Perm (endpoints.map some)) :
    (turn.map Call.answer).Perm (endpoints.map Endpoint.authority) := by
  have hchosen : turn.map Call.answer =
      (turn.map Call.choice).map fun choice => choice.elim "" Endpoint.authority := by
    rw [List.map_map]
    apply List.map_congr_left
    intro k hk
    obtain ⟨e, _, he⟩ := List.mem_map.mp (hperm.subset (List.mem_map_of_mem hk))
    rw [hanswer k hk, Function.comp_apply, ← he]
    rfl
  have hendpoints : endpoints.map Endpoint.authority =
      (endpoints.map some).map fun choice => choice.elim "" Endpoint.authority := by
    rw [List.map_map]
    rfl
  rw [hchosen, hendpoints]
  exact hperm.map _

/-- **When a turn of calls is fair.** Take as many calls for a service as it has endpoints, made in
a row but for calls for others, while the list stays as it is. They are given every endpoint once,
and answered with its authority, exactly if their ranks have different residues. That is so when no
other call that is given an endpoint falls between them. -/
theorem turn_fair_iff (c : Client) (events : List Event) (service : String)
    (endpoints : List Endpoint) (turn : List Call) (hfew : (calls c events).length < UInt64.size)
    (hturn : turn <:+: (calls c events).filter (·.isFor service))
    (hlength : turn.length = endpoints.length) (hknown : ∀ k ∈ turn, k.choices = endpoints)
    (hdistinct : endpoints.Nodup) :
    ((turn.map Call.choice).Perm (endpoints.map some) ↔
      (turn.map fun k => k.rank % endpoints.length).Nodup) ∧
    ((turn.map Call.choice).Perm (endpoints.map some) →
      (turn.map Call.answer).Perm (endpoints.map Endpoint.authority)) ∧
    (turn <:+: served (calls c events) → (turn.map Call.choice).Perm (endpoints.map some)) := by
  have hcalls : ∀ k ∈ turn, k ∈ calls c events := fun k hk =>
    List.mem_of_mem_filter (hturn.subset hk)
  have hlawful : ∀ k ∈ turn, k.Lawful := fun k hk =>
    lawful_callsFrom rfl c events k (hcalls k hk)
  have hchoice : ∀ k ∈ turn, k.choice = endpoints[k.rank % endpoints.length]? := by
    intro k hk
    have hlt : k.rank < 0 + (calls c events).length :=
      rank_lt_of_mem {} c 0 events k (hcalls k hk)
    rw [Nat.zero_add] at hlt
    rw [(hlawful k hk).1, hknown k hk, Nat.mod_eq_of_lt (hlt.trans hfew)]
  refine ⟨choices_perm_iff hlength hchoice hdistinct, ?_, ?_⟩
  · exact answers_perm fun k hk => (hlawful k hk).2
  · intro hdirect
    have hranks := hdirect.map Call.rank
    rw [calls, ranks_served] at hranks
    exact choices_perm_of_infix hlength hchoice hdistinct hranks

/-- Two calls for a service of two endpoints, with two calls for another one between them. -/
theorem turn_fair_iff_interleaved :
    let endpoints : List Endpoint := [⟨"10.0.0.1", 80, 1⟩, ⟨"10.0.0.2", 80, 1⟩]
    let c := (Client.start "node" {}).run [.set "a" endpoints, .set "b" [⟨"fd00::1", 80, 1⟩]]
    let events := ["a:1", "b:1", "b:1", "a:1"].map Event.resolve
    let turn := (calls c events).filter (·.isFor "a")
    (turn.map Call.answer).Perm (endpoints.map Endpoint.authority) := by
  intro endpoints c events turn
  obtain ⟨hfair, hanswers, _⟩ := turn_fair_iff c events "a" endpoints turn (by decide +kernel)
    List.infix_rfl (by decide +kernel) (by decide +kernel) (by decide +kernel)
  exact hanswers (hfair.mpr (by decide +kernel))

/-- One call for another service between the two, and both are given the same endpoint. -/
theorem turn_unfair_alternating :
    let endpoints : List Endpoint := [⟨"10.0.0.1", 80, 1⟩, ⟨"10.0.0.2", 80, 1⟩]
    let c := (Client.start "node" {}).run [.set "a" endpoints, .set "b" [⟨"10.0.1.1", 80, 1⟩]]
    let events := ["a:1", "b:1", "a:1"].map Event.resolve
    let turn := (calls c events).filter (·.isFor "a")
    (calls c events).length < UInt64.size ∧ turn.length = endpoints.length ∧
      (∀ k ∈ turn, k.choices = endpoints) ∧ endpoints.Nodup ∧
      turn.map Call.answer = ["10.0.0.1:80", "10.0.0.1:80"] ∧
      ¬ (turn.map Call.answer).Perm (endpoints.map Endpoint.authority) := by
  decide +kernel

end Dialer

end ServiceDiscovery
