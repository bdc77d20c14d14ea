import ServiceDiscovery.Cache
/-!
# Reading the cache after a change

An entry is what was last put there, and a change of one entry leaves all the others and the set of
watched services alone.
-/

namespace ServiceDiscovery

namespace Cache

theorem lookup_assign {α : Type} (key other : String) (value : α) (entries : List (String × α)) :
    (assign key value entries).lookup other =
      if other = key then some value else entries.lookup other := by
  induction entries with
  | nil =>
      by_cases h : other = key
      · rw [assign, if_pos h, h, List.lookup_cons_self]
      · rw [assign, if_neg h, List.lookup_cons, beq_eq_false_iff_ne.mpr h]
  | cons entry rest ih =>
      obtain ⟨k, v⟩ := entry
      rw [assign]
      by_cases hk : k = key
      · subst k
        rw [if_pos rfl, List.lookup_cons, List.lookup_cons]
        by_cases h : other = key
        · rw [if_pos h, beq_iff_eq.mpr h]
        · rw [if_neg h, beq_eq_false_iff_ne.mpr h]
      · rw [if_neg hk, List.lookup_cons, List.lookup_cons, ih]
        by_cases h : other = k
        · subst k
          simp only [beq_self_eq_true, if_neg hk]
        · rw [beq_eq_false_iff_ne.mpr h]

theorem get?_set (c : Cache) (service other : String) (endpoints : List Endpoint) :
    (c.set service endpoints).get? other =
      if other = service then some endpoints else c.get? other :=
  lookup_assign service other endpoints c.entries

theorem startWatch_of_mem {c : Cache} {service : String} (h : service ∈ c.watching) :
    c.startWatch service = (false, c) := by
  rw [startWatch, isWatched, if_pos (decide_eq_true h)]

theorem startWatch_of_not_mem {c : Cache} {service : String} (h : service ∉ c.watching) :
    c.startWatch service = (true, { c with watching := c.watching ++ [service] }) := by
  rw [startWatch, isWatched, if_neg (by rw [decide_eq_true_eq]; exact h)]

/-- A mark that is added is there from then on, with those that were there before. -/
theorem isWatched_append (c : Cache) (service other : String) :
    isWatched { c with watching := c.watching ++ [service] } other =
      (c.isWatched other || decide (service = other)) := by
  rw [isWatched, isWatched, ← Bool.decide_or, decide_eq_decide, List.mem_append,
    List.mem_singleton, eq_comm (a := other)]

theorem isWatched_startWatch (c : Cache) (service other : String) :
    (c.startWatch service).2.isWatched other = (c.isWatched other || decide (service = other)) := by
  by_cases h : service ∈ c.watching
  · rw [startWatch_of_mem h]
    by_cases hother : service = other
    · subst hother
      rw [isWatched, decide_eq_true h, Bool.true_or]
    · rw [decide_eq_false hother, Bool.or_false]
  · rw [startWatch_of_not_mem h, isWatched_append]

theorem get?_startWatch (c : Cache) (service other : String) :
    (c.startWatch service).2.get? other = c.get? other := by
  by_cases h : service ∈ c.watching
  · rw [startWatch_of_mem h]
  · rw [startWatch_of_not_mem h]
    rfl

end Cache

end ServiceDiscovery
