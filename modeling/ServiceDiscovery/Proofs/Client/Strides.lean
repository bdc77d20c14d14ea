import ServiceDiscovery.Proofs.Client.Course
import ServiceDiscovery.Proofs.Watch.Pauses
/-!
# Courses told by laps

What happened to the watch of a service in a course of its client is told by the laps of the watch.
As long as there is no watch there are none, and from then on they belong to one watch alone, since
nothing replaces it.
-/

namespace ServiceDiscovery

namespace Client

open Watch (Lap Measured Paced pauses trace)

/-- A course so far, told by the laps of the watch of a service, the newest one first. -/
structure Strides (bounds : Backoff.Bounds) (service : String) (c : Client) (laps : List Lap) :
    Prop where
  bounds_eq : c.bounds = bounds
  unwatched : c.watchOf? service = none → laps = []
  paced : ∀ w, c.watchOf? service = some w → Paced bounds c.cancelled w laps

theorem strides_start (identity : String) (bounds : Backoff.Bounds) (service : String) :
    Strides bounds service (start identity bounds) [] := ⟨rfl, fun _ => rfl, nofun⟩

section Step

variable {bounds : Backoff.Bounds} {service : String} {c : Client} {laps : List Lap}

theorem Strides.step (h : Strides bounds service c laps) (e : Event) :
    Strides bounds service (c.step e).2 ((c.turnsAt service e).foldl trace laps) := by
  have hbounds : (c.step e).2.bounds = bounds := (c.bounds_step e).trans h.bounds_eq
  cases hw : c.watchOf? service with
  | none =>
      rw [turnsAt_of_none e hw, h.unwatched hw]
      refine ⟨hbounds, fun _ => rfl, fun w hnew => ?_⟩
      rcases watchOf?_step_of_none e hw with hnone | hfresh
      · rw [hnone] at hnew
        cases hnew
      · rw [hfresh] at hnew
        cases hnew
        rw [freshWatch, h.bounds_eq]
        exact ⟨.starting, trivial, fun _ hlap => by cases hlap⟩
  | some w =>
      have hnext := watchOf?_step e hw
      refine ⟨hbounds, fun hnone => ?_, fun v hv => ?_⟩
      · rw [hnext] at hnone
        cases hnone
      · rw [hnext] at hv
        cases hv
        rw [switch_step, turnsAt_of_some e hw]
        have hpaced := h.paced w hw
        rcases c.inputsOf_cases service e with hinputs | ⟨σ, rfl, hinputs⟩
        · rw [hinputs]
          cases e with
          | cancel => exact hpaced.cancel
          | _ => exact hpaced
        · have hbefore : Paced bounds (c.input σ).cancelled w laps := hpaced
          rw [hinputs]
          exact hbefore.step (w.move_turn (c.input σ))

theorem Strides.slept_step (h : Strides bounds service c laps) (e : Event) :
    ((c.turnsAt service e).foldl trace laps).filterMap Lap.slept =
      (pauses (c.turnsAt service e)).reverse ++ laps.filterMap Lap.slept := by
  cases hw : c.watchOf? service with
  | none =>
      rw [turnsAt_of_none e hw]
      rfl
  | some w =>
      rcases c.inputsOf_cases service e with hinputs | ⟨σ, rfl, -⟩
      · rw [turnsAt_of_no_input hinputs]
        rfl
      · have hbefore : Paced bounds (c.input σ).cancelled w laps := h.paced w hw
        rw [turnsAt_signal σ hw, List.foldl_cons, List.foldl_nil,
          hbefore.slept_step (w.move_turn (c.input σ)), pauses]
        cases hslept : (w.turn (c.input σ)).slept with
        | none => rw [List.filterMap_cons_none hslept]; rfl
        | some d => rw [List.filterMap_cons_some hslept]; rfl

theorem Strides.run (h : Strides bounds service c laps) (events : List Event) :
    Strides bounds service (c.run events) ((c.turnsOf service events).foldl trace laps) := by
  induction events generalizing c laps with
  | nil => exact h
  | cons e rest ih =>
      rw [turnsOf, List.foldl_append]
      exact ih (h.step e)

theorem Strides.slept_run (h : Strides bounds service c laps) (events : List Event) :
    ((c.turnsOf service events).foldl trace laps).filterMap Lap.slept =
      (pauses (c.turnsOf service events)).reverse ++ laps.filterMap Lap.slept := by
  induction events generalizing c laps with
  | nil => rfl
  | cons e rest ih =>
      rw [turnsOf, List.foldl_append, ih (h.step e), h.slept_step, Watch.pauses_append,
        List.reverse_append, List.append_assoc]

theorem Strides.measured (h : Strides bounds service c laps) : Measured bounds laps := by
  cases hw : c.watchOf? service with
  | none =>
      rw [h.unwatched hw]
      trivial
  | some w => exact (h.paced w hw).measured

end Step

end Client

end ServiceDiscovery
