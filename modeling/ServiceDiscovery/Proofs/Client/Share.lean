import ServiceDiscovery.Proofs.Client.Writes
import ServiceDiscovery.Proofs.Watch.Drift
/-!
# The share of a service

Of all that happens to a client each service has its share: the calls that name it, the results that
its watch has been waiting for, and the cancellation of the client. Nothing else shows anything of
the service, and it leaves the service's part of the client as it is, if a watch is known up to what
it does by itself. An event of the share does the same in all clients that agree on that part.
-/

namespace ServiceDiscovery

namespace Client

open Watch (Turn)

def concerns (c : Client) (service : String) (e : Event) : Bool :=
  match e with
  | .get s | .watch s | .set s _ | .startWatch s => s = service
  | .cancel => true
  | .pass _ => false
  | .signal _ _ => (c.turnsAt service e).any Turn.settles

/-- The share of a service in a course, with the times. -/
def share (c : Client) (service : String) : List Event → List (Duration × Event)
  | [] => []
  | e :: rest =>
    if c.concerns service e then (c.now, e) :: share (c.step e).2 service rest
    else share (c.step e).2 service rest

/-- The times of the events that concern a service, in the places of these events. -/
def concernedAt (c : Client) (service : String) : List Event → List (Option Duration)
  | [] => []
  | e :: rest =>
    (if c.concerns service e then some c.now else none) :: concernedAt (c.step e).2 service rest

theorem share_eq (c : Client) (service : String) (events : List Event) :
    c.share service events = ((c.concernedAt service events).zip events).filterMap fun p =>
      p.1.map fun time => (time, p.2) := by
  induction events generalizing c with
  | nil => rfl
  | cons e rest ih =>
      rw [share, concernedAt, List.zip_cons_cons, List.filterMap_cons, ih]
      cases c.concerns service e <;> rfl

/-! ### What is seen of a service -/

inductive Sighting where
  | request (r : Request)
  | answer (answer : Except Failure (List Endpoint))
  /-- The entry has become another one. -/
  | entry (endpoints : Option (List Endpoint))
  /-- The mark has become another one. -/
  | mark (watched : Bool)

/-- The answers to queries for a service. -/
def answersAt (c : Client) (service : String) : Event → List (Except Failure (List Endpoint))
  | .get s => if s = service then [(c.getEndpoints s).1] else []
  | _ => []

def change {α : Type} [DecidableEq α] (before after : α) : List α :=
  if after = before then [] else [after]

def sightingsAt (c : Client) (service : String) (e : Event) : List Sighting :=
  ((c.turnsAt service e).flatMap Turn.requests).map Sighting.request ++
  (c.answersAt service e).map Sighting.answer ++
  (change (c.cache.get? service) ((c.step e).2.cache.get? service)).map Sighting.entry ++
  (change (c.cache.isWatched service) ((c.step e).2.cache.isWatched service)).map Sighting.mark

/-- All that is seen of a service in a course, in order and with the times. -/
def sightings (c : Client) (service : String) : List Event → List (Duration × Sighting)
  | [] => []
  | e :: rest =>
    (c.sightingsAt service e).map (Prod.mk c.now) ++ sightings (c.step e).2 service rest

/-- The part of a client that a service depends on. -/
structure View where
  identity : String
  bounds : Backoff.Bounds
  cancelled : Bool
  entry : Option (List Endpoint)
  watched : Bool
  watch : Option Watch

def view (c : Client) (service : String) : View where
  identity := c.identity
  bounds := c.bounds
  cancelled := c.cancelled
  entry := c.cache.get? service
  watched := c.cache.isWatched service
  watch := (c.watchOf? service).map (Watch.drift c.cancelled)

theorem change_self {α : Type} [DecidableEq α] (a : α) : change a a = [] := if_pos rfl

theorem watchOf?_step_of_no_input {c : Client} {service : String} {e : Event}
    (h : c.inputsOf service e = []) :
    (c.step e).2.watchOf? service = (c.watchOf? service).or
      (if c.launches service e then some (c.freshWatch service) else none) := by
  cases hw : c.watchOf? service with
  | none => rw [watchOf?_step_launch e hw, Option.none_or]
  | some w => rw [watchOf?_step e hw, h, Watch.after_nil, Option.some_or]

theorem view_step (c : Client) (service : String) (e : Event) :
    (c.step e).2.view service =
      { identity := c.identity
        bounds := c.bounds
        cancelled := e.switch c.cancelled
        entry := (c.writesOf service e).getLast?.or (c.cache.get? service)
        watched := c.cache.isWatched service || c.marks service e
        watch := ((c.step e).2.watchOf? service).map (Watch.drift (e.switch c.cancelled)) } := by
  rw [view, identity_step, bounds_step, switch_step, get?_step, isWatched_step]

/-! ### Events of other shares -/

section Quiet

variable {c : Client} {service : String} {e : Event}

theorem call_of_quiet (h : c.concerns service e = false) :
    direct service e = [] ∧ c.answersAt service e = [] ∧ c.marks service e = false ∧
      c.launches service e = false ∧ e.switch c.cancelled = c.cancelled := by
  cases e with
  | get s =>
      have hs : decide (s = service) = false := h
      rw [answersAt, if_neg (of_decide_eq_false hs), marks, launches, hs]
      exact ⟨rfl, rfl, rfl, rfl, rfl⟩
  | watch s =>
      have hs : decide (s = service) = false := h
      rw [marks, launches, hs]
      exact ⟨rfl, rfl, rfl, rfl, rfl⟩
  | set s endpoints =>
      have hs : decide (s = service) = false := h
      rw [direct, if_neg (of_decide_eq_false hs)]
      exact ⟨rfl, rfl, rfl, rfl, rfl⟩
  | startWatch s =>
      have hs : decide (s = service) = false := h
      rw [marks, hs]
      exact ⟨rfl, rfl, rfl, rfl, rfl⟩
  | cancel => cases h
  | pass d => exact ⟨rfl, rfl, rfl, rfl, rfl⟩
  | signal s σ => exact ⟨rfl, rfl, rfl, rfl, rfl⟩

theorem unsettled_of_quiet {w : Watch} {σ : Signal} (hw : c.watchOf? service = some w)
    (h : c.concerns service (.signal service σ) = false) :
    (w.turn (c.input σ)).settles = false := by
  rw [concerns, turnsAt_signal σ hw, List.any_cons, List.any_nil, Bool.or_false] at h
  exact h

theorem turns_of_quiet (h : c.concerns service e = false) :
    ((c.step e).2.watchOf? service).map (Watch.drift c.cancelled) =
        (c.watchOf? service).map (Watch.drift c.cancelled) ∧
      (c.turnsAt service e).flatMap Turn.requests = [] ∧
      (c.turnsAt service e).flatMap Turn.responses = [] := by
  rcases c.inputsOf_cases service e with hinputs | ⟨σ, rfl, -⟩
  · obtain ⟨-, -, -, hlaunches, -⟩ := call_of_quiet h
    rw [turnsAt_of_no_input hinputs, watchOf?_step_of_no_input hinputs, hlaunches]
    exact ⟨congrArg _ Option.or_none, rfl, rfl⟩
  · cases hw : c.watchOf? service with
    | none =>
        rw [turnsAt_of_none _ hw, watchOf?_step_launch _ hw]
        exact ⟨rfl, rfl, rfl⟩
    | some w =>
        obtain ⟨hdrift, hrequests, hresponses⟩ :=
          (w.move_turn (c.input σ)).drift_of_unsettled (unsettled_of_quiet hw h)
        rw [turnsAt_signal σ hw, watchOf?_signal σ hw, List.flatMap_singleton,
          List.flatMap_singleton]
        exact ⟨congrArg some hdrift, hrequests, hresponses⟩

theorem view_of_quiet (h : c.concerns service e = false) :
    (c.step e).2.view service = c.view service := by
  obtain ⟨hdirect, -, hmarks, -, hswitch⟩ := call_of_quiet h
  obtain ⟨hwatch, -, hresponses⟩ := turns_of_quiet h
  rw [view_step, writesOf, hdirect, hresponses, hmarks, hswitch, hwatch, Bool.or_false]
  rfl

theorem sightings_of_quiet (h : c.concerns service e = false) : c.sightingsAt service e = [] := by
  obtain ⟨-, hanswers, -⟩ := call_of_quiet h
  obtain ⟨-, hrequests, -⟩ := turns_of_quiet h
  have hview := view_of_quiet h
  have hentry : (c.step e).2.cache.get? service = c.cache.get? service := congrArg View.entry hview
  have hwatched : (c.step e).2.cache.isWatched service = c.cache.isWatched service :=
    congrArg View.watched hview
  rw [sightingsAt, hrequests, hanswers, hentry, hwatched, change_self, change_self]
  rfl

end Quiet

/-! ### Events of the share -/

section Joint

variable {c₁ c₂ : Client} {service : String} {e : Event}

theorem settles_of_concerns {c : Client} {s : String} {σ : Signal}
    (h : c.concerns service (.signal s σ) = true) :
    s = service ∧ ∃ w, c.watchOf? service = some w ∧ (w.turn (c.input σ)).settles = true := by
  obtain ⟨t, ht, hsettles⟩ := List.any_eq_true.mp h
  cases hw : c.watchOf? service with
  | none =>
      rw [turnsAt_of_none _ hw] at ht
      cases ht
  | some w =>
      rw [turnsAt_of_some _ hw, inputsOf] at ht
      by_cases hs : s = service
      · rw [if_pos hs] at ht
        rw [List.mem_singleton.mp ht] at hsettles
        exact ⟨hs, w, rfl, hsettles⟩
      · rw [if_neg hs] at ht
        cases ht

theorem marks_congr (hview : c₁.view service = c₂.view service) (e : Event) :
    c₁.marks service e = c₂.marks service e := by
  obtain ⟨-, -, hcancelled, hentry, -, -⟩ := View.mk.inj hview
  cases e with
  | get s => rw [marks, marks, hentry, hcancelled]
  | watch s => rw [marks, marks, hcancelled]
  | _ => rfl

theorem launches_congr (hview : c₁.view service = c₂.view service) (e : Event) :
    c₁.launches service e = c₂.launches service e := by
  obtain ⟨-, -, hcancelled, hentry, hwatched, -⟩ := View.mk.inj hview
  cases e with
  | get s => rw [launches, launches, hentry, hwatched, hcancelled]
  | watch s => rw [launches, launches, hwatched, hcancelled]
  | _ => rfl

/-- A call changes the watch of a service in a way that its part of the client determines. -/
theorem watch_of_call {c : Client} (h : c.inputsOf service e = []) :
    ((c.step e).2.watchOf? service).map (Watch.drift (e.switch c.cancelled)) =
      ((c.view service).watch.map (Watch.drift (e.switch c.cancelled))).or
        (if c.launches service e then
          some ((c.freshWatch service).drift (e.switch c.cancelled)) else none) := by
  have hdrift : ((c.view service).watch.map (Watch.drift (e.switch c.cancelled))) =
      (c.watchOf? service).map (Watch.drift (e.switch c.cancelled)) := by
    rw [view, Option.map_map]
    exact congrArg (Option.map · _) (funext fun w => Watch.drift_drift e.switch_mono w)
  rw [watchOf?_step_of_no_input h, hdrift]
  cases c.watchOf? service with
  | some w => rfl
  | none => cases c.launches service e <;> rfl

/-- In clients that agree on the part of a service, a watch that waited for one result is one
watch. -/
theorem signal_of_joint {s : String} {σ : Signal} (hview : c₁.view service = c₂.view service)
    (hnow : c₁.now = c₂.now) (h₁ : c₁.concerns service (.signal s σ) = true)
    (h₂ : c₂.concerns service (.signal s σ) = true) :
    s = service ∧ c₁.input σ = c₂.input σ ∧ ∃ w, c₁.watchOf? service = some w ∧
      c₂.watchOf? service = some w ∧ (w.turn (c₁.input σ)).settles = true := by
  obtain ⟨-, -, hcancelled, -, -, hwatch⟩ := View.mk.inj hview
  obtain ⟨hs, w₁, hw₁, hsettles₁⟩ := settles_of_concerns h₁
  obtain ⟨-, w₂, hw₂, hsettles₂⟩ := settles_of_concerns h₂
  have hsame : w₁ = w₂ := by
    rw [hw₁, hw₂] at hwatch
    have hdrift : w₁.drift c₁.cancelled = w₂.drift c₂.cancelled := Option.some.inj hwatch
    exact ((w₁.move_turn (c₁.input σ)).drift_of_settles hsettles₁).symm.trans
      (hdrift.trans ((w₂.move_turn (c₂.input σ)).drift_of_settles hsettles₂))
  exact ⟨hs, by rw [input, input, hcancelled, hnow], w₁, hw₁, hw₂.trans (congrArg some hsame.symm),
    hsettles₁⟩

/-- Clients that agree on the part of a service take an event of its share alike. -/
theorem step_of_joint (hview : c₁.view service = c₂.view service) (hnow : c₁.now = c₂.now)
    (h₁ : c₁.concerns service e = true) (h₂ : c₂.concerns service e = true) :
    c₁.turnsAt service e = c₂.turnsAt service e ∧
      ((c₁.step e).2.watchOf? service).map (Watch.drift (e.switch c₁.cancelled)) =
        ((c₂.step e).2.watchOf? service).map (Watch.drift (e.switch c₂.cancelled)) := by
  obtain ⟨hidentity, hbounds, hcancelled, -, -, -⟩ := View.mk.inj hview
  have hcall : c₁.inputsOf service e = [] → c₂.inputsOf service e = [] →
      c₁.turnsAt service e = c₂.turnsAt service e ∧
      ((c₁.step e).2.watchOf? service).map (Watch.drift (e.switch c₁.cancelled)) =
        ((c₂.step e).2.watchOf? service).map (Watch.drift (e.switch c₂.cancelled)) := by
    intro hinputs₁ hinputs₂
    have hfresh : c₁.freshWatch service = c₂.freshWatch service := by
      rw [freshWatch, freshWatch, hidentity, hbounds]
    rw [turnsAt_of_no_input hinputs₁, turnsAt_of_no_input hinputs₂, watch_of_call hinputs₁,
      watch_of_call hinputs₂, hview, hcancelled, hfresh, launches_congr hview]
    exact ⟨rfl, rfl⟩
  cases e with
  | signal s σ =>
      obtain ⟨-, hinput, w, hw₁, hw₂, -⟩ := signal_of_joint hview hnow h₁ h₂
      have hinputs : c₁.inputsOf service (.signal s σ) = c₂.inputsOf service (.signal s σ) := by
        rw [inputsOf, inputsOf, hinput]
      rw [turnsAt_of_some _ hw₁, turnsAt_of_some _ hw₂, watchOf?_step _ hw₁, watchOf?_step _ hw₂,
        hinputs, hcancelled]
      exact ⟨rfl, rfl⟩
  | _ => exact hcall rfl rfl

theorem view_of_joint (hview : c₁.view service = c₂.view service) (hnow : c₁.now = c₂.now)
    (h₁ : c₁.concerns service e = true) (h₂ : c₂.concerns service e = true) :
    (c₁.step e).2.view service = (c₂.step e).2.view service := by
  obtain ⟨hidentity, hbounds, hcancelled, hentry, hwatched, -⟩ := View.mk.inj hview
  obtain ⟨hturns, hwatch⟩ := step_of_joint hview hnow h₁ h₂
  rw [view_step, view_step, hwatch, writesOf, writesOf, hturns, marks_congr hview, hidentity,
    hbounds, hcancelled, hentry, hwatched]

theorem sightings_of_joint (hview : c₁.view service = c₂.view service) (hnow : c₁.now = c₂.now)
    (h₁ : c₁.concerns service e = true) (h₂ : c₂.concerns service e = true) :
    c₁.sightingsAt service e = c₂.sightingsAt service e := by
  obtain ⟨-, -, -, hentry, hwatched, -⟩ := View.mk.inj hview
  obtain ⟨-, -, -, hentry', hwatched', -⟩ := View.mk.inj (view_of_joint hview hnow h₁ h₂)
  obtain ⟨hturns, -⟩ := step_of_joint hview hnow h₁ h₂
  have hanswers : c₁.answersAt service e = c₂.answersAt service e := by
    cases e with
    | get s =>
        have hs : s = service := of_decide_eq_true h₁
        rw [answersAt, answersAt, hs, getEndpoints_answer, getEndpoints_answer, hentry]
    | _ => rfl
  rw [sightingsAt, sightingsAt, hturns, hanswers, hentry, hwatched, hentry', hwatched']

end Joint

end Client

end ServiceDiscovery
