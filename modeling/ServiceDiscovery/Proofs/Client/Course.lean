import Mathlib.Data.List.Nodup
import ServiceDiscovery.Client
import ServiceDiscovery.Proofs.Cache
import ServiceDiscovery.Proofs.Watch.Turn
/-!
# The course of a client

What one event can do to a client, field by field. A client has at most one watch for each service,
and its watches share nothing but the clock, the switch and the cache: seen from one service, a
course of the client is a run of that service's watch on the signals that were meant for it.
-/

namespace ServiceDiscovery

namespace Client

open Watch (Input Turn published published_nil published_cons_publish)

def start (identity : String) (bounds : Backoff.Bounds) : Client := { identity, bounds }

def input (c : Client) (s : Signal) : Input := ⟨c.cancelled, c.now, s⟩

/-- The client with a watch for a service that had none. -/
def withWatch (c : Client) (service : String) : Client :=
  { c with
    cache := { c.cache with watching := c.cache.watching ++ [service] }
    watches := c.watches ++ [Watch.fresh service c.identity { bounds := c.bounds }] }

/-! ### Calls -/

theorem watch_of_cancelled {c : Client} (service : String) (h : c.cancelled = true) :
    c.watch service = (false, c) := by
  rw [watch, if_pos h]

theorem watch_of_watched {c : Client} {service : String} (h : service ∈ c.cache.watching) :
    c.watch service = (false, c) := by
  rw [watch, Cache.startWatch_of_mem h, ite_self]

theorem watch_of_new {c : Client} {service : String} (hlive : c.cancelled = false)
    (h : service ∉ c.cache.watching) :
    c.watch service = (true, c.withWatch service) := by
  rw [watch, Cache.startWatch_of_not_mem h, if_neg (by rw [hlive]; exact Bool.false_ne_true)]
  rfl

theorem getEndpoints_of_some {c : Client} {service : String} {endpoints : List Endpoint}
    (h : c.cache.get? service = some endpoints) :
    c.getEndpoints service = (.ok endpoints, c) := by
  rw [getEndpoints, h]

theorem getEndpoints_of_none {c : Client} {service : String} (h : c.cache.get? service = none) :
    c.getEndpoints service = (.error (.notYetDiscovered service), (c.watch service).2) := by
  rw [getEndpoints, h]

/-! ### Actions -/

def performAll (c : Client) (service : String) (actions : List Action) : Client :=
  actions.foldl (fun c a => c.perform service a) c

theorem performAll_cons (c : Client) (service : String) (a : Action) (rest : List Action) :
    c.performAll service (a :: rest) = (c.perform service a).performAll service rest := rfl

theorem performAll_eq (c : Client) (service : String) (actions : List Action) :
    c.performAll service actions =
      { c with
        cache := { c.cache with entries := (c.performAll service actions).cache.entries } } := by
  induction actions generalizing c with
  | nil => rfl
  | cons a rest ih =>
      rw [performAll_cons, ih]
      cases a <;> rfl

theorem get?_performAll (c : Client) (service other : String) (actions : List Action) :
    (c.performAll service actions).cache.get? other =
      (if service = other then published actions else []).getLast?.or (c.cache.get? other) := by
  induction actions generalizing c with
  | nil =>
      rw [published_nil, ite_self]
      rfl
  | cons a rest ih =>
      rw [performAll_cons, ih]
      cases a with
      | publish endpoints =>
          have hentry : (c.perform service (.publish endpoints)).cache.get? other =
              if other = service then some endpoints else c.cache.get? other :=
            Cache.get?_set c.cache service other endpoints
          by_cases h : service = other
          · rw [if_pos h, if_pos h, hentry, if_pos h.symm, published_cons_publish,
              List.getLast?_cons]
            cases (published rest).getLast? <;> rfl
          · rw [if_neg h, if_neg h, hentry, if_neg (Ne.symm h)]
      | _ => rfl

/-! ### Signals -/

theorem signal_of_none {c : Client} {service : String} (s : Signal)
    (h : c.watchOf? service = none) : c.signal service s = ([], c) := by
  rw [signal, h]

theorem signal_of_some {c : Client} {service : String} {w : Watch} (s : Signal)
    (h : c.watchOf? service = some w) :
    c.signal service s = ((w.turn (c.input s)).actions,
      (c.replaceWatch (w.feed (c.input s)).1).performAll service (w.turn (c.input s)).actions) := by
  rw [signal, h]
  rfl

theorem watchOf?_service {c : Client} {service : String} {w : Watch}
    (h : c.watchOf? service = some w) : w.service = service := by
  have hfound := List.find?_some h
  exact of_decide_eq_true hfound

theorem services_replaceWatch (c : Client) (w : Watch) :
    (c.replaceWatch w).watches.map Watch.service = c.watches.map Watch.service := by
  rw [replaceWatch, List.map_map]
  apply List.map_congr_left
  intro v _
  by_cases h : v.service = w.service
  · rw [Function.comp_apply, if_pos h, h]
  · rw [Function.comp_apply, if_neg h]

theorem watchOf?_replaceWatch (c : Client) (v : Watch) (service : String) :
    (c.replaceWatch v).watchOf? service =
      (c.watchOf? service).map fun w => if w.service = v.service then v else w := by
  rw [watchOf?, replaceWatch, List.find?_map, watchOf?]
  congr 2
  funext w
  by_cases h : w.service = v.service
  · rw [Function.comp_apply, if_pos h, h]
  · rw [Function.comp_apply, if_neg h]

/-- A signal touches nothing but the watch that it is for and entries of the cache. -/
theorem signal_frame (c : Client) (service : String) (s : Signal) :
    ∃ watches entries, (c.signal service s).2 =
        { c with watches := watches, cache := { c.cache with entries := entries } } ∧
      watches.map Watch.service = c.watches.map Watch.service := by
  cases h : c.watchOf? service with
  | none => exact ⟨c.watches, c.cache.entries, by rw [signal_of_none s h], rfl⟩
  | some w =>
      have hsignal := congrArg Prod.snd (signal_of_some s h)
      exact ⟨_, _, hsignal.trans (performAll_eq ..),
        services_replaceWatch c (w.feed (c.input s)).1⟩

/-! ### Events -/

/-- What one event brings to the watch of a service. -/
def inputsOf (c : Client) (service : String) : Event → List Input
  | .signal s σ => if s = service then [c.input σ] else []
  | _ => []

def inputs (c : Client) (service : String) : List Event → List Input
  | [] => []
  | e :: rest => c.inputsOf service e ++ inputs (c.step e).2 service rest

/-- The turns that the watch of a service takes at one event. -/
def turnsAt (c : Client) (service : String) (e : Event) : List Turn :=
  match c.watchOf? service with
  | some w => w.turns (c.inputsOf service e)
  | none => []

/-- The turns that the watch of a service takes in a course, from its start on. -/
def turnsOf (c : Client) (service : String) : List Event → List Turn
  | [] => []
  | e :: rest => c.turnsAt service e ++ turnsOf (c.step e).2 service rest

/-- What one event makes the client start for a service. -/
def startedAt (c : Client) (service : String) (e : Event) : List Action :=
  match e with
  | .signal s _ => if s = service then (c.step e).1 else []
  | _ => (c.step e).1

def started (c : Client) (service : String) : List Event → List Action
  | [] => []
  | e :: rest => c.startedAt service e ++ started (c.step e).2 service rest

@[simp] theorem run_nil (c : Client) : c.run [] = c := rfl

@[simp] theorem run_cons (c : Client) (e : Event) (rest : List Event) :
    c.run (e :: rest) = (c.step e).2.run rest := rfl

theorem run_append (c : Client) (first rest : List Event) :
    c.run (first ++ rest) = (c.run first).run rest := List.foldl_append

theorem turnsAt_of_some {c : Client} {service : String} {w : Watch} (e : Event)
    (h : c.watchOf? service = some w) : c.turnsAt service e = w.turns (c.inputsOf service e) := by
  rw [turnsAt, h]

theorem turnsAt_of_none {c : Client} {service : String} (e : Event)
    (h : c.watchOf? service = none) : c.turnsAt service e = [] := by
  rw [turnsAt, h]

theorem turnsAt_of_no_input {c : Client} {service : String} {e : Event}
    (h : c.inputsOf service e = []) : c.turnsAt service e = [] := by
  cases hwatch : c.watchOf? service with
  | none => exact turnsAt_of_none e hwatch
  | some w => rw [turnsAt_of_some e hwatch, h, Watch.turns_nil]

theorem startedAt_eq (c : Client) (service : String) (e : Event) :
    c.startedAt service e = (c.turnsAt service e).flatMap Turn.actions := by
  cases hwatch : c.watchOf? service with
  | none =>
      rw [turnsAt_of_none e hwatch]
      cases e with
      | signal s σ =>
          by_cases h : s = service
          · subst h
            rw [startedAt, if_pos rfl, step, signal_of_none σ hwatch]
            rfl
          · rw [startedAt, if_neg h]
            rfl
      | _ => rfl
  | some w =>
      rw [turnsAt_of_some e hwatch]
      cases e with
      | signal s σ =>
          by_cases h : s = service
          · subst h
            rw [startedAt, inputsOf, if_pos rfl, if_pos rfl, step, signal_of_some σ hwatch,
              Watch.turns_cons, Watch.turns_nil, List.flatMap_singleton]
          · rw [startedAt, inputsOf, if_neg h, if_neg h]
            rfl
      | _ => rfl

theorem started_eq (c : Client) (service : String) (events : List Event) :
    c.started service events = (c.turnsOf service events).flatMap Turn.actions := by
  induction events generalizing c with
  | nil => rfl
  | cons e rest ih => rw [started, turnsOf, startedAt_eq, ih, List.flatMap_append]

theorem watch_cases (c : Client) (service : String) :
    c.watch service = (false, c) ∨
      c.cancelled = false ∧ service ∉ c.cache.watching ∧
        c.watch service = (true, c.withWatch service) := by
  by_cases hwatched : service ∈ c.cache.watching
  · exact .inl (watch_of_watched hwatched)
  · cases hlive : c.cancelled with
    | true => exact .inl (watch_of_cancelled service hlive)
    | false => exact .inr ⟨rfl, hwatched, watch_of_new hlive hwatched⟩

/-- A query does to the client what a call to watch does, or nothing. -/
theorem getEndpoints_cases (c : Client) (service : String) :
    (c.getEndpoints service).2 = c ∨ (c.getEndpoints service).2 = (c.watch service).2 := by
  cases h : c.cache.get? service with
  | some endpoints => exact .inl (by rw [getEndpoints_of_some h])
  | none => exact .inr (by rw [getEndpoints_of_none h])

theorem watchOf?_watch {c : Client} {service : String} {w : Watch} (other : String)
    (h : c.watchOf? service = some w) : (c.watch other).2.watchOf? service = some w := by
  rcases c.watch_cases other with hsame | ⟨_, _, hnew⟩
  · rw [hsame]
    exact h
  · rw [hnew, watchOf?, withWatch, List.find?_append]
    rw [watchOf?] at h
    rw [h, Option.some_or]

/-- An event reaches the watch of a service as the input that is meant for it. -/
theorem watchOf?_step {c : Client} {service : String} {w : Watch} (e : Event)
    (h : c.watchOf? service = some w) :
    (c.step e).2.watchOf? service = some (w.after (c.inputsOf service e)) := by
  cases e with
  | get other =>
      rcases c.getEndpoints_cases other with hget | hget
      · exact (congrArg (Client.watchOf? · service) hget).trans h
      · exact (congrArg (Client.watchOf? · service) hget).trans (watchOf?_watch other h)
  | watch other => exact watchOf?_watch other h
  | set other endpoints => exact h
  | startWatch other => exact h
  | cancel => exact h
  | pass d => exact h
  | signal other s =>
      rw [step, inputsOf]
      cases hother : c.watchOf? other with
      | none =>
          have hne : other ≠ service := by
            rintro rfl
            rw [h] at hother
            cases hother
          rw [signal_of_none s hother, if_neg hne]
          exact h
      | some v =>
          have hfeed : (v.feed (c.input s)).1.service = other :=
            (v.move_turn _).service_identity.1.trans (watchOf?_service hother)
          rw [signal_of_some s hother, performAll_eq]
          change ((c.replaceWatch _).watchOf? service) = _
          rw [watchOf?_replaceWatch, h, Option.map_some, watchOf?_service h, hfeed]
          by_cases hs : other = service
          · subst hs
            rw [h] at hother
            cases hother
            rw [if_pos rfl, if_pos rfl, Watch.after_cons, Watch.after_nil]
          · rw [if_neg (Ne.symm hs), if_neg hs, Watch.after_nil]

theorem inputsOf_cases (c : Client) (service : String) (e : Event) :
    c.inputsOf service e = [] ∨
      ∃ σ, e = .signal service σ ∧ c.inputsOf service e = [c.input σ] := by
  cases e with
  | signal s σ =>
      by_cases hs : s = service
      · subst hs
        exact .inr ⟨σ, rfl, if_pos rfl⟩
      · exact .inl (if_neg hs)
  | _ => exact .inl rfl

section Signal

variable {c : Client} {service : String} {w : Watch} (σ : Signal)
  (hw : c.watchOf? service = some w)

include hw

theorem turnsAt_signal : c.turnsAt service (.signal service σ) = [w.turn (c.input σ)] := by
  rw [turnsAt_of_some _ hw, inputsOf, if_pos rfl, Watch.turns_cons, Watch.turns_nil]

theorem watchOf?_signal :
    (c.step (.signal service σ)).2.watchOf? service = some (w.feed (c.input σ)).1 := by
  rw [watchOf?_step _ hw, inputsOf, if_pos rfl, Watch.after_cons, Watch.after_nil]

end Signal

/-- **A course, seen from one service, is a run of its watch.** -/
theorem watchOf?_run {c : Client} {service : String} {w : Watch} (events : List Event)
    (h : c.watchOf? service = some w) :
    (c.run events).watchOf? service = some (w.after (c.inputs service events)) := by
  induction events generalizing c w with
  | nil => exact h
  | cons e rest ih => rw [run_cons, ih (watchOf?_step e h), inputs, Watch.after_append]

theorem turnsOf_eq {c : Client} {service : String} {w : Watch} (events : List Event)
    (h : c.watchOf? service = some w) :
    c.turnsOf service events = w.turns (c.inputs service events) := by
  induction events generalizing c w with
  | nil => rfl
  | cons e rest ih =>
      rw [turnsOf, turnsAt_of_some e h, ih (watchOf?_step e h), inputs, Watch.turns_append]

/-! ### The start of a watch -/

def Event.clock (now : Duration) : Event → Duration
  | .pass d => now.plus d
  | _ => now

def Event.switch (cancelled : Bool) : Event → Bool
  | .cancel => true
  | _ => cancelled

theorem Event.le_clock (e : Event) (now : Duration) : now.nanos ≤ (e.clock now).nanos := by
  cases e with
  | pass d => exact Nat.le_add_right _ _
  | _ => exact Nat.le_refl _

theorem Event.switch_mono {cancelled : Bool} (e : Event) (h : cancelled = true) :
    e.switch cancelled = true := by
  cases e with
  | cancel => rfl
  | _ => exact h

theorem Event.switch_cases (e : Event) (cancelled : Bool) :
    e.switch cancelled = true ∨ e.switch cancelled = cancelled := by
  cases e with
  | cancel => exact .inl rfl
  | _ => exact .inr rfl

/-- What an event leaves as it was: all but the cache and the watches, the clock and the switch. -/
theorem step_frame (c : Client) (e : Event) :
    ∃ cache watches, (c.step e).2 =
      { c with cache, watches, cancelled := e.switch c.cancelled, now := e.clock c.now } := by
  have hwatch : ∀ service, ∃ cache watches, (c.watch service).2 = { c with cache, watches } := by
    intro service
    rcases c.watch_cases service with h | ⟨_, _, h⟩
    · exact ⟨_, _, congrArg Prod.snd h⟩
    · exact ⟨_, _, congrArg Prod.snd h⟩
  cases e with
  | get service =>
      rcases c.getEndpoints_cases service with hget | hget
      · exact ⟨_, _, hget⟩
      · obtain ⟨cache, watches, h⟩ := hwatch service
        exact ⟨cache, watches, hget.trans h⟩
  | watch service => exact hwatch service
  | signal service s =>
      obtain ⟨watches, entries, hsignal, _⟩ := c.signal_frame service s
      exact ⟨_, _, hsignal⟩
  | _ => exact ⟨_, _, rfl⟩

section Frame

variable (c : Client) (e : Event)

theorem identity_step : (c.step e).2.identity = c.identity := by
  obtain ⟨cache, watches, hframe⟩ := c.step_frame e
  rw [hframe]

theorem bounds_step : (c.step e).2.bounds = c.bounds := by
  obtain ⟨cache, watches, hframe⟩ := c.step_frame e
  rw [hframe]

theorem switch_step : (c.step e).2.cancelled = e.switch c.cancelled := by
  obtain ⟨cache, watches, hframe⟩ := c.step_frame e
  rw [hframe]

theorem clock_step : (c.step e).2.now = e.clock c.now := by
  obtain ⟨cache, watches, hframe⟩ := c.step_frame e
  rw [hframe]

end Frame

/-- The watch with which a service begins. -/
def freshWatch (c : Client) (service : String) : Watch :=
  .fresh service c.identity { bounds := c.bounds }

/-- Whether an event starts a watch for a service that has none. -/
def launches (c : Client) (service : String) : Event → Bool
  | .get s => s = service && (c.cache.get? service).isNone && !c.cancelled && !c.cache.isWatched service
  | .watch s => s = service && !c.cancelled && !c.cache.isWatched service
  | _ => false

theorem watchOf?_watch_of_none {c : Client} {service : String} (other : String)
    (h : c.watchOf? service = none) :
    (c.watch other).2.watchOf? service =
      if c.launches service (.watch other) then some (c.freshWatch service) else none := by
  rw [launches]
  by_cases hother : other = service
  · subst hother
    rw [decide_eq_true rfl, Bool.true_and]
    rcases c.watch_cases other with hsame | ⟨hlive, hnew, hwatch⟩
    · have hstarts : (!c.cancelled && !c.cache.isWatched other) = false := by
        cases hlive : c.cancelled with
        | true => rfl
        | false =>
            by_cases hwatched : other ∈ c.cache.watching
            · rw [Cache.isWatched, decide_eq_true hwatched]
              rfl
            · rw [watch_of_new hlive hwatched] at hsame
              cases hsame
      rw [hsame, hstarts]
      exact h
    · rw [watchOf?] at h
      rw [hwatch, hlive, Cache.isWatched, decide_eq_false hnew, watchOf?, withWatch,
        List.find?_append, h, Option.none_or]
      exact List.find?_cons_of_pos (decide_eq_true rfl)
  · rw [decide_eq_false hother]
    rcases c.watch_cases other with hsame | ⟨-, -, hwatch⟩
    · rw [hsame]
      exact h
    · rw [watchOf?] at h
      rw [hwatch, watchOf?, withWatch, List.find?_append, h, Option.none_or]
      exact List.find?_cons_of_neg fun hd => hother (of_decide_eq_true hd)

theorem watchOf?_step_launch {c : Client} {service : String} (e : Event)
    (h : c.watchOf? service = none) :
    (c.step e).2.watchOf? service =
      if c.launches service e then some (c.freshWatch service) else none := by
  cases e with
  | get other =>
      change (c.getEndpoints other).2.watchOf? service = _
      rw [launches]
      cases hentry : c.cache.get? other with
      | some endpoints =>
          have hstarts : (decide (other = service) && (c.cache.get? service).isNone) = false := by
            by_cases hother : other = service
            · rw [← hother, hentry]
              exact Bool.and_false _
            · rw [decide_eq_false hother, Bool.false_and]
          rw [getEndpoints_of_some hentry, hstarts]
          exact h
      | none =>
          have hasked : (decide (other = service) && (c.cache.get? service).isNone) =
              decide (other = service) := by
            by_cases hother : other = service
            · rw [← hother, hentry]
              exact Bool.and_true _
            · rw [decide_eq_false hother, Bool.false_and]
          rw [getEndpoints_of_none hentry, hasked]
          exact watchOf?_watch_of_none other h
  | watch other => exact watchOf?_watch_of_none other h
  | signal other s =>
      cases hother : c.watchOf? other with
      | none =>
          rw [step, signal_of_none s hother]
          exact h
      | some w =>
          rw [step, signal_of_some s hother, performAll_eq]
          change (c.replaceWatch _).watchOf? service = none
          rw [watchOf?_replaceWatch, h, Option.map_none]
  | _ => exact h

theorem watchOf?_step_of_none {c : Client} {service : String} (e : Event)
    (h : c.watchOf? service = none) :
    (c.step e).2.watchOf? service = none ∨
      (c.step e).2.watchOf? service = some (c.freshWatch service) := by
  rw [watchOf?_step_launch e h]
  cases c.launches service e with
  | true => exact .inr rfl
  | false => exact .inl rfl

/-- The turns of a service that has no watch yet are those of a fresh watch. -/
theorem turnsOf_of_none {c : Client} {service : String} (events : List Event)
    (h : c.watchOf? service = none) :
    ∃ inputs, c.turnsOf service events = (c.freshWatch service).turns inputs := by
  induction events generalizing c with
  | nil => exact ⟨[], rfl⟩
  | cons e rest ih =>
      have hsame : (c.step e).2.freshWatch service = c.freshWatch service := by
        rw [freshWatch, identity_step, bounds_step, freshWatch]
      rw [turnsOf, turnsAt_of_none e h, List.nil_append]
      rcases watchOf?_step_of_none e h with hnone | hfresh
      · rw [← hsame]
        exact ih hnone
      · exact ⟨_, turnsOf_eq rest hfresh⟩

/-! ### One watch for each service -/

/-- Each service has at most one watch, and is marked if it has one. -/
structure Consistent (c : Client) : Prop where
  distinct : (c.watches.map Watch.service).Nodup
  marked : ∀ service ∈ c.watches.map Watch.service, service ∈ c.cache.watching

theorem consistent_start (identity : String) (bounds : Backoff.Bounds) :
    (start identity bounds).Consistent := ⟨List.nodup_nil, nofun⟩

theorem Consistent.watch {c : Client} (h : c.Consistent) (service : String) :
    (c.watch service).2.Consistent := by
  rcases c.watch_cases service with hsame | ⟨_, hunwatched, hnew⟩
  · rw [hsame]
    exact h
  · rw [hnew]
    have hservices : (c.withWatch service).watches.map Watch.service =
        c.watches.map Watch.service ++ [service] := List.map_append
    refine ⟨?_, fun other hother => ?_⟩
    · rw [hservices, List.nodup_append]
      refine ⟨h.distinct, List.nodup_singleton service, fun a ha b hb => ?_⟩
      rintro rfl
      rw [List.mem_singleton.mp hb] at ha
      exact hunwatched (h.marked service ha)
    · rw [hservices] at hother
      apply List.mem_append.mpr
      rcases List.mem_append.mp hother with hold | hnew
      · exact .inl (h.marked other hold)
      · exact .inr hnew

theorem Consistent.step {c : Client} (h : c.Consistent) (e : Event) :
    (c.step e).2.Consistent := by
  cases e with
  | get service =>
      change (c.getEndpoints service).2.Consistent
      rcases c.getEndpoints_cases service with hget | hget
      · rw [hget]
        exact h
      · rw [hget]
        exact h.watch service
  | watch service => exact h.watch service
  | set service endpoints => exact ⟨h.distinct, h.marked⟩
  | startWatch service =>
      refine ⟨h.distinct, fun other hother => ?_⟩
      have hmarked := h.marked other hother
      by_cases hservice : service ∈ c.cache.watching
      · change other ∈ (c.cache.startWatch service).2.watching
        rw [Cache.startWatch_of_mem hservice]
        exact hmarked
      · change other ∈ (c.cache.startWatch service).2.watching
        rw [Cache.startWatch_of_not_mem hservice]
        exact List.mem_append_left _ hmarked
  | cancel => exact ⟨h.distinct, h.marked⟩
  | pass d => exact ⟨h.distinct, h.marked⟩
  | signal service s =>
      obtain ⟨watches, entries, hsignal, hservices⟩ := c.signal_frame service s
      change (c.signal service s).2.Consistent
      rw [hsignal]
      exact ⟨hservices ▸ h.distinct, fun other hother => h.marked other (hservices ▸ hother)⟩

theorem Consistent.run {c : Client} (h : c.Consistent) (events : List Event) :
    (c.run events).Consistent := by
  induction events generalizing c with
  | nil => exact h
  | cons e rest ih => exact ih (h.step e)

theorem Consistent.watchOf?_eq {c : Client} (h : c.Consistent) {w : Watch} (hw : w ∈ c.watches) :
    c.watchOf? w.service = some w := by
  cases hfound : c.watchOf? w.service with
  | none =>
      have hmissing := List.find?_eq_none.mp hfound w hw
      exact absurd (decide_eq_true rfl) hmissing
  | some v =>
      have hv : v ∈ c.watches := List.mem_of_find?_eq_some hfound
      rw [List.inj_on_of_nodup_map h.distinct hv hw (watchOf?_service hfound)]

end Client

end ServiceDiscovery
