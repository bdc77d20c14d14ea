import ServiceDiscovery.Proofs.Client.Writes
import ServiceDiscovery.Proofs.Watch.Winding
/-!
# After cancellation

Cancelling is final. From then on every watch is reached by nothing but signals of a cancelled
client, so what is left of a course is the winding down of each watch: a stream in use is closed,
nothing else is begun, and the cache changes only where it is written directly.
-/

namespace ServiceDiscovery

namespace Client

open Watch (Turn streamsOpened closesBegun)

theorem getEndpoints_of_cancelled {c : Client} (service : String) (h : c.cancelled = true) :
    c.getEndpoints service =
      ((c.cache.get? service).elim (.error (.notYetDiscovered service)) .ok, c) := by
  cases hentry : c.cache.get? service with
  | some endpoints => exact getEndpoints_of_some hentry
  | none =>
      rw [getEndpoints_of_none hentry, watch_of_cancelled service h]
      rfl

/-- An event leaves a cancelled client cancelled, with watches of the same services. -/
theorem cancelled_step {c : Client} (h : c.cancelled = true) (e : Event) :
    (c.step e).2.cancelled = true ∧
      (c.step e).2.watches.map Watch.service = c.watches.map Watch.service := by
  cases e with
  | get service =>
      rw [step, getEndpoints_of_cancelled service h]
      exact ⟨h, rfl⟩
  | watch service =>
      rw [step, watch_of_cancelled service h]
      exact ⟨h, rfl⟩
  | set service endpoints => exact ⟨h, rfl⟩
  | startWatch service => exact ⟨h, rfl⟩
  | cancel => exact ⟨rfl, rfl⟩
  | pass d => exact ⟨h, rfl⟩
  | signal service s =>
      obtain ⟨watches, entries, hsignal, hservices⟩ := c.signal_frame service s
      rw [step, hsignal]
      exact ⟨h, hservices⟩

theorem cancelled_run {c : Client} (h : c.cancelled = true) (events : List Event) :
    (c.run events).cancelled = true ∧
      (c.run events).watches.map Watch.service = c.watches.map Watch.service := by
  induction events generalizing c with
  | nil => exact ⟨h, rfl⟩
  | cons e rest ih =>
      obtain ⟨hcancelled, hservices⟩ := cancelled_step h e
      obtain ⟨hrun, hrest⟩ := ih hcancelled
      exact ⟨hrun, hrest.trans hservices⟩

theorem inputsOf_cancelled {c : Client} (h : c.cancelled = true) (service : String) (e : Event) :
    ∀ i ∈ c.inputsOf service e, i.cancelled = true := by
  intro i hi
  cases e with
  | signal s σ =>
      rw [inputsOf] at hi
      by_cases hs : s = service
      · rw [if_pos hs] at hi
        rw [List.mem_singleton.mp hi]
        exact h
      · rw [if_neg hs] at hi
        cases hi
  | _ => cases hi

theorem inputs_cancelled {c : Client} (h : c.cancelled = true) (service : String)
    (events : List Event) : ∀ i ∈ c.inputs service events, i.cancelled = true := by
  induction events generalizing c with
  | nil => nofun
  | cons e rest ih =>
      intro i hi
      rcases List.mem_append.mp hi with hi | hi
      · exact inputsOf_cancelled h service e i hi
      · exact ih (cancelled_step h e).1 i hi

theorem turnsAt_winding {c : Client} (h : c.cancelled = true) (service : String) (e : Event) :
    ∀ t ∈ c.turnsAt service e, t.Winding := by
  intro t ht
  cases hwatch : c.watchOf? service with
  | none =>
      rw [turnsAt_of_none e hwatch] at ht
      cases ht
  | some w =>
      rw [turnsAt_of_some e hwatch] at ht
      exact Watch.winding_run (inputsOf_cancelled h service e) t ht

theorem turnsOf_winding {c : Client} (h : c.cancelled = true) (service : String)
    (events : List Event) : ∀ t ∈ c.turnsOf service events, t.Winding := by
  induction events generalizing c with
  | nil => nofun
  | cons e rest ih =>
      intro t ht
      rcases List.mem_append.mp ht with ht | ht
      · exact turnsAt_winding h service e t ht
      · exact ih (cancelled_step h e).1 t ht

theorem writes_of_cancelled {c : Client} (h : c.cancelled = true) (service : String)
    (events : List Event) : c.writes service events = events.flatMap (direct service) := by
  induction events generalizing c with
  | nil => rfl
  | cons e rest ih =>
      have hresponses : (c.turnsAt service e).flatMap Turn.responses = [] :=
        List.flatMap_eq_nil_iff.mpr fun t ht => (turnsAt_winding h service e t ht).responses_eq_nil
      rw [writes, writesOf, hresponses, List.filterMap_nil, List.append_nil,
        ih (cancelled_step h e).1, List.flatMap_cons]

/-! ### Streams in use -/

/-- How many streams the watch of a service has in use. -/
def streamsInUse (c : Client) (service : String) : Nat :=
  (c.watchOf? service).elim 0 fun w => w.phase.exchanging.toNat

theorem streamsInUse_of_some {c : Client} {service : String} {w : Watch}
    (h : c.watchOf? service = some w) : c.streamsInUse service = w.phase.exchanging.toNat := by
  rw [streamsInUse, h]
  rfl

theorem streamsInUse_step_of_none {c : Client} {service : String} (e : Event)
    (h : c.watchOf? service = none) : (c.step e).2.streamsInUse service = 0 := by
  have hnone : c.streamsInUse service = 0 := by
    rw [streamsInUse, h]
    rfl
  have hwatch (other : String) : (c.watch other).2.streamsInUse service = 0 := by
    rcases c.watch_cases other with hsame | ⟨_, _, hnew⟩
    · rw [hsame]
      exact hnone
    · rw [hnew, streamsInUse, watchOf?, withWatch, List.find?_append]
      rw [watchOf?] at h
      rw [h, Option.none_or, List.find?_singleton]
      split <;> rfl
  cases e with
  | get other =>
      rcases c.getEndpoints_cases other with hget | hget
      · exact (congrArg (Client.streamsInUse · service) hget).trans hnone
      · exact (congrArg (Client.streamsInUse · service) hget).trans (hwatch other)
  | watch other => exact hwatch other
  | signal other s =>
      rw [step]
      cases hother : c.watchOf? other with
      | none =>
          rw [signal_of_none s hother]
          exact hnone
      | some v =>
          rw [signal_of_some s hother, performAll_eq]
          change ((c.replaceWatch _).watchOf? service).elim 0 _ = 0
          rw [watchOf?_replaceWatch, h]
          rfl
  | _ => exact hnone

theorem balance_step (c : Client) (service : String) (e : Event) :
    streamsOpened (c.turnsAt service e) + c.streamsInUse service =
      closesBegun (c.turnsAt service e) + (c.step e).2.streamsInUse service := by
  cases h : c.watchOf? service with
  | none =>
      rw [turnsAt_of_none e h, streamsInUse_step_of_none e h, streamsInUse, h]
      rfl
  | some w =>
      rw [turnsAt_of_some e h, streamsInUse_of_some h, streamsInUse_of_some (watchOf?_step e h)]
      exact w.balance_run _

/-- Every stream that a course opens is closed in it, but for the one that is still in use. -/
theorem balance_course (c : Client) (service : String) (events : List Event) :
    streamsOpened (c.turnsOf service events) + c.streamsInUse service =
      closesBegun (c.turnsOf service events) + (c.run events).streamsInUse service := by
  induction events generalizing c with
  | nil => rfl
  | cons e rest ih =>
      have hstep := c.balance_step service e
      have hrest := ih (c.step e).2
      rw [turnsOf, Watch.streamsOpened_append, Watch.closesBegun_append, run_cons]
      omega

theorem closes_eq_streamsOpened {c : Client} {service : String} {events : List Event}
    (hbefore : c.streamsInUse service = 0) (hafter : (c.run events).streamsInUse service = 0) :
    (c.started service events).count .close = streamsOpened (c.turnsOf service events) := by
  have hbalance := c.balance_course service events
  rw [hbefore, hafter] at hbalance
  rw [started_eq]
  exact hbalance.symm

/-! ### The law -/

/-- **Nothing happens after cancellation.** Whatever a client was doing when it was cancelled, and
whatever reaches it later: a watch starts nothing but a close, takes nothing but the end of one, and
writes nothing; no call starts a watch; and a watch is over at its next turn, when every stream that
it ever opened has been closed once. -/
theorem nothing_after_cancellation (identity : String) (bounds : Backoff.Bounds)
    (before later : List Event) :
    let unused := start identity bounds
    let c := (unused.run before).cancel
    let after := c.run later
    (∀ service,
      (∀ a ∈ c.started service later, a = .close) ∧
      (∀ t ∈ c.turnsOf service later, t.Winding) ∧
      after.cache.get? service =
        (later.flatMap (direct service)).getLast?.or (c.cache.get? service) ∧
      after.watch service = (false, after) ∧
      after.getEndpoints service =
        ((after.cache.get? service).elim (.error (.notYetDiscovered service)) .ok, after)) ∧
    after.watches.map Watch.service = c.watches.map Watch.service ∧
    ∀ w ∈ c.watches, ∃ v, after.watchOf? w.service = some v ∧
      (c.inputs w.service later = [] → v = w) ∧
      (c.inputs w.service later ≠ [] →
        v.phase.settled = true ∧
        (w.phase.exchanging = false → (∀ e, w.phase ≠ .closing e) → v.phase = .stopped) ∧
        (c.started w.service later).count .close = w.phase.exchanging.toNat ∧
        (unused.started w.service (before ++ .cancel :: later)).count .close =
          streamsOpened (unused.turnsOf w.service (before ++ .cancel :: later))) ∧
      (∀ e, v.phase = .closing e →
        ((after.step (.signal w.service .closed)).2.watchOf? w.service).map Watch.phase =
          some .stopped) := by
  intro unused c after
  have hcancelled : c.cancelled = true := rfl
  obtain ⟨hafter, hservices⟩ := cancelled_run hcancelled later
  refine ⟨fun service => ⟨?_, turnsOf_winding hcancelled service later, ?_,
    watch_of_cancelled service hafter, getEndpoints_of_cancelled service hafter⟩,
    hservices, fun w hw => ?_⟩
  · intro a ha
    rw [started_eq] at ha
    obtain ⟨t, ht, hat⟩ := List.mem_flatMap.mp ha
    exact (turnsOf_winding hcancelled service later t ht).actions a hat
  · rw [get?_run, writes_of_cancelled hcancelled]
  · have hconsistent : c.Consistent :=
      ((consistent_start identity bounds).run before).step .cancel
    have hw : c.watchOf? w.service = some w := hconsistent.watchOf?_eq hw
    have hv := watchOf?_run later hw
    have hinputs := inputs_cancelled hcancelled w.service later
    refine ⟨_, hv, fun hnone => by rw [hnone, Watch.after_nil], fun hsome => ?_, fun e he => ?_⟩
    · have hsettled : (w.after _).phase.settled = true := Watch.settled_after hinputs (.inr hsome)
      refine ⟨hsettled, fun hidle hopen => Watch.stopped_after hinputs hidle hopen (.inr hsome),
        ?_, ?_⟩
      · rw [started_eq, turnsOf_eq later hw]
        exact Watch.closesBegun_of_cancelled hinputs hsome
      · -- Streams that were opened before the cancellation count as well.
        have hrun : unused.run (before ++ .cancel :: later) = after := run_append ..
        refine closes_eq_streamsOpened rfl ?_
        rw [hrun, streamsInUse_of_some hv, Watch.not_exchanging_of_settled hsettled]
        rfl
    · rw [watchOf?_step _ hv, inputsOf, if_pos rfl, Option.map_some, Watch.after_cons,
        Watch.after_nil]
      exact congrArg some (Watch.stopped_of_closed hafter he rfl)

/-- A response is ready and a connection is made when the client is cancelled: the watch that has a
stream closes it, and the other one has none to close. -/
theorem nothing_after_cancellation_ready :
    let before : List Event := [.watch "a", .watch "b"] ++
      [.wake, .connected, .sent].map (.signal "a") ++ [.signal "b" .wake]
    let later : List Event :=
      [.signal "a" (.received ⟨"1", "n", []⟩), .signal "b" .connected, .signal "a" .closed]
    let c := ((start "node" {}).run before).cancel
    let receiving : Watch := ⟨"a", "node", { bounds := {} }, .receiving {}⟩
    let connecting : Watch := ⟨"b", "node", { bounds := {} }, .connecting⟩
    (receiving ∈ c.watches ∧ c.inputs "a" later ≠ [] ∧
        (c.started "a" later).count .close = 1) ∧
      connecting ∈ c.watches ∧ c.inputs "b" later ≠ [] ∧
        (c.started "b" later).count .close = 0 := by
  intro before later c receiving connecting
  obtain ⟨_, _, heach⟩ := nothing_after_cancellation "node" {} before later
  have hreceiving : receiving ∈ c.watches := by decide +kernel
  have hconnecting : connecting ∈ c.watches := by decide +kernel
  have ha : c.inputs "a" later ≠ [] := List.ne_nil_of_length_pos (by decide +kernel)
  have hb : c.inputs "b" later ≠ [] := List.ne_nil_of_length_pos (by decide +kernel)
  obtain ⟨_, _, _, hclosed, _⟩ := heach receiving hreceiving
  obtain ⟨_, _, _, hidle, _⟩ := heach connecting hconnecting
  exact ⟨⟨hreceiving, ha, (hclosed ha).2.2.1⟩, hconnecting, hb, (hidle hb).2.2.1⟩

end Client

end ServiceDiscovery
