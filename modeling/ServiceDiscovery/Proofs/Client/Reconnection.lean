import ServiceDiscovery.Proofs.Client.Strides
/-!
# When a watch connects again

The timer is taken to be exact: time does not pass the moment at which the sleep of a watch is over
before the watch has been woken. That a watch is not woken too early need not be said, since it goes
on sleeping then. `Punctual` is what holds along such a course: every session but the first began
just when the sleep before it was over, and a watch that has not been cancelled is asleep only while
its sleep is not over.
-/

namespace ServiceDiscovery

namespace Client

open Watch (FiredBy InStep Lap OnTime delayFor dueAfter laps sessions sinceReset trace)

/-- When the watch of a service is to be woken. -/
def wake? (c : Client) (service : String) : Option Duration :=
  (c.watchOf? service).bind fun w => w.phase.wake?

/-- Whether an exact timer lets an event happen: time does not pass by a watch that is to be woken.
A cancelled watch is not. -/
def Allows (c : Client) (service : String) (e : Event) : Prop :=
  c.cancelled = false → ∀ wake ∈ c.wake? service, (e.clock c.now).nanos ≤ wake.nanos

instance (c : Client) (service : String) (e : Event) : Decidable (c.Allows service e) :=
  inferInstanceAs (Decidable (_ → _))

/-- Whether the timer of a service is exact throughout a course. -/
def Exact (c : Client) (service : String) : List Event → Prop
  | [] => True
  | e :: rest => c.Allows service e ∧ Exact (c.step e).2 service rest

instance decidableExact (c : Client) (service : String) (events : List Event) :
    Decidable (c.Exact service events) :=
  match events with
  | [] => inferInstanceAs (Decidable True)
  | e :: rest =>
      have := decidableExact (c.step e).2 service rest
      inferInstanceAs (Decidable (_ ∧ _))

/-- When an event cancels a client, if it does. -/
def Event.cancels (now : Duration) : Event → Option Duration
  | .cancel => some now
  | _ => none

/-- When a course first cancels its client. -/
def cancelledAt? (c : Client) : List Event → Option Duration
  | [] => none
  | e :: rest => (e.cancels c.now).or ((c.step e).2.cancelledAt? rest)

/-- What holds of a course with an exact timer, whose client was cancelled when `fired` says. -/
structure Punctual (bounds : Backoff.Bounds) (service : String) (fired : Option Duration)
    (c : Client) (laps : List Lap) : Prop where
  strides : Strides bounds service c laps
  onTime : OnTime bounds (sessions laps)
  waiting : c.cancelled = false → ∀ wake ∈ c.wake? service, c.now.nanos ≤ wake.nanos
  switched : c.cancelled = fired.isSome
  fired : ∀ f ∈ fired, f.nanos ≤ c.now.nanos ∧ FiredBy bounds f (sessions laps)

theorem punctual_start (identity : String) (bounds : Backoff.Bounds) (service : String) :
    Punctual bounds service none (start identity bounds) [] where
  strides := strides_start identity bounds service
  onTime := trivial
  waiting _ := nofun
  switched := rfl
  fired := nofun

section Step

variable {bounds : Backoff.Bounds} {service : String} {fired : Option Duration} {c : Client}
  {laps : List Lap}

theorem wake?_of_some {w : Watch} (hw : c.watchOf? service = some w) :
    c.wake? service = w.phase.wake? := by
  rw [wake?, hw, Option.bind_some]

/-- While the client is not cancelled, no sleep is over without a new session. -/
theorem Punctual.firedBy_now (h : Punctual bounds service fired c laps)
    (hlive : c.cancelled = false) : FiredBy bounds c.now (sessions laps) := by
  cases hw : c.watchOf? service with
  | none =>
      rw [h.strides.unwatched hw]
      nofun
  | some w =>
      have hstep := (h.strides.paced w hw).inStep
      have hwaiting := h.waiting hlive
      rw [wake?_of_some hw] at hwaiting
      rw [hlive] at hstep
      exact hstep.firedBy hwaiting

/-- When the client is cancelled, no sleep is over without a new session. -/
theorem Punctual.firedBy_cancels (h : Punctual bounds service fired c laps) {e : Event}
    {f : Duration} (hf : f ∈ fired.or (e.cancels c.now)) :
    f.nanos ≤ c.now.nanos ∧ FiredBy bounds f (sessions laps) := by
  cases hfired : fired with
  | some f' =>
      rw [hfired, Option.some_or] at hf
      exact h.fired f (hfired.trans hf)
  | none =>
      rw [hfired, Option.none_or] at hf
      have hlive : c.cancelled = false := by rw [h.switched, hfired]; rfl
      cases e with
      | cancel =>
          cases hf
          exact ⟨Nat.le_refl _, h.firedBy_now hlive⟩
      | _ => cases hf

theorem switch_eq_isSome (h : c.cancelled = fired.isSome) (e : Event) :
    e.switch c.cancelled = (fired.or (e.cancels c.now)).isSome := by
  rw [h]
  cases e <;> cases fired <;> rfl

theorem cancelled_of_step {e : Event} (hlive : (c.step e).2.cancelled = false) :
    c.cancelled = false := by
  rw [switch_step] at hlive
  cases hcancelled : c.cancelled with
  | false => rfl
  | true =>
      rw [e.switch_mono hcancelled] at hlive
      cases hlive

/-- A watch that was only just started is not asleep. -/
theorem wake?_of_new (e : Event) (hw : c.watchOf? service = none) :
    (c.step e).2.wake? service = none := by
  rw [wake?]
  rcases watchOf?_step_of_none e hw with hnone | hfresh
  · rw [hnone]
    rfl
  · rw [hfresh]
    rfl

/-- An event that brings no turn of the watch. -/
theorem Punctual.step_quiet (h : Punctual bounds service fired c laps) {e : Event}
    (hquiet : c.turnsAt service e = [])
    (hwake : ∀ wake ∈ (c.step e).2.wake? service, wake ∈ c.wake? service)
    (hallows : c.Allows service e) :
    Punctual bounds service (fired.or (e.cancels c.now)) (c.step e).2 laps := by
  refine ⟨?_, h.onTime, fun hlive wake hmem => ?_, ?_, fun f hf => ?_⟩
  · have hstrides := h.strides.step e
    rw [hquiet] at hstrides
    exact hstrides
  · rw [clock_step]
    exact hallows (cancelled_of_step hlive) wake (hwake wake hmem)
  · rw [switch_step, switch_eq_isSome h.switched]
  · obtain ⟨hle, hfiredBy⟩ := h.firedBy_cancels hf
    rw [clock_step]
    exact ⟨Nat.le_trans hle (e.le_clock c.now), hfiredBy⟩

/-- A signal that reaches the watch. -/
theorem Punctual.step_signal (h : Punctual bounds service fired c laps) {σ : Signal} {w : Watch}
    (hw : c.watchOf? service = some w) :
    Punctual bounds service fired (c.step (.signal service σ)).2
      (trace laps (w.turn (c.input σ))) := by
  have hmove := w.move_turn (c.input σ)
  have hstep : InStep bounds (c.input σ).cancelled w.phase w.backoff (sessions laps) :=
    (h.strides.paced w hw).inStep
  have hwaiting : (c.input σ).cancelled = false →
      ∀ wake ∈ w.phase.wake?, (c.input σ).now.nanos ≤ wake.nanos := by
    intro hlive
    have hwaiting := h.waiting hlive
    rwa [wake?_of_some hw] at hwaiting
  refine ⟨?_, ?_, fun hlive => ?_, ?_, fun f hf => ?_⟩
  · have hstrides := h.strides.step (.signal service σ)
    rw [turnsAt_signal σ hw] at hstrides
    exact hstrides
  · rw [Watch.sessions_trace]
    exact h.onTime.step hstep hwaiting hmove
  · rw [wake?_of_some (watchOf?_signal σ hw), clock_step]
    exact hmove.le_wake hwaiting (cancelled_of_step hlive)
  · rw [switch_step]
    exact h.switched
  · obtain ⟨hle, hfiredBy⟩ := h.fired f hf
    rw [clock_step, Watch.sessions_trace]
    exact ⟨hle, hfiredBy.step hle hstep hmove⟩

theorem Punctual.step (h : Punctual bounds service fired c laps) {e : Event}
    (hallows : c.Allows service e) :
    Punctual bounds service (fired.or (e.cancels c.now)) (c.step e).2
      ((c.turnsAt service e).foldl trace laps) := by
  cases hw : c.watchOf? service with
  | none =>
      have hquiet := turnsAt_of_none e hw
      rw [hquiet]
      refine h.step_quiet hquiet (fun wake hwake => ?_) hallows
      rw [wake?_of_new e hw] at hwake
      cases hwake
  | some w =>
      rcases c.inputsOf_cases service e with hinputs | ⟨σ, rfl, -⟩
      · have hquiet := turnsAt_of_no_input hinputs
        have hsame : (c.step e).2.wake? service = c.wake? service := by
          rw [wake?, watchOf?_step e hw, hinputs, wake?_of_some hw]
          rfl
        rw [hquiet]
        exact h.step_quiet hquiet (fun wake hwake => hsame ▸ hwake) hallows
      · rw [turnsAt_signal σ hw]
        change Punctual _ _ (fired.or none) _ _
        rw [Option.or_none]
        exact h.step_signal hw

theorem Punctual.run (h : Punctual bounds service fired c laps) {events : List Event}
    (hexact : c.Exact service events) :
    Punctual bounds service (fired.or (c.cancelledAt? events)) (c.run events)
      ((c.turnsOf service events).foldl trace laps) := by
  induction events generalizing fired c laps with
  | nil =>
      rw [cancelledAt?, Option.or_none]
      exact h
  | cons e rest ih =>
      rw [turnsOf, List.foldl_append, cancelledAt?, ← Option.or_assoc]
      exact ih (h.step hexact.1) hexact.2

/-- Every session but the newest is over, and so is the sleep after it when the next one begins. -/
theorem Punctual.next_began (h : Punctual bounds service fired c laps) {newer older : List Lap}
    {next lap : Lap} (hlaps : laps = newer ++ next :: lap :: older) :
    ∃ t, lap.session.ended = some t ∧
      lap.asked = some (delayFor bounds (sessions (lap :: older))) ∧
      next.session.began = dueAfter bounds (sessions (lap :: older)) t := by
  subst hlaps
  have honTime := h.onTime
  rw [sessions, List.map_append] at honTime
  obtain ⟨t, hended, hbegan⟩ := honTime.of_append.1
  obtain ⟨-, hbefore, hlap, -⟩ := h.strides.measured.of_append
  obtain ⟨d, -, hasked, -⟩ := hbefore lap rfl
  rw [hlap d hasked] at hasked
  exact ⟨t, hended, hasked, hbegan⟩

/-- If the sleep after the newest session is over, the client was cancelled by then. -/
theorem Punctual.fired_of_newest (h : Punctual bounds service fired c laps) {lap : Lap}
    {older : List Lap} (hlaps : laps = lap :: older) {t : Duration}
    (hended : lap.session.ended = some t)
    (hpassed : (dueAfter bounds (sessions laps) t).nanos < c.now.nanos) :
    ∃ f ∈ fired, f.nanos ≤ (dueAfter bounds (sessions laps) t).nanos := by
  have hdue : ∀ f, FiredBy bounds f (sessions laps) →
      f.nanos ≤ (dueAfter bounds (sessions laps) t).nanos := by
    intro f hf
    subst hlaps
    exact hf lap.session rfl t hended
  cases hfired : fired with
  | some f => exact ⟨f, rfl, hdue f (h.fired f hfired).2⟩
  | none =>
      have hlive : c.cancelled = false := by
        rw [h.switched, hfired]
        rfl
      exact absurd (hdue c.now (h.firedBy_now hlive)) (Nat.not_le_of_lt hpassed)

end Step

/-! ### The law -/

/-- **A watch connects again when its sleep is over.** Along a course with an exact timer, let the
sessions of a watch be numbered from 0 on. After session `i` the watch asks the timer for no other
delay than that of a fresh backoff which has skipped as many as there were sessions since the last
one that resets it, or since the first. If there is a next session, the watch has asked for that
delay and begins the next session just when the sleep is over: after the delay itself, unless that
is longer than the longest sleep, thirty years of 365 days. And if that moment has passed and the
client was not cancelled until then, there is a next session. -/
theorem reconnects_when_due (identity : String) (bounds : Backoff.Bounds) (service : String)
    (events : List Event) (hexact : (start identity bounds).Exact service events) :
    let c := start identity bounds
    let ls := laps (c.turnsOf service events)
    ∀ i lap, ls[i]? = some lap →
      (lap.session.ended = none → ls[i + 1]? = none) ∧
      ∀ t, lap.session.ended = some t →
        let delay := (Backoff.skip (sinceReset (sessions ls) i) { bounds }).1
        let longest := Duration.ofMillis 946080000000
        let due := t.plus (delay.least longest)
        (∀ d ∈ lap.asked, d = delay) ∧
        (∀ next, ls[i + 1]? = some next →
          lap.asked = some delay ∧ next.session.began = due ∧
          (delay.nanos ≤ longest.nanos → next.session.began = t.plus delay)) ∧
        (due.nanos < (c.run events).now.nanos →
          (∀ fired ∈ c.cancelledAt? events, due.nanos < fired.nanos) →
          ∃ next, ls[i + 1]? = some next) := by
  intro c ls i lap hlap
  have hpunctual := (punctual_start identity bounds service).run hexact
  rw [Option.none_or] at hpunctual
  obtain ⟨newer, older, hlaps, rfl⟩ := Watch.exists_of_getElem?_reverse hlap
  have hls : ls = (newer ++ lap :: older).reverse := congrArg List.reverse hlaps
  have hnext : ls[older.length + 1]? = newer.getLast? := by
    rw [hls, Watch.getElem?_reverse_next]
  have hdelay : (Backoff.skip (sinceReset (sessions ls) older.length) { bounds }).1 =
      delayFor bounds (sessions (lap :: older)) := by
    rw [hls, Watch.sinceReset_sessions]
    rfl
  rw [hnext, hdelay]
  rcases List.eq_nil_or_concat newer with rfl | ⟨newer, next, rfl⟩
  · rw [List.nil_append] at hlaps
    rw [hlaps] at hpunctual
    refine ⟨fun _ => rfl, fun t hended =>
      ⟨hpunctual.strides.measured.1, nofun, fun hpassed hlate => ?_⟩⟩
    obtain ⟨f, hf, hle⟩ := hpunctual.fired_of_newest rfl hended hpassed
    exact absurd (hlate f hf) (Nat.not_lt_of_le hle)
  · rw [List.concat_append] at hlaps
    obtain ⟨t, hended, hasked, hbegan⟩ := hpunctual.next_began hlaps
    rw [List.concat_eq_append, List.getLast?_concat, hended]
    refine ⟨nofun, fun t' ht' => ?_⟩
    cases ht'
    refine ⟨fun d hd => Option.some.inj (hd.symm.trans hasked), fun other hother => ?_,
      fun _ _ => ⟨next, rfl⟩⟩
    cases hother
    -- `dueAfter` asks the timer, whose longest sleep comes to just that many milliseconds.
    refine ⟨hasked, hbegan, fun hshort => ?_⟩
    rw [hbegan, dueAfter, Timer.wake, Timer.lasting_of_le hshort]

/-- Two connections are refused, and then a stream brings a response before it fails. -/
theorem reconnects_when_due_mixed :
    let bounds : Backoff.Bounds := ⟨.ofMillis 100, .ofMillis 1000⟩
    let events : List Event :=
      [.watch "web", .pass (.ofMillis 7), .signal "web" .wake, .signal "web" .connectFailed,
        .pass (.ofMillis 100), .signal "web" .wake, .signal "web" .connectFailed,
        .pass (.ofMillis 150), .signal "web" .wake, .pass (.ofMillis 50), .signal "web" .wake,
        .signal "web" .connected, .signal "web" .sent,
        .signal "web" (.received ⟨"1", "n", []⟩), .pass (.ofMillis 20), .signal "web" .sendFailed,
        .signal "web" .closed, .pass (.ofMillis 100), .signal "web" .wake, .pass (.ofMillis 5)]
    let c := start "node" bounds
    let ls := laps (c.turnsOf "web" events)
    c.Exact "web" events ∧
      ls[2]? = some ⟨⟨.ofMillis 307, 1, false, some (.ofMillis 327)⟩, some (.ofMillis 100)⟩ ∧
      ∃ next, ls[3]? = some next ∧ next.session.began = .ofMillis 427 := by
  intro bounds events c ls
  have hexact : c.Exact "web" events := by decide +kernel
  have hthird : ls[2]? =
      some ⟨⟨.ofMillis 307, 1, false, some (.ofMillis 327)⟩, some (.ofMillis 100)⟩ := by
    decide +kernel
  have hsince : sinceReset (sessions ls) 2 = 0 := by decide +kernel
  obtain ⟨-, hnext, hbegins⟩ :=
    (reconnects_when_due "node" bounds "web" events hexact 2 _ hthird).2 _ rfl
  have hdelay : (Backoff.skip (sinceReset (sessions ls) 2) { bounds }).1 = .ofMillis 100 := by
    rw [hsince]
    decide +kernel
  rw [hdelay] at hbegins
  obtain ⟨next, hsome⟩ := hbegins (by decide +kernel) (by decide +kernel)
  obtain ⟨-, hbegan, -⟩ := hnext next hsome
  rw [hdelay] at hbegan
  exact ⟨hexact, hthird, next, hsome, hbegan⟩

/-- A delay of thirty years and a second is asked for, but the timer wakes the watch a second before
it is over. -/
theorem delay_cut_short :
    let delay := Duration.ofMillis 946080001000
    let bounds : Backoff.Bounds := ⟨delay, delay⟩
    let cut := Duration.ofMillis 946080000000
    let events : List Event :=
      [.watch "a", .signal "a" .wake, .signal "a" .connectFailed, .pass cut, .signal "a" .wake]
    let c := start "n" bounds
    let ls := laps (c.turnsOf "a" events)
    c.Exact "a" events ∧ c.cancelledAt? events = none ∧
      ls = [⟨{ began := ⟨0⟩, ended := some ⟨0⟩ }, some delay⟩, ⟨{ began := cut }, none⟩] ∧
      (Backoff.skip (sinceReset (sessions ls) 0) { bounds }).1 = delay ∧
      cut ≠ (⟨0⟩ : Duration).plus delay := by
  intro delay bounds cut events c ls
  exact ⟨by decide +kernel, by decide +kernel, by decide +kernel, by decide +kernel, by decide⟩

end Client

end ServiceDiscovery
