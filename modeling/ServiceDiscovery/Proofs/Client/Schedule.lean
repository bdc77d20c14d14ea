import ServiceDiscovery.Proofs.Client.Share
/-!
# When the watch of a service connects

A watch that was started or is asleep is due to connect at a time, unless its client is cancelled
first. If the clock does not pass that time before the watch has connected, the attempts that were
made and the one that is due make up an agenda. An event that does not concern the service leaves
the agenda as it is: at most, what was due has been done.
-/

namespace ServiceDiscovery

namespace Client

open Watch (attempts)

/-- When the watch of a service is due to connect. -/
def due? (c : Client) (service : String) : Option Duration :=
  (c.watchOf? service).bind fun w => w.due? c.cancelled c.now

/-- The clock does not pass the time at which the watch is due. -/
def Heeds (c : Client) (service : String) (e : Event) : Prop :=
  ∀ due ∈ c.due? service, (e.clock c.now).nanos ≤ due.nanos

instance (c : Client) (service : String) (e : Event) : Decidable (c.Heeds service e) :=
  inferInstanceAs (Decidable (∀ _ ∈ _, _))

/-- The watch of a service connects when it is due, unless the client is cancelled before. -/
def Prompt (c : Client) (service : String) : List Event → Prop
  | [] => True
  | e :: rest => c.Heeds service e ∧ Prompt (c.step e).2 service rest

instance decidablePrompt (c : Client) (service : String) (events : List Event) :
    Decidable (c.Prompt service events) :=
  match events with
  | [] => inferInstanceAs (Decidable True)
  | e :: rest =>
      have := decidablePrompt (c.step e).2 service rest
      inferInstanceAs (Decidable (_ ∧ _))

/-- Whether an event cancels the client at the moment at which the watch is due, but before it has
connected. -/
def overtakes (c : Client) (service : String) : Event → Bool
  | .cancel => (c.due? service).any fun due => due.nanos ≤ c.now.nanos
  | _ => false

/-- Whether the cancellation in a course overtakes the watch. -/
def overtaken (c : Client) (service : String) : List Event → Bool
  | [] => false
  | e :: rest => c.overtakes service e || overtaken (c.step e).2 service rest

/-- The attempts that were made, and the one that is due. -/
def agenda (c : Client) (service : String) (made : List Duration) : List Duration :=
  made ++ (c.due? service).toList

/-- The attempts that were made are past, and the one that is due is not. -/
structure Timely (c : Client) (service : String) (made : List Duration) : Prop where
  past : ∀ t ∈ made, t.nanos ≤ c.now.nanos
  waiting : ∀ due ∈ c.due? service, c.now.nanos ≤ due.nanos

section Step

variable {c : Client} {service : String} {e : Event}

theorem due?_of_cancelled (service : String) (h : c.cancelled = true) : c.due? service = none := by
  rw [due?, h]
  cases c.watchOf? service <;> rfl

theorem due?_of_some {w : Watch} (hw : c.watchOf? service = some w) :
    c.due? service = w.due? c.cancelled c.now := by
  rw [due?, hw, Option.bind_some]

theorem due?_of_none (hw : c.watchOf? service = none) : c.due? service = none := by
  rw [due?, hw, Option.bind_none]

theorem due?_step (c : Client) (service : String) (e : Event) :
    (c.step e).2.due? service = ((c.step e).2.watchOf? service).bind fun w =>
      w.due? (e.switch c.cancelled) (e.clock c.now) := by
  rw [due?, switch_step, clock_step]

theorem time_of_mem_turnsAt {t : Watch.Turn} (ht : t ∈ c.turnsAt service e) : t.time = c.now := by
  cases hw : c.watchOf? service with
  | none =>
      rw [turnsAt_of_none e hw] at ht
      cases ht
  | some w =>
      rcases c.inputsOf_cases service e with hinputs | ⟨σ, rfl, -⟩
      · rw [turnsAt_of_no_input hinputs] at ht
        cases ht
      · rw [turnsAt_signal σ hw] at ht
        rw [List.mem_singleton.mp ht]
        rfl

theorem due?_of_signal {w : Watch} (σ : Signal) (hw : c.watchOf? service = some w) :
    (c.step (.signal service σ)).2.due? service =
      (w.feed (c.input σ)).1.due? (c.input σ).cancelled (c.input σ).now := by
  rw [due?_step, watchOf?_signal σ hw]
  rfl

/-- While the clock moves no further than to the time at which a watch is due, that time stays. -/
theorem due?_clock {w : Watch} (hw : c.watchOf? service = some w) (hheeds : c.Heeds service e) :
    w.due? c.cancelled (e.clock c.now) = w.due? c.cancelled c.now := by
  rw [Heeds, due?_of_some hw] at hheeds
  cases hcancelled : c.cancelled with
  | true => rfl
  | false =>
      rw [hcancelled] at hheeds
      obtain ⟨service, identity, backoff, phase⟩ := w
      cases phase with
      | starting =>
          have hnow : e.clock c.now = c.now :=
            congrArg Duration.mk (Nat.le_antisymm (hheeds c.now rfl) (e.le_clock c.now))
          exact congrArg some hnow
      | _ => rfl

/-- An event that does not reach a watch does not change when it is due. -/
theorem due?_of_no_input {w : Watch} (hw : c.watchOf? service = some w)
    (hinputs : c.inputsOf service e = []) (hheeds : c.Heeds service e)
    (hswitch : e.switch c.cancelled = c.cancelled) : (c.step e).2.due? service = c.due? service := by
  rw [due?_step, watchOf?_step e hw, hinputs, hswitch, due?_of_some hw]
  exact due?_clock hw hheeds

theorem due?_of_launch (hw : c.watchOf? service = none) :
    (c.step e).2.due? service =
      (if c.launches service e then some (c.freshWatch service) else none).bind fun w =>
        w.due? (e.switch c.cancelled) (e.clock c.now) := by
  rw [due?_step, watchOf?_step_launch e hw]

/-- A watch that was just started is due at once. -/
theorem due_of_launch (hw : c.watchOf? service = none) {due : Duration}
    (hdue : due ∈ (c.step e).2.due? service) : due = e.clock c.now := by
  rw [due?_of_launch hw] at hdue
  obtain ⟨w, hfresh, hdue⟩ := Option.bind_eq_some_iff.mp hdue
  cases hlaunches : c.launches service e with
  | false =>
      rw [hlaunches] at hfresh
      cases hfresh
  | true =>
      rw [hlaunches] at hfresh
      cases hfresh
      cases hswitch : e.switch c.cancelled with
      | true =>
          rw [hswitch] at hdue
          cases hdue
      | false =>
          rw [hswitch] at hdue
          exact (Option.some.inj hdue).symm

theorem due?_of_switch (h : e.switch c.cancelled = true) : (c.step e).2.due? service = none :=
  due?_of_cancelled service ((c.switch_step e).trans h)

theorem Timely.step {made : List Duration} (h : Timely c service made) (hheeds : c.Heeds service e) :
    Timely (c.step e).2 service (made ++ attempts (c.turnsAt service e)) := by
  refine ⟨fun t ht => ?_, fun due hdue => ?_⟩
  · rw [clock_step]
    refine Nat.le_trans ?_ (e.le_clock c.now)
    rcases List.mem_append.mp ht with hmade | hnew
    · exact h.past t hmade
    · obtain ⟨turn, hturn, rfl⟩ := List.mem_map.mp hnew
      exact Nat.le_of_eq (congrArg Duration.nanos (time_of_mem_turnsAt (List.mem_filter.mp hturn).1))
  · rw [clock_step]
    cases hw : c.watchOf? service with
    | none => exact Nat.le_of_eq (congrArg Duration.nanos (due_of_launch hw hdue).symm)
    | some w =>
        rcases c.inputsOf_cases service e with hinputs | ⟨σ, rfl, -⟩
        · rcases e.switch_cases c.cancelled with hswitch | hswitch
          · rw [due?_of_switch hswitch] at hdue
            cases hdue
          · rw [due?_of_no_input hw hinputs hheeds hswitch] at hdue
            exact hheeds due hdue
        · have hwaiting := h.waiting
          rw [due?_of_some hw] at hwaiting
          rw [due?_of_signal σ hw] at hdue
          exact (w.move_turn (c.input σ)).le_due hwaiting due hdue

theorem overtakes_of_quiet (h : c.concerns service e = false) : c.overtakes service e = false := by
  cases e with
  | cancel => cases h
  | _ => rfl

/-- An event that does not concern the service does at most what is due. -/
theorem Timely.agenda_of_quiet {made : List Duration} (h : Timely c service made)
    (hheeds : c.Heeds service e) (hquiet : c.concerns service e = false) :
    (c.step e).2.agenda service (made ++ attempts (c.turnsAt service e)) = c.agenda service made := by
  obtain ⟨-, -, -, hlaunches, hswitch⟩ := call_of_quiet hquiet
  rw [agenda, agenda, List.append_assoc]
  congr 1
  cases hw : c.watchOf? service with
  | none =>
      rw [turnsAt_of_none e hw, due?_of_launch hw, hlaunches, due?_of_none hw]
      rfl
  | some w =>
      rcases c.inputsOf_cases service e with hinputs | ⟨σ, rfl, -⟩
      · rw [turnsAt_of_no_input hinputs, due?_of_no_input hw hinputs hheeds hswitch]
        rfl
      · have hwaiting := h.waiting
        rw [due?_of_some hw] at hwaiting
        rw [due?_of_signal σ hw, turnsAt_signal σ hw, due?_of_some hw]
        exact (w.move_turn (c.input σ)).due_of_unsettled (unsettled_of_quiet hw hquiet) hwaiting

end Step

/-! ### Events of the share -/

section Joint

variable {c₁ c₂ : Client} {service : String} {e : Event} {made₁ made₂ : List Duration}

theorem attempts_of_concerns {c : Client} (h : c.concerns service e = true) :
    attempts (c.turnsAt service e) = [] := by
  rcases c.inputsOf_cases service e with hinputs | ⟨σ, rfl, -⟩
  · rw [turnsAt_of_no_input hinputs]
    rfl
  · obtain ⟨-, w, hw, hsettles⟩ := settles_of_concerns h
    rw [turnsAt_signal σ hw]
    exact ((w.move_turn (c.input σ)).due_of_settles hsettles).1

/-- An event of the share that is no cancellation leaves both agendas as they are, or begins both
anew. -/
theorem due?_of_joint (hview : c₁.view service = c₂.view service) (hnow : c₁.now = c₂.now)
    (h₁ : c₁.concerns service e = true) (h₂ : c₂.concerns service e = true)
    (hheeds₁ : c₁.Heeds service e) (hheeds₂ : c₂.Heeds service e)
    (hswitch : ∀ cancelled, e.switch cancelled = cancelled) :
    ((c₁.step e).2.due? service = c₁.due? service ∧ (c₂.step e).2.due? service = c₂.due? service) ∨
      (c₁.due? service = none ∧ c₂.due? service = none ∧
        (c₁.step e).2.due? service = (c₂.step e).2.due? service) := by
  obtain ⟨hidentity, hbounds, hcancelled, -, -, hwatch⟩ := View.mk.inj hview
  rcases c₁.inputsOf_cases service e with hinputs₁ | ⟨σ, rfl, -⟩
  · have hinputs₂ : c₂.inputsOf service e = [] := by
      rcases c₂.inputsOf_cases service e with hinputs₂ | ⟨σ, rfl, -⟩
      · exact hinputs₂
      · cases (if_pos rfl).symm.trans hinputs₁
    cases hw₁ : c₁.watchOf? service with
    | none =>
        rw [hw₁] at hwatch
        have hw₂ : c₂.watchOf? service = none := Option.map_eq_none_iff.mp hwatch.symm
        have hfresh : c₁.freshWatch service = c₂.freshWatch service := by
          rw [freshWatch, freshWatch, hidentity, hbounds]
        refine .inr ⟨due?_of_none hw₁, due?_of_none hw₂, ?_⟩
        rw [due?_of_launch hw₁, due?_of_launch hw₂, hfresh, hcancelled, hnow, launches_congr hview]
    | some w₁ =>
        rw [hw₁] at hwatch
        obtain ⟨w₂, hw₂, -⟩ := Option.map_eq_some_iff.mp hwatch.symm
        exact .inl ⟨due?_of_no_input hw₁ hinputs₁ hheeds₁ (hswitch _),
          due?_of_no_input hw₂ hinputs₂ hheeds₂ (hswitch _)⟩
  · obtain ⟨-, hinput, w, hw₁, hw₂, hsettles⟩ := signal_of_joint hview hnow h₁ h₂
    have hnone₁ := ((w.move_turn (c₁.input σ)).due_of_settles hsettles).2
    have hnone₂ := hnone₁
    rw [hinput] at hnone₂
    refine .inr ⟨(due?_of_some hw₁).trans hnone₁, (due?_of_some hw₂).trans hnone₂, ?_⟩
    rw [due?_of_signal σ hw₁, due?_of_signal σ hw₂, hinput]

/-- If the attempt that is due in one client was made in the other, cancelling overtakes just the one
that is due. -/
theorem Timely.overtakes_due (h₂ : Timely c₂ service made₂) (hnow : c₁.now = c₂.now)
    (hagenda : c₁.agenda service made₁ = c₂.agenda service made₂) {due : Duration}
    (hdue₁ : c₁.due? service = some due) (hdue₂ : c₂.due? service = none) :
    c₁.overtakes service .cancel = true ∧ c₂.overtakes service .cancel = false := by
  rw [agenda, hdue₁, agenda, hdue₂, Option.toList_none, List.append_nil] at hagenda
  have hmade : due ∈ made₂ := by
    rw [← hagenda]
    exact List.mem_append_right _ List.mem_cons_self
  have hpast := h₂.past due hmade
  rw [overtakes, hdue₁, overtakes, hdue₂, hnow]
  exact ⟨decide_eq_true hpast, rfl⟩

theorem made_eq_of_cancel (hnow : c₁.now = c₂.now) (h₁ : Timely c₁ service made₁)
    (h₂ : Timely c₂ service made₂)
    (hovertakes : c₁.overtakes service .cancel = c₂.overtakes service .cancel)
    (hagenda : c₁.agenda service made₁ = c₂.agenda service made₂) : made₁ = made₂ := by
  cases hdue₁ : c₁.due? service with
  | none =>
      cases hdue₂ : c₂.due? service with
      | none =>
          rw [agenda, hdue₁, agenda, hdue₂, Option.toList_none, List.append_nil, List.append_nil]
            at hagenda
          exact hagenda
      | some due =>
          obtain ⟨htrue, hfalse⟩ := h₁.overtakes_due hnow.symm hagenda.symm hdue₂ hdue₁
          rw [htrue, hfalse] at hovertakes
          cases hovertakes
  | some due =>
      cases hdue₂ : c₂.due? service with
      | none =>
          obtain ⟨htrue, hfalse⟩ := h₂.overtakes_due hnow hagenda hdue₁ hdue₂
          rw [htrue, hfalse] at hovertakes
          cases hovertakes
      | some due' =>
          rw [agenda, hdue₁, agenda, hdue₂] at hagenda
          exact List.append_inj_left' hagenda rfl

theorem agenda_of_joint (hview : c₁.view service = c₂.view service) (hnow : c₁.now = c₂.now)
    (h₁ : c₁.concerns service e = true) (h₂ : c₂.concerns service e = true)
    (hheeds₁ : c₁.Heeds service e) (hheeds₂ : c₂.Heeds service e)
    (htimely₁ : Timely c₁ service made₁) (htimely₂ : Timely c₂ service made₂)
    (hovertakes : c₁.overtakes service e = c₂.overtakes service e)
    (hagenda : c₁.agenda service made₁ = c₂.agenda service made₂) :
    (c₁.step e).2.agenda service made₁ = (c₂.step e).2.agenda service made₂ := by
  by_cases hcancel : e = .cancel
  · subst hcancel
    rw [agenda, due?_of_switch rfl, agenda, due?_of_switch rfl,
      made_eq_of_cancel hnow htimely₁ htimely₂ hovertakes hagenda]
  · have hswitch : ∀ cancelled, e.switch cancelled = cancelled := by
      cases e with
      | cancel => exact absurd rfl hcancel
      | _ => exact fun _ => rfl
    rcases due?_of_joint hview hnow h₁ h₂ hheeds₁ hheeds₂ hswitch with
      ⟨hdue₁, hdue₂⟩ | ⟨hnone₁, hnone₂, hdue⟩
    · rw [agenda, hdue₁, agenda, hdue₂]
      exact hagenda
    · rw [agenda, hnone₁, agenda, hnone₂, Option.toList_none, List.append_nil, List.append_nil]
        at hagenda
      rw [agenda, agenda, hagenda, hdue]

end Joint

/-! ### Courses -/

section Run

variable {c : Client} {service : String} {made : List Duration}

/-- Only the first cancellation overtakes anything. -/
theorem overtaken_of_cancelled (h : c.cancelled = true) (events : List Event) :
    c.overtaken service events = false := by
  induction events generalizing c with
  | nil => rfl
  | cons e rest ih =>
      have hnext : (c.step e).2.cancelled = true := (c.switch_step e).trans (e.switch_mono h)
      rw [overtaken, ih hnext, Bool.or_false]
      cases e with
      | cancel => rw [overtakes, due?_of_cancelled service h]; rfl
      | _ => rfl

theorem overtaken_cons {c₁ c₂ : Client} {e : Event} {rest₁ rest₂ : List Event}
    (h : c₁.overtaken service (e :: rest₁) = c₂.overtaken service (e :: rest₂)) :
    c₁.overtakes service e = c₂.overtakes service e ∧
      (c₁.step e).2.overtaken service rest₁ = (c₂.step e).2.overtaken service rest₂ := by
  cases e with
  | cancel =>
      have hlast₁ : (c₁.step .cancel).2.overtaken service rest₁ = false :=
        overtaken_of_cancelled rfl rest₁
      have hlast₂ : (c₂.step .cancel).2.overtaken service rest₂ = false :=
        overtaken_of_cancelled rfl rest₂
      rw [overtaken, overtaken, hlast₁, hlast₂, Bool.or_false, Bool.or_false] at h
      exact ⟨h, hlast₁.trans hlast₂.symm⟩
  | _ => exact ⟨rfl, h⟩

theorem made_cons (made : List Duration) (c : Client) (service : String) (e : Event)
    (rest : List Event) :
    made ++ attempts (c.turnsOf service (e :: rest)) =
      made ++ attempts (c.turnsAt service e) ++ attempts ((c.step e).2.turnsOf service rest) := by
  rw [turnsOf, Watch.attempts_append, List.append_assoc]

theorem Timely.run (h : Timely c service made) {events : List Event}
    (hprompt : c.Prompt service events) :
    Timely (c.run events) service (made ++ attempts (c.turnsOf service events)) := by
  induction events generalizing c made with
  | nil =>
      rw [turnsOf, Watch.attempts_nil, List.append_nil]
      exact h
  | cons e rest ih =>
      rw [made_cons]
      exact ih (h.step hprompt.1) hprompt.2

/-- What is due is not past, so the past attempts are those of the agenda. -/
theorem Timely.filter_agenda (h : Timely c service made) {time : Duration}
    (htime : time.nanos ≤ c.now.nanos) :
    (c.agenda service made).filter (fun t => t.nanos < time.nanos) =
      made.filter fun t => t.nanos < time.nanos := by
  rw [agenda, List.filter_append]
  cases hdue : c.due? service with
  | none => exact List.append_nil _
  | some due =>
      have hlate : ¬ due.nanos < time.nanos :=
        Nat.not_lt_of_le (Nat.le_trans htime (h.waiting due hdue))
      rw [Option.toList_some, List.filter_singleton, decide_eq_false hlate]
      exact List.append_nil _

end Run

end Client

end ServiceDiscovery
