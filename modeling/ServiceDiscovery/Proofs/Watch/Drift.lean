import ServiceDiscovery.Proofs.Watch.Turn
/-!
# What a watch does by itself

A watch goes on by itself while it waits for no result: it connects when its time has come, and winds
up when its client has been cancelled. Where that leads is settled beforehand, by its phase alone, so
between two results a watch is known up to `drift`, and it sends and receives nothing there.
-/

namespace ServiceDiscovery

/-- The phase that a phase leads to without any result. -/
def Phase.drift (cancelled : Bool) (p : Phase) : Phase :=
  match cancelled, p with
  | false, .starting => .connecting
  | false, .sleeping _ => .connecting
  | false, p => p
  | true, .sending _ => .closing .cancelled
  | true, .receiving _ => .closing .cancelled
  | true, .closing e => .closing e
  | true, _ => .stopped

/-- When a watch in a phase is to connect next. -/
def Phase.due? (now : Duration) : Phase → Option Duration
  | .starting => some now
  | .sleeping wake => some wake
  | _ => none

/-- Whether a signal is the result of something that a watch has started. -/
def Signal.isResult : Signal → Bool
  | .wake => false
  | _ => true

namespace Watch

def drift (cancelled : Bool) (w : Watch) : Watch := { w with phase := w.phase.drift cancelled }

def due? (w : Watch) (cancelled : Bool) (now : Duration) : Option Duration :=
  if cancelled then none else w.phase.due? now

/-- Whether the watch waited for a result that came. -/
def Turn.settles (t : Turn) : Bool := t.taken.any Signal.isResult

/-- The times at which turns make an attempt to connect. -/
def attempts (turns : List Turn) : List Duration :=
  (turns.filter fun t => .connect ∈ t.actions).map Turn.time

@[simp] theorem attempts_nil : attempts [] = [] := rfl

theorem attempts_append (first rest : List Turn) :
    attempts (first ++ rest) = attempts first ++ attempts rest := by
  rw [attempts, List.filter_append, List.map_append]
  rfl

/-- Where a watch ends up does not depend on how far it has come, also if it is cancelled on the
way. -/
theorem drift_drift {before after : Bool} (h : before = true → after = true) (w : Watch) :
    (w.drift before).drift after = w.drift after := by
  obtain ⟨service, identity, backoff, phase⟩ := w
  cases before with
  | true =>
      rw [h rfl]
      cases phase <;> rfl
  | false => cases after <;> cases phase <;> rfl

section Move

variable {w next : Watch} {i : Input} {t : Turn}

/-- Without a result a watch only drifts. -/
theorem Move.drift_of_unsettled (hmove : Move w i next t) (hquiet : t.settles = false) :
    next.drift i.cancelled = w.drift i.cancelled ∧ t.requests = [] ∧ t.responses = [] := by
  obtain ⟨service, identity, backoff, phase⟩ := w
  cases hmove with
  | launched hlive hphase =>
      cases hphase
      rw [hlive]
      exact ⟨rfl, rfl, rfl⟩
  | woken hlive wake hphase =>
      cases hphase
      rw [hlive]
      exact ⟨rfl, rfl, rfl⟩
  | cut hcancelled x hphase =>
      rw [hcancelled]
      rcases hphase with hphase | hphase <;> cases hphase <;> exact ⟨rfl, rfl, rfl⟩
  | dropped hcancelled hphase =>
      rw [hcancelled]
      rcases hphase with hphase | hphase | ⟨wake, hphase⟩ <;> cases hphase <;> exact ⟨rfl, rfl, rfl⟩
  | ignored => exact ⟨rfl, rfl, rfl⟩
  | _ => cases hquiet

/-- A watch that waits for a result does not drift meanwhile. -/
theorem Move.drift_of_settles (hmove : Move w i next t) (hsettles : t.settles = true) :
    w.drift i.cancelled = w := by
  have hfixed : ∀ {p : Phase}, w.phase = p → p.drift i.cancelled = p → w.drift i.cancelled = w := by
    rintro p rfl hdrift
    rw [drift, hdrift]
  cases hmove with
  | launched => cases hsettles
  | woken => cases hsettles
  | cut => cases hsettles
  | dropped => cases hsettles
  | ignored => cases hsettles
  | opened hlive hphase => exact hfixed hphase (by rw [hlive]; rfl)
  | refused hlive hphase => exact hfixed hphase (by rw [hlive]; rfl)
  | accepted hlive x r endpoints hphase => exact hfixed hphase (by rw [hlive]; rfl)
  | rejected hlive x r f hphase => exact hfixed hphase (by rw [hlive]; rfl)
  | _ hswitch x hphase => exact hfixed hphase (by rw [hswitch]; rfl)

/-! ### When it connects -/

/-- A watch without a result makes no attempt but the one that is due. -/
theorem Move.due_of_unsettled (hmove : Move w i next t) (hquiet : t.settles = false)
    (hwaiting : ∀ due ∈ w.due? i.cancelled i.now, i.now.nanos ≤ due.nanos) :
    attempts [t] ++ (next.due? i.cancelled i.now).toList = (w.due? i.cancelled i.now).toList := by
  obtain ⟨service, identity, backoff, phase⟩ := w
  cases hmove with
  | launched hlive hphase =>
      cases hphase
      rw [hlive]
      rfl
  | woken hlive wake hphase hdue =>
      cases hphase
      rw [hlive] at hwaiting ⊢
      have hnow : i.now = wake :=
        congrArg Duration.mk (Nat.le_antisymm (hwaiting wake rfl) hdue)
      rw [hnow]
      rfl
  | cut hcancelled x hphase =>
      rw [hcancelled]
      rfl
  | dropped hcancelled hphase =>
      rw [hcancelled]
      rfl
  | ignored => rfl
  | _ => cases hquiet

theorem Move.due_of_settles (hmove : Move w i next t) (hsettles : t.settles = true) :
    attempts [t] = [] ∧ w.due? i.cancelled i.now = none := by
  have hdue : w.due? i.cancelled i.now = none := by
    have hdrift := hmove.drift_of_settles hsettles
    obtain ⟨service, identity, backoff, phase⟩ := w
    cases hcancelled : i.cancelled with
    | true => rfl
    | false =>
        rw [hcancelled] at hdrift
        cases phase with
        | starting => cases hdrift
        | sleeping wake => cases hdrift
        | _ => rfl
  refine ⟨?_, hdue⟩
  cases hmove with
  | launched => cases hsettles
  | woken => cases hsettles
  | _ => rfl

theorem Move.le_due (hmove : Move w i next t)
    (hwaiting : ∀ due ∈ w.due? i.cancelled i.now, i.now.nanos ≤ due.nanos) :
    ∀ due ∈ next.due? i.cancelled i.now, i.now.nanos ≤ due.nanos := by
  intro due hdue
  cases hcancelled : i.cancelled with
  | true =>
      rw [hcancelled] at hdue
      cases hdue
  | false =>
      rw [hcancelled] at hdue
      cases hmove with
      | refused =>
          cases hdue
          exact Nat.le_add_right _ _
      | closed =>
          cases hdue
          exact Nat.le_add_right _ _
      | ignored =>
          rw [hcancelled] at hwaiting
          exact hwaiting due hdue
      | _ => cases hdue

end Move

end Watch

end ServiceDiscovery
