import ServiceDiscovery.Proofs.Watch.Turn
/-!
# Streams of a watch, and how a cancelled watch winds down

Every stream that a watch obtains is closed once: between the streams opened and the closes begun
there is never more than the one stream that is still in use. A watch whose client is cancelled
begins nothing but a close, and after a single turn no stream is in use any more.
-/

namespace ServiceDiscovery

namespace Phase

def exchanging : Phase → Bool
  | .sending _ => true
  | .receiving _ => true
  | _ => false

/-- Whether the watch is done with its sessions, except perhaps for a close. -/
def settled : Phase → Bool
  | .closing _ => true
  | .stopped => true
  | _ => false

end Phase

namespace Watch

/-- A turn that takes nothing but the end of a close, and starts nothing but a close. -/
structure Turn.Winding (t : Turn) : Prop where
  taken : ∀ s ∈ t.taken, s = .closed
  actions : ∀ a ∈ t.actions, a = .close

theorem Turn.Winding.taken_cases {t : Turn} (h : t.Winding) :
    t.taken = none ∨ t.taken = some .closed := by
  cases htaken : t.taken with
  | none => exact .inl rfl
  | some s => exact .inr (congrArg some (h.taken s htaken))

theorem Turn.Winding.opens_eq_false {t : Turn} (h : t.Winding) : t.opens = false := by
  rcases h.taken_cases with htaken | htaken <;> rw [Turn.opens, htaken]

theorem Turn.Winding.responses_eq_nil {t : Turn} (h : t.Winding) : t.responses = [] := by
  rcases h.taken_cases with htaken | htaken <;> rw [Turn.responses, htaken]

def streamsOpened (run : List Turn) : Nat := run.countP Turn.opens

def closesBegun (run : List Turn) : Nat := (run.flatMap Turn.actions).count .close

theorem streamsOpened_append (first rest : List Turn) :
    streamsOpened (first ++ rest) = streamsOpened first + streamsOpened rest :=
  List.countP_append

theorem closesBegun_append (first rest : List Turn) :
    closesBegun (first ++ rest) = closesBegun first + closesBegun rest := by
  rw [closesBegun, List.flatMap_append, List.count_append, closesBegun, closesBegun]

section Step

variable {w next : Watch} {i : Input} {t : Turn}

theorem Move.balance (hmove : Move w i next t) :
    streamsOpened [t] + w.phase.exchanging.toNat =
      closesBegun [t] + next.phase.exchanging.toNat := by
  cases hmove with
  | launched _ hphase | opened _ hphase | refused _ hphase =>
      rw [hphase]
      rfl
  | woken _ _ hphase | sent _ _ hphase | sendFailed _ _ hphase | ended _ _ hphase
  | receiveFailed _ _ hphase | closed _ _ hphase | finished _ _ hphase =>
      rw [hphase]
      rfl
  | accepted _ _ _ _ hphase | rejected _ _ _ _ hphase =>
      rw [hphase]
      rfl
  | cut _ x hphase => rcases hphase with hphase | hphase <;> rw [hphase] <;> rfl
  | dropped _ hphase =>
      rcases hphase with hphase | hphase | ⟨wake, hphase⟩ <;> rw [hphase] <;> rfl
  | ignored => rfl

theorem Move.winding (hmove : Move w i next t) (hcancelled : i.cancelled = true) :
    t.Winding ∧ next.phase.settled = true := by
  cases hmove with
  | cut _ x hphase => exact ⟨⟨nofun, fun a ha => List.mem_singleton.mp ha⟩, rfl⟩
  | dropped _ hphase => exact ⟨⟨nofun, nofun⟩, rfl⟩
  | finished _ e hphase hsignal =>
      refine ⟨⟨fun s hs => ?_, nofun⟩, rfl⟩
      exact (Option.mem_some.mp hs).symm
  | ignored hidle hsettled =>
      refine ⟨⟨nofun, nofun⟩, ?_⟩
      rcases hsettled hcancelled with hphase | ⟨e, hphase⟩ <;> rw [hphase] <;> rfl
  | _ hlive => exact absurd (hcancelled.symm.trans hlive) Bool.noConfusion

/-- A cancelled watch that has no stream stops at once. -/
theorem Move.stopped_of_idle (hmove : Move w i next t) (hcancelled : i.cancelled = true)
    (hexchanging : w.phase.exchanging = false) (hclosing : ∀ e, w.phase ≠ .closing e) :
    next.phase = .stopped := by
  cases hmove with
  | cut _ x hphase =>
      rcases hphase with hphase | hphase <;> rw [hphase] at hexchanging <;> cases hexchanging
  | dropped => rfl
  | finished _ e hphase => exact absurd hphase (hclosing e)
  | ignored hidle hsettled =>
      rcases hsettled hcancelled with hphase | ⟨e, hphase⟩
      · exact hphase
      · exact absurd hphase (hclosing e)
  | _ hlive => exact absurd (hcancelled.symm.trans hlive) Bool.noConfusion

end Step

theorem not_exchanging_of_settled {p : Phase} (h : p.settled = true) : p.exchanging = false := by
  cases p with
  | closing e => rfl
  | stopped => rfl
  | _ => cases h

theorem stopped_of_closed {w : Watch} {i : Input} {e : Ending} (hcancelled : i.cancelled = true)
    (hphase : w.phase = .closing e) (hsignal : i.signal = .closed) :
    (w.feed i).1.phase = .stopped := by
  rw [feed, react, if_pos hcancelled]
  simp only [wind, hphase, hsignal, stop]

/-! ### Runs -/

theorem balance_run (w : Watch) (inputs : List Input) :
    streamsOpened (w.turns inputs) + w.phase.exchanging.toNat =
      closesBegun (w.turns inputs) + (w.after inputs).phase.exchanging.toNat := by
  induction inputs generalizing w with
  | nil => rfl
  | cons i rest ih =>
      have hmove := (w.move_turn i).balance
      have hrest := ih (w.feed i).1
      rw [turns_cons, after_cons, ← List.singleton_append, streamsOpened_append,
        closesBegun_append]
      omega

section Cancelled

variable {w : Watch} {inputs : List Input} (hcancelled : ∀ i ∈ inputs, i.cancelled = true)

include hcancelled

theorem winding_run : ∀ t ∈ w.turns inputs, t.Winding := by
  induction inputs generalizing w with
  | nil => nofun
  | cons i rest ih =>
      obtain ⟨hi, hrest⟩ := List.forall_mem_cons.mp hcancelled
      intro t ht
      rcases List.mem_cons.mp ht with rfl | ht
      · exact ((w.move_turn i).winding hi).1
      · exact ih hrest t ht

theorem settled_after (hsettled : w.phase.settled = true ∨ inputs ≠ []) :
    (w.after inputs).phase.settled = true := by
  induction inputs generalizing w with
  | nil => exact hsettled.resolve_right (not_not_intro rfl)
  | cons i rest ih =>
      obtain ⟨hi, hrest⟩ := List.forall_mem_cons.mp hcancelled
      exact ih hrest (.inl ((w.move_turn i).winding hi).2)

theorem stopped_after (hexchanging : w.phase.exchanging = false)
    (hclosing : ∀ e, w.phase ≠ .closing e) (hstopped : w.phase = .stopped ∨ inputs ≠ []) :
    (w.after inputs).phase = .stopped := by
  induction inputs generalizing w with
  | nil => exact hstopped.resolve_right (not_not_intro rfl)
  | cons i rest ih =>
      obtain ⟨hi, hrest⟩ := List.forall_mem_cons.mp hcancelled
      have hnext := (w.move_turn i).stopped_of_idle hi hexchanging hclosing
      refine ih hrest ?_ ?_ (.inl hnext)
      · rw [hnext]
        rfl
      · intro e
        rw [hnext]
        nofun

/-- Once a cancelled watch has taken a turn, the stream that was in use has been closed once. -/
theorem closesBegun_of_cancelled (hinputs : inputs ≠ []) :
    closesBegun (w.turns inputs) = w.phase.exchanging.toNat := by
  have hopened : streamsOpened (w.turns inputs) = 0 := by
    apply List.countP_eq_zero.mpr
    intro t ht
    rw [(winding_run hcancelled t ht).opens_eq_false]
    exact Bool.false_ne_true
  have hafter : (w.after inputs).phase.exchanging = false :=
    not_exchanging_of_settled (settled_after hcancelled (.inr hinputs))
  -- With no stream opened and none left, the balance is the one stream there was.
  have hbalance := w.balance_run inputs
  rw [hopened, hafter, Nat.zero_add] at hbalance
  exact hbalance.symm

end Cancelled

end Watch

end ServiceDiscovery
