import Mathlib.Data.List.Chain
import ServiceDiscovery.Proofs.Watch.Sessions
/-!
# The pauses between sessions

A lap is a session with the delay that the timer was asked for after it. Which delay that was
follows from the sessions since the last one that resets the backoff, whether the timer is exact or
not; and as a watch does not wake before its time, the next session begins when the sleep is over or
later. The pause is as long as the sleep, so it is the delay unless that is longer than the timer
can wait.
-/

namespace ServiceDiscovery

namespace Timer

theorem lasting_le (d : Duration) : (lasting d).nanos ≤ d.nanos := Nat.min_le_left _ _

theorem lasting_mono {d e : Duration} (h : d.nanos ≤ e.nanos) :
    (lasting d).nanos ≤ (lasting e).nanos :=
  Nat.le_min.mpr ⟨Nat.le_trans (Nat.min_le_left _ _) h, Nat.min_le_right _ _⟩

theorem lasting_of_le {d : Duration} (h : d.nanos ≤ longest.nanos) : lasting d = d :=
  congrArg Duration.mk (Nat.min_eq_left h)

end Timer

namespace Watch

structure Lap where
  session : Session
  /-- The delay for which a sleep was asked after the session. -/
  asked : Option Duration := none
  deriving DecidableEq

/-- How long the sleep after the session was. -/
def Lap.slept (lap : Lap) : Option Duration := lap.asked.map Timer.lasting

def Turn.asked (t : Turn) : Option Duration :=
  t.actions.findSome? fun
    | .sleep d => some d
    | _ => none

/-- How long the sleep is that a turn asks for. -/
def Turn.slept (t : Turn) : Option Duration := t.asked.map Timer.lasting

theorem Turn.asked_of_sleep {t : Turn} {d : Duration} (h : t.actions = [.sleep d]) :
    t.asked = some d := by
  rw [asked, h]
  rfl

theorem Turn.connect_not_mem_of_sleep {t : Turn} {d : Duration} (h : t.actions = [.sleep d]) :
    .connect ∉ t.actions := by
  rw [h]
  simp

/-- Adds a turn to the laps so far, of which the newest comes first. -/
def trace (laps : List Lap) (t : Turn) : List Lap :=
  if .connect ∈ t.actions then { session := { began := t.time } } :: laps
  else
    match laps with
    | [] => []
    | lap :: older => ⟨lap.session.observe t, t.asked.or lap.asked⟩ :: older

/-- The laps of some turns, in order. -/
def laps (turns : List Turn) : List Lap := (turns.foldl trace []).reverse

/-- The pauses that some turns begin, in order. -/
def pauses (turns : List Turn) : List Duration := turns.filterMap Turn.slept

def sessions (laps : List Lap) : List Session := laps.map Lap.session

theorem sessions_trace (laps : List Lap) (t : Turn) :
    sessions (trace laps t) = follow (sessions laps) t := by
  by_cases hconnect : Action.connect ∈ t.actions
  · rw [trace.eq_def, follow.eq_def, if_pos hconnect, if_pos hconnect]
    rfl
  · rw [trace.eq_def, follow.eq_def, if_neg hconnect, if_neg hconnect]
    cases laps <;> rfl

theorem pauses_append (first rest : List Turn) :
    pauses (first ++ rest) = pauses first ++ pauses rest := List.filterMap_append

theorem trace_quiet (laps : List Lap) (time : Duration) : trace laps ⟨time, none, []⟩ = laps := by
  cases laps <;> rfl

/-- The pause after the newest of some sessions. -/
def pauseAfter (bounds : Backoff.Bounds) (ss : List Session) : Duration :=
  Timer.lasting (delayFor bounds ss)

/-- Each delay is the one that the sessions call for, and its sleep lies between its session and the
next. -/
def Measured (bounds : Backoff.Bounds) : List Lap → Prop
  | [] => True
  | lap :: older =>
      (∀ d ∈ lap.asked, d = delayFor bounds (lap.session :: sessions older)) ∧
      (∀ before ∈ older.head?, ∃ d t, before.asked = some d ∧ before.session.ended = some t ∧
        (Timer.wake t d).nanos ≤ lap.session.began.nanos) ∧
      Measured bounds older

/-- The sessions of two laps are apart by the pause between them, and the next pause is no shorter
unless the backoff is reset before it. -/
def Lap.Precedes (lap next : Lap) : Prop :=
  ∃ d t, lap.slept = some d ∧ lap.session.ended = some t ∧
    (t.plus d).nanos ≤ next.session.began.nanos ∧
    (next.session.resets = false → ∀ d' ∈ next.slept, d.nanos ≤ d'.nanos)

/-- What the phase of a watch says about its newest lap. -/
def Phase.Fits (lap : Lap) : Phase → Prop
  | .sleeping wake =>
      ∃ d t, lap.asked = some d ∧ lap.session.ended = some t ∧ wake = Timer.wake t d
  | .stopped => True
  | _ => lap.asked = none

structure Paced (bounds : Backoff.Bounds) (cancelled : Bool) (w : Watch) (laps : List Lap) :
    Prop where
  inStep : InStep bounds cancelled w.phase w.backoff (sessions laps)
  measured : Measured bounds laps
  newest : ∀ lap ∈ laps.head?, Phase.Fits lap w.phase

section Step

variable {bounds : Backoff.Bounds} {w next : Watch} {i : Input} {laps older : List Lap} {lap : Lap}
  {t : Turn}

/-- A turn that begins no session only touches the newest lap. -/
theorem trace_cons (lap : Lap) (older : List Lap) (hconnect : .connect ∉ t.actions) :
    trace (lap :: older) t = ⟨lap.session.observe t, t.asked.or lap.asked⟩ :: older := by
  rw [trace.eq_def, if_neg hconnect]

theorem Measured.trace_cons (h : Measured bounds (lap :: older)) (hconnect : .connect ∉ t.actions)
    (hasked : ∀ d ∈ t.asked.or lap.asked,
      d = delayFor bounds (lap.session.observe t :: sessions older)) :
    Measured bounds (trace (lap :: older) t) := by
  obtain ⟨-, hbefore, hrest⟩ := h
  rw [Watch.trace_cons lap older hconnect]
  refine ⟨hasked, ?_, hrest⟩
  rw [Session.began_observe]
  exact hbefore

/-- A turn in a session that goes on. -/
theorem Measured.trace_awake (h : Measured bounds laps)
    (hawake : ∀ lap ∈ laps.head?, lap.asked = none)
    (hconnect : .connect ∉ t.actions) (hasked : t.asked = none) :
    Measured bounds (trace laps t) ∧ ∀ lap ∈ (trace laps t).head?, lap.asked = none := by
  cases laps with
  | nil =>
      rw [trace.eq_def, if_neg hconnect]
      exact ⟨trivial, nofun⟩
  | cons lap older =>
      have hnone : t.asked.or lap.asked = none := by rw [hasked, hawake lap rfl, Option.or_none]
      refine ⟨h.trace_cons hconnect fun d hd => ?_, ?_⟩
      · rw [hnone] at hd
        cases hd
      · rw [Watch.trace_cons lap older hconnect]
        intro newest hnewest
        cases hnewest
        exact hnone

/-- The turn at which a session is over and the watch falls asleep. -/
theorem Measured.trace_asleep (h : Measured bounds (lap :: older)) {e : Ending}
    (hbackoff : w.backoff = held bounds (sessions older))
    (hresets : (lap.session.observe t).resets = e.resets)
    (hended : (lap.session.observe t).ended = some i.now)
    (hactions : t.actions = [.sleep (w.delayAfter e).1]) :
    Measured bounds (trace (lap :: older) t) ∧
      ∀ newest ∈ (trace (lap :: older) t).head?, Phase.Fits newest (w.asleep i.now e).phase := by
  have hconnect := Turn.connect_not_mem_of_sleep hactions
  have hasked : t.asked.or lap.asked = some (w.delayAfter e).1 := by
    rw [Turn.asked_of_sleep hactions, Option.some_or]
  refine ⟨h.trace_cons hconnect fun d hd => ?_, ?_⟩
  · rw [hasked, delayAfter_eq hbackoff hresets] at hd
    exact (Option.some.inj hd).symm
  · rw [Watch.trace_cons lap older hconnect]
    intro newest hnewest
    cases hnewest
    exact ⟨_, _, hasked, hended, rfl⟩

theorem Paced.step (h : Paced bounds i.cancelled w laps) (hmove : Move w i next (w.turn i)) :
    Paced bounds i.cancelled next (trace laps (w.turn i)) := by
  obtain ⟨hstep, hmeasured, hnewest⟩ := h
  have hinStep : InStep bounds i.cancelled next.phase next.backoff
      (sessions (trace laps (w.turn i))) := by
    rw [sessions_trace]
    exact hstep.step hmove
  suffices hlaps : Measured bounds (trace laps (w.turn i)) ∧
      ∀ lap ∈ (trace laps (w.turn i)).head?, Phase.Fits lap next.phase from
    ⟨hinStep, hlaps.1, hlaps.2⟩
  clear hinStep
  generalize hss : sessions laps = ss at hstep
  generalize w.turn i = t at *
  obtain ⟨service, identity, backoff, phase⟩ := w
  cases hmove with
  | launched _ hphase =>
      cases hphase
      cases hstep
      rw [List.map_eq_nil_iff.mp hss]
      exact ⟨⟨nofun, nofun, trivial⟩, fun lap hlap => by cases hlap; rfl⟩
  | woken _ wake hphase hdue =>
      cases hphase
      refine ⟨⟨nofun, fun before hbefore => ?_, hmeasured⟩, fun lap hlap => by cases hlap; rfl⟩
      obtain ⟨d, t, hasked, hended, rfl⟩ := hnewest before hbefore
      exact ⟨d, t, hasked, hended, hdue⟩
  | refused _ hphase =>
      cases hphase
      cases hstep with
      | connecting began older =>
          obtain ⟨lap, rest, rfl, hlap, rfl⟩ := List.map_eq_cons_iff.mp hss
          exact hmeasured.trace_asleep (e := .failed 0) rfl (by rw [hlap]; rfl) rfl rfl
  | closed hlive e hphase =>
      cases hphase
      cases hstep with
      | closing _ s older _ hresets =>
          obtain ⟨lap, rest, rfl, hlap, rfl⟩ := List.map_eq_cons_iff.mp hss
          exact hmeasured.trace_asleep (e := e) rfl (by rw [hlap]; exact hresets) rfl rfl
      | cut _ _ _ hcancelled => exact absurd (hcancelled.symm.trans hlive) Bool.noConfusion
  | cut _ x hphase =>
      have hawake : ∀ lap ∈ laps.head?, lap.asked = none := by
        rcases hphase with hphase | hphase <;> cases hphase <;> exact hnewest
      exact hmeasured.trace_awake hawake (by simp) rfl
  | dropped =>
      rw [trace_quiet]
      exact ⟨hmeasured, fun _ _ => trivial⟩
  | finished _ e hphase =>
      cases hphase
      exact ⟨(hmeasured.trace_awake hnewest (by simp) rfl).1, fun _ _ => trivial⟩
  | ignored =>
      rw [trace_quiet]
      exact ⟨hmeasured, hnewest⟩
  | opened _ hphase =>
      cases hphase
      exact hmeasured.trace_awake hnewest (by simp) rfl
  | accepted _ x r endpoints hphase =>
      cases hphase
      exact hmeasured.trace_awake hnewest (by simp) rfl
  | rejected _ x r f hphase =>
      cases hphase
      exact hmeasured.trace_awake hnewest (by simp) rfl
  | _ _ x hphase =>
      cases hphase
      exact hmeasured.trace_awake hnewest (by simp) rfl

theorem slept_trace_awake (laps : List Lap) (hasked : t.asked = none) :
    (trace laps t).filterMap Lap.slept = laps.filterMap Lap.slept := by
  by_cases hconnect : Action.connect ∈ t.actions
  · rw [trace.eq_def, if_pos hconnect]
    rfl
  · cases laps with
    | nil => rw [trace.eq_def, if_neg hconnect]
    | cons lap older =>
        rw [Watch.trace_cons lap older hconnect, hasked, List.filterMap_cons, List.filterMap_cons]
        rfl

theorem slept_trace_asleep (older : List Lap) {d : Duration} (hactions : t.actions = [.sleep d])
    (hasked : lap.asked = none) :
    (trace (lap :: older) t).filterMap Lap.slept =
      Timer.lasting d :: (lap :: older).filterMap Lap.slept := by
  rw [Watch.trace_cons lap older (Turn.connect_not_mem_of_sleep hactions),
    Turn.asked_of_sleep hactions, List.filterMap_cons, List.filterMap_cons, Lap.slept, Lap.slept,
    hasked]
  rfl

/-- Every pause is that of a lap. -/
theorem Paced.slept_step (h : Paced bounds i.cancelled w laps)
    (hmove : Move w i next (w.turn i)) :
    (trace laps (w.turn i)).filterMap Lap.slept =
      (w.turn i).slept.toList ++ laps.filterMap Lap.slept := by
  obtain ⟨hstep, -, hnewest⟩ := h
  generalize hss : sessions laps = ss at hstep
  generalize w.turn i = t at *
  obtain ⟨service, identity, backoff, phase⟩ := w
  cases hmove with
  | refused _ hphase =>
      cases hphase
      cases hstep with
      | connecting began older =>
          obtain ⟨lap, rest, rfl, -, -⟩ := List.map_eq_cons_iff.mp hss
          exact slept_trace_asleep rest rfl (hnewest lap rfl)
  | closed _ e hphase =>
      cases hphase
      have hlaps : laps ≠ [] := by
        rintro rfl
        cases hstep <;> cases hss
      obtain ⟨lap, rest, rfl⟩ := List.exists_cons_of_ne_nil hlaps
      exact slept_trace_asleep rest rfl (hnewest lap rfl)
  | _ => exact slept_trace_awake laps rfl

theorem Paced.cancel {cancelled : Bool} (h : Paced bounds cancelled w laps) :
    Paced bounds true w laps :=
  ⟨h.inStep.cancel, h.measured, h.newest⟩

end Step

theorem sinceReset_sessions (newer : List Lap) (lap : Lap) (older : List Lap) :
    sinceReset (sessions (newer ++ lap :: older).reverse) older.length =
      lag (lap.session :: sessions older) := by
  have hlength : older.length = (sessions older).length := List.length_map _ |>.symm
  rw [sessions, List.map_reverse, List.map_append, List.map_cons, hlength]
  exact sinceReset_reverse _ _ _

/-! ### How long a pause is -/

section Measured

variable {bounds : Backoff.Bounds} {newer older : List Lap} {lap before : Lap}

theorem Measured.of_append (h : Measured bounds (newer ++ older)) : Measured bounds older := by
  induction newer with
  | nil => exact h
  | cons lap newer ih => exact ih h.2.2

theorem Measured.slept_eq (h : Measured bounds (lap :: older)) {d : Duration} (hd : d ∈ lap.slept) :
    d = pauseAfter bounds (lap.session :: sessions older) := by
  obtain ⟨delay, hasked, rfl⟩ := Option.map_eq_some_iff.mp hd
  rw [h.1 delay hasked, pauseAfter]

theorem Measured.eq_pauseAfter {laps : List Lap} (h : Measured bounds laps) (hlap : lap ∈ laps)
    {d : Duration} (hd : d ∈ lap.slept) :
    ∃ older, d = pauseAfter bounds (lap.session :: older) := by
  obtain ⟨newer, older, rfl⟩ := List.append_of_mem hlap
  exact ⟨_, h.of_append.slept_eq hd⟩

end Measured

section Bounds

variable {bounds : Backoff.Bounds} (hceiling : bounds.ceiling.nanos ≤ Duration.limit)

include hceiling

theorem pauseAfter_le_ceiling (ss : List Session) :
    (pauseAfter bounds ss).nanos ≤ bounds.ceiling.nanos :=
  Nat.le_trans (Timer.lasting_le _) (Backoff.skip_le_ceiling hceiling _)

/-- A session that does not reset the backoff is followed by no shorter a pause than the one before
it. -/
theorem pauseAfter_le (s before : Session) (older : List Session) (hresets : s.resets = false) :
    (pauseAfter bounds (before :: older)).nanos ≤
      (pauseAfter bounds (s :: before :: older)).nanos := by
  have hlag : lag (s :: before :: older) = lag (before :: older) + 1 := by
    rw [lag, hresets]
    exact tries_cons before older
  apply Timer.lasting_mono
  rw [delayFor, delayFor, hlag]
  exact Backoff.skip_le_succ hceiling (lag (before :: older))

theorem Measured.precedes {lap before : Lap} {older : List Lap}
    (h : Measured bounds (lap :: before :: older)) : before.Precedes lap := by
  obtain ⟨d, t, hasked, hended, hbegan⟩ := h.2.1 before rfl
  have hslept : before.slept = some (Timer.lasting d) := by rw [Lap.slept, hasked, Option.map_some]
  refine ⟨_, t, hslept, hended, hbegan, fun hresets d' hd' => ?_⟩
  rw [h.2.2.slept_eq hslept, h.slept_eq hd']
  exact pauseAfter_le hceiling _ _ _ hresets

theorem Measured.isChain {laps : List Lap} (h : Measured bounds laps) :
    laps.reverse.IsChain Lap.Precedes := by
  rw [List.isChain_reverse]
  induction laps with
  | nil => exact .nil
  | cons lap older ih =>
      cases older with
      | nil => exact .singleton lap
      | cons before older => exact .cons_cons (h.precedes hceiling) (ih h.2.2)

section Ordered

variable (hordered : bounds.initial.nanos ≤ bounds.ceiling.nanos)

include hordered

theorem initial_le_pauseAfter (ss : List Session) :
    (Timer.lasting bounds.initial).nanos ≤ (pauseAfter bounds ss).nanos :=
  Timer.lasting_mono (Backoff.initial_le_skip hceiling hordered (lag ss))

theorem pauseAfter_of_resets (s : Session) (older : List Session) (hresets : s.resets = true) :
    pauseAfter bounds (s :: older) = Timer.lasting bounds.initial := by
  rw [pauseAfter, delayFor, lag, hresets, if_pos rfl, Backoff.skip_zero hceiling hordered]

end Ordered

end Bounds

end Watch

end ServiceDiscovery
