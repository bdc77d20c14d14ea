import ServiceDiscovery.Proofs.Backoff
import ServiceDiscovery.Proofs.Watch.Turn
/-!
# The sessions of a watch and the delays between them

A session begins with an attempt to connect and is over when that is refused or when its stream is
closed. The delay after it is determined by the sessions since the last one that resets the backoff.
The invariant is `InStep`: it ties the phase and the backoff of a watch to the sessions seen so far,
and a sleeping watch is to wake when the sleep is over that it asked the timer for. All that is
claimed of the delays is read off the sessions, so the attempt counter appears in the invariant
only.
-/

namespace ServiceDiscovery

/-- When a watch in a phase is to be woken, if it is asleep. -/
def Phase.wake? : Phase → Option Duration
  | .sleeping wake => some wake
  | _ => none

namespace Watch

/-- What can be observed of one session. -/
structure Session where
  /-- When it made its attempt to connect. -/
  began : Duration
  responses : Nat := 0
  /-- The server closed the stream. -/
  clean : Bool := false
  ended : Option Duration := none
  deriving DecidableEq

namespace Session

/-- Whether the backoff is to start afresh after it. -/
def resets (s : Session) : Bool := s.clean || decide (s.responses > 0)

def observe (s : Session) (t : Turn) : Session :=
  match t.taken with
  | some (.received _) => { s with responses := s.responses + 1 }
  | some .ended => { s with clean := true }
  | some .connectFailed => { s with ended := some t.time }
  | some .closed => { s with ended := some t.time }
  | _ => s

theorem began_observe (s : Session) (t : Turn) : (s.observe t).began = s.began := by
  rw [observe]
  split <;> rfl

end Session

/-- Adds a turn to the sessions so far, of which the newest comes first. -/
def follow (ss : List Session) (t : Turn) : List Session :=
  if .connect ∈ t.actions then { began := t.time } :: ss
  else
    match ss with
    | [] => []
    | s :: older => s.observe t :: older

theorem follow_quiet (ss : List Session) (time : Duration) : follow ss ⟨time, none, []⟩ = ss := by
  cases ss <;> rfl

/-- How many delays a backoff has taken since it started afresh, after these sessions. -/
def tries : List Session → Nat
  | [] => 0
  | s :: older => if s.resets then 1 else tries older + 1

/-- How many delays are skipped by the one after the newest session. -/
def lag : List Session → Nat
  | [] => 0
  | s :: older => if s.resets then 0 else tries older

theorem tries_cons (s : Session) (older : List Session) :
    tries (s :: older) = lag (s :: older) + 1 := by
  rw [tries, lag]
  cases s.resets with
  | false => rfl
  | true => rfl

section Delays

variable (bounds : Backoff.Bounds)

def held (ss : List Session) : Backoff := Backoff.advance^[tries ss] { bounds }

/-- The delay after the newest session. -/
def delayFor (ss : List Session) : Duration := (Backoff.skip (lag ss) { bounds }).1

/-- When the sleep after the newest session is over, if that one was over at a time. -/
def dueAfter (ss : List Session) (t : Duration) : Duration := Timer.wake t (delayFor bounds ss)

/-- Each session but the first began when the sleep after the one before it was over. -/
def OnTime : List Session → Prop
  | next :: s :: older =>
      (∃ t, s.ended = some t ∧ next.began = dueAfter bounds (s :: older) t) ∧ OnTime (s :: older)
  | _ => True

/-- The sleep after the newest session, if that one is over, was not over before then. -/
def FiredBy (fired : Duration) (ss : List Session) : Prop :=
  ∀ s ∈ ss.head?, ∀ t ∈ s.ended, fired.nanos ≤ (dueAfter bounds ss t).nanos

end Delays

/-! ### The invariant -/

inductive InStep (bounds : Backoff.Bounds) (cancelled : Bool) :
    Phase → Backoff → List Session → Prop where
  | starting : InStep bounds cancelled .starting { bounds } []
  | connecting (began : Duration) (older : List Session) :
      InStep bounds cancelled .connecting (held bounds older) ({ began } :: older)
  | sending (x : Exchange) (began : Duration) (older : List Session) :
      InStep bounds cancelled (.sending x) (held bounds older)
        ({ began, responses := x.responses } :: older)
  | receiving (x : Exchange) (began : Duration) (older : List Session) :
      InStep bounds cancelled (.receiving x) (held bounds older)
        ({ began, responses := x.responses } :: older)
  | closing (e : Ending) (s : Session) (older : List Session) (hopen : s.ended = none)
      (hresets : s.resets = e.resets) :
      InStep bounds cancelled (.closing e) (held bounds older) (s :: older)
  | cut (s : Session) (older : List Session) (hopen : s.ended = none)
      (hcancelled : cancelled = true) :
      InStep bounds cancelled (.closing .cancelled) (held bounds older) (s :: older)
  | sleeping (s : Session) (older : List Session) (t : Duration) (hended : s.ended = some t) :
      InStep bounds cancelled (.sleeping (dueAfter bounds (s :: older) t))
        (held bounds (s :: older)) (s :: older)
  | stopped (backoff : Backoff) (ss : List Session) (hcancelled : cancelled = true) :
      InStep bounds cancelled .stopped backoff ss

theorem InStep.cancel {bounds : Backoff.Bounds} {cancelled : Bool} {p : Phase} {backoff : Backoff}
    {ss : List Session} (h : InStep bounds cancelled p backoff ss) :
    InStep bounds true p backoff ss := by
  cases h with
  | starting => exact .starting
  | connecting began older => exact .connecting began older
  | sending x began older => exact .sending x began older
  | receiving x began older => exact .receiving x began older
  | closing e s older hopen hresets => exact .closing e s older hopen hresets
  | cut s older hopen => exact .cut s older hopen rfl
  | sleeping s older t hended => exact .sleeping s older t hended
  | stopped => exact .stopped _ _ rfl

/-- A watch that is not cancelled sleeps once a session is over. -/
theorem InStep.firedBy {bounds : Backoff.Bounds} {p : Phase} {backoff : Backoff} {now : Duration}
    {ss : List Session} (h : InStep bounds false p backoff ss)
    (hwaiting : ∀ wake ∈ p.wake?, now.nanos ≤ wake.nanos) : FiredBy bounds now ss := by
  intro newest hnewest t ht
  cases h with
  | starting => cases hnewest
  | sleeping s older t' hended =>
      cases hnewest
      rw [hended] at ht
      cases ht
      exact hwaiting _ rfl
  | connecting => cases hnewest; cases ht
  | sending => cases hnewest; cases ht
  | receiving => cases hnewest; cases ht
  | closing e s older hopen =>
      cases hnewest
      rw [hopen] at ht
      cases ht
  | cut s older hopen hcancelled => cases hcancelled
  | stopped backoff ss hcancelled => cases hcancelled

theorem delayAfter_eq {bounds : Backoff.Bounds} {w : Watch} {s : Session} {older : List Session}
    {e : Ending} (hbackoff : w.backoff = held bounds older) (hresets : s.resets = e.resets) :
    w.delayAfter e = (delayFor bounds (s :: older), held bounds (s :: older)) := by
  rw [delayFor, Backoff.skip_eq, held, tries_cons, Function.iterate_succ_apply', lag, delayAfter,
    hbackoff, held, Backoff.reset_iterate_advance, hresets]
  cases e.resets with
  | false => rfl
  | true => rfl

section Step

variable {bounds : Backoff.Bounds} {w next : Watch} {i : Input} {ss : List Session}

theorem InStep.asleep {older : List Session} {e : Ending} {s : Session} (cancelled : Bool)
    (hbackoff : w.backoff = held bounds older) (hresets : s.resets = e.resets)
    (hended : s.ended = some i.now) :
    InStep bounds cancelled (w.asleep i.now e).phase (w.asleep i.now e).backoff (s :: older) := by
  rw [Watch.asleep, delayAfter_eq hbackoff hresets]
  exact .sleeping s older i.now hended

/-- However late or early its timer is, a watch is in step with its sessions. -/
theorem InStep.step (h : InStep bounds i.cancelled w.phase w.backoff ss)
    (hmove : Move w i next (w.turn i)) :
    InStep bounds i.cancelled next.phase next.backoff (follow ss (w.turn i)) := by
  generalize w.turn i = t at *
  obtain ⟨service, identity, backoff, phase⟩ := w
  cases hmove with
  | launched _ hphase =>
      cases hphase
      cases h
      exact .connecting i.now []
  | woken _ wake hphase =>
      cases hphase
      cases h with
      | sleeping s older t hended => exact .connecting i.now (s :: older)
  | opened _ hphase =>
      cases hphase
      cases h with
      | connecting began older => exact .sending {} began older
  | refused _ hphase =>
      cases hphase
      cases h with
      | connecting began older =>
          exact .asleep (e := .failed 0) (s := ⟨began, 0, false, some i.now⟩) _ rfl rfl rfl
  | sent _ x hphase =>
      cases hphase
      cases h with
      | sending _ began older => exact .receiving x began older
  | sendFailed _ x hphase =>
      cases hphase
      cases h with
      | sending _ began older =>
          exact .closing (.failed x.responses) ⟨began, x.responses, false, none⟩ older rfl rfl
  | accepted _ x r endpoints hphase =>
      cases hphase
      cases h with
      | receiving _ began older => exact .sending ⟨.accept r, x.responses + 1⟩ began older
  | rejected _ x r f hphase =>
      cases hphase
      cases h with
      | receiving _ began older => exact .sending ⟨x.ack.reject r f, x.responses + 1⟩ began older
  | ended _ x hphase =>
      cases hphase
      cases h with
      | receiving _ began older =>
          exact .closing .clean ⟨began, x.responses, true, none⟩ older rfl rfl
  | receiveFailed _ x hphase =>
      cases hphase
      cases h with
      | receiving _ began older =>
          exact .closing (.failed x.responses) ⟨began, x.responses, false, none⟩ older rfl rfl
  | closed hlive e hphase =>
      cases hphase
      cases h with
      | closing _ s older hopen hresets =>
          exact .asleep (s := { s with ended := some i.now }) _ rfl hresets rfl
      | cut s older hopen hcancelled => exact absurd (hcancelled.symm.trans hlive) Bool.noConfusion
  | cut hcancelled x hphase =>
      rcases hphase with hphase | hphase
      · cases hphase
        cases h with
        | sending _ began older => exact .cut ⟨began, x.responses, false, none⟩ older rfl hcancelled
      · cases hphase
        cases h with
        | receiving _ began older =>
            exact .cut ⟨began, x.responses, false, none⟩ older rfl hcancelled
  | dropped hcancelled hphase => exact .stopped _ _ hcancelled
  | finished hcancelled e hphase => exact .stopped _ _ hcancelled
  | ignored hidle hsettled =>
      rw [follow_quiet]
      exact h

/-- A watch that is asleep after a turn is not to be woken before then, if it was not before. -/
theorem Move.le_wake {t : Turn} (hmove : Move w i next t)
    (hwaiting : i.cancelled = false → ∀ wake ∈ w.phase.wake?, i.now.nanos ≤ wake.nanos)
    (hlive : i.cancelled = false) : ∀ wake ∈ next.phase.wake?, i.now.nanos ≤ wake.nanos := by
  intro wake hwake
  cases hmove with
  | refused =>
      cases hwake
      exact Nat.le_add_right _ _
  | closed =>
      cases hwake
      exact Nat.le_add_right _ _
  | ignored => exact hwaiting hlive wake hwake
  | _ => cases hwake

/-- Sessions that are over stay as they are. -/
theorem follow_cases (h : InStep bounds i.cancelled w.phase w.backoff ss)
    (hmove : Move w i next (w.turn i)) :
    follow ss (w.turn i) = ss ∨
      ∃ s older, follow ss (w.turn i) = s :: older ∧ ∀ t ∈ s.ended, t = i.now := by
  generalize w.turn i = t at *
  obtain ⟨service, identity, backoff, phase⟩ := w
  cases hmove with
  | launched => exact .inr ⟨_, _, rfl, nofun⟩
  | woken => exact .inr ⟨_, _, rfl, nofun⟩
  | refused _ hphase =>
      cases hphase
      cases h
      exact .inr ⟨_, _, rfl, fun t ht => (Option.mem_some.mp ht).symm⟩
  | accepted _ x r endpoints hphase =>
      cases hphase
      cases h
      exact .inr ⟨_, _, rfl, nofun⟩
  | rejected _ x r f hphase =>
      cases hphase
      cases h
      exact .inr ⟨_, _, rfl, nofun⟩
  | ended _ x hphase =>
      cases hphase
      cases h
      exact .inr ⟨_, _, rfl, nofun⟩
  | closed _ e hphase =>
      cases hphase
      cases h <;> exact .inr ⟨_, _, rfl, fun t ht => (Option.mem_some.mp ht).symm⟩
  | finished _ e hphase =>
      cases hphase
      cases h <;> exact .inr ⟨_, _, rfl, fun t ht => (Option.mem_some.mp ht).symm⟩
  | _ => cases ss <;> exact .inl rfl

theorem FiredBy.step {fired : Duration} (h : FiredBy bounds fired ss)
    (hfired : fired.nanos ≤ i.now.nanos) (hstep : InStep bounds i.cancelled w.phase w.backoff ss)
    (hmove : Move w i next (w.turn i)) : FiredBy bounds fired (follow ss (w.turn i)) := by
  rcases follow_cases hstep hmove with hsame | ⟨s, older, hnew, hended⟩
  · rw [hsame]
    exact h
  · rw [hnew]
    intro s' hs' t ht
    cases hs'
    rw [hended t ht]
    exact Nat.le_add_right_of_le hfired

theorem OnTime.of_append {newer older : List Session} (h : OnTime bounds (newer ++ older)) :
    OnTime bounds older := by
  induction newer with
  | nil => exact h
  | cons s newer ih =>
      apply ih
      rw [List.cons_append] at h
      cases hrest : newer ++ older with
      | nil => trivial
      | cons s' rest =>
          rw [hrest] at h
          exact h.2

theorem OnTime.observe {s : Session} {older : List Session} (h : OnTime bounds (s :: older))
    (t : Turn) : OnTime bounds (s.observe t :: older) := by
  cases older with
  | nil => trivial
  | cons s' older =>
      rw [OnTime, Session.began_observe]
      exact h

theorem OnTime.step (h : OnTime bounds ss)
    (hstep : InStep bounds i.cancelled w.phase w.backoff ss)
    (hwaiting : i.cancelled = false → ∀ wake ∈ w.phase.wake?, i.now.nanos ≤ wake.nanos)
    (hmove : Move w i next (w.turn i)) : OnTime bounds (follow ss (w.turn i)) := by
  by_cases hconnect : Action.connect ∈ (w.turn i).actions
  · rw [follow.eq_def, if_pos hconnect]
    generalize w.turn i = t at *
    obtain ⟨service, identity, backoff, phase⟩ := w
    cases hmove with
    | launched _ hphase =>
        cases hphase
        cases hstep
        trivial
    | woken hlive wake hphase hdue =>
        cases hphase
        cases hstep with
        | sleeping s older t hended =>
            have hnow : i.now = dueAfter bounds (s :: older) t :=
              congrArg Duration.mk (Nat.le_antisymm (hwaiting hlive _ rfl) hdue)
            exact ⟨⟨t, hended, hnow⟩, h⟩
    | _ => exact absurd hconnect (by simp)
  · rw [follow.eq_def, if_neg hconnect]
    cases ss with
    | nil => trivial
    | cons s older => exact h.observe _

end Step

/-! ### Sessions by number -/

/-- How many sessions before session `i` the last one was that resets the backoff, counting `i`
itself; all of them if there is none. The sessions are numbered from 0 on. -/
def sinceReset (ss : List Session) (i : Nat) : Nat :=
  ((ss.take (i + 1)).reverse.findIdx? Session.resets).getD i

theorem lag_eq (s : Session) (older : List Session) :
    lag (s :: older) = ((s :: older).findIdx? Session.resets).getD older.length := by
  induction older generalizing s with
  | nil =>
      rw [lag, List.findIdx?_cons]
      cases s.resets <;> rfl
  | cons s' older ih =>
      rw [lag, List.findIdx?_cons, tries_cons, ih]
      cases s.resets with
      | true => rfl
      | false => cases (s' :: older).findIdx? Session.resets <;> rfl

theorem sinceReset_reverse (newer : List Session) (s : Session) (older : List Session) :
    sinceReset (newer ++ s :: older).reverse older.length = lag (s :: older) := by
  have htake : (newer ++ s :: older).reverse.take (older.length + 1) = (s :: older).reverse := by
    rw [List.reverse_append]
    exact List.take_left' List.length_reverse
  rw [sinceReset, htake, List.reverse_reverse, lag_eq]

/-- What is numbered from the oldest on divides a list whose newest comes first. -/
theorem exists_of_getElem?_reverse {α : Type} {l : List α} {i : Nat} {a : α}
    (h : l.reverse[i]? = some a) : ∃ newer older, l = newer ++ a :: older ∧ older.length = i := by
  obtain ⟨hi, ha⟩ := List.getElem?_eq_some_iff.mp h
  have hsplit : l.reverse = l.reverse.take i ++ a :: l.reverse.drop (i + 1) := by
    rw [← ha, ← List.drop_eq_getElem_cons hi, List.take_append_drop]
  refine ⟨(l.reverse.drop (i + 1)).reverse, (l.reverse.take i).reverse, ?_, ?_⟩
  · refine (List.reverse_eq_iff.mp hsplit).trans ?_
    rw [List.reverse_append, List.reverse_cons, List.append_assoc, List.singleton_append]
  · rw [List.length_reverse, List.length_take, Nat.min_eq_left (Nat.le_of_lt hi)]

theorem getElem?_reverse_next {α : Type} (newer : List α) (a : α) (older : List α) :
    (newer ++ a :: older).reverse[older.length + 1]? = newer.getLast? := by
  rw [List.reverse_append, List.getElem?_append_right (by simp)]
  simp [List.head?_reverse, ← List.head?_eq_getElem?]

end Watch

end ServiceDiscovery
