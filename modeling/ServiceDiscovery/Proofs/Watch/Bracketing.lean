import ServiceDiscovery.Proofs.Watch.Turn
/-!
# The order in which a watch calls its transport

The calls that a watch makes are cut into rounds. A round is one refused connection, or a stream
that is opened, used for sends and receives in turn, and closed. The invariant is `Fits`: each
phase says how far the newest round has come, and all the rounds before it are over. A receive
finds just one request unanswered and a connection finds every stream closed, because each of them
is made in one phase only.
-/

namespace ServiceDiscovery

namespace Watch

inductive Op where
  | connect
  | send
  | receive
  | close
  deriving DecidableEq

inductive Outcome where
  /-- Nothing has come of it so far, or it was given up. -/
  | pending
  | done
  /-- The server had closed the stream. -/
  | ended
  | failed
  deriving DecidableEq

/-- A call of a watch to its transport. -/
structure Call where
  op : Op
  outcome : Outcome
  deriving DecidableEq

def opOf? : Action → Option Op
  | .connect => some .connect
  | .send _ => some .send
  | .receive => some .receive
  | .close => some .close
  | .sleep _ => none
  | .publish _ => none

def outcomeOf? : Signal → Option Outcome
  | .wake => none
  | .connected => some .done
  | .connectFailed => some .failed
  | .sent => some .done
  | .sendFailed => some .failed
  | .received _ => some .done
  | .ended => some .ended
  | .receiveFailed => some .failed
  | .closed => some .done

/-- The calls of a watch so far. -/
structure Log where
  past : List Call := []
  /-- The call after them, if nothing has come of it yet. -/
  current : Option Op := none

namespace Log

/-- The calls, if that is what comes of the current one. -/
def settled (l : Log) (o : Outcome) : List Call :=
  match l.current with
  | none => l.past
  | some op => l.past ++ [⟨op, o⟩]

def calls (l : Log) : List Call := l.settled .pending

def settle (l : Log) : Option Outcome → Log
  | none => l
  | some o => ⟨l.settled o, none⟩

def call (l : Log) (op : Op) : Log := ⟨l.calls, some op⟩

def record (l : Log) (t : Turn) : Log :=
  (t.actions.filterMap opOf?).foldl call (l.settle (t.taken.bind outcomeOf?))

end Log

def calls (run : List Turn) : List Call := (run.foldl Log.record {}).calls

/-! ### Rounds -/

/-- Sends and receives in turn, from a send on, of which all but the last were successful. -/
inductive Alternating : List Call → Prop where
  | none : Alternating []
  | send (o : Outcome) : Alternating [⟨.send, o⟩]
  | receive (o : Outcome) : Alternating [⟨.send, .done⟩, ⟨.receive, o⟩]
  | again {calls : List Call} (hrest : Alternating calls) :
      Alternating (⟨.send, .done⟩ :: ⟨.receive, .done⟩ :: calls)

inductive Round : List Call → Prop where
  | refused : Round [⟨.connect, .failed⟩]
  | served {calls : List Call} (hcalls : Alternating calls) :
      Round (⟨.connect, .done⟩ :: (calls ++ [⟨.close, .done⟩]))

/-- A round that is not over. -/
inductive Unfinished : List Call → Prop where
  | none : Unfinished []
  | connecting : Unfinished [⟨.connect, .pending⟩]
  | exchanging {calls : List Call} (hcalls : Alternating calls) :
      Unfinished (⟨.connect, .done⟩ :: calls)
  | closing {calls : List Call} (hcalls : Alternating calls) :
      Unfinished (⟨.connect, .done⟩ :: (calls ++ [⟨.close, .pending⟩]))

def Rounds (calls : List Call) : Prop :=
  ∃ rounds : List (List Call), (∀ r ∈ rounds, Round r) ∧ calls = rounds.flatten

/-- One round after the other, and perhaps a last one that is not over. -/
def Bracketed (calls : List Call) : Prop :=
  ∃ before last, Rounds before ∧ Unfinished last ∧ calls = before ++ last

/-- The calls on the newest stream, the last one first. -/
def onStream (calls : List Call) : List Call := calls.reverse.takeWhile fun c => c.op ≠ .connect

/-- What a call finds when it is made. -/
structure InOrder (before : List Call) (op : Op) : Prop where
  /-- Every stream is closed when a connection is attempted. -/
  closed : op = .connect → before.count ⟨.connect, .done⟩ = before.count ⟨.close, .done⟩
  /-- Just one request is unanswered when a response is waited for. -/
  unanswered : op = .receive →
    (onStream before).count ⟨.send, .done⟩ = (onStream before).count ⟨.receive, .done⟩ + 1

def Orderly (calls : List Call) : Prop :=
  ∀ before c after, calls = before ++ c :: after → InOrder before c.op

theorem Rounds.none : Rounds [] := ⟨[], nofun, rfl⟩

theorem Rounds.concat {calls round : List Call} (h : Rounds calls) (hround : Round round) :
    Rounds (calls ++ round) := by
  obtain ⟨rounds, hrounds, rfl⟩ := h
  refine ⟨rounds ++ [round], fun r hr => ?_, ?_⟩
  · rcases List.mem_append.mp hr with hr | hr
    · exact hrounds r hr
    · rw [List.mem_singleton.mp hr]
      exact hround
  · rw [List.flatten_append, List.flatten_singleton]

theorem Alternating.op_eq {calls : List Call} (h : Alternating calls) :
    ∀ c ∈ calls, c.op = .send ∨ c.op = .receive := by
  induction h with
  | none => nofun
  | send o => simp
  | receive o => simp
  | again hrest ih => simpa using ih

theorem Alternating.count_eq_zero {calls : List Call} (h : Alternating calls) (op : Op)
    (o : Outcome) (hsend : op ≠ .send) (hreceive : op ≠ .receive) : calls.count ⟨op, o⟩ = 0 := by
  apply List.count_eq_zero.mpr
  intro hmem
  rcases h.op_eq _ hmem with hop | hop
  · exact hsend hop
  · exact hreceive hop

theorem Round.balanced {round : List Call} (h : Round round) :
    round.count ⟨.connect, .done⟩ = round.count ⟨.close, .done⟩ := by
  cases h with
  | refused => rfl
  | served hcalls =>
      rw [List.count_cons, List.count_cons, List.count_append, List.count_append,
        hcalls.count_eq_zero .connect .done nofun nofun,
        hcalls.count_eq_zero .close .done nofun nofun]
      rfl

theorem Rounds.balanced {calls : List Call} (h : Rounds calls) :
    calls.count ⟨.connect, .done⟩ = calls.count ⟨.close, .done⟩ := by
  obtain ⟨rounds, hrounds, rfl⟩ := h
  induction rounds with
  | nil => rfl
  | cons r rest ih =>
      obtain ⟨hr, hrest⟩ := List.forall_mem_cons.mp hrounds
      rw [List.flatten_cons, List.count_append, List.count_append, hr.balanced, ih hrest]

/-- A number of requests, each with its response. -/
def exchanges : Nat → List Call
  | 0 => []
  | n + 1 => exchanges n ++ [⟨.send, .done⟩, ⟨.receive, .done⟩]

theorem alternating_exchanges (n : Nat) {calls : List Call} (h : Alternating calls) :
    Alternating (exchanges n ++ calls) := by
  induction n generalizing calls with
  | zero => exact h
  | succ n ih =>
      rw [exchanges, List.append_assoc]
      exact ih h.again

theorem alternating_receive (n : Nat) (o : Outcome) :
    Alternating (exchanges n ++ [⟨.send, .done⟩] ++ [⟨.receive, o⟩]) := by
  rw [List.append_assoc]
  exact alternating_exchanges n (.receive o)

theorem count_exchanges (n : Nat) :
    (exchanges n).count ⟨.send, .done⟩ = n ∧ (exchanges n).count ⟨.receive, .done⟩ = n := by
  induction n with
  | zero => exact ⟨rfl, rfl⟩
  | succ n ih => rw [exchanges, List.count_append, List.count_append, ih.1, ih.2]; exact ⟨rfl, rfl⟩

/-- The calls up to a stream, and those on it. -/
def stream (older calls : List Call) : List Call := older ++ ⟨.connect, .done⟩ :: calls

theorem stream_concat (older calls : List Call) (c : Call) :
    stream older calls ++ [c] = stream older (calls ++ [c]) := by
  rw [stream, List.append_assoc, List.cons_append, stream]

theorem onStream_stream {calls : List Call} (older : List Call) (h : Alternating calls) :
    onStream (stream older calls) = calls.reverse := by
  have huse : ∀ c ∈ calls.reverse, decide (c.op ≠ .connect) = true := by
    intro c hc
    rcases h.op_eq c (List.mem_reverse.mp hc) with hop | hop <;> rw [hop] <;> rfl
  rw [onStream, stream, List.reverse_append, List.reverse_cons, List.append_assoc,
    List.takeWhile_append_of_pos huse, List.singleton_append,
    List.takeWhile_cons_of_neg (by simp), List.append_nil]

theorem Orderly.init {calls rest : List Call} (h : Orderly (calls ++ rest)) : Orderly calls := by
  intro before c after hsplit
  exact h before c (after ++ rest) (by rw [hsplit, List.append_assoc, List.cons_append])

theorem Orderly.concat {calls : List Call} (h : Orderly calls) {op : Op} (hop : InOrder calls op)
    (o : Outcome) : Orderly (calls ++ [⟨op, o⟩]) := by
  intro before c after hsplit
  rcases List.eq_nil_or_concat after with rfl | ⟨after, last, rfl⟩
  · obtain ⟨rfl, hc⟩ := List.append_inj' hsplit rfl
    rw [← List.singleton_inj.mp hc]
    exact hop
  · rw [List.concat_eq_append, ← List.cons_append, ← List.append_assoc] at hsplit
    exact h before c after (List.append_inj' hsplit rfl).1

theorem Orderly.settled {l : Log} (h : Orderly l.calls) (o : Outcome) :
    Orderly (l.settled o) := by
  obtain ⟨past, current⟩ := l
  cases current with
  | none => exact h
  | some op =>
      have hlast : InOrder past op := h past ⟨op, .pending⟩ [] rfl
      exact Orderly.concat (Orderly.init h) hlast o

/-! ### The invariant -/

/-- How far the newest round has come. -/
inductive Fits : Phase → Log → Prop where
  | starting : Fits .starting {}
  | connecting {older : List Call} (holder : Rounds older) :
      Fits .connecting ⟨older, some .connect⟩
  | sending {older : List Call} (holder : Rounds older) (n : Nat) (x : Exchange) :
      Fits (.sending x) ⟨stream older (exchanges n), some .send⟩
  | receiving {older : List Call} (holder : Rounds older) (n : Nat) (x : Exchange) :
      Fits (.receiving x) ⟨stream older (exchanges n ++ [⟨.send, .done⟩]), some .receive⟩
  | closing {older calls : List Call} (holder : Rounds older) (hcalls : Alternating calls)
      (e : Ending) : Fits (.closing e) ⟨stream older calls, some .close⟩
  | sleeping {older : List Call} (holder : Rounds older) (wake : Duration) :
      Fits (.sleeping wake) ⟨older, none⟩
  | stopped {older : List Call} (holder : Rounds older) : Fits .stopped ⟨older, none⟩
  | abandoned {older : List Call} (holder : Rounds older) : Fits .stopped ⟨older, some .connect⟩

theorem Fits.sending_concat {older : List Call} (holder : Rounds older) (n : Nat) (x : Exchange) :
    Fits (.sending x)
      ⟨stream older (exchanges n ++ [⟨.send, .done⟩]) ++ [⟨.receive, .done⟩], some .send⟩ := by
  rw [stream_concat, List.append_assoc]
  exact .sending holder (n + 1) x

theorem Fits.receiving_concat {older : List Call} (holder : Rounds older) (n : Nat)
    (x : Exchange) :
    Fits (.receiving x) ⟨stream older (exchanges n) ++ [⟨.send, .done⟩], some .receive⟩ := by
  rw [stream_concat]
  exact .receiving holder n x

theorem Fits.closing_concat {older calls : List Call} {c : Call} (holder : Rounds older)
    (hcalls : Alternating (calls ++ [c])) (e : Ending) :
    Fits (.closing e) ⟨stream older calls ++ [c], some .close⟩ := by
  rw [stream_concat]
  exact .closing holder hcalls e

theorem Rounds.concat_served {older calls : List Call} (holder : Rounds older)
    (hcalls : Alternating calls) : Rounds (stream older calls ++ [⟨.close, .done⟩]) := by
  rw [stream_concat]
  exact holder.concat (.served hcalls)

theorem Fits.bracketed {p : Phase} {l : Log} (h : Fits p l) : Bracketed l.calls := by
  cases h with
  | starting => exact ⟨[], [], .none, .none, rfl⟩
  | connecting holder => exact ⟨_, _, holder, .connecting, rfl⟩
  | sending holder n x =>
      exact ⟨_, _, holder, .exchanging (alternating_exchanges n (.send .pending)),
        stream_concat ..⟩
  | receiving holder n x =>
      exact ⟨_, _, holder, .exchanging (alternating_receive n .pending), stream_concat ..⟩
  | closing holder hcalls e => exact ⟨_, _, holder, .closing hcalls, stream_concat ..⟩
  | sleeping holder wake => exact ⟨_, [], holder, .none, (List.append_nil _).symm⟩
  | stopped holder => exact ⟨_, [], holder, .none, (List.append_nil _).symm⟩
  | abandoned holder => exact ⟨_, _, holder, .connecting, rfl⟩

theorem inOrder_of_ne (before : List Call) {op : Op} (hconnect : op ≠ .connect)
    (hreceive : op ≠ .receive) : InOrder before op :=
  ⟨fun h => absurd h hconnect, fun h => absurd h hreceive⟩

theorem Rounds.inOrder {calls : List Call} (h : Rounds calls) : InOrder calls .connect :=
  ⟨fun _ => h.balanced, nofun⟩

theorem Fits.inOrder {p : Phase} {past : List Call} {op : Op} (h : Fits p ⟨past, some op⟩) :
    InOrder past op := by
  cases h with
  | connecting holder => exact holder.inOrder
  | sending holder n x => exact inOrder_of_ne _ nofun nofun
  | receiving holder n x =>
      refine ⟨nofun, fun _ => ?_⟩
      obtain ⟨hsends, hreceives⟩ := count_exchanges n
      rw [onStream_stream _ (alternating_exchanges n (.send .done)), List.count_reverse,
        List.count_reverse, List.count_append, List.count_append, hsends, hreceives]
      rfl
  | closing holder hcalls e => exact inOrder_of_ne _ nofun nofun
  | abandoned holder => exact holder.inOrder

section Step

variable {w next : Watch} {i : Input} {t : Turn} {l : Log}

theorem Move.record_cases (hmove : Move w i next t) (l : Log) :
    l.record t = l ∨ ∃ o current, l.record t = ⟨l.settled o, current⟩ := by
  cases hmove with
  | dropped => exact .inl rfl
  | ignored => exact .inl rfl
  | _ => exact .inr ⟨_, _, rfl⟩

theorem Fits.step (h : Fits w.phase l) (hmove : Move w i next t) :
    Fits next.phase (l.record t) := by
  cases hmove with
  | launched _ hphase =>
      rw [hphase] at h
      cases h
      exact .connecting .none
  | woken _ wake hphase =>
      rw [hphase] at h
      cases h with
      | sleeping holder => exact .connecting holder
  | opened _ hphase =>
      rw [hphase] at h
      cases h with
      | connecting holder => exact .sending holder 0 {}
  | refused _ hphase =>
      rw [hphase] at h
      cases h with
      | connecting holder => exact .sleeping (holder.concat .refused) _
  | sent _ x hphase =>
      rw [hphase] at h
      cases h with
      | sending holder n => exact .receiving_concat holder n x
  | sendFailed _ x hphase =>
      rw [hphase] at h
      cases h with
      | sending holder n =>
          exact .closing_concat holder (alternating_exchanges n (.send .failed)) _
  | accepted _ x r endpoints hphase =>
      rw [hphase] at h
      cases h with
      | receiving holder n => exact .sending_concat holder n _
  | rejected _ x r f hphase =>
      rw [hphase] at h
      cases h with
      | receiving holder n => exact .sending_concat holder n _
  | ended _ x hphase =>
      rw [hphase] at h
      cases h with
      | receiving holder n => exact .closing_concat holder (alternating_receive n .ended) _
  | receiveFailed _ x hphase =>
      rw [hphase] at h
      cases h with
      | receiving holder n => exact .closing_concat holder (alternating_receive n .failed) _
  | closed _ e hphase =>
      rw [hphase] at h
      cases h with
      | closing holder hcalls => exact .sleeping (holder.concat_served hcalls) _
  | cut _ x hphase =>
      rcases hphase with hphase | hphase
      · rw [hphase] at h
        cases h with
        | sending holder n =>
            exact .closing_concat holder (alternating_exchanges n (.send .pending)) _
      · rw [hphase] at h
        cases h with
        | receiving holder n =>
            exact .closing_concat holder (alternating_receive n .pending) _
  | dropped _ hphase =>
      rcases hphase with hphase | hphase | ⟨wake, hphase⟩
      · rw [hphase] at h
        cases h
        exact .stopped .none
      · rw [hphase] at h
        cases h with
        | connecting holder => exact .abandoned holder
      · rw [hphase] at h
        cases h with
        | sleeping holder => exact .stopped holder
  | finished _ e hphase =>
      rw [hphase] at h
      cases h with
      | closing holder hcalls => exact .stopped (holder.concat_served hcalls)
  | ignored => exact h

/-- Whatever a turn calls next is in order, and so is all that was called before. -/
theorem Orderly.step (h : Orderly l.calls) (hmove : Move w i next t)
    (hfits : Fits next.phase (l.record t)) : Orderly (l.record t).calls := by
  rcases hmove.record_cases l with hsame | ⟨o, current, hrecord⟩
  · rw [hsame]
    exact h
  · rw [hrecord] at hfits ⊢
    cases current with
    | none => exact h.settled o
    | some op => exact (h.settled o).concat hfits.inOrder .pending

end Step

theorem fits_run {w : Watch} {l : Log} (inputs : List Input) (hfits : Fits w.phase l)
    (horderly : Orderly l.calls) :
    Fits (w.after inputs).phase ((w.turns inputs).foldl Log.record l) ∧
      Orderly ((w.turns inputs).foldl Log.record l).calls := by
  induction inputs generalizing w l with
  | nil => exact ⟨hfits, horderly⟩
  | cons i rest ih =>
      have hmove := w.move_turn i
      have hnext := hfits.step hmove
      exact ih hnext (horderly.step hmove hnext)

theorem bracketed_turns {w : Watch} (hstarting : w.phase = .starting) (inputs : List Input) :
    Bracketed (calls (w.turns inputs)) ∧ Orderly (calls (w.turns inputs)) := by
  have hfits : Fits w.phase {} := by
    rw [hstarting]
    exact .starting
  have horderly : Orderly ({} : Log).calls := by
    intro before c after hsplit
    exact absurd hsplit (List.append_ne_nil_of_right_ne_nil _ (List.cons_ne_nil _ _)).symm
  obtain ⟨hfits, horderly⟩ := fits_run inputs hfits horderly
  exact ⟨hfits.bracketed, horderly⟩

end Watch

end ServiceDiscovery
