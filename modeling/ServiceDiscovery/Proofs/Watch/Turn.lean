import ServiceDiscovery.Watch
/-!
# Turns of a watch

A watch takes one turn for every signal that reaches it. What a turn can be is said here once, as
`Move`, with the circumstances under which each one happens; whatever is claimed of all runs of a
watch follows from that list, and nothing else here opens the reaction.
-/

namespace ServiceDiscovery

namespace Watch

/-- What reaches a watch at one moment. -/
structure Input where
  cancelled : Bool
  now : Duration
  signal : Signal

/-- Whether the watch waits for what reaches it. Once its client is cancelled it waits for nothing
but the end of a close. -/
def awaits (w : Watch) (i : Input) : Bool :=
  match w.phase, i.signal with
  | .starting, .wake => !i.cancelled
  | .connecting, .connected => !i.cancelled
  | .connecting, .connectFailed => !i.cancelled
  | .sending _, .sent => !i.cancelled
  | .sending _, .sendFailed => !i.cancelled
  | .receiving _, .received _ => !i.cancelled
  | .receiving _, .ended => !i.cancelled
  | .receiving _, .receiveFailed => !i.cancelled
  | .closing _, .closed => true
  | .sleeping wake, .wake => !i.cancelled && decide (wake.nanos ≤ i.now.nanos)
  | _, _ => false

def fresh (service identity : String) (backoff : Backoff) : Watch := { service, identity, backoff }

def feed (w : Watch) (i : Input) : Watch × List Action := w.react i.cancelled i.now i.signal

def after (w : Watch) (inputs : List Input) : Watch := inputs.foldl (fun w i => (w.feed i).1) w

/-- The endpoint lists that actions put into the cache. -/
def published (actions : List Action) : List (List Endpoint) :=
  actions.filterMap fun
    | .publish endpoints => some endpoints
    | _ => none

@[simp] theorem published_nil : published [] = [] := rfl

theorem published_cons_publish (endpoints : List Endpoint) (rest : List Action) :
    published (.publish endpoints :: rest) = endpoints :: published rest := rfl

/-- What can be observed of one turn: when it was, the signal that was waited for and came, and what
the watch started. -/
structure Turn where
  time : Duration
  taken : Option Signal
  actions : List Action

namespace Turn

def requests (t : Turn) : List Request :=
  t.actions.filterMap fun
    | .send q => some q
    | _ => none

def responses (t : Turn) : List Response :=
  match t.taken with
  | some (.received r) => [r]
  | _ => []

def opens (t : Turn) : Bool :=
  match t.taken with
  | some .connected => true
  | _ => false

end Turn

def turn (w : Watch) (i : Input) : Turn :=
  ⟨i.now, if w.awaits i then some i.signal else none, (w.feed i).2⟩

def turns : Watch → List Input → List Turn
  | _, [] => []
  | w, i :: rest => w.turn i :: turns (w.feed i).1 rest

def asleep (w : Watch) (now : Duration) (e : Ending) : Watch :=
  { w with
    backoff := (w.delayAfter e).2
    phase := .sleeping (Timer.wake now (w.delayAfter e).1) }

/-- All that a turn can be. -/
inductive Move (w : Watch) (i : Input) : Watch → Turn → Prop where
  | launched (hlive : i.cancelled = false) (hphase : w.phase = .starting) :
      Move w i { w with phase := .connecting } ⟨i.now, some .wake, [.connect]⟩
  | woken (hlive : i.cancelled = false) (wake : Duration) (hphase : w.phase = .sleeping wake)
      (hdue : wake.nanos ≤ i.now.nanos) :
      Move w i { w with phase := .connecting } ⟨i.now, some .wake, [.connect]⟩
  | opened (hlive : i.cancelled = false) (hphase : w.phase = .connecting) :
      Move w i { w with phase := .sending {} }
        ⟨i.now, some .connected, [.send (({} : Ack).request w.identity w.service)]⟩
  | refused (hlive : i.cancelled = false) (hphase : w.phase = .connecting) :
      Move w i (w.asleep i.now (.failed 0))
        ⟨i.now, some .connectFailed, [.sleep (w.delayAfter (.failed 0)).1]⟩
  | sent (hlive : i.cancelled = false) (x : Exchange) (hphase : w.phase = .sending x) :
      Move w i { w with phase := .receiving x } ⟨i.now, some .sent, [.receive]⟩
  | sendFailed (hlive : i.cancelled = false) (x : Exchange) (hphase : w.phase = .sending x) :
      Move w i { w with phase := .closing (.failed x.responses) }
        ⟨i.now, some .sendFailed, [.close]⟩
  | accepted (hlive : i.cancelled = false) (x : Exchange) (r : Response)
      (endpoints : List Endpoint) (hphase : w.phase = .receiving x)
      (hsignal : i.signal = .received r) (hok : r.endpoints = .ok endpoints) :
      Move w i { w with phase := .sending ⟨.accept r, x.responses + 1⟩ }
        ⟨i.now, some (.received r),
          [.publish endpoints, .send ((Ack.accept r).request w.identity w.service)]⟩
  | rejected (hlive : i.cancelled = false) (x : Exchange) (r : Response)
      (f : DecodeFailure) (hphase : w.phase = .receiving x)
      (hsignal : i.signal = .received r) (herror : r.endpoints = .error f) :
      Move w i { w with phase := .sending ⟨x.ack.reject r f, x.responses + 1⟩ }
        ⟨i.now, some (.received r), [.send ((x.ack.reject r f).request w.identity w.service)]⟩
  | ended (hlive : i.cancelled = false) (x : Exchange) (hphase : w.phase = .receiving x) :
      Move w i { w with phase := .closing .clean } ⟨i.now, some .ended, [.close]⟩
  | receiveFailed (hlive : i.cancelled = false) (x : Exchange) (hphase : w.phase = .receiving x) :
      Move w i { w with phase := .closing (.failed x.responses) }
        ⟨i.now, some .receiveFailed, [.close]⟩
  | closed (hlive : i.cancelled = false) (e : Ending) (hphase : w.phase = .closing e) :
      Move w i (w.asleep i.now e) ⟨i.now, some .closed, [.sleep (w.delayAfter e).1]⟩
  /-- The client is cancelled while a stream is open. -/
  | cut (hcancelled : i.cancelled = true) (x : Exchange)
      (hphase : w.phase = .sending x ∨ w.phase = .receiving x) :
      Move w i { w with phase := .closing .cancelled } ⟨i.now, none, [.close]⟩
  /-- The client is cancelled while there is no stream. -/
  | dropped (hcancelled : i.cancelled = true)
      (hphase : w.phase = .starting ∨ w.phase = .connecting ∨ ∃ wake, w.phase = .sleeping wake) :
      Move w i { w with phase := .stopped } ⟨i.now, none, []⟩
  | finished (hcancelled : i.cancelled = true) (e : Ending) (hphase : w.phase = .closing e)
      (hsignal : i.signal = .closed) :
      Move w i { w with phase := .stopped } ⟨i.now, some .closed, []⟩
  | ignored (hidle : w.awaits i = false)
      (hsettled : i.cancelled = true → w.phase = .stopped ∨ ∃ e, w.phase = .closing e) :
      Move w i w ⟨i.now, none, []⟩

private theorem turn_of_awaits {w : Watch} {i : Input} (h : w.awaits i = true) :
    w.turn i = ⟨i.now, some i.signal, (w.feed i).2⟩ := by
  rw [turn, if_pos h]

private theorem turn_of_not_awaits {w : Watch} {i : Input} (h : w.awaits i = false) :
    w.turn i = ⟨i.now, none, (w.feed i).2⟩ := by
  rw [turn, if_neg (by rw [h]; exact Bool.false_ne_true)]

theorem apply_of_ok {w : Watch} {x : Exchange} {r : Response} {endpoints : List Endpoint}
    (hr : r.endpoints = .ok endpoints) :
    w.apply x r = ({ w with phase := .sending ⟨.accept r, x.responses + 1⟩ },
      [.publish endpoints, .send ((Ack.accept r).request w.identity w.service)]) := by
  simp only [apply, hr, send]

theorem apply_of_error {w : Watch} {x : Exchange} {r : Response} {f : DecodeFailure}
    (hr : r.endpoints = .error f) :
    w.apply x r = ({ w with phase := .sending ⟨x.ack.reject r f, x.responses + 1⟩ },
      [.send ((x.ack.reject r f).request w.identity w.service)]) := by
  simp only [apply, hr, send]

theorem move_turn_of_live (w : Watch) (now : Duration) (s : Signal) :
    Move w ⟨false, now, s⟩ (w.feed ⟨false, now, s⟩).1 (w.turn ⟨false, now, s⟩) := by
  obtain ⟨service, identity, backoff, phase⟩ := w
  have hlive : (⟨false, now, s⟩ : Input).cancelled = true → ∀ p : Prop, p := nofun
  cases phase with
  | starting =>
      cases s with
      | wake => exact .launched rfl rfl
      | _ => exact .ignored rfl fun h => hlive h _
  | connecting =>
      cases s with
      | connected => exact .opened rfl rfl
      | connectFailed => exact .refused rfl rfl
      | _ => exact .ignored rfl fun h => hlive h _
  | sending x =>
      cases s with
      | sent => exact .sent rfl x rfl
      | sendFailed => exact .sendFailed rfl x rfl
      | _ => exact .ignored rfl fun h => hlive h _
  | receiving x =>
      cases s with
      | received r =>
          have hfeed : feed ⟨service, identity, backoff, .receiving x⟩ ⟨false, now, .received r⟩ =
              apply ⟨service, identity, backoff, .receiving x⟩ x r := rfl
          cases hr : r.endpoints with
          | ok endpoints =>
              rw [turn, hfeed, apply_of_ok hr]
              exact .accepted rfl x r endpoints rfl rfl hr
          | error f =>
              rw [turn, hfeed, apply_of_error hr]
              exact .rejected rfl x r f rfl rfl hr
      | ended => exact .ended rfl x rfl
      | receiveFailed => exact .receiveFailed rfl x rfl
      | _ => exact .ignored rfl fun h => hlive h _
  | closing e =>
      cases s with
      | closed => exact .closed rfl e rfl
      | _ => exact .ignored rfl fun h => hlive h _
  | sleeping wake =>
      cases s with
      | wake =>
          by_cases hdue : wake.nanos ≤ now.nanos
          · have hfeed : feed ⟨service, identity, backoff, .sleeping wake⟩ ⟨false, now, .wake⟩ =
                connect ⟨service, identity, backoff, .sleeping wake⟩ := if_pos hdue
            rw [turn_of_awaits (by simp [awaits, hdue]), hfeed]
            exact .woken rfl wake rfl hdue
          · have hfeed : feed ⟨service, identity, backoff, .sleeping wake⟩ ⟨false, now, .wake⟩ =
                (⟨service, identity, backoff, .sleeping wake⟩, []) := if_neg hdue
            have hidle : awaits ⟨service, identity, backoff, .sleeping wake⟩ ⟨false, now, .wake⟩ =
                false := by simp [awaits, hdue]
            rw [turn_of_not_awaits hidle, hfeed]
            exact .ignored hidle fun h => hlive h _
      | _ => exact .ignored rfl fun h => hlive h _
  | stopped => exact .ignored rfl fun h => hlive h _

theorem move_turn_of_cancelled (w : Watch) (now : Duration) (s : Signal) :
    Move w ⟨true, now, s⟩ (w.feed ⟨true, now, s⟩).1 (w.turn ⟨true, now, s⟩) := by
  obtain ⟨service, identity, backoff, phase⟩ := w
  cases phase with
  | starting => cases s <;> exact .dropped rfl (.inl rfl)
  | connecting => cases s <;> exact .dropped rfl (.inr (.inl rfl))
  | sending x => cases s <;> exact .cut rfl x (.inl rfl)
  | receiving x => cases s <;> exact .cut rfl x (.inr rfl)
  | closing e =>
      cases s with
      | closed => exact .finished rfl e rfl rfl
      | _ => exact .ignored rfl fun _ => .inr ⟨e, rfl⟩
  | sleeping wake => cases s <;> exact .dropped rfl (.inr (.inr ⟨wake, rfl⟩))
  | stopped => cases s <;> exact .ignored rfl fun _ => .inl rfl

theorem move_turn (w : Watch) (i : Input) : Move w i (w.feed i).1 (w.turn i) := by
  obtain ⟨cancelled, now, s⟩ := i
  cases cancelled with
  | false => exact w.move_turn_of_live now s
  | true => exact w.move_turn_of_cancelled now s

theorem signal_of_mem_responses {w : Watch} {i : Input} {r : Response}
    (h : r ∈ (w.turn i).responses) : i.signal = .received r := by
  cases hawaits : w.awaits i with
  | false =>
      rw [turn_of_not_awaits hawaits] at h
      cases h
  | true =>
      rw [turn_of_awaits hawaits, Turn.responses] at h
      cases hsignal : i.signal with
      | received r' =>
          rw [hsignal] at h
          rw [List.mem_singleton.mp h]
      | _ =>
          rw [hsignal] at h
          cases h

/-! ### Runs -/

@[simp] theorem after_nil (w : Watch) : w.after [] = w := rfl

@[simp] theorem after_cons (w : Watch) (i : Input) (rest : List Input) :
    w.after (i :: rest) = (w.feed i).1.after rest := rfl

theorem after_append (w : Watch) (first rest : List Input) :
    w.after (first ++ rest) = (w.after first).after rest := List.foldl_append

@[simp] theorem turns_nil (w : Watch) : w.turns [] = [] := rfl

@[simp] theorem turns_cons (w : Watch) (i : Input) (rest : List Input) :
    w.turns (i :: rest) = w.turn i :: (w.feed i).1.turns rest := rfl

theorem turns_append (w : Watch) (first rest : List Input) :
    w.turns (first ++ rest) = w.turns first ++ (w.after first).turns rest := by
  induction first generalizing w with
  | nil => rfl
  | cons i first ih =>
      rw [List.cons_append, turns_cons, turns_cons, ih, after_cons, List.cons_append]

/-- A turn publishes the list of the response that it takes, if there is one. -/
theorem Move.published {w next : Watch} {i : Input} {t : Turn} (hmove : Move w i next t) :
    published t.actions = t.responses.filterMap fun r => r.endpoints.toOption := by
  cases hmove with
  | accepted hlive x r endpoints hphase hsignal hok =>
      rw [Turn.responses, List.filterMap_cons, hok]
      rfl
  | rejected hlive x r f hphase hsignal herror =>
      rw [Turn.responses, List.filterMap_cons, herror]
      rfl
  | _ => rfl

theorem Move.service_identity {w next : Watch} {i : Input} {t : Turn} (hmove : Move w i next t) :
    next.service = w.service ∧ next.identity = w.identity := by
  cases hmove <;> exact ⟨rfl, rfl⟩

end Watch

end ServiceDiscovery
