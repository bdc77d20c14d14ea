import ServiceDiscovery.Proofs.Client.Course
/-!
# What the cache remembers

The entry of a service is the last list that was written to it. A write is a direct one, or a list
that the service's own watch received and accepted, were it empty; nothing else in a course of the
client reaches the entry, and nothing ever takes it away. Nor does anything take away the mark of a
service that is watched.
-/

namespace ServiceDiscovery

namespace Client

open Watch (Turn)

def direct (service : String) : Event → List (List Endpoint)
  | .set s endpoints => if s = service then [endpoints] else []
  | _ => []

/-- The lists that one event writes to a service: directly, or through a response that the service's
watch receives and accepts. -/
def writesOf (c : Client) (service : String) (e : Event) : List (List Endpoint) :=
  direct service e ++ ((c.turnsAt service e).flatMap Turn.responses).filterMap fun r =>
    r.endpoints.toOption

/-- The lists that a course writes to a service, in order. -/
def writes (c : Client) (service : String) : List Event → List (List Endpoint)
  | [] => []
  | e :: rest => c.writesOf service e ++ writes (c.step e).2 service rest

theorem writesOf_of_no_input {c : Client} {service : String} {e : Event}
    (h : c.inputsOf service e = []) : c.writesOf service e = direct service e := by
  rw [writesOf, turnsAt_of_no_input h]
  exact List.append_nil _

theorem get?_watch (c : Client) (service other : String) :
    (c.watch service).2.cache.get? other = c.cache.get? other := by
  rcases c.watch_cases service with hsame | ⟨_, _, hnew⟩
  · rw [hsame]
  · rw [hnew]
    rfl

theorem get?_getEndpoints (c : Client) (service other : String) :
    (c.getEndpoints service).2.cache.get? other = c.cache.get? other := by
  rcases c.getEndpoints_cases service with hget | hget
  · rw [hget]
  · rw [hget, get?_watch]

theorem get?_signal (c : Client) (service other : String) (s : Signal) :
    (c.signal service s).2.cache.get? other =
      (c.writesOf other (.signal service s)).getLast?.or (c.cache.get? other) := by
  by_cases h : service = other
  · subst h
    cases hwatch : c.watchOf? service with
    | none =>
        rw [signal_of_none s hwatch, writesOf, turnsAt_of_none _ hwatch]
        rfl
    | some w =>
        rw [signal_of_some s hwatch, get?_performAll, if_pos rfl,
          (w.move_turn (c.input s)).published, writesOf, turnsAt_signal s hwatch,
          List.flatMap_singleton]
        rfl
  · have hnone : c.writesOf other (.signal service s) = [] :=
      writesOf_of_no_input (if_neg h)
    cases hwatch : c.watchOf? service with
    | none =>
        rw [signal_of_none s hwatch, hnone]
        rfl
    | some w =>
        rw [signal_of_some s hwatch, get?_performAll, if_neg h, hnone]
        rfl

theorem get?_step (c : Client) (service : String) (e : Event) :
    (c.step e).2.cache.get? service =
      (c.writesOf service e).getLast?.or (c.cache.get? service) := by
  cases e with
  | get other =>
      rw [writesOf_of_no_input rfl]
      exact c.get?_getEndpoints other service
  | watch other =>
      rw [writesOf_of_no_input rfl]
      exact c.get?_watch other service
  | set other endpoints =>
      change (c.cache.set other endpoints).get? service = _
      rw [Cache.get?_set, writesOf_of_no_input rfl, direct]
      by_cases h : other = service
      · rw [if_pos h.symm, if_pos h]
        rfl
      · rw [if_neg (Ne.symm h), if_neg h]
        rfl
  | startWatch other =>
      rw [writesOf_of_no_input rfl]
      exact c.cache.get?_startWatch other service
  | cancel =>
      rw [writesOf_of_no_input rfl]
      rfl
  | pass d =>
      rw [writesOf_of_no_input rfl]
      rfl
  | signal other s => exact c.get?_signal other service s

theorem get?_run (c : Client) (service : String) (events : List Event) :
    (c.run events).cache.get? service =
      (c.writes service events).getLast?.or (c.cache.get? service) := by
  induction events generalizing c with
  | nil => rfl
  | cons e rest ih => rw [run_cons, ih, get?_step, writes, List.getLast?_append, Option.or_assoc]

/-! ### Marks -/

/-- Whether an event marks a service as watched, unless it is marked already. -/
def marks (c : Client) (service : String) : Event → Bool
  | .get s => s = service && (c.cache.get? service).isNone && !c.cancelled
  | .watch s => s = service && !c.cancelled
  | .startWatch s => s = service
  | _ => false

theorem isWatched_watch (c : Client) (service other : String) :
    (c.watch other).2.cache.isWatched service =
      (c.cache.isWatched service || (decide (other = service) && !c.cancelled)) := by
  cases hlive : c.cancelled with
  | true => rw [watch_of_cancelled other hlive, Bool.not_true, Bool.and_false, Bool.or_false]
  | false =>
      rw [Bool.not_false, Bool.and_true, ← Cache.isWatched_startWatch]
      by_cases hwatched : other ∈ c.cache.watching
      · rw [watch_of_watched hwatched, Cache.startWatch_of_mem hwatched]
      · rw [watch_of_new hlive hwatched, Cache.startWatch_of_not_mem hwatched]
        rfl

/-- No event takes a mark away. -/
theorem isWatched_step (c : Client) (service : String) (e : Event) :
    (c.step e).2.cache.isWatched service = (c.cache.isWatched service || c.marks service e) := by
  cases e with
  | get other =>
      change (c.getEndpoints other).2.cache.isWatched service = (_ || (_ && _ && _))
      cases hentry : c.cache.get? other with
      | some endpoints =>
          rw [getEndpoints_of_some hentry]
          by_cases h : other = service
          · rw [← h, hentry, Option.isNone_some, Bool.and_false, Bool.false_and, Bool.or_false]
          · rw [decide_eq_false h, Bool.false_and, Bool.false_and, Bool.or_false]
      | none =>
          rw [getEndpoints_of_none hentry, isWatched_watch]
          by_cases h : other = service
          · rw [← h, hentry, Option.isNone_none, Bool.and_true]
          · rw [decide_eq_false h, Bool.false_and, Bool.false_and, Bool.false_and]
  | watch other => exact c.isWatched_watch service other
  | startWatch other => exact c.cache.isWatched_startWatch other service
  | signal other s =>
      obtain ⟨watches, entries, hsignal, -⟩ := c.signal_frame other s
      rw [step, hsignal]
      exact (Bool.or_false _).symm
  | _ => exact (Bool.or_false _).symm

theorem getEndpoints_answer (c : Client) (service : String) :
    (c.getEndpoints service).1 =
      (c.cache.get? service).elim (.error (.notYetDiscovered service)) .ok := by
  cases h : c.cache.get? service with
  | some endpoints => rw [getEndpoints_of_some h]; rfl
  | none => rw [getEndpoints_of_none h]; rfl

theorem signal_of_mem_turnsAt {c : Client} {service : String} {e : Event} {t : Turn} {r : Response}
    (ht : t ∈ c.turnsAt service e) (hr : r ∈ t.responses) :
    e = .signal service (.received r) := by
  cases hwatch : c.watchOf? service with
  | none =>
      rw [turnsAt_of_none e hwatch] at ht
      cases ht
  | some w =>
      rw [turnsAt_of_some e hwatch] at ht
      cases e with
      | signal other s =>
          by_cases h : other = service
          · rw [inputsOf, if_pos h] at ht
            rw [List.mem_singleton.mp ht] at hr
            have hs : s = .received r := Watch.signal_of_mem_responses hr
            rw [h, hs]
          · rw [inputsOf, if_neg h] at ht
            cases ht
      | _ => cases ht

/-- An event writes to a service only if it is a direct write, or a response for it that can be
read. -/
theorem writesOf_eq_nil {c : Client} {service : String} {e : Event}
    (hset : ∀ endpoints, e ≠ .set service endpoints)
    (hreceived : ∀ r endpoints, r.endpoints = .ok endpoints → e ≠ .signal service (.received r)) :
    c.writesOf service e = [] := by
  have hdirect : direct service e = [] := by
    cases e with
    | set other endpoints =>
        rw [direct, if_neg]
        rintro rfl
        exact hset endpoints rfl
    | _ => rfl
  rw [writesOf, hdirect, List.nil_append]
  apply List.filterMap_eq_nil_iff.mpr
  intro r hr
  obtain ⟨t, ht, hrt⟩ := List.mem_flatMap.mp hr
  have hsignal := signal_of_mem_turnsAt ht hrt
  cases hendpoints : r.endpoints with
  | ok endpoints => exact absurd hsignal (hreceived r endpoints hendpoints)
  | error f => rfl

/-- **The entry of a service is the latest write to it.** In every state that a client can reach, a
query for a service is answered with the list that was last written to it, and with the one failure
that names the service if nothing was written yet. An event that is neither a direct write to the
service nor a response for it that can be read leaves the entry as it is, and once a query has been
answered with a list, all later ones are. -/
theorem entry_is_latest_write (identity : String) (bounds : Backoff.Bounds) (events : List Event)
    (service : String) :
    let c := (start identity bounds).run events
    let latest := ((start identity bounds).writes service events).getLast?
    c.cache.get? service = latest ∧
    (c.getEndpoints service).1 = latest.elim (.error (.notYetDiscovered service)) .ok ∧
    (∀ e, (∀ endpoints, e ≠ .set service endpoints) →
      (∀ r endpoints, r.endpoints = .ok endpoints → e ≠ .signal service (.received r)) →
      (c.step e).2.cache.get? service = c.cache.get? service) ∧
    ∀ endpoints, (c.getEndpoints service).1 = .ok endpoints →
      ∀ later, ∃ newer, ((c.run later).getEndpoints service).1 = .ok newer := by
  intro c latest
  have hentry : c.cache.get? service = latest := by
    rw [get?_run]
    exact Option.or_none
  refine ⟨hentry, ?_, ?_, ?_⟩
  · rw [getEndpoints_answer, hentry]
  · intro e hset hreceived
    rw [get?_step, writesOf_eq_nil hset hreceived]
    rfl
  · intro endpoints hanswer later
    rw [getEndpoints_answer] at hanswer
    rw [getEndpoints_answer, get?_run]
    cases hold : c.cache.get? service with
    | none =>
        rw [hold] at hanswer
        cases hanswer
    | some old =>
        cases (c.writes service later).getLast? with
        | none => exact ⟨old, rfl⟩
        | some newer => exact ⟨newer, rfl⟩

/-- An accepted empty list overwrites a direct write; a response of another type then changes
nothing, and cancelling leaves the answer readable. -/
theorem entry_is_latest_write_emptied :
    let events : List Event := [.set "svc" [⟨"10.0.0.1", 80, 1⟩], .watch "svc"] ++
      [.wake, .connected, .sent, .received ⟨"1", "n1", []⟩, .sent].map (.signal "svc")
    let undecodable : Response := ⟨"2", "n2", [⟨"other", .null⟩]⟩
    let c := (start "node" {}).run events
    (c.getEndpoints "svc").1 = .ok [] ∧
      (c.step (.signal "svc" (.received undecodable))).2.cache.get? "svc" = c.cache.get? "svc" ∧
      ∃ newer, ((c.run [.cancel]).getEndpoints "svc").1 = .ok newer := by
  intro events undecodable c
  obtain ⟨_, _, hframe, hlater⟩ := entry_is_latest_write "node" {} events "svc"
  have hempty : (c.getEndpoints "svc").1 = .ok [] := by
    rw [getEndpoints_answer, show c.cache.get? "svc" = some [] by decide +kernel]
    rfl
  refine ⟨hempty, ?_, hlater [] hempty [.cancel]⟩
  apply hframe
  · nofun
  · intro r endpoints hr hevent
    cases hevent
    have hrejected : undecodable.endpoints.toOption = none := by decide +kernel
    rw [hr] at hrejected
    cases hrejected

end Client

end ServiceDiscovery
