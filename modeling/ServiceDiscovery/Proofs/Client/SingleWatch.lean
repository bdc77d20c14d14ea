import ServiceDiscovery.Dialer
import ServiceDiscovery.Proofs.Client.Course
import ServiceDiscovery.Proofs.Watch.Bracketing
/-!
# One watch for each service

However a client is used, directly and through dialers, a service gets one watch at most, and keeps
it. A call that answers that it has started a watch has added one, so no second call gives that
answer; and all that is ever called for the service are the calls of that one watch, in order.
-/

namespace ServiceDiscovery

namespace Client

open Watch (Turn Bracketed Orderly)

/-- What is done with a client. Any dialer may be one of its users. -/
inductive Use where
  | event (e : Event)
  | resolve (d : Dialer) (address : String)

namespace Use

def apply (c : Client) : Use → Client
  | .event e => (c.step e).2
  | .resolve d address => (d.resolve c address).2.2

/-- Whether this is a call to watch the service, and answers that it started the watch. -/
def starts (c : Client) (service : String) : Use → Bool
  | .event (.watch s) => s = service && (c.watch s).1
  | _ => false

def turns (c : Client) (service : String) : Use → List Turn
  | .event e => c.turnsAt service e
  | .resolve _ _ => []

/-- The events of the client that come of a use. -/
def events : Use → List Event
  | .event e => [e]
  | .resolve _ address => ((HostPort.ofAddress? address).map fun target => .get target.host).toList

end Use

def after (c : Client) (uses : List Use) : Client := uses.foldl Use.apply c

/-- How many calls to watch the service answer that they started the watch. -/
def startsIn (c : Client) (service : String) : List Use → Nat
  | [] => 0
  | u :: rest => (u.starts c service).toNat + startsIn (u.apply c) service rest

def turnsIn (c : Client) (service : String) : List Use → List Turn
  | [] => []
  | u :: rest => u.turns c service ++ turnsIn (u.apply c) service rest

/-- The services with a watch, in the order in which the watches were started. -/
def services (c : Client) : List String := c.watches.map Watch.service

/-! ### Dialers -/

theorem Use.apply_eq (u : Use) (c : Client) : u.apply c = c.run u.events := by
  cases u with
  | event e => rfl
  | resolve d address =>
      rw [apply, Dialer.resolve, events]
      cases HostPort.ofAddress? address with
      | none => rfl
      | some target =>
          change _ = (c.getEndpoints target.host).2
          cases hentry : c.cache.get? target.host with
          | none => simp only [getEndpoints_of_none hentry]
          | some endpoints =>
              simp only [getEndpoints_of_some hentry]
              cases hselect : d.select endpoints with
              | mk choice next => cases choice <;> rfl

theorem Use.turns_eq (u : Use) (c : Client) (service : String) :
    u.turns c service = c.turnsOf service u.events := by
  cases u with
  | event e => exact (List.append_nil _).symm
  | resolve d address =>
      rw [turns, events]
      cases HostPort.ofAddress? address with
      | none => rfl
      | some target =>
          change [] = c.turnsAt service (.get target.host) ++ []
          rw [turnsAt_of_no_input rfl, List.append_nil]

theorem after_eq (c : Client) (uses : List Use) : c.after uses = c.run (uses.flatMap Use.events) := by
  induction uses generalizing c with
  | nil => rfl
  | cons u rest ih =>
      rw [List.flatMap_cons, run_append, ← u.apply_eq, ← ih]
      rfl

theorem turnsOf_append (c : Client) (service : String) (first rest : List Event) :
    c.turnsOf service (first ++ rest) =
      c.turnsOf service first ++ (c.run first).turnsOf service rest := by
  induction first generalizing c with
  | nil => rfl
  | cons e first ih => rw [List.cons_append, turnsOf, turnsOf, ih, List.append_assoc, run_cons]

theorem turnsIn_eq (c : Client) (service : String) (uses : List Use) :
    c.turnsIn service uses = c.turnsOf service (uses.flatMap Use.events) := by
  induction uses generalizing c with
  | nil => rfl
  | cons u rest ih =>
      rw [List.flatMap_cons, turnsOf_append, ← u.turns_eq, ← u.apply_eq, ← ih, turnsIn]

/-! ### Watches -/

theorem services_watch (c : Client) (service : String) :
    (c.watch service).2.services = c.services ++ if (c.watch service).1 then [service] else [] := by
  rcases c.watch_cases service with h | ⟨_, _, h⟩
  · rw [h, if_neg Bool.false_ne_true, List.append_nil]
  · rw [h, if_pos rfl]
    exact List.map_append

theorem services_step (c : Client) (e : Event) : c.services <+: (c.step e).2.services := by
  have hwatch : ∀ service, c.services <+: (c.watch service).2.services := by
    intro service
    rw [services_watch]
    exact List.prefix_append _ _
  cases e with
  | get service =>
      change c.services <+: (c.getEndpoints service).2.services
      rcases c.getEndpoints_cases service with hget | hget
      · exact ⟨[], (List.append_nil _).trans (congrArg services hget.symm)⟩
      · rw [hget]
        exact hwatch service
  | watch service => exact hwatch service
  | signal service s =>
      obtain ⟨watches, entries, hsignal, hservices⟩ := c.signal_frame service s
      have hsame : (c.signal service s).2.services = c.services :=
        (congrArg services hsignal).trans hservices
      exact ⟨[], (List.append_nil _).trans hsame.symm⟩
  | _ => exact List.prefix_refl _

theorem services_run (c : Client) (events : List Event) : c.services <+: (c.run events).services := by
  induction events generalizing c with
  | nil => exact List.prefix_refl _
  | cons e rest ih => exact (c.services_step e).trans (ih _)

theorem starts_apply (c : Client) (service : String) (u : Use) :
    (u.starts c service).toNat + c.services.count service ≤ (u.apply c).services.count service := by
  cases hstarts : u.starts c service with
  | false =>
      rw [Bool.toNat_false, Nat.zero_add, u.apply_eq]
      exact (c.services_run u.events).sublist.count_le service
  | true =>
      match u, hstarts with
      | .event (.watch s), hstarts =>
          obtain ⟨hs, hwatch⟩ := Bool.and_eq_true_iff.mp hstarts
          have hs : s = service := of_decide_eq_true hs
          have hservices : (c.watch s).2.services = c.services ++ [service] := by
            rw [services_watch, hwatch, if_pos rfl, hs]
          have hcount : (c.watch s).2.services.count service = c.services.count service + 1 := by
            rw [hservices, List.count_append, List.count_singleton_self]
          exact Nat.le_of_eq ((Nat.add_comm 1 _).trans hcount.symm)

theorem startsIn_le (c : Client) (service : String) (uses : List Use) :
    c.startsIn service uses + c.services.count service ≤ (c.after uses).services.count service := by
  induction uses generalizing c with
  | nil => exact Nat.le_of_eq (Nat.zero_add _)
  | cons u rest ih =>
      have hfirst := c.starts_apply service u
      have hrest := ih (u.apply c)
      change _ ≤ ((u.apply c).after rest).services.count service
      rw [startsIn]
      omega

/-- A query starts a watch just if there is no entry, the service is not marked and the client is not
cancelled, and does nothing else. -/
theorem client_getEndpoints (c : Client) (service : String) :
    (c.getEndpoints service).2 =
      if c.cache.get? service = none ∧ service ∉ c.cache.watching ∧ c.cancelled = false
      then c.withWatch service else c := by
  cases hentry : c.cache.get? service with
  | some endpoints =>
      rw [getEndpoints_of_some hentry, if_neg fun h => by cases h.1]
  | none =>
      rw [getEndpoints_of_none hentry]
      by_cases hwatched : service ∈ c.cache.watching
      · rw [watch_of_watched hwatched, if_neg fun h => h.2.1 hwatched]
      · cases hlive : c.cancelled with
        | true => rw [watch_of_cancelled service hlive, if_neg fun h => by cases h.2.2]
        | false => rw [watch_of_new hlive hwatched, if_pos ⟨rfl, hwatched, rfl⟩]

theorem watches_getEndpoints (c : Client) (service : String) :
    (c.getEndpoints service).2.watches =
      if c.cache.get? service = none ∧ service ∉ c.cache.watching ∧ c.cancelled = false
      then c.watches ++ [c.freshWatch service] else c.watches := by
  rw [client_getEndpoints, apply_ite Client.watches]
  rfl

/-! ### The law -/

/-- **A service has one watch, and its calls are in order.** Of all calls to watch a service at most
one answers that it started the watch, and a watch that was started is never replaced. A query starts
it just if there is no entry, the service is not marked and the client is not cancelled. What the
watch calls are rounds, one after the other. -/
theorem single_watch_in_order (identity : String) (bounds : Backoff.Bounds) (uses : List Use)
    (service : String) :
    let c := (start identity bounds).after uses
    let calls := Watch.calls ((start identity bounds).turnsIn service uses)
    (start identity bounds).startsIn service uses ≤ c.services.count service ∧
      c.services.count service ≤ 1 ∧
      (∀ later, c.services <+: (c.after later).services) ∧
      (c.getEndpoints service).2.watches =
        (if c.cache.get? service = none ∧ service ∉ c.cache.watching ∧ c.cancelled = false
        then c.watches ++ [c.freshWatch service] else c.watches) ∧
      Bracketed calls ∧ Orderly calls := by
  intro c calls
  have hconsistent : c.Consistent := by
    have hrun := (consistent_start identity bounds).run (uses.flatMap Use.events)
    rw [← after_eq] at hrun
    exact hrun
  have hcount : c.services.count service ≤ 1 :=
    List.nodup_iff_count_le_one.mp hconsistent.distinct service
  have hkept : ∀ later, c.services <+: (c.after later).services := by
    intro later
    rw [after_eq]
    exact c.services_run _
  have hunwatched : (start identity bounds).watchOf? service = none := rfl
  obtain ⟨inputs, hturns⟩ := turnsOf_of_none (uses.flatMap Use.events) hunwatched
  have hcalls : calls = Watch.calls (((start identity bounds).freshWatch service).turns inputs) := by
    rw [← hturns, ← turnsIn_eq]
  rw [hcalls]
  obtain ⟨hbracketed, horderly⟩ :=
    Watch.bracketed_turns (w := (start identity bounds).freshWatch service) rfl inputs
  have hstarts : (start identity bounds).startsIn service uses ≤ c.services.count service :=
    (start identity bounds).startsIn_le service uses
  exact ⟨hstarts, hcount, hkept, c.watches_getEndpoints service, hbracketed, horderly⟩

/-- A client is cancelled while its watch waits for a response. -/
example :
    Watch.calls ((start "node" {}).turnsIn "web"
      [.resolve {} "web:80", .event (.signal "web" .wake), .event (.signal "web" .connected),
        .event (.signal "web" .sent), .event .cancel, .event (.signal "web" .wake)]) =
      [⟨.connect, .done⟩, ⟨.send, .done⟩, ⟨.receive, .pending⟩, ⟨.close, .pending⟩] := by
  decide +kernel

end Client

end ServiceDiscovery
