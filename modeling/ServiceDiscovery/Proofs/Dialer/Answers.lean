import ServiceDiscovery.Proofs.Client.SingleWatch
import ServiceDiscovery.Proofs.Dialer.Calls
/-!
# The answers of a dialer

Whatever happened to a dialer and its client, the answer to the next call is decided by three things:
how the address splits, what the cache then holds for its host, and how many calls before were given
an endpoint. Only the last one is memory of the dialer's own: the cursor is that number, modulo its
width. A call changes the client in one way only, by a watch that it starts.
-/

namespace ServiceDiscovery

namespace Dialer

/-- What a course makes of a dialer and its client. -/
def run (d : Dialer) (c : Client) : List Event → Dialer × Client
  | [] => (d, c)
  | .resolve address :: rest => run (d.resolve c address).2.1 (d.resolve c address).2.2 rest
  | .client e :: rest => run d (c.step e).2 rest

/-- Whether there is no endpoint to choose for an address: it does not split, or its host has no entry
in the cache or an empty one. -/
def PassedOn (c : Client) (address : String) : Prop :=
  HostPort.ofAddress? address = none ∨
    ∃ target, HostPort.ofAddress? address = some target ∧
      (c.cache.get? target.host = none ∨ c.cache.get? target.host = some [])

/-! ### One call -/

theorem known_of_split {c : Client} {address : String} {target : HostPort}
    (h : HostPort.ofAddress? address = some target) :
    known c address = (c.cache.get? target.host).getD [] := by
  rw [known, h, Option.bind_some]

theorem known_of_passedOn {c : Client} {address : String} (h : PassedOn c address) :
    known c address = [] := by
  rcases h with hsplit | ⟨target, hsplit, hentry | hentry⟩
  · rw [known, hsplit]
    rfl
  · rw [known_of_split hsplit, hentry]
    rfl
  · rw [known_of_split hsplit, hentry]
    rfl

theorem resolve_of_passedOn (d : Dialer) {c : Client} {address : String} (h : PassedOn c address) :
    (d.resolve c address).1 = address ∧ (d.resolve c address).2.1 = d := by
  obtain ⟨hanswer, hdialer⟩ := d.resolve_eq c address
  rw [known_of_passedOn h, select_nil] at hanswer hdialer
  exact ⟨hanswer, hdialer⟩

theorem resolve_of_known (d : Dialer) {c : Client} {address : String} {endpoints : List Endpoint}
    (hknown : known c address = endpoints)
    (hindex : d.cursor.toNat % endpoints.length < endpoints.length) :
    (d.resolve c address).1 = endpoints[d.cursor.toNat % endpoints.length].authority ∧
      (d.resolve c address).2.1 = { d with cursor := d.cursor + 1 } := by
  have hsome : endpoints ≠ [] := List.ne_nil_of_length_pos (Nat.zero_lt_of_lt hindex)
  obtain ⟨hanswer, hdialer⟩ := d.resolve_eq c address
  rw [hknown, select_of_ne_nil d hsome] at hanswer hdialer
  rw [List.getElem?_eq_getElem hindex] at hanswer
  exact ⟨hanswer, hdialer⟩

/-- A call starts a watch just as a query for the host does, if the address has one. -/
theorem client_resolve (d : Dialer) (c : Client) (address : String) :
    (d.resolve c address).2.2 =
      match HostPort.ofAddress? address with
      | none => c
      | some target =>
        if c.cache.get? target.host = none ∧ target.host ∉ c.cache.watching ∧ c.cancelled = false
        then c.withWatch target.host else c := by
  refine ((Client.Use.resolve d address).apply_eq c).trans ?_
  rw [Client.Use.events]
  cases HostPort.ofAddress? address with
  | none => rfl
  | some target => exact c.client_getEndpoints target.host

/-! ### Courses -/

/-- The cursor counts the calls that were given an endpoint. -/
theorem cursor_run {d : Dialer} {rank : Nat} (h : d.cursor = UInt64.ofNat rank) (c : Client)
    (events : List Event) :
    (run d c events).1.cursor =
      UInt64.ofNat (rank + (served (callsFrom d c rank events)).length) := by
  induction events generalizing d c rank with
  | nil => exact h
  | cons e rest ih =>
      cases e with
      | client e => exact ih h _
      | resolve address =>
          have hserved : (served (callsFrom d c rank (.resolve address :: rest))).length =
              (d.call c rank address).choice.isSome.toNat +
                (served (callsFrom (d.resolve c address).2.1 (d.resolve c address).2.2
                  (d.call c rank address).nextRank rest)).length := by
            rw [callsFrom, served, served, List.filter_cons]
            cases (d.call c rank address).choice.isSome with
            | true => exact Nat.add_comm _ _
            | false => exact (Nat.zero_add _).symm
          rw [run, ih (cursor_resolve h c address), hserved, Call.nextRank, Nat.add_assoc]
          rfl

/-- **What a call is answered.** Let anything happen to a new client and its dialer, and then a call
be made. If there is no endpoint to choose, the answer is the address itself and the dialer stays as
it was. Otherwise the place of the chosen one is the number of calls before that were given one,
modulo the width of the cursor and modulo the length of the list as it is now; it is always a place of
the list, and the cursor moves on by one. A watch is started just if the address splits and its host
has no entry and is not watched while the client is not cancelled; nothing else happens to the
client. -/
theorem resolve_in_course (identity : String) (bounds : Backoff.Bounds) (events : List Event)
    (address : String) :
    let c₀ := Client.start identity bounds
    let d := (run {} c₀ events).1
    let c := (run {} c₀ events).2
    let rank := (served (calls c₀ events)).length
    (PassedOn c address →
      (d.resolve c address).1 = address ∧ (d.resolve c address).2.1 = d) ∧
    (∀ target endpoints, HostPort.ofAddress? address = some target →
      c.cache.get? target.host = some endpoints → endpoints ≠ [] →
      ∃ hplace : rank % UInt64.size % endpoints.length < endpoints.length,
        (d.resolve c address).1 = endpoints[rank % UInt64.size % endpoints.length].authority ∧
        (d.resolve c address).2.1 = { d with cursor := d.cursor + 1 }) ∧
    (d.resolve c address).2.2 =
      match HostPort.ofAddress? address with
      | none => c
      | some target =>
        if c.cache.get? target.host = none ∧ target.host ∉ c.cache.watching ∧ c.cancelled = false
        then c.withWatch target.host else c := by
  intro c₀ d c rank
  have hcursor : d.cursor.toNat = rank % UInt64.size := by
    have hcount : d.cursor = UInt64.ofNat (0 + rank) := cursor_run rfl c₀ events
    rw [hcount, Nat.zero_add, UInt64.toNat_ofNat']
  refine ⟨d.resolve_of_passedOn, ?_, d.client_resolve c address⟩
  intro target endpoints hsplit hentry hsome
  have hknown : known c address = endpoints := by
    rw [known_of_split hsplit, hentry, Option.getD_some]
  have hplace : d.cursor.toNat % endpoints.length < endpoints.length :=
    Nat.mod_lt _ (List.length_pos_of_ne_nil hsome)
  have hanswer := d.resolve_of_known hknown hplace
  simp only [hcursor] at hplace hanswer
  exact ⟨hplace, hanswer⟩

/-- Three calls are given endpoints of a list of three, the list shrinks to two, an address without
a port and an emptied service come between, and the fourth endpoint is the second of the list. A
service that is not known yet is watched then, and none any more once the client is cancelled. -/
theorem resolve_in_course_shrunk :
    let web : Event := .resolve "web:80"
    let shrunk : List Endpoint := [⟨"10.0.0.9", 80, 1⟩, ⟨"fd00::1", 81, 1⟩]
    let events : List Event :=
      [.client (.set "web" [⟨"10.0.0.1", 80, 1⟩, ⟨"10.0.0.2", 80, 1⟩, ⟨"10.0.0.3", 80, 1⟩]), web, web,
        web, .client (.set "mail" []), .resolve "mail:25", .resolve "web", .client (.set "web" shrunk)]
    let c₀ := Client.start "node" {}
    let d := (run {} c₀ events).1
    let c := (run {} c₀ events).2
    (served (calls c₀ events)).length = 3 ∧
      (d.resolve c "web:80").1 = "[fd00::1]:81" ∧
      (d.resolve c "mail:25").1 = "mail:25" ∧
      (d.resolve c "[db]:5432").2.2 = c.withWatch "db" ∧
      (d.resolve c.cancel "[db]:5432").2.2 = c.cancel := by
  intro web shrunk events c₀ d c
  have hrank : (served (calls c₀ events)).length = 3 := by decide +kernel
  obtain ⟨-, hchosen, -⟩ := resolve_in_course "node" {} events "web:80"
  obtain ⟨_, hweb, -⟩ := hchosen ⟨"web", "80"⟩ shrunk (by decide +kernel) (by decide +kernel)
    (by decide)
  have hsecond : shrunk[(served (calls c₀ events)).length % UInt64.size % shrunk.length]? =
      some ⟨"fd00::1", 81, 1⟩ := by
    rw [hrank]
    decide
  obtain ⟨_, hendpoint⟩ := List.getElem?_eq_some_iff.mp hsecond
  obtain ⟨hpassed, -, -⟩ := resolve_in_course "node" {} events "mail:25"
  obtain ⟨hmail, -⟩ := hpassed (.inr ⟨⟨"mail", "25"⟩, by decide +kernel, .inr (by decide +kernel)⟩)
  obtain ⟨-, -, hwatch⟩ := resolve_in_course "node" {} events "[db]:5432"
  obtain ⟨-, -, hlate⟩ :=
    resolve_in_course "node" {} (events ++ [.client .cancel]) "[db]:5432"
  refine ⟨hrank, ?_, hmail, hwatch.trans (by decide +kernel), ?_⟩
  · rw [hweb, hendpoint]
    decide +kernel
  · exact hlate.trans (by decide +kernel)

end Dialer

end ServiceDiscovery
