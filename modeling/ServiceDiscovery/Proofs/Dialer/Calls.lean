import ServiceDiscovery.Dialer
import ServiceDiscovery.Proofs.Client.Course
/-!
# The calls of a dialer

A course of a dialer is a sequence of calls, between which anything may happen to its client. Every
call is recorded with the client it was made on and with its rank, the number of earlier calls that
were given an endpoint; the cursor is the rank, whatever the addresses were.
-/

namespace ServiceDiscovery

namespace Dialer

/-- What happens to a dialer and its client. -/
inductive Event where
  | resolve (address : String)
  | client (e : Client.Event)

/-- The endpoints that a client knows for the host of an address. -/
def known (c : Client) (address : String) : List Endpoint :=
  ((HostPort.ofAddress? address).bind fun target => c.cache.get? target.host).getD []

/-- One call, with the client as it was before it. -/
structure Call where
  client : Client
  address : String
  rank : Nat
  choice : Option Endpoint
  answer : String

namespace Call

def choices (k : Call) : List Endpoint := known k.client k.address

def isFor (k : Call) (service : String) : Bool :=
  (HostPort.ofAddress? k.address).any fun target => target.host = service

def nextRank (k : Call) : Nat := k.rank + k.choice.isSome.toNat

end Call

def call (d : Dialer) (c : Client) (rank : Nat) (address : String) : Call :=
  ⟨c, address, rank, (d.select (known c address)).1, (d.resolve c address).1⟩

/-- The calls of a course, from a dialer whose next call has the given rank. -/
def callsFrom (d : Dialer) (c : Client) (rank : Nat) : List Event → List Call
  | [] => []
  | .resolve address :: rest =>
      d.call c rank address ::
        callsFrom (d.resolve c address).2.1 (d.resolve c address).2.2
          (d.call c rank address).nextRank rest
  | .client e :: rest => callsFrom d (c.step e).2 rank rest

/-- The calls of a new dialer. -/
def calls (c : Client) (events : List Event) : List Call := callsFrom {} c 0 events

/-- The calls that were given an endpoint. -/
def served (calls : List Call) : List Call := calls.filter fun k => k.choice.isSome

/-! ### One call -/

theorem select_nil (d : Dialer) : d.select [] = (none, d) := rfl

theorem select_of_ne_nil (d : Dialer) {endpoints : List Endpoint} (h : endpoints ≠ []) :
    d.select endpoints =
      (endpoints[d.cursor.toNat % endpoints.length]?, { d with cursor := d.cursor + 1 }) := by
  cases endpoints with
  | nil => exact absurd rfl h
  | cons e rest => rfl

theorem select_choice (d : Dialer) (endpoints : List Endpoint) :
    (d.select endpoints).1 = endpoints[d.cursor.toNat % endpoints.length]? := by
  cases endpoints with
  | nil => rfl
  | cons e rest => rfl

theorem isSome_select (d : Dialer) {endpoints : List Endpoint} (h : endpoints ≠ []) :
    (d.select endpoints).1.isSome = true := by
  have hindex : d.cursor.toNat % endpoints.length < endpoints.length :=
    Nat.mod_lt _ (List.length_pos_of_ne_nil h)
  rw [select_choice, List.getElem?_eq_getElem hindex]
  rfl

/-- A call is answered with the endpoint that is chosen among the known ones, and with the address
itself if there are none. -/
theorem resolve_eq (d : Dialer) (c : Client) (address : String) :
    (d.resolve c address).1 =
        (d.select (known c address)).1.elim address Endpoint.authority ∧
      (d.resolve c address).2.1 = (d.select (known c address)).2 := by
  rw [resolve, known]
  cases haddress : HostPort.ofAddress? address with
  | none => exact ⟨rfl, rfl⟩
  | some target =>
      rw [Option.bind_some]
      cases hentry : c.cache.get? target.host with
      | none =>
          simp only [Client.getEndpoints_of_none hentry]
          exact ⟨rfl, rfl⟩
      | some endpoints =>
          simp only [Client.getEndpoints_of_some hentry, Option.getD_some]
          cases hselect : d.select endpoints with
          | mk choice next => cases choice <;> exact ⟨rfl, rfl⟩

/-- The cursor counts the calls that are given an endpoint. -/
theorem cursor_resolve {d : Dialer} {rank : Nat} (h : d.cursor = UInt64.ofNat rank) (c : Client)
    (address : String) :
    (d.resolve c address).2.1.cursor = UInt64.ofNat (d.call c rank address).nextRank := by
  rw [(d.resolve_eq c address).2, Call.nextRank, call]
  by_cases hknown : known c address = []
  · rw [hknown, select_nil]
    exact h
  · rw [isSome_select d hknown, select_of_ne_nil d hknown, Bool.toNat_true, UInt64.ofNat_add, h]
    rfl

/-! ### Courses -/

/-- What a call is given is decided by its rank and by the endpoints known at the time. -/
def Call.Lawful (k : Call) : Prop :=
  k.choice = k.choices[k.rank % UInt64.size % k.choices.length]? ∧
    k.answer = k.choice.elim k.address Endpoint.authority

theorem lawful_call {d : Dialer} {rank : Nat} (h : d.cursor = UInt64.ofNat rank) (c : Client)
    (address : String) : (d.call c rank address).Lawful := by
  refine ⟨?_, (d.resolve_eq c address).1⟩
  have hcursor : d.cursor.toNat = rank % UInt64.size := by
    rw [h, UInt64.toNat_ofNat']
  change (d.select (known c address)).1 = _
  rw [select_choice, hcursor]
  rfl

theorem lawful_callsFrom {d : Dialer} {rank : Nat} (h : d.cursor = UInt64.ofNat rank) (c : Client)
    (events : List Event) : ∀ k ∈ callsFrom d c rank events, k.Lawful := by
  induction events generalizing d c rank with
  | nil => nofun
  | cons e rest ih =>
      cases e with
      | client e => exact ih h _
      | resolve address =>
          intro k hk
          rcases List.mem_cons.mp hk with rfl | hk
          · exact lawful_call h c address
          · exact ih (cursor_resolve h c address) _ k hk

theorem rank_lt_of_mem (d : Dialer) (c : Client) (rank : Nat) (events : List Event) :
    ∀ k ∈ callsFrom d c rank events, k.rank < rank + (callsFrom d c rank events).length := by
  induction events generalizing d c rank with
  | nil => nofun
  | cons e rest ih =>
      cases e with
      | client e => exact ih d _ rank
      | resolve address =>
          intro k hk
          have hnext : (d.call c rank address).nextRank ≤ rank + 1 :=
            Nat.add_le_add_left (Bool.toNat_le _) rank
          rw [callsFrom, List.length_cons]
          rcases List.mem_cons.mp hk with rfl | hk
          · change rank < _
            omega
          · have hlt := ih _ _ _ k hk
            omega

theorem ranks_served (d : Dialer) (c : Client) (rank : Nat) (events : List Event) :
    (served (callsFrom d c rank events)).map Call.rank =
      List.range' rank (served (callsFrom d c rank events)).length := by
  induction events generalizing d c rank with
  | nil => rfl
  | cons e rest ih =>
      cases e with
      | client e => exact ih d _ rank
      | resolve address =>
          have hrest := ih (d.resolve c address).2.1 (d.resolve c address).2.2
            (d.call c rank address).nextRank
          rw [served] at hrest
          rw [callsFrom, served, List.filter_cons]
          cases hchoice : (d.call c rank address).choice.isSome with
          | true =>
              have hnext : (d.call c rank address).nextRank = rank + 1 := by
                rw [Call.nextRank, hchoice]
                rfl
              rw [hnext] at hrest
              rw [if_pos rfl, hnext, List.map_cons, List.length_cons, List.range'_succ, hrest]
              rfl
          | false =>
              have hnext : (d.call c rank address).nextRank = rank := by
                rw [Call.nextRank, hchoice]
                rfl
              rw [hnext] at hrest
              rw [if_neg Bool.false_ne_true, hnext]
              exact hrest

end Dialer

end ServiceDiscovery
