import ServiceDiscovery.Proofs.Client.SingleWatch
import ServiceDiscovery.Proofs.Dns.Reachability
/-!
# Names that are looked up

A client that answers for names is used in all other ways as well. What it answers for a service is
determined by three things: the entry of the service, its mark and the type of record that is asked
for. A question for a lower-case label is looked up under that very label, however its letters were
written, so nothing is lost on the way; and a question only reads, so a course of the client is the
same with its questions left out.
-/

namespace ServiceDiscovery.Dns

open Client (Use)

/-- What is asked of a client that answers for names. -/
inductive Task where
  | use (u : Use)
  | query (q : Question)

namespace Task

/-- What is answered, if anything is, and the client afterwards. A question gives back the client
that it was put to: that questions leave no trace holds by definition. -/
def perform (resolve : Resolver) (c : Client) : Task → Option Answer × Client
  | .use u => (none, u.apply c)
  | .query q => (some (answer c.cache resolve q), c)

def uses : Task → List Use
  | .use u => [u]
  | .query _ => []

end Task

def after (resolve : Resolver) (c : Client) (tasks : List Task) : Client :=
  tasks.foldl (fun c t => (t.perform resolve c).2) c

theorem after_cons (resolve : Resolver) (c : Client) (t : Task) (rest : List Task) :
    after resolve c (t :: rest) = after resolve (t.perform resolve c).2 rest := rfl

/-- A course is the same with its questions left out. -/
theorem after_eq (resolve : Resolver) (c : Client) (tasks : List Task) :
    after resolve c tasks = c.after (tasks.flatMap Task.uses) := by
  induction tasks generalizing c with
  | nil => rfl
  | cons t rest ih =>
      rw [after_cons, ih]
      cases t <;> rfl

theorem after_queries (resolve : Resolver) (c : Client) (queries : List Question) :
    after resolve c (queries.map .query) = c := by
  induction queries with
  | nil => rfl
  | cons q rest ih => exact ih

/-! ### The records of an endpoint -/

/-- Whether records of a type, which is given by its number, hold an address like this one. Type 255
is any type. -/
def asksFor (type : UInt16) : IpAddress → Bool
  | .v4 _ => type = 1 || type = 255
  | .v6 _ => type = 28 || type = 255

/-- The record that an endpoint contributes to an answer. -/
def recordOf? (name : Name) (type : UInt16) (e : Endpoint) : Option AddressRecord :=
  ((IpAddress.ofText? e.host).filter (asksFor type)).map fun ip => ⟨name, 5, ip⟩

theorem covers_eq (t : RecordType) : t.covers = asksFor t.number := by
  obtain ⟨n⟩ := t
  funext ip
  cases ip <;> simp [RecordType.covers, RecordType.ofAddress, RecordType.any, RecordType.a,
    RecordType.aaaa, asksFor, Bool.or_comm]

theorem records_eq (name : Name) (t : RecordType) (endpoints : List Endpoint) :
    ((addressesOf endpoints t).map fun a => (⟨name, serviceSeconds, a⟩ : AddressRecord)) =
      endpoints.filterMap (recordOf? name t.number) := by
  rw [addressesOf, List.filter_filterMap, List.map_filterMap, covers_eq]
  rfl

/-! ### Lower-case labels -/

section Label

variable {s : String} (hs : IsServiceLabel s) (hlower : s.toList.any Char.isUpper = false)

include hs hlower

theorem IsServiceLabel.lower_ofText : (Name.ofText s).lower = Name.ofText s := by
  rw [hs.ofText_eq, Name.lower, List.map_singleton, ← String.toList_map]
  exact congrArg (fun t => Name.mk [String.toList t]) (toLower_eq_self hlower)

theorem IsServiceLabel.text_ofText : (Name.ofText s).text = s := by
  rw [← hs.lower_ofText hlower, hs.text_lower, toLower_eq_self hlower]

/-- A question for a label is answered from the entry of that label. -/
theorem answer_of_lower (c : Cache) (resolve : Resolver) {q : Question}
    (hq : q.query.name.lower = Name.ofText s) :
    (answer c resolve q).code = (answerService c (Name.ofText s) q.query.recordType).1 ∧
      (answer c resolve q).records =
        (answerService c (Name.ofText s) q.query.recordType).2 := by
  have hpoint : '.' ∉ (Name.ofText s).text.toList := by
    rw [hs.text_ofText hlower]
    exact hs.no_point
  simp only [answer, hq, if_neg hpoint, and_self]

end Label

/-! ### The law -/

/-- An answer that tells what a cache knows of a service, and nothing else. -/
structure Answer.Tells (a : Answer) (c : Cache) (service : String) (name : Name) (type : UInt16) :
    Prop where
  unknown : a.code = .noSuchName ↔ c.get? service = none ∧ c.isWatched service = false
  pending : a.code = .serverFailure ↔ c.get? service = none ∧ c.isWatched service = true
  undiscovered : c.get? service = none → a.records = []
  discovered : ∀ endpoints, c.get? service = some endpoints →
    a.code = .noError ∧ a.records = endpoints.filterMap (recordOf? name type)

theorem tells_of_label {s : String} (hs : IsServiceLabel s)
    (hlower : s.toList.any Char.isUpper = false) (c : Cache) (resolve : Resolver) {q : Question}
    (hq : q.query.name.lower = Name.ofText s) :
    (answer c resolve q).Tells c s (Name.ofText s) q.query.recordType.number := by
  obtain ⟨hcode, hrecords⟩ := answer_of_lower hs hlower c resolve hq
  have htext := hs.text_ofText hlower
  cases hentry : c.get? s with
  | none =>
      have hnone : ∀ endpoints, c.get? s ≠ some endpoints := by
        intro endpoints
        rw [hentry]
        nofun
      rw [answerService_of_none _ (by rw [htext]; exact hentry), htext] at hcode hrecords
      cases hwatched : c.isWatched s with
      | true =>
          rw [hwatched, if_pos rfl] at hcode
          exact ⟨by simp [hcode, hwatched], by simp [hcode, hentry, hwatched], fun _ => hrecords,
            fun endpoints h => absurd h (hnone endpoints)⟩
      | false =>
          rw [hwatched, if_neg Bool.false_ne_true] at hcode
          exact ⟨by simp [hcode, hentry, hwatched], by simp [hcode, hwatched], fun _ => hrecords,
            fun endpoints h => absurd h (hnone endpoints)⟩
  | some endpoints =>
      rw [answerService_of_some _ (by rw [htext]; exact hentry)] at hcode hrecords
      refine ⟨by simp [hcode, hentry], by simp [hcode, hentry], fun h => ?_, fun other h => ⟨hcode, ?_⟩⟩
      · rw [hentry] at h
        cases h
      · rw [hentry] at h
        cases h
        exact hrecords.trans (records_eq _ _ _)

/-- **Answers follow the cache, and asking only reads it.** However a client has been used, a
question for a service is answered with no such name just if the service has neither an entry nor a
mark, with a failure just if it has a mark alone, and otherwise with one record for each endpoint
that has an address of the wanted kind, in the order of the entry. No sequence of questions changes
the client. -/
theorem answers_follow_cache {s : String} (hs : IsServiceLabel s)
    (hlower : s.toList.any Char.isUpper = false) (identity : String) (bounds : Backoff.Bounds)
    (resolve : Resolver) (tasks : List Task) :
    let unused := Client.start identity bounds
    let c := after resolve unused tasks
    (∀ q : Question, q.query.name.lower = Name.ofText s →
      (answer c.cache resolve q).Tells c.cache s (Name.ofText s) q.query.recordType.number) ∧
    (∀ queries : List Question, after resolve c (queries.map .query) = c) ∧
    c = unused.after (tasks.flatMap Task.uses) := by
  intro unused c
  exact ⟨fun q hq => tells_of_label hs hlower c.cache resolve hq, after_queries resolve c,
    after_eq resolve unused tasks⟩

/-- The name is written in capitals, two of four endpoints have addresses of the family that is
asked for, and these are the same. -/
theorem answers_follow_cache_mixed :
    let tasks : List Task :=
      [.use (.event (.watch "my_svc-1")), .query ⟨1, 0, true, false, ⟨Name.ofText "other", .a, 1⟩⟩,
        .use (.event (.set "my_svc-1"
          [⟨"::1", 80, 1⟩, ⟨"10.0.0.1", 80, 1⟩, ⟨"backend", 80, 1⟩, ⟨"::1", 81, 1⟩]))]
    let c := after resolveAlone (Client.start "node" {}) tasks
    let q : Question := ⟨7, 0, true, false, ⟨Name.ofText "My_SVC-1", .aaaa, 1⟩⟩
    let loopback : IpAddress := .v6 ⟨[0, 0, 0, 0, 0, 0, 0, 1], rfl⟩
    IsServiceLabel "my_svc-1" ∧ "my_svc-1".toList.any Char.isUpper = false ∧
      q.query.name.lower = Name.ofText "my_svc-1" ∧
      (answer c.cache resolveAlone q).records =
        [⟨Name.ofText "my_svc-1", 5, loopback⟩, ⟨Name.ofText "my_svc-1", 5, loopback⟩] := by
  intro tasks c q loopback
  have hlabel : IsServiceLabel "my_svc-1" :=
    ⟨by decide +kernel, by decide +kernel, by decide +kernel, by decide +kernel, by decide +kernel⟩
  have hlower : "my_svc-1".toList.any Char.isUpper = false := by decide +kernel
  have hq : q.query.name.lower = Name.ofText "my_svc-1" := by decide +kernel
  obtain ⟨htells, -, -⟩ := answers_follow_cache hlabel hlower "node" {} resolveAlone tasks
  have hentry : c.cache.get? "my_svc-1" =
      some [⟨"::1", 80, 1⟩, ⟨"10.0.0.1", 80, 1⟩, ⟨"backend", 80, 1⟩, ⟨"::1", 81, 1⟩] := by
    decide +kernel
  exact ⟨hlabel, hlower, hq, ((htells q hq).discovered _ hentry).2.trans (by decide +kernel)⟩

end ServiceDiscovery.Dns
