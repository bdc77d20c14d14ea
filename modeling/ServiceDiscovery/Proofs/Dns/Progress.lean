import ServiceDiscovery.Proofs.Client.Writes
import ServiceDiscovery.Proofs.Dns.Lookup
/-!
# Discovery only moves forward

A service is unknown, then pending, then discovered, and each of these shows in the answers for its
name. The stage is read off the entry and the mark alone, and no event takes either away, so the
stage of a service never falls, whatever becomes of its watch. It leaves the first stage only when
something marks the service or writes its entry, and a question does neither.
-/

namespace ServiceDiscovery.Dns

open Client (Use)

/-- How far the discovery of a service has come. -/
def ServiceStatus.stage : ServiceStatus → Nat
  | .unknown => 0
  | .pending => 1
  | .empty => 2
  | .addresses _ => 2

/-- The stage that an answer with this code tells of. -/
def ResponseCode.stage : ResponseCode → Nat
  | .noSuchName => 0
  | .serverFailure => 1
  | .noError => 2

namespace Task

/-- What a task does to the client. -/
def events (t : Task) : List Client.Event := t.uses.flatMap Use.events

theorem perform_eq (resolve : Resolver) (c : Client) (t : Task) :
    (t.perform resolve c).2 = c.run t.events := by
  cases t with
  | use u => rw [perform, events, uses, List.flatMap_singleton, u.apply_eq]
  | query q => rfl

theorem events_cases (t : Task) : t.events = [] ∨ ∃ e, t.events = [e] := by
  cases t with
  | query q => exact .inl rfl
  | use u =>
      rw [events, uses, List.flatMap_singleton]
      cases u with
      | event e => exact .inr ⟨e, rfl⟩
      | resolve d address =>
          rw [Use.events]
          cases HostPort.ofAddress? address with
          | none => exact .inl rfl
          | some target => exact .inr ⟨_, rfl⟩

end Task

/-- The answers to the questions among some tasks. -/
def answers (resolve : Resolver) (c : Client) : List Task → List Answer
  | [] => []
  | t :: rest => (t.perform resolve c).1.toList ++ answers resolve (t.perform resolve c).2 rest

/-! ### Stages -/

theorem stage_eq (c : Cache) (service : String) (t : RecordType) :
    (serviceStatus c service t).stage =
      if (c.get? service).isSome then 2 else if c.isWatched service then 1 else 0 := by
  cases hentry : c.get? service with
  | some endpoints =>
      simp only [serviceStatus, hentry]
      cases addressesOf endpoints t <;> rfl
  | none =>
      simp only [serviceStatus, hentry]
      cases c.isWatched service <;> rfl

theorem stage_answerService (c : Cache) (name : Name) (t : RecordType) :
    (answerService c name t).1.stage = (serviceStatus c name.text t).stage := by
  rw [answerService]
  cases serviceStatus c name.text t <;> rfl

theorem stage_answer {s : String} (hs : IsServiceLabel s)
    (hlower : s.toList.any Char.isUpper = false) (c : Cache) (resolve : Resolver) {q : Question}
    (hq : q.query.name.lower = Name.ofText s) :
    (answer c resolve q).code.stage = (serviceStatus c s q.query.recordType).stage := by
  rw [(answer_of_lower hs hlower c resolve hq).1, stage_answerService, hs.text_ofText hlower]

theorem status_eq_unknown_iff (c : Cache) (service : String) (t : RecordType) :
    serviceStatus c service t = .unknown ↔ (serviceStatus c service t).stage = 0 := by
  cases serviceStatus c service t <;> simp [ServiceStatus.stage]

/-! ### Events -/

theorem isSome_get?_step (c : Client) (service : String) (e : Client.Event) :
    ((c.step e).2.cache.get? service).isSome =
      (decide (c.writesOf service e ≠ []) || (c.cache.get? service).isSome) := by
  rw [Client.get?_step, Option.isSome_or]
  congr 1
  rw [Bool.eq_iff_iff, List.getLast?_isSome, decide_eq_true_eq]

theorem stage_step (c : Client) (service : String) (t t' : RecordType) (e : Client.Event) :
    (serviceStatus c.cache service t).stage ≤ (serviceStatus (c.step e).2.cache service t').stage := by
  rw [stage_eq, stage_eq, isSome_get?_step, Client.isWatched_step]
  cases (c.cache.get? service).isSome with
  | true =>
      rw [Bool.or_true]
      exact Nat.le_refl _
  | false =>
      cases c.cache.isWatched service with
      | true =>
          rw [Bool.true_or]
          cases decide (c.writesOf service e ≠ []) <;> decide
      | false => exact Nat.zero_le _

/-- What makes a service known that was not: something marks it, or writes its entry. -/
theorem stage_step_of_unknown {c : Client} {service : String} {t : RecordType} (t' : RecordType)
    (e : Client.Event) (hunknown : serviceStatus c.cache service t = .unknown) :
    serviceStatus (c.step e).2.cache service t' ≠ .unknown ↔
      c.marks service e = true ∨ c.writesOf service e ≠ [] := by
  rw [status_eq_unknown_iff, stage_eq] at hunknown
  rw [ne_eq, status_eq_unknown_iff, stage_eq, isSome_get?_step, Client.isWatched_step]
  cases hentry : (c.cache.get? service).isSome with
  | true => simp [hentry] at hunknown
  | false =>
      cases hwatched : c.cache.isWatched service with
      | true => simp [hentry, hwatched] at hunknown
      | false =>
          cases c.marks service e <;> by_cases hwrites : c.writesOf service e = [] <;>
            simp [hwrites]

theorem stage_run (c : Client) (service : String) (t t' : RecordType) (events : List Client.Event) :
    (serviceStatus c.cache service t).stage ≤ (serviceStatus (c.run events).cache service t').stage := by
  induction events generalizing c t with
  | nil =>
      rw [stage_eq, stage_eq]
      exact Nat.le_refl _
  | cons e rest ih => exact Nat.le_trans (stage_step c service t t e) (ih (c.step e).2 t)

theorem stage_after (resolve : Resolver) (c : Client) (service : String) (t t' : RecordType)
    (tasks : List Task) :
    (serviceStatus c.cache service t).stage ≤
      (serviceStatus (after resolve c tasks).cache service t').stage := by
  rw [after_eq, Client.after_eq]
  exact stage_run c service t t' _

/-! ### The law -/

section Label

variable {s : String} (hs : IsServiceLabel s) (hlower : s.toList.any Char.isUpper = false)

include hs hlower

/-- No later answer for a service tells of an earlier stage. -/
theorem stage_le_of_mem_answers (resolve : Resolver) (c : Client) (t : RecordType)
    (tasks : List Task) {a : Answer} (ha : a ∈ answers resolve c tasks)
    (hname : a.query.name.lower = Name.ofText s) :
    (serviceStatus c.cache s t).stage ≤ a.code.stage := by
  induction tasks generalizing c with
  | nil => cases ha
  | cons task rest ih =>
      rcases List.mem_append.mp ha with hnow | hlater
      · cases task with
        | use u => cases hnow
        | query q =>
            have hanswer : a = answer c.cache resolve q := List.mem_singleton.mp hnow
            subst hanswer
            have hsame :=
              stage_answer hs hlower c.cache resolve (show q.query.name.lower = _ from hname)
            exact Nat.le_of_eq (by rw [hsame, stage_eq, stage_eq])
      · refine Nat.le_trans ?_ (ih (task.perform resolve c).2 hlater)
        rw [Task.perform_eq]
        exact stage_run c s t t task.events

theorem answers_in_order (resolve : Resolver) (c : Client) (tasks : List Task) :
    ((answers resolve c tasks).filter fun a => a.query.name.lower = Name.ofText s).Pairwise
      fun a b => a.code.stage ≤ b.code.stage := by
  induction tasks generalizing c with
  | nil => exact List.Pairwise.nil
  | cons task rest ih =>
      cases task with
      | use u => exact ih _
      | query q =>
          change ((answer c.cache resolve q :: answers resolve c rest).filter _).Pairwise _
          by_cases hq : q.query.name.lower = Name.ofText s
          · rw [List.filter_cons_of_pos (by exact decide_eq_true hq), List.pairwise_cons]
            refine ⟨fun b hb => ?_, ih c⟩
            obtain ⟨hmem, hname⟩ := List.mem_filter.mp hb
            rw [stage_answer hs hlower c.cache resolve hq]
            exact stage_le_of_mem_answers hs hlower resolve c _ rest hmem (of_decide_eq_true hname)
          · rw [List.filter_cons_of_neg (by exact fun h => hq (of_decide_eq_true h))]
            exact ih c

end Label

/-- **The status of a service only moves forward.** From every state that a client can reach, the
stage of a service never falls, and so the answers for its name are in order: after a failure never
no such name, and after an address record or an empty answer neither of the two. The service leaves
the first stage just when a task marks it or writes its entry; a question does nothing of the kind. -/
theorem status_moves_forward {s : String} (hs : IsServiceLabel s)
    (hlower : s.toList.any Char.isUpper = false) (identity : String) (bounds : Backoff.Bounds)
    (resolve : Resolver) (tasks : List Task) :
    let unused := Client.start identity bounds
    let c := after resolve unused tasks
    (∀ later t t', (serviceStatus c.cache s t).stage ≤
      (serviceStatus (after resolve c later).cache s t').stage) ∧
    ((answers resolve unused tasks).filter fun a => a.query.name.lower = Name.ofText s).Pairwise
      (fun a b => a.code.stage ≤ b.code.stage) ∧
    (∀ q : Question, q.query.name.lower = Name.ofText s →
      (answer c.cache resolve q).code.stage = (serviceStatus c.cache s q.query.recordType).stage) ∧
    ∀ (task : Task) t t', serviceStatus c.cache s t = .unknown →
      (serviceStatus (task.perform resolve c).2.cache s t' ≠ .unknown ↔
        ∃ e ∈ task.events, c.marks s e = true ∨ c.writesOf s e ≠ []) := by
  intro unused c
  refine ⟨fun later t t' => stage_after resolve c s t t' later,
    answers_in_order hs hlower resolve unused tasks,
    fun q hq => stage_answer hs hlower c.cache resolve hq, fun task t t' hunknown => ?_⟩
  rw [Task.perform_eq]
  rcases task.events_cases with hnone | ⟨e, hone⟩
  · rw [hnone, Client.run_nil]
    have hsame : serviceStatus c.cache s t' = .unknown := by
      rw [status_eq_unknown_iff, stage_eq] at hunknown ⊢
      exact hunknown
    simp [hsame]
  · rw [hone, Client.run_cons, Client.run_nil, stage_step_of_unknown t' e hunknown]
    simp

/-- A service is asked for before it is watched, while its watch waits, and after its stream has
brought a list and has failed; at last the client is cancelled. -/
theorem status_moves_forward_cancelled :
    let q : Question := ⟨1, 0, true, false, ⟨Name.ofText "web", .a, 1⟩⟩
    let tell (σ : Signal) : Task := .use (.event (.signal "web" σ))
    let tasks : List Task :=
      [.query q, .use (.event (.watch "web")), .query q, tell .wake, tell .connected, tell .sent,
        tell (.received ⟨"1", "n", []⟩), tell .sendFailed, .query q, .use (.event .cancel),
        tell .wake, .query q]
    IsServiceLabel "web" ∧ "web".toList.any Char.isUpper = false ∧
      (answers resolveAlone (Client.start "node" {}) tasks).map (fun a => a.code.stage) =
        [0, 1, 2, 2] ∧
      ∀ later t, 2 ≤ (serviceStatus (after resolveAlone (after resolveAlone
        (Client.start "node" {}) tasks) later).cache "web" t).stage := by
  intro q tell tasks
  have hlabel : IsServiceLabel "web" :=
    ⟨by decide +kernel, by decide +kernel, by decide +kernel, by decide +kernel, by decide +kernel⟩
  have hlower : "web".toList.any Char.isUpper = false := by decide +kernel
  obtain ⟨hstages, -, -, -⟩ :=
    status_moves_forward hlabel hlower "node" {} resolveAlone tasks
  refine ⟨hlabel, hlower, by decide +kernel, fun later t => ?_⟩
  exact Nat.le_trans (by decide +kernel) (hstages later .a t)

end ServiceDiscovery.Dns
