import ServiceDiscovery.Failure
import ServiceDiscovery.Proofs.Watch.Turn
/-!
# What a watch acknowledges

The requests of a watch are cut into dialogues, one for each stream, and each request is determined
by the responses that its own stream has brought before it. The invariant is `Faithful`: all the
dialogues so far are answered in this way, and the acknowledgement that an open stream carries is
the one that its responses call for. A new stream starts a new dialogue, so nothing of an older
stream can come back.
-/

namespace ServiceDiscovery

namespace Response

def accepted (r : Response) : Bool := r.endpoints.toOption.isSome

/-- What the server is told about a response that is not applied. -/
def rejection (r : Response) : Option String :=
  match r.endpoints with
  | .ok _ => none
  | .error f => some (Failure.decode f).message

end Response

/-- The version of the last response that was applied. -/
def acceptedVersion (responses : List Response) : String :=
  ((responses.filter Response.accepted).getLast?.map Response.versionInfo).getD ""

namespace Ack

/-- What is to be acknowledged once a stream has brought some responses. -/
def after (responses : List Response) : Ack :=
  ⟨acceptedVersion responses, (responses.getLast?.map Response.nonce).getD "",
    responses.getLast?.bind Response.rejection⟩

theorem after_concat_of_ok {r : Response} {endpoints : List Endpoint} (responses : List Response)
    (hr : r.endpoints = .ok endpoints) : after (responses ++ [r]) = .accept r := by
  have haccepted : r.accepted = true := by rw [Response.accepted, hr]; rfl
  have hrejection : r.rejection = none := by rw [Response.rejection, hr]
  have hversion : acceptedVersion (responses ++ [r]) = r.versionInfo := by
    rw [acceptedVersion, List.filter_append, List.filter_cons_of_pos haccepted, List.filter_nil,
      List.getLast?_concat, Option.map_some, Option.getD_some]
  rw [after, hversion, List.getLast?_concat, Option.map_some, Option.getD_some, Option.bind_some,
    hrejection, accept]

theorem after_concat_of_error {r : Response} {f : DecodeFailure} (responses : List Response)
    (hr : r.endpoints = .error f) : after (responses ++ [r]) = (after responses).reject r f := by
  have haccepted : r.accepted = false := by rw [Response.accepted, hr]; rfl
  have hrejection : r.rejection = some f.message := by rw [Response.rejection, hr]; rfl
  have hversion : acceptedVersion (responses ++ [r]) = acceptedVersion responses := by
    rw [acceptedVersion, List.filter_append,
      List.filter_cons_of_neg (by rw [haccepted]; exact Bool.false_ne_true), List.filter_nil,
      List.append_nil, acceptedVersion]
  rw [after, hversion, List.getLast?_concat, Option.map_some, Option.getD_some, Option.bind_some,
    hrejection, reject, after]

end Ack

namespace Watch

/-! ### Dialogues -/

/-- What was said on one stream. -/
structure Dialogue where
  requests : List Request
  responses : List Response

/-- Adds a turn to the dialogues so far, of which the newest comes first. -/
def converse (ds : List Dialogue) (t : Turn) : List Dialogue :=
  if t.opens then ⟨t.requests, t.responses⟩ :: ds
  else
    match ds with
    | [] => []
    | d :: older => ⟨d.requests ++ t.requests, d.responses ++ t.responses⟩ :: older

def dialogues (run : List Turn) : List Dialogue := run.foldl converse []

/-- All that the dialogues ask, from the oldest on. -/
def asked (ds : List Dialogue) : List Request := ds.reverse.flatMap Dialogue.requests

theorem converse_of_quiet {t : Turn} (ds : List Dialogue) (hopens : t.opens = false)
    (hrequests : t.requests = []) (hresponses : t.responses = []) : converse ds t = ds := by
  cases ds with
  | nil => rw [converse.eq_def, hopens, if_neg Bool.false_ne_true]
  | cons d older =>
      rw [converse.eq_def, hopens, if_neg Bool.false_ne_true]
      simp only [hrequests, hresponses, List.append_nil]

theorem asked_cons (d : Dialogue) (ds : List Dialogue) :
    asked (d :: ds) = asked ds ++ d.requests := by
  rw [asked, List.reverse_cons, List.flatMap_append, List.flatMap_singleton, asked]

/-- One request for every beginning of what a stream has brought. -/
def answers (identity service : String) (responses : List Response) : List Request :=
  (List.range (responses.length + 1)).map fun k =>
    (Ack.after (responses.take k)).request identity service

theorem answers_concat (identity service : String) (responses : List Response) (r : Response) :
    answers identity service (responses ++ [r]) = answers identity service responses ++
      [(Ack.after (responses ++ [r])).request identity service] := by
  have hlength : (responses ++ [r]).length = responses.length + 1 := List.length_append
  rw [answers, hlength, List.range_succ, List.map_append, List.map_singleton]
  congr 1
  · apply List.map_congr_left
    intro k hk
    have hle : k ≤ responses.length := Nat.lt_succ_iff.mp (List.mem_range.mp hk)
    rw [List.take_append_of_le_length hle]
  · rw [List.take_of_length_le (Nat.le_of_eq hlength)]

/-! ### The invariant -/

/-- The dialogues so far fit the watch as it now is. -/
structure Faithful (identity service : String) (w : Watch) (ds : List Dialogue) : Prop where
  identity_eq : w.identity = identity
  service_eq : w.service = service
  answered : ∀ d ∈ ds, d.requests = answers identity service d.responses
  current : ∀ x, w.phase = .sending x ∨ w.phase = .receiving x →
    ∃ d older, ds = d :: older ∧ x.ack = Ack.after d.responses

section Step

variable {identity service : String} {w next : Watch} {i : Input} {t : Turn} {ds : List Dialogue}

/-- A turn that adds nothing to the dialogues keeps the invariant, if it opens no exchange. -/
private theorem Faithful.quiet (h : Faithful identity service w ds) (hmove : Move w i next t)
    (hopens : t.opens = false) (hrequests : t.requests = []) (hresponses : t.responses = [])
    (hphase : ∀ x, next.phase = .sending x ∨ next.phase = .receiving x →
      w.phase = .sending x ∨ w.phase = .receiving x) :
    Faithful identity service next (converse ds t) := by
  rw [converse_of_quiet ds hopens hrequests hresponses]
  obtain ⟨hservice, hidentity⟩ := hmove.service_identity
  exact ⟨hidentity.trans h.identity_eq, hservice.trans h.service_eq, h.answered,
    fun x hx => h.current x (hphase x hx)⟩

/-- A stream that brings a response goes on with the request that answers it. -/
private theorem Faithful.answer (h : Faithful identity service w ds) (hmove : Move w i next t)
    {x : Exchange} {r : Response} {ack : Ack} {n : Nat} (hphase : w.phase = .receiving x)
    (hnext : next.phase = .sending ⟨ack, n⟩) (hopens : t.opens = false)
    (hrequests : t.requests = [ack.request w.identity w.service]) (hresponses : t.responses = [r])
    (hack : ∀ responses, x.ack = Ack.after responses → ack = Ack.after (responses ++ [r])) :
    Faithful identity service next (converse ds t) := by
  obtain ⟨d, older, rfl, hx⟩ := h.current x (.inr hphase)
  obtain ⟨hservice, hidentity⟩ := hmove.service_identity
  have hconverse : converse (d :: older) t =
      ⟨d.requests ++ t.requests, d.responses ++ t.responses⟩ :: older := by
    rw [converse.eq_def, hopens, if_neg Bool.false_ne_true]
  rw [hconverse, hrequests, hresponses, h.identity_eq, h.service_eq, hack d.responses hx]
  refine ⟨hidentity.trans h.identity_eq, hservice.trans h.service_eq, ?_, ?_⟩
  · intro e he
    rcases List.mem_cons.mp he with rfl | he
    · rw [answers_concat, h.answered d (List.mem_cons_self ..)]
    · exact h.answered e (List.mem_cons_of_mem _ he)
  · intro y hy
    rw [hnext] at hy
    rcases hy with hy | hy
    · cases hy
      exact ⟨_, older, rfl, hack d.responses hx⟩
    · cases hy

theorem Faithful.move (h : Faithful identity service w ds) (hmove : Move w i next t) :
    Faithful identity service next (converse ds t) := by
  have hmove' := hmove
  cases hmove' with
  | opened hlive hphase =>
      -- The new stream begins a dialogue of its own, which nothing older can reach.
      refine ⟨h.identity_eq, h.service_eq, ?_, ?_⟩
      · intro d hd
        rcases List.mem_cons.mp hd with rfl | hd
        · rw [h.identity_eq, h.service_eq]
          rfl
        · exact h.answered d hd
      · intro x hx
        rcases hx with hx | hx
        · cases hx
          exact ⟨_, ds, rfl, rfl⟩
        · cases hx
  | sent hlive x hphase =>
      refine h.quiet hmove rfl rfl rfl fun y hy => .inl ?_
      rcases hy with hy | hy
      · cases hy
      · cases hy
        exact hphase
  | accepted hlive x r endpoints hphase hsignal hok =>
      exact h.answer hmove hphase rfl rfl rfl rfl fun responses _ =>
        (Ack.after_concat_of_ok responses hok).symm
  | rejected hlive x r f hphase hsignal herror =>
      refine h.answer hmove hphase rfl rfl rfl rfl fun responses hx => ?_
      rw [hx, Ack.after_concat_of_error responses herror]
  | ignored hidle hsettled => exact h.quiet hmove rfl rfl rfl fun _ hx => hx
  | launched | woken | refused | sendFailed | ended | receiveFailed | closed | cut | dropped
  | finished => exact h.quiet hmove rfl rfl rfl (by simp [asleep])

theorem Faithful.asked_move (h : Faithful identity service w ds) (hmove : Move w i next t) :
    asked (converse ds t) = asked ds ++ t.requests := by
  have hquiet (hopens : t.opens = false) (hrequests : t.requests = [])
      (hresponses : t.responses = []) : asked (converse ds t) = asked ds ++ t.requests := by
    rw [converse_of_quiet ds hopens hrequests hresponses, hrequests, List.append_nil]
  have hanswer {x : Exchange} (hphase : w.phase = .receiving x) (hopens : t.opens = false) :
      asked (converse ds t) = asked ds ++ t.requests := by
    obtain ⟨d, older, rfl, _⟩ := h.current x (.inr hphase)
    rw [converse.eq_def, hopens, if_neg Bool.false_ne_true]
    simp only [asked_cons, List.append_assoc]
  cases hmove with
  | opened hlive hphase => exact asked_cons _ ds
  | accepted hlive x r endpoints hphase hsignal hok => exact hanswer hphase rfl
  | rejected hlive x r f hphase hsignal herror => exact hanswer hphase rfl
  | launched | woken | refused | sent | sendFailed | ended | receiveFailed | closed | cut | dropped
  | finished | ignored => exact hquiet rfl rfl rfl

theorem Faithful.run (h : Faithful identity service w ds) (inputs : List Input) :
    Faithful identity service (w.after inputs) ((w.turns inputs).foldl converse ds) ∧
      asked ((w.turns inputs).foldl converse ds) =
        asked ds ++ (w.turns inputs).flatMap Turn.requests := by
  induction inputs generalizing w ds with
  | nil => exact ⟨h, (List.append_nil _).symm⟩
  | cons i rest ih =>
      have hmove := w.move_turn i
      obtain ⟨hafter, hasked⟩ := ih (h.move hmove)
      refine ⟨hafter, ?_⟩
      rw [turns_cons, List.foldl_cons, hasked, h.asked_move hmove, List.flatMap_cons,
        List.append_assoc]

end Step

theorem faithful_fresh (service identity : String) (backoff : Backoff) :
    Faithful identity service (fresh service identity backoff) [] :=
  ⟨rfl, rfl, nofun, fun _ hx => by rcases hx with hx | hx <;> cases hx⟩

/-! ### The law -/

/-- **The acknowledgement law.** Every request of every run names the one resource of the service,
and belongs to a stream. The first one on a stream acknowledges nothing; each later one carries the
nonce of the response before it, the version of the last response of this stream that was applied,
and a complaint just if the response before it was not. Each response gets exactly one answer. -/
theorem requests_acknowledge_responses (service identity : String) (backoff : Backoff)
    (inputs : List Input) :
    let run := (fresh service identity backoff).turns inputs
    (∀ q ∈ run.flatMap Turn.requests, q.clientIdentity = identity ∧
      q.resourceType = endpointTypeUrl ∧ q.resourceNames = [service ++ "_cluster"]) ∧
    asked (dialogues run) = run.flatMap Turn.requests ∧
    ∀ d ∈ dialogues run,
      d.requests.length = d.responses.length + 1 ∧
      (∃ q, d.requests[0]? = some q ∧
        q.versionInfo = "" ∧ q.responseNonce = "" ∧ q.errorDetail = none) ∧
      ∀ (k : Nat) (r : Response), d.responses[k]? = some r →
        ∃ q, d.requests[k + 1]? = some q ∧
          q.responseNonce = r.nonce ∧
          q.versionInfo = acceptedVersion (d.responses.take (k + 1)) ∧
          q.errorDetail = r.rejection := by
  intro run
  obtain ⟨hfaithful, hasked⟩ := (faithful_fresh service identity backoff).run inputs
  have hrequest (d : Dialogue) (hd : d ∈ dialogues run) (k : Nat) (hk : k ≤ d.responses.length) :
      d.requests[k]? = some ((Ack.after (d.responses.take k)).request identity service) := by
    rw [hfaithful.answered d hd, answers, List.getElem?_map,
      List.getElem?_range (Nat.lt_succ_of_le hk), Option.map_some]
  refine ⟨?_, hasked, fun d hd => ⟨?_, ?_, ?_⟩⟩
  · intro q hq
    rw [← List.nil_append (run.flatMap Turn.requests)] at hq
    rw [← show asked [] = [] from rfl, ← hasked] at hq
    obtain ⟨d, hd, hqd⟩ := List.mem_flatMap.mp hq
    rw [hfaithful.answered d (List.mem_reverse.mp hd)] at hqd
    obtain ⟨k, _, rfl⟩ := List.mem_map.mp hqd
    exact ⟨rfl, rfl, rfl⟩
  · rw [hfaithful.answered d hd, answers, List.length_map, List.length_range]
  · exact ⟨_, hrequest d hd 0 (Nat.zero_le _), rfl, rfl, rfl⟩
  · intro k r hr
    obtain ⟨hk, hget⟩ := List.getElem?_eq_some_iff.mp hr
    have hlast : (d.responses.take (k + 1)).getLast? = some r := by
      rw [List.take_succ_eq_append_getElem hk, List.getLast?_concat, hget]
    refine ⟨_, hrequest d hd (k + 1) hk, ?_, rfl, ?_⟩
    · rw [Ack.request, Ack.after, hlast]
      rfl
    · rw [Ack.request, Ack.after, hlast]
      rfl

private def undecodable (nonce : String) : Response := ⟨"9", nonce, [⟨"other", .null⟩]⟩

/-- Two rejections with an acceptance between them, after a stream that failed at once. -/
theorem requests_acknowledge_responses_mixed :
    let inputs : List Input := [.wake, .connected, .sendFailed, .closed, .wake, .connected, .sent,
      .received (undecodable "n1"), .sent, .received ⟨"2", "n2", []⟩, .sent,
      .received (undecodable "n3")].map (⟨false, ⟨0⟩, ·⟩)
    let run := (fresh "svc" "node" { bounds := ⟨⟨0⟩, ⟨0⟩⟩ }).turns inputs
    ∃ d ∈ dialogues run, ∃ r, d.responses[2]? = some r ∧ r.nonce = "n3" ∧
      ∃ q, d.requests[3]? = some q ∧ q.responseNonce = "n3" ∧ q.versionInfo = "2" ∧
        q.errorDetail = some "failed to decode other resource: unsupported resource type" := by
  intro inputs run
  have hview : (dialogues run).head?.map (fun d =>
      (d.responses[2]?.map fun r => (r.nonce, r.rejection), acceptedVersion (d.responses.take 3))) =
      some (some ("n3", some "failed to decode other resource: unsupported resource type"),
        "2") := by
    decide +kernel
  obtain ⟨d, hd, hdview⟩ := Option.map_eq_some_iff.mp hview
  obtain ⟨hthird, hversion⟩ := Prod.mk.inj hdview
  obtain ⟨r, hr, hrview⟩ := Option.map_eq_some_iff.mp hthird
  obtain ⟨hnonce, hrejection⟩ := Prod.mk.inj hrview
  have hmem : d ∈ dialogues run := List.mem_of_head? hd
  have hlaw := requests_acknowledge_responses "svc" "node" { bounds := ⟨⟨0⟩, ⟨0⟩⟩ } inputs
  obtain ⟨q, hq, hqnonce, hqversion, hqerror⟩ := (hlaw.2.2 d hmem).2.2 2 r hr
  exact ⟨d, hmem, r, hr, hnonce, q, hq, hqnonce.trans hnonce, hqversion.trans hversion,
    hqerror.trans hrejection⟩

end Watch

end ServiceDiscovery
