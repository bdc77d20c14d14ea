import Mathlib.Data.List.Forall2
import ServiceDiscovery.Proofs.Frame.Receiving
import ServiceDiscovery.Proofs.Frame.Sending
import ServiceDiscovery.Proofs.Json.Complaint
import ServiceDiscovery.Proofs.Watch.Acknowledgement
/-!
# How long replies are

A reply carries the version and the nonce of responses, and a rejecting one a sentence about a
payload. All these were read off lines, so they are no longer than the lines, but for the sentence,
which may be seven times as long as what it quotes. Only received lines are bounded: a rejection of
a response that was short enough can be too long to be read.
-/

namespace ServiceDiscovery

open Json (writtenSize byteCount total)

/-! ### Responses -/

theorem Resource.shape_exact : Resource.shape.Exact :=
  ⟨fun _ => rfl, .required trivial (.defaulted rfl trivial trivial)⟩

theorem Response.shape_exact : Response.shape.Exact :=
  ⟨fun _ => rfl, .defaulted rfl trivial
    (.defaulted rfl trivial (.defaulted rfl Resource.shape_exact trivial))⟩

theorem Resource.weight_eq (x : Resource) :
    Resource.shape.weight x = writtenSize x.typeUrl + x.value.weight := rfl

theorem Response.weight_eq (r : Response) :
    Response.shape.weight r =
      writtenSize r.versionInfo + (writtenSize r.nonce + total Resource.shape.weight r.resources) :=
  rfl

theorem Frame.Holds.weight_lt {line : List UInt8} {r : Response} (h : Frame.Holds line r) :
    Response.shape.weight r < line.length := by
  obtain ⟨s, htext, hparse⟩ := h.reads
  have hlt := Json.Shape.weight_lt_of_parse Response.shape_exact hparse
  have hline := Frame.text?_eq_some_iff.mp htext
  have hshorter : (Frame.dropReturn line).length ≤ line.length := by
    rw [Frame.dropReturn]
    split_ifs
    · rw [List.length_dropLast]
      exact Nat.sub_le _ _
    · exact Nat.le_refl _
  rw [hline, Frame.length_bytesOf] at hshorter
  exact Nat.lt_of_lt_of_le hlt hshorter

/-! ### Rejections -/

theorem DecodeFailure.message_eq (f : DecodeFailure) :
    writtenSize f.message = writtenSize f.typeUrl + writtenSize f.reason + 28 := by
  have hopen : writtenSize "failed to decode " = 17 := rfl
  have hmiddle : writtenSize " resource: " = 11 := rfl
  have hmessage : f.message = "failed to decode " ++ f.typeUrl ++ " resource: " ++ f.reason := rfl
  simp only [hmessage, Json.writtenSize_append, hopen, hmiddle]
  omega

theorem Assignment.shape_wording : Assignment.shape.wording = 464 := by decide +kernel

theorem writtenSize_endpointTypeUrl : writtenSize endpointTypeUrl = 66 := by decide +kernel

theorem Resource.complaint {x : Resource} {f : DecodeFailure} (h : x.decode = .error f) :
    writtenSize f.message ≤ 7 * Resource.shape.weight x + 859 := by
  have hurl := writtenSize_endpointTypeUrl
  rw [f.message_eq, x.weight_eq]
  rw [Resource.decode] at h
  split_ifs at h with htype
  · cases hvalue : Assignment.shape.ofJson x.value with
    | ok a =>
        rw [hvalue] at h
        cases h
    | error e =>
        rw [hvalue] at h
        cases h
        have hcomplaint := Assignment.shape.complaint hvalue
        have hwording := Assignment.shape_wording
        change writtenSize endpointTypeUrl + writtenSize e.message + 28 ≤ _
        omega
  · cases h
    have hreason : writtenSize "unsupported resource type" = 25 := rfl
    change writtenSize x.typeUrl + writtenSize "unsupported resource type" + 28 ≤ _
    omega

theorem Assignment.complaint {a : Assignment} {f : DecodeFailure} (h : a.endpoints = .error f) :
    writtenSize f.message ≤ 859 := by
  rw [Assignment.endpoints] at h
  cases hports : a.toEndpoints with
  | ok endpoints =>
      rw [hports] at h
      cases h
  | error port =>
      rw [hports] at h
      cases h
      have hport := Json.writtenSize_toString_word (Nat.le_of_lt
        (Nat.lt_of_lt_of_le port.toNat_lt_size (by decide)))
      have hurl := writtenSize_endpointTypeUrl
      have hopen : writtenSize "port " = 5 := rfl
      have hclose : writtenSize " out of range" = 13 := rfl
      have hreason : (DecodeFailure.portOutOfRange port).reason =
          "port " ++ toString port.toNat ++ " out of range" := rfl
      simp only [DecodeFailure.message_eq, DecodeFailure.typeUrl, hreason,
        Json.writtenSize_append, hopen, hclose, hurl]
      omega

/-- **A rejection is no longer than seven times the resources.** -/
theorem Response.complaint {r : Response} {f : DecodeFailure} (h : r.endpoints = .error f) :
    writtenSize f.message ≤ 7 * total Resource.shape.weight r.resources + 859 := by
  rw [Response.endpoints] at h
  split at h
  · cases h
  · next first rest hresources =>
      rw [hresources, Json.total_cons]
      cases hdecode : first.decode with
      | error f' =>
          rw [hdecode] at h
          cases h
          have hle := Resource.complaint hdecode
          omega
      | ok a =>
          rw [hdecode] at h
          have hle := Assignment.complaint h
          omega

/-! ### Requests -/

namespace Ack

/-- The members of every request. -/
def members (a : Ack) (identity service : String) : List (List Char) :=
  [Json.writeMember "client_identity" (Json.writeString identity),
    Json.writeMember "resource_type" (Json.writeString endpointTypeUrl),
    Json.writeMember "resource_names" (Json.writeList [Json.writeString (resourceName service)]),
    Json.writeMember "version_info" (Json.writeString a.versionInfo),
    Json.writeMember "response_nonce" (Json.writeString a.responseNonce)]

theorem members_ne_nil (a : Ack) (identity service : String) : a.members identity service ≠ [] :=
  List.cons_ne_nil _ _

theorem total_members (a : Ack) (identity service : String) :
    total byteCount (a.members identity service) =
      writtenSize identity + writtenSize service + writtenSize a.versionInfo +
        writtenSize a.responseNonce + 174 := by
  have hidentity : writtenSize "client_identity" = 15 := rfl
  have htype : writtenSize "resource_type" = 13 := rfl
  have hnames : writtenSize "resource_names" = 14 := rfl
  have hversion : writtenSize "version_info" = 12 := rfl
  have hnonce : writtenSize "response_nonce" = 14 := rfl
  have hcluster : writtenSize (resourceName service) = writtenSize service + 8 :=
    Json.writtenSize_append _ _
  simp only [members, Json.total_cons, Json.total_nil, Json.byteCount_writeMember,
    Json.byteCount_writeString, Json.byteCount_writeList_singleton, writtenSize_endpointTypeUrl,
    hidentity, htype, hnames, hversion, hnonce, hcluster]
  omega

/-- The room that a request needs for what it acknowledges and for the names of its fields. -/
def weight (a : Ack) : Nat :=
  writtenSize a.versionInfo + writtenSize a.responseNonce +
    a.errorDetail.elim 175 fun detail => writtenSize detail + 193

theorem weight_accept (r : Response) :
    (accept r).weight = writtenSize r.versionInfo + writtenSize r.nonce + 175 := rfl

theorem weight_reject (a : Ack) (r : Response) (f : DecodeFailure) :
    (a.reject r f).weight =
      writtenSize a.versionInfo + writtenSize r.nonce + (writtenSize f.message + 193) := rfl

/-- How long the line of a request is. -/
theorem length_line (a : Ack) (identity service : String) :
    (Frame.bytesOf (Request.shape.text (a.request identity service))).length =
      writtenSize identity + writtenSize service + a.weight := by
  have hnil := a.members_ne_nil identity service
  have hmembers := a.total_members identity service
  rw [Frame.length_bytesOf, Json.Shape.text, String.toList_ofList, weight]
  cases hdetail : a.errorDetail with
  | none =>
      have hwrite : Request.shape.write (a.request identity service) =
          Json.writeObject (a.members identity service) := by
        obtain ⟨version, nonce, detail⟩ := a
        cases hdetail
        rfl
      rw [hwrite, Json.byteCount_writeObject hnil, hmembers, Option.elim_none]
      omega
  | some detail =>
      have hkey : writtenSize "error_detail" = 12 := rfl
      have hwrite : Request.shape.write (a.request identity service) =
          Json.writeObject (a.members identity service ++
            [Json.writeMember "error_detail" (Json.writeString detail)]) := by
        obtain ⟨version, nonce, detail⟩ := a
        cases hdetail
        rfl
      rw [hwrite, Json.byteCount_writeObject (List.append_ne_nil_of_left_ne_nil hnil _),
        Json.total_append, hmembers, Json.total_cons, Json.total_nil, Json.byteCount_writeMember,
        Json.byteCount_writeString, hkey, Option.elim_some]
      omega

end Ack

theorem acceptedVersion_le {n : Nat} {responses : List Response}
    (h : ∀ r ∈ responses, Response.shape.weight r ≤ n) :
    writtenSize (acceptedVersion responses) ≤ n := by
  rw [acceptedVersion]
  cases hlast : (responses.filter Response.accepted).getLast? with
  | none => exact Nat.zero_le n
  | some r =>
      have hr := h r (List.mem_of_mem_filter (List.mem_of_getLast? hlast))
      rw [Response.weight_eq] at hr
      rw [Option.map_some, Option.getD_some]
      omega

/-- What a stream acknowledges, against the responses that it has brought. The version that a
rejection repeats may have come with another response than the one that is rejected. -/
theorem Ack.weight_after_le {n : Nat} {responses : List Response}
    (h : ∀ r ∈ responses, Response.shape.weight r ≤ n) :
    (Ack.after responses).weight ≤ 8 * n + 1052 ∧
      ((Ack.after responses).errorDetail = none → (Ack.after responses).weight ≤ n + 175) := by
  rcases List.eq_nil_or_concat' responses with rfl | ⟨before, r, rfl⟩
  · have hempty : (Ack.after []).weight = 175 := rfl
    rw [hempty]
    exact ⟨by omega, fun _ => by omega⟩
  · have hr := h r (List.mem_append_right _ List.mem_cons_self)
    rw [Response.weight_eq] at hr
    cases hendpoints : r.endpoints with
    | ok endpoints =>
        rw [Ack.after_concat_of_ok before hendpoints, Ack.weight_accept]
        exact ⟨by omega, fun _ => by omega⟩
    | error f =>
        have hversion : writtenSize (Ack.after before).versionInfo ≤ n :=
          acceptedVersion_le fun r' hr' => h r' (List.mem_append_left _ hr')
        have hcomplaint := Response.complaint hendpoints
        rw [Ack.after_concat_of_error before hendpoints, Ack.weight_reject]
        exact ⟨by omega, nofun⟩

namespace Frame

/-! ### Lines of requests -/

/-- A reader with the same limit takes the request off its line, whatever follows. -/
def Readable (q : Request) : Prop :=
  ∀ rest, next (encode q ++ rest) = .ok (some (Request.shape.text q), rest)

theorem next_encode (q : Request) (rest : List UInt8) :
    next (encode q ++ rest) =
      if (bytesOf (Request.shape.text q)).length ≤ maxLength then
        .ok (some (Request.shape.text q), rest)
      else .error .lineTooLong := by
  have hfeed : lineFeed ∉ bytesOf (Request.shape.text q) :=
    not_mem_bytesOf (visible_request q) (by decide)
  have hreturn : carriageReturn ∉ bytesOf (Request.shape.text q) :=
    not_mem_bytesOf (visible_request q) (by decide)
  have hstream : encode q ++ rest = bytesOf (Request.shape.text q) ++ lineFeed :: rest := by
    rw [encode, List.append_assoc]
    rfl
  rw [hstream, next, cut_more hfeed]
  simp only [Option.isNone_some, Bool.false_eq_true, false_and, if_false, Option.getD_some,
    dropReturn_of_not_mem hreturn, text?_eq_some_iff.mpr rfl]
  split_ifs with hlong hshort
  · omega
  · rfl
  · rfl
  · omega

theorem readable_iff (q : Request) :
    Readable q ↔ (bytesOf (Request.shape.text q)).length ≤ maxLength := by
  constructor
  · intro h
    by_contra hlong
    have hnext := h []
    rw [next_encode, if_neg hlong] at hnext
    cases hnext
  · intro hshort rest
    rw [next_encode, if_pos hshort]

/-- How long the answer to some responses is: a few bytes that all requests share, two names, the
version that was accepted last, the nonce of the last response, and the complaint about it. -/
def replyLength (identity service : String) (before : List Response) : Nat :=
  writtenSize identity + writtenSize service +
    (writtenSize (acceptedVersion before) +
      writtenSize ((before.getLast?.map Response.nonce).getD "") +
        (before.getLast?.bind Response.rejection).elim 175 fun detail => writtenSize detail + 193)

theorem length_reply (identity service : String) (before : List Response) :
    (bytesOf (Request.shape.text ((Ack.after before).request identity service))).length =
      replyLength identity service before := (Ack.after before).length_line identity service

theorem mem_answers_iff {identity service : String} {responses : List Response} {q : Request} :
    q ∈ Watch.answers identity service responses ↔
      ∃ before, before <+: responses ∧ (Ack.after before).request identity service = q := by
  rw [Watch.answers, List.mem_map]
  constructor
  · rintro ⟨k, -, rfl⟩
    exact ⟨_, List.take_prefix k responses, rfl⟩
  · rintro ⟨before, hbefore, rfl⟩
    refine ⟨before.length, List.mem_range.mpr (Nat.lt_succ_of_le hbefore.length_le), ?_⟩
    rw [← List.prefix_iff_eq_take.mp hbefore]

/-- Every character is printable and takes seven bits. -/
def PrintableAscii (s : String) : Prop := ∀ c ∈ s.toList, 32 ≤ c.toNat ∧ c.toNat < 127

instance (s : String) : Decidable (PrintableAscii s) := List.decidableBAll _ s.toList

theorem escapedSize_le_of_printable {t : List Char}
    (h : ∀ c ∈ t, 32 ≤ c.toNat ∧ c.toNat < 127) : Json.escapedSize t ≤ 2 * byteCount t := by
  have hall : ∀ n < 127, n < 32 ∨ byteCount (Json.escapeChar (Char.ofNat n)) ≤ 2 := by decide
  induction t with
  | nil => exact Nat.le_refl _
  | cons c t ih =>
      obtain ⟨⟨hlow, hhigh⟩, ht⟩ := List.forall_mem_cons.mp h
      have hsize := hall c.toNat hhigh
      have hpos := c.utf8Size_pos
      have hrest := ih ht
      rw [Char.ofNat_toNat] at hsize
      rw [Json.escapedSize_cons, Json.byteCount_cons]
      omega

theorem writtenSize_le_of_printable {s : String} (h : PrintableAscii s) :
    writtenSize s ≤ 2 * (bytesOf s).length := by
  rw [length_bytesOf]
  exact escapedSize_le_of_printable h

theorem weight_le_of_holds {lines : List (List UInt8)} {responses : List Response} {n : Nat}
    (hlines : List.Forall₂ Holds lines responses) (hshort : ∀ line ∈ lines, line.length ≤ n) :
    ∀ r ∈ responses, Response.shape.weight r ≤ n := by
  induction hlines with
  | nil => nofun
  | cons hholds _ ih =>
      obtain ⟨hline, hlines⟩ := List.forall_mem_cons.mp hshort
      exact List.forall_mem_cons.mpr
        ⟨Nat.le_of_lt (Nat.lt_of_lt_of_le hholds.weight_lt hline), ih hlines⟩

/-! ### Rejections that grow -/

/-- A text of one character that takes a byte and whose name takes seven. -/
def deletions (k : Nat) : String := String.ofList (List.replicate k '\x7f')

theorem writtenSize_deletions (k : Nat) : writtenSize (deletions k) = k := by
  have hsize : byteCount (Json.escapeChar '\x7f') = 1 := by decide
  rw [deletions, Json.writtenSize_ofList, Json.escapedSize, Json.byteCount_flatMap_replicate, hsize,
    Nat.mul_one]

theorem writtenSize_quoted_deletions (k : Nat) :
    writtenSize (Text.quoted (deletions k)) = 7 * k + 4 := by
  have hquote : byteCount (Json.escapeChar '"') = 2 := by decide
  have hsize : byteCount ((Text.quoteChar '\x7f').flatMap Json.escapeChar) = 7 := by decide +kernel
  have hinner : Json.escapedSize ((List.replicate k '\x7f').flatMap Text.quoteChar) = 7 * k := by
    rw [Json.escapedSize, List.flatMap_assoc, Json.byteCount_flatMap_replicate, hsize, Nat.mul_comm]
  rw [Text.quoted, Json.writtenSize_ofList, List.cons_append, Json.escapedSize_cons,
    Json.escapedSize_append, Json.escapedSize_cons, Json.escapedSize_nil, hquote, deletions,
    String.toList_ofList, hinner]
  omega

/-- A response whose only payload is such a text. -/
def deleted (k : Nat) : Response := ⟨"", "", [⟨endpointTypeUrl, .string (deletions k)⟩]⟩

theorem length_deleted (k : Nat) :
    (bytesOf (Response.shape.text (deleted k))).length = k + 137 := by
  have hempty : writtenSize "" = 0 := rfl
  have hversion : writtenSize "version_info" = 12 := rfl
  have hnonce : writtenSize "nonce" = 5 := rfl
  have hresources : writtenSize "resources" = 9 := rfl
  have htype : writtenSize "type_url" = 8 := rfl
  have hvalue : writtenSize "value" = 5 := rfl
  have hwrite : Response.shape.write (deleted k) =
      Json.writeObject [Json.writeMember "version_info" (Json.writeString ""),
        Json.writeMember "nonce" (Json.writeString ""),
        Json.writeMember "resources" (Json.writeList [Json.writeObject
          [Json.writeMember "type_url" (Json.writeString endpointTypeUrl),
            Json.writeMember "value" (Json.writeString (deletions k))]])] := rfl
  rw [length_bytesOf, Json.Shape.text, String.toList_ofList, hwrite]
  simp only [Json.byteCount_writeObject (List.cons_ne_nil _ _), Json.total_cons, Json.total_nil,
    Json.byteCount_writeMember, Json.byteCount_writeString, Json.byteCount_writeList_singleton,
    writtenSize_endpointTypeUrl, writtenSize_deletions, hempty, hversion, hnonce, hresources, htype,
    hvalue]
  omega

/-- Why it is rejected. -/
def deletedFailure (k : Nat) : DecodeFailure :=
  .malformed (.invalidType (.string (deletions k)) "struct ClusterLoadAssignment")

theorem endpoints_deleted (k : Nat) : (deleted k).endpoints = .error (deletedFailure k) := by
  have hdecode : (⟨endpointTypeUrl, .string (deletions k)⟩ : Resource).decode =
      .error (deletedFailure k) := by
    rw [Resource.decode, if_pos rfl]
    rfl
  rw [Response.endpoints, deleted]
  simp only [hdecode]
  rfl

theorem length_rejection_deleted (k : Nat) (identity service : String) :
    7 * k < (bytesOf (Request.shape.text
      ((Ack.reject {} (deleted k) (deletedFailure k)).request identity service))).length := by
  have hquoted := writtenSize_quoted_deletions k
  have hreason : (deletedFailure k).reason = "invalid type: " ++
      ("string " ++ Text.quoted (deletions k)) ++ ", expected " ++ "struct ClusterLoadAssignment" :=
    rfl
  rw [Ack.length_line, Ack.weight_reject, DecodeFailure.message_eq, hreason]
  simp only [Json.writtenSize_append]
  omega

/-- A stream that brings one response. -/
def firstReceived (r : Response) : List Watch.Input :=
  [.wake, .connected, .sent, .received r].map (⟨false, ⟨0⟩, ·⟩)

theorem exists_dialogue_firstReceived {r : Response} {f : DecodeFailure}
    (hr : r.endpoints = .error f) (service identity : String) (backoff : Backoff) :
    ∃ d ∈ Watch.dialogues ((Watch.fresh service identity backoff).turns (firstReceived r)),
      d.responses = [r] ∧ (Ack.reject {} r f).request identity service ∈ d.requests := by
  have hresponses : (Watch.dialogues ((Watch.fresh service identity backoff).turns
      (firstReceived r))).map Watch.Dialogue.responses = [[r]] := rfl
  obtain ⟨d, hdialogues, hd⟩ := List.map_eq_singleton_iff.mp hresponses
  have hmem : d ∈ Watch.dialogues ((Watch.fresh service identity backoff).turns
      (firstReceived r)) := by
    rw [hdialogues]
    exact List.mem_singleton_self d
  obtain ⟨hfaithful, -⟩ :=
    (Watch.faithful_fresh service identity backoff).run (firstReceived r)
  refine ⟨d, hmem, hd, ?_⟩
  have hlast := Ack.after_concat_of_error [] hr
  rw [hfaithful.answered d hmem, hd]
  exact List.mem_map.mpr ⟨1, List.mem_range.mpr (Nat.lt_succ_self 1),
    congrArg (Ack.request · identity service) hlast⟩

theorem holds_deleted {k : Nat} (h : k + 137 ≤ maxLength) :
    Holds (bytesOf (Response.shape.text (deleted k))) (deleted k) := by
  have hplain : Plain (deleted k) := List.forall_mem_singleton.mpr (.string _ _)
  have hholds := hplain.holds (e := .feed)
  rw [writtenLine, LineEnd.returns, List.append_nil, length_deleted] at hholds
  exact hholds h

theorem next_rejection_deleted {k : Nat} (h : maxLength ≤ 7 * k) (identity service : String) :
    next (encode ((Ack.reject {} (deleted k) (deletedFailure k)).request identity service)) =
      .error .lineTooLong := by
  have hlong := length_rejection_deleted k identity service
  have hnext :=
    next_encode ((Ack.reject {} (deleted k) (deletedFailure k)).request identity service) []
  rw [List.append_nil, if_neg (by omega)] at hnext
  exact hnext

/-! ### The law -/

/-- **Replies may outgrow the limit, but not short lines.** Take any stream of any watch, with an
identity and a service name of at most 1024 bytes together, and the lines that its responses came on.
All its requests are readable just if `replyLength` stays within the limit for every beginning of the
responses. A request is at most eight times as long as the longest line, and at most as long as that
if it rejects nothing, but for what all requests share; so all are readable where no line is longer
than an eighth of the limit less that. -/
theorem replies_readable_iff {identity service : String} (hidentity : PrintableAscii identity)
    (hservice : PrintableAscii service)
    (hsize : (bytesOf identity).length + (bytesOf service).length ≤ 1024) (backoff : Backoff)
    (inputs : List Watch.Input) {d : Watch.Dialogue}
    (hd : d ∈ Watch.dialogues ((Watch.fresh service identity backoff).turns inputs))
    {lines : List (List UInt8)} (hlines : List.Forall₂ Holds lines d.responses) :
    ((∀ q ∈ d.requests, Readable q) ↔
      ∀ before, before <+: d.responses → replyLength identity service before ≤ maxLength) ∧
    (∀ q ∈ d.requests, Readable q ↔ (bytesOf (Request.shape.text q)).length ≤ maxLength) ∧
    ∀ n, (∀ line ∈ lines, line.length ≤ n) → ∀ q ∈ d.requests,
      (bytesOf (Request.shape.text q)).length ≤ 8 * n + 4096 ∧
      (q.errorDetail = none → (bytesOf (Request.shape.text q)).length ≤ n + 4096) := by
  obtain ⟨hfaithful, -⟩ := (Watch.faithful_fresh service identity backoff).run inputs
  rw [hfaithful.answered d hd]
  refine ⟨⟨fun hall before hbefore => ?_, fun hall q hq => ?_⟩, fun q _ => readable_iff q,
    fun n hshort q hq => ?_⟩
  · rw [← length_reply, ← readable_iff]
    exact hall _ (mem_answers_iff.mpr ⟨before, hbefore, rfl⟩)
  · obtain ⟨before, hbefore, rfl⟩ := mem_answers_iff.mp hq
    rw [readable_iff, length_reply]
    exact hall before hbefore
  · obtain ⟨before, hbefore, rfl⟩ := mem_answers_iff.mp hq
    have hweights : ∀ r ∈ before, Response.shape.weight r ≤ n := fun r hr =>
      weight_le_of_holds hlines hshort r (hbefore.subset hr)
    obtain ⟨hany, haccepting⟩ := Ack.weight_after_le hweights
    have hidentityLe := writtenSize_le_of_printable hidentity
    have hserviceLe := writtenSize_le_of_printable hservice
    rw [Ack.length_line]
    refine ⟨by omega, fun hnone => ?_⟩
    have hle := haccepting hnone
    omega

/-- A rejection of a line as long as may be without being too long for any reply. -/
theorem replies_readable_iff_long :
    let r := deleted 130423
    let run := (Watch.fresh "svc" "node" { bounds := ⟨⟨0⟩, ⟨0⟩⟩ }).turns (firstReceived r)
    ∃ d ∈ Watch.dialogues run,
      List.Forall₂ Holds [bytesOf (Response.shape.text r)] d.responses ∧
        (∀ q ∈ d.requests, Readable q) ∧
          ∃ q ∈ d.requests, 912961 < (bytesOf (Request.shape.text q)).length := by
  intro r run
  obtain ⟨d, hd, hresponses, hq⟩ := exists_dialogue_firstReceived (endpoints_deleted 130423) "svc"
    "node" { bounds := ⟨⟨0⟩, ⟨0⟩⟩ }
  have hlines : List.Forall₂ Holds [bytesOf (Response.shape.text r)] d.responses := by
    rw [hresponses]
    exact .cons (holds_deleted (by decide)) .nil
  have hshort : ∀ line ∈ [bytesOf (Response.shape.text r)], line.length ≤ 130560 := by
    rw [List.forall_mem_singleton]
    exact Nat.le_of_eq (length_deleted 130423)
  obtain ⟨-, hreadable, hbound⟩ := replies_readable_iff (by decide +kernel) (by decide +kernel)
    (by decide +kernel) { bounds := ⟨⟨0⟩, ⟨0⟩⟩ } (firstReceived r) hd hlines
  exact ⟨d, hd, hlines, fun q hq => (hreadable q hq).mpr (hbound 130560 hshort q hq).1, _, hq,
    length_rejection_deleted 130423 "node" "svc"⟩

/-- **A rejection can be too long.** The response is short enough to be read, and its rejection is
not. -/
theorem rejection_too_long :
    let r := deleted 150000
    let run := (Watch.fresh "svc" "node" { bounds := ⟨⟨0⟩, ⟨0⟩⟩ }).turns (firstReceived r)
    PrintableAscii "node" ∧ PrintableAscii "svc" ∧
      (bytesOf "node").length + (bytesOf "svc").length ≤ 1024 ∧
      ∃ d ∈ Watch.dialogues run,
        List.Forall₂ Holds [bytesOf (Response.shape.text r)] d.responses ∧
          ∃ q ∈ d.requests, maxLength < (bytesOf (Request.shape.text q)).length ∧
            next (encode q) = .error .lineTooLong := by
  intro r run
  obtain ⟨d, hd, hresponses, hq⟩ := exists_dialogue_firstReceived (endpoints_deleted 150000) "svc"
    "node" { bounds := ⟨⟨0⟩, ⟨0⟩⟩ }
  have hlines : List.Forall₂ Holds [bytesOf (Response.shape.text r)] d.responses := by
    rw [hresponses]
    exact .cons (holds_deleted (by decide)) .nil
  exact ⟨by decide +kernel, by decide +kernel, by decide +kernel, d, hd, hlines, _, hq,
    Nat.lt_of_le_of_lt (by decide) (length_rejection_deleted 150000 "node" "svc"),
    next_rejection_deleted (by decide) "node" "svc"⟩

end Frame

end ServiceDiscovery
