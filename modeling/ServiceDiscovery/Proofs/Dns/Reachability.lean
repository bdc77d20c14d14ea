import Mathlib.Data.Bool.Basic
import ServiceDiscovery.Dns.Answer
import ServiceDiscovery.Proofs.Client.Course
/-!
# Services under their own names

A query brings its name in any case and the lookup is made in lower case, while the cache keeps
every service under the name that it was given. For a name that is one plain label nothing but the
case changes on the way, so what answers is the entry of the lower-case spelling. That is the entry
of the service itself just if its name has no upper-case letter.
-/

namespace ServiceDiscovery

theorem Text.parts_of_not_mem {sep : Char} {t : List Char} (h : sep ∉ t) :
    Text.parts sep t = [t] := by
  induction t with
  | nil => rfl
  | cons c rest ih =>
      obtain ⟨hc, hrest⟩ := not_or.mp (mt List.mem_cons.mpr h)
      rw [parts, if_neg (Ne.symm hc), ih hrest]

namespace Dns

def isPlain (c : Char) : Bool := c.isAlphanum || c = '_' || c = '-'

/-- A service name that is a single label of letters, digits, underscores and hyphens. -/
structure IsServiceLabel (s : String) : Prop where
  plain : s.toList.all isPlain = true
  unhyphened : s.toList.head? ≠ some '-'
  nonempty : 1 ≤ s.utf8ByteSize
  short : s.utf8ByteSize ≤ 63
  unencoded : ¬ "xn--".toList <+: s.toList

/-! ### The name that is looked up -/

theorem isUpper_iff {c : Char} : c.isUpper = true ↔ 65 ≤ c.toNat ∧ c.toNat ≤ 90 :=
  decide_eq_true_iff.trans (and_congr UInt32.le_iff_toNat_le UInt32.le_iff_toNat_le)

theorem isLower_iff {c : Char} : c.isLower = true ↔ 97 ≤ c.toNat ∧ c.toNat ≤ 122 :=
  Bool.and_eq_true_iff.trans
    (and_congr (decide_eq_true_iff.trans UInt32.le_iff_toNat_le)
      (decide_eq_true_iff.trans UInt32.le_iff_toNat_le))

theorem toLower_of_not_isUpper {c : Char} (h : ¬ c.isUpper = true) : c.toLower = c :=
  dif_neg (mt decide_eq_true_iff.mpr h)

theorem toNat_toLower {c : Char} (h : c.isUpper = true) : c.toLower.toNat = c.toNat + 32 := by
  have hbounds := isUpper_iff.mp h
  have hval : c.toLower.val = c.val + 32 :=
    congrArg Char.val (dif_pos (decide_eq_true_iff.mp h) : c.toLower = ⟨c.val + 32, _⟩)
  calc c.toLower.toNat = (c.val + 32).toNat := congrArg UInt32.toNat hval
    _ = (c.toNat + 32) % 2 ^ 32 := UInt32.toNat_add _ _
    _ = c.toNat + 32 := Nat.mod_eq_of_lt (by omega)

theorem isUpper_toLower (c : Char) : c.toLower.isUpper = false := by
  by_cases h : c.isUpper = true
  · have hbounds := isUpper_iff.mp h
    have hlower := toNat_toLower h
    refine Bool.eq_false_iff.mpr fun hupper => ?_
    have hagain := isUpper_iff.mp hupper
    omega
  · rw [toLower_of_not_isUpper h]
    exact Bool.eq_false_iff.mpr h

theorem isLower_toLower {c : Char} (h : c.isUpper = true) : c.toLower.isLower = true := by
  have hbounds := isUpper_iff.mp h
  rw [isLower_iff, toNat_toLower h]
  omega

theorem isAlphanum_toLower (c : Char) : c.toLower.isAlphanum = c.isAlphanum := by
  by_cases hupper : c.isUpper = true
  · have halpha : c.isAlpha = true := Bool.or_eq_true_iff.mpr (.inl hupper)
    have hlower : c.toLower.isAlpha = true :=
      Bool.or_eq_true_iff.mpr (.inr (isLower_toLower hupper))
    rw [Char.isAlphanum, Char.isAlphanum, hlower, halpha, Bool.true_or, Bool.true_or]
  · rw [toLower_of_not_isUpper hupper]

theorem toList_toLower (s : String) : s.toLower.toList = s.toList.map Char.toLower :=
  String.toList_map

theorem isPlain_cases {c : Char} (h : isPlain c = true) :
    c.isAlphanum = true ∨ c = '_' ∨ c = '-' := by
  simpa only [isPlain, Bool.or_eq_true, decide_eq_true_eq, or_assoc] using h

theorem isPlain_toLower {c : Char} (h : isPlain c = true) : isPlain c.toLower = true := by
  rcases isPlain_cases h with halphanum | rfl | rfl
  · rw [isPlain, isAlphanum_toLower, halphanum, Bool.true_or, Bool.true_or]
  · rfl
  · rfl

theorem writeChar_of_plain {first : Bool} {c : Char} (h : isPlain c = true)
    (hfirst : first = true → c ≠ '-') : Name.writeChar first c = [c] := by
  have hsafe : Name.isSafe first c = true := by
    rcases isPlain_cases h with halphanum | rfl | rfl
    · simp [Name.isSafe, halphanum]
    · simp [Name.isSafe]
    · cases first with
      | false => rfl
      | true => exact absurd rfl (hfirst rfl)
  rw [Name.writeChar, if_pos hsafe]

theorem writeLabel_of_plain {label : List Char} (hplain : ∀ c ∈ label, isPlain c = true)
    (hhead : label.head? ≠ some '-') : Name.writeLabel label = label := by
  cases label with
  | nil => rfl
  | cons c rest =>
      obtain ⟨hc, hrest⟩ := List.forall_mem_cons.mp hplain
      have hfirst : Name.writeChar true c = [c] :=
        writeChar_of_plain hc fun _ heq => hhead (congrArg some heq)
      have htail : rest.flatMap (Name.writeChar false) = rest := by
        have hsame : ∀ d ∈ rest, Name.writeChar false d = [d] := fun d hd =>
          writeChar_of_plain (hrest d hd) nofun
        rw [List.flatMap_congr hsame, List.flatMap_singleton']
      rw [Name.writeLabel, hfirst, htail, List.singleton_append]

section Label

variable {s : String} (hs : IsServiceLabel s)

include hs

theorem IsServiceLabel.isPlain_of_mem : ∀ c ∈ s.toList, isPlain c = true :=
  List.all_eq_true.mp hs.plain

theorem IsServiceLabel.no_point : '.' ∉ s.toList := by
  intro hmem
  exact absurd (hs.isPlain_of_mem '.' hmem) (by decide)

theorem IsServiceLabel.toList_ne_nil : s.toList ≠ [] := by
  intro hnil
  have hempty : s = "" := String.toList_injective hnil
  have hsize := hs.nonempty
  rw [hempty] at hsize
  exact absurd hsize (by decide)

theorem IsServiceLabel.ofText_eq : Name.ofText s = ⟨[s.toList]⟩ := by
  have hempty : s.toList.isEmpty = false := List.isEmpty_eq_false_iff.mpr hs.toList_ne_nil
  rw [Name.ofText, Text.parts_of_not_mem hs.no_point, List.filter_singleton, hempty]
  rfl

/-- On the way to the lookup a label changes its case and nothing else. -/
theorem IsServiceLabel.text_lower : (Name.ofText s).lower.text = s.toLower := by
  have hplain : ∀ c ∈ s.toList.map Char.toLower, isPlain c = true := by
    intro c hc
    obtain ⟨d, hd, rfl⟩ := List.mem_map.mp hc
    exact isPlain_toLower (hs.isPlain_of_mem d hd)
  have hhead : (s.toList.map Char.toLower).head? ≠ some '-' := by
    rw [List.head?_map]
    intro hlower
    obtain ⟨c, hc, hhyphen⟩ := Option.map_eq_some_iff.mp hlower
    have hsame : c.toLower = c := by
      apply toLower_of_not_isUpper
      intro hupper
      have hletter := isLower_toLower hupper
      rw [hhyphen] at hletter
      exact absurd hletter (by decide)
    exact hs.unhyphened (by rw [hc, ← hsame, hhyphen])
  rw [hs.ofText_eq, Name.lower, Name.text, List.map_singleton, List.map_singleton,
    writeLabel_of_plain hplain hhead, Text.join]
  apply String.toList_injective
  rw [String.toList_ofList, toList_toLower]

end Label

theorem toLower_eq_self {s : String} (hlower : s.toList.any Char.isUpper = false) :
    s.toLower = s := by
  apply String.toList_injective
  rw [toList_toLower]
  refine (List.map_congr_left fun c hc => ?_).trans (List.map_id _)
  exact toLower_of_not_isUpper (List.any_eq_false.mp hlower c hc)

/-! ### The answer -/

/-- An answer that is made from what the cache knows of a service. -/
structure Answer.FromEntry (a : Answer) (c : Cache) (service : String) (t : RecordType) :
    Prop where
  found : a.code ≠ .noSuchName
  pending : a.code = .serverFailure → c.isWatched service = true ∧ c.get? service = none
  addresses : ∀ endpoints, c.get? service = some endpoints →
    a.code = .noError ∧ a.records.map AddressRecord.address = addressesOf endpoints t

/-- A service that has an entry or is watched. -/
def Known (c : Cache) (service : String) : Prop :=
  c.get? service ≠ none ∨ c.isWatched service = true

theorem answerService_of_some {c : Cache} {name : Name} {endpoints : List Endpoint}
    (t : RecordType) (h : c.get? name.text = some endpoints) :
    answerService c name t =
      (.noError, (addressesOf endpoints t).map fun a => ⟨name, serviceSeconds, a⟩) := by
  simp only [answerService, serviceStatus, h]
  cases addressesOf endpoints t with
  | nil => rfl
  | cons a rest => rfl

theorem answerService_of_none {c : Cache} {name : Name} (t : RecordType)
    (h : c.get? name.text = none) :
    answerService c name t =
      (if c.isWatched name.text then .serverFailure else .noSuchName, []) := by
  simp only [answerService, serviceStatus, h]
  cases c.isWatched name.text with
  | false => rfl
  | true => rfl

section Answer

variable {s : String} (hs : IsServiceLabel s) (c : Cache) (resolve : Resolver) {q : Question}
  (hq : q.query.name = Name.ofText s)

include hs hq

theorem answer_of_label :
    (answer c resolve q).code = (answerService c q.query.name.lower q.query.recordType).1 ∧
      (answer c resolve q).records =
        (answerService c q.query.name.lower q.query.recordType).2 := by
  have hpoint : '.' ∉ q.query.name.lower.text.toList := by
    rw [hq, hs.text_lower, toList_toLower]
    intro hmem
    obtain ⟨d, hd, hpoint⟩ := List.mem_map.mp hmem
    have hplain := isPlain_toLower (hs.isPlain_of_mem d hd)
    rw [hpoint] at hplain
    exact absurd hplain (by decide)
  simp only [answer, if_neg hpoint, and_self]

theorem fromEntry_of_known (hknown : Known c s.toLower) :
    (answer c resolve q).FromEntry c s.toLower q.query.recordType := by
  obtain ⟨hcode, hrecords⟩ := answer_of_label hs c resolve hq
  have htext : q.query.name.lower.text = s.toLower := by rw [hq, hs.text_lower]
  rw [← htext] at hknown ⊢
  cases hentry : c.get? q.query.name.lower.text with
  | none =>
      have hwatched := hknown.resolve_left (not_not_intro hentry)
      rw [answerService_of_none _ hentry, if_pos hwatched] at hcode
      refine ⟨?_, fun _ => ⟨hwatched, hentry⟩, fun endpoints h => ?_⟩
      · rw [hcode]
        nofun
      · rw [hentry] at h
        cases h
  | some endpoints =>
      rw [answerService_of_some _ hentry] at hcode hrecords
      refine ⟨?_, fun h => ?_, fun other h => ⟨hcode, ?_⟩⟩
      · rw [hcode]
        nofun
      · rw [hcode] at h
        cases h
      · rw [hentry] at h
        cases h
        rw [hrecords, List.map_map]
        exact List.map_id _

theorem noSuchName_of_not_known (hknown : ¬ Known c s.toLower) :
    (answer c resolve q).code = .noSuchName := by
  obtain ⟨hentry, hwatched⟩ := not_or.mp hknown
  have htext : q.query.name.lower.text = s.toLower := by rw [hq, hs.text_lower]
  rw [← htext] at hentry hwatched
  rw [(answer_of_label hs c resolve hq).1, answerService_of_none _ (not_not.mp hentry),
    if_neg hwatched]

end Answer

/-! ### The law -/

/-- **Which services are reachable under their own names.** A query for a service that has an entry
or is watched is answered from what the cache knows of that service, in every state that a client
can reach, exactly if no letter of the name is an upper-case one. -/
theorem answered_from_own_entry_iff {s : String} (hs : IsServiceLabel s) :
    (∀ identity bounds events resolve (q : Question),
      let c := ((Client.start identity bounds).run events).cache
      q.query.name = Name.ofText s → Known c s →
        (answer c resolve q).FromEntry c s q.query.recordType) ↔
    s.toList.any Char.isUpper = false := by
  constructor
  · intro h
    by_contra hupper
    obtain ⟨ch, hch, hupper⟩ := List.any_eq_true.mp (Bool.eq_true_of_not_eq_false hupper)
    -- The service is watched and nothing else is, so its lower-case spelling is unknown.
    have hne : s.toLower ≠ s := by
      intro heq
      rw [← heq, toList_toLower] at hch
      obtain ⟨d, _, rfl⟩ := List.mem_map.mp hch
      rw [isUpper_toLower] at hupper
      cases hupper
    have hrun : ((Client.start "" {}).run [.watch s]).cache = { watching := [s] } := by
      have hwatch : (Client.start "" {}).watch s = (true, (Client.start "" {}).withWatch s) :=
        Client.watch_of_new rfl List.not_mem_nil
      rw [Client.run_cons, Client.run_nil, Client.step, hwatch]
      rfl
    have hknown : Known { watching := [s] } s := .inr (decide_eq_true (List.mem_singleton.mpr rfl))
    have hunknown : ¬ Known { watching := [s] } s.toLower := by
      rintro (hentry | hwatched)
      · exact hentry rfl
      · exact hne (List.mem_singleton.mp (of_decide_eq_true hwatched))
    let q : Question := ⟨0, 0, false, false, ⟨Name.ofText s, .a, 1⟩⟩
    have hcode := noSuchName_of_not_known hs { watching := [s] } resolveAlone (q := q) rfl hunknown
    have hanswer := h "" {} [.watch s] resolveAlone q rfl (by rw [hrun]; exact hknown)
    rw [hrun] at hanswer
    exact hanswer.found hcode
  · intro hlower identity bounds events resolve q c hq hknown
    have hsame : s.toLower = s := toLower_eq_self hlower
    have hanswer := fromEntry_of_known hs c resolve hq (by rw [hsame]; exact hknown)
    rw [hsame] at hanswer
    exact hanswer

/-- Two of three endpoints have addresses, and one of them is of the family that is asked for. -/
theorem answered_from_own_entry_iff_mixed :
    let events : List Client.Event :=
      [.watch "my_svc-1", .set "my_svc-1" [⟨"10.0.0.1", 80, 1⟩, ⟨"backend", 80, 1⟩, ⟨"::", 80, 1⟩]]
    let c := ((Client.start "node" {}).run events).cache
    let q : Question := ⟨7, 0, true, false, ⟨Name.ofText "my_svc-1", .aaaa, 1⟩⟩
    IsServiceLabel "my_svc-1" ∧ Known c "my_svc-1" ∧ (answer c resolveAlone q).code = .noError ∧
      (answer c resolveAlone q).records.map AddressRecord.address =
        [.v6 ⟨[0, 0, 0, 0, 0, 0, 0, 0], rfl⟩] := by
  intro events c q
  have hlabel : IsServiceLabel "my_svc-1" :=
    ⟨by decide +kernel, by decide +kernel, by decide +kernel, by decide +kernel, by decide +kernel⟩
  have hknown : Known c "my_svc-1" := .inr (by decide +kernel)
  have hentry : c.get? "my_svc-1" = some [⟨"10.0.0.1", 80, 1⟩, ⟨"backend", 80, 1⟩, ⟨"::", 80, 1⟩] := by
    decide +kernel
  have hlaw := (answered_from_own_entry_iff hlabel).mpr (by decide +kernel)
  obtain ⟨hcode, hrecords⟩ := (hlaw "node" {} events resolveAlone q rfl hknown).addresses _ hentry
  exact ⟨hlabel, hknown, hcode, hrecords.trans (by decide +kernel)⟩

/-- A watched service with a capital letter does not exist for those who ask for it. -/
theorem not_found_capital :
    let c := ((Client.start "node" {}).run [.watch "Web"]).cache
    let q : Question := ⟨1, 0, true, false, ⟨Name.ofText "Web", .a, 1⟩⟩
    IsServiceLabel "Web" ∧ c.isWatched "Web" = true ∧ (answer c resolveAlone q).code = .noSuchName := by
  refine ⟨⟨?_, ?_, ?_, ?_, ?_⟩, ?_, ?_⟩
  all_goals decide +kernel

end Dns

end ServiceDiscovery
