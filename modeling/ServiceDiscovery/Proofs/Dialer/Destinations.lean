import ServiceDiscovery.Proofs.Dialer.Answers
import ServiceDiscovery.Proofs.HostPort
/-!
# Destinations

The text of an endpoint has brackets if the host holds a colon, and an address is read without its
brackets if it begins with one. The two tests part on one kind of host only: one that begins with a
bracket and holds no colon is written as it is, and would be read as if in brackets. Every other
endpoint that has a host is read back from its text.
-/

namespace ServiceDiscovery

namespace Endpoint

/-- Whether host and port can be read off the text of an endpoint. -/
structure Legible (e : Endpoint) : Prop where
  host_ne : e.host ≠ ""
  colon_or_no_bracket : ':' ∈ e.host.toList ∨ e.host.toList.head? ≠ some '['

/-- Host and port of an endpoint, as texts. -/
def target (e : Endpoint) : HostPort := ⟨e.host, toString e.port.toNat⟩

theorem digits_port (e : Endpoint) :
    e.target.port ≠ "" ∧ ∀ c ∈ e.target.port.toList, '0' ≤ c ∧ c ≤ '9' := by
  have hdigits : e.target.port.toList = Text.decimal e.port.toNat := String.toList_ofList
  have hne : e.target.port.toList ≠ [] := by
    rw [hdigits]
    exact Text.decimal_ne_nil _
  refine ⟨by simpa using hne, fun c hc => ?_⟩
  rw [hdigits] at hc
  exact Text.isDigit_iff.mp (Text.isDigit_of_mem_decimal hc)

theorem target_inj {e f : Endpoint} : e.target = f.target ↔ e.host = f.host ∧ e.port = f.port := by
  constructor
  · intro h
    obtain ⟨hhost, hport⟩ := HostPort.mk.inj h
    refine ⟨hhost, UInt16.toNat_inj.mp ?_⟩
    have hdecimal : Text.decimal e.port.toNat = Text.decimal f.port.toNat :=
      String.ofList_injective hport
    have hvalue := congrArg (Text.baseValue 10) hdecimal
    rwa [Text.decimal, Text.decimal, Text.baseValue_toDigits (by decide) (by decide),
      Text.baseValue_toDigits (by decide) (by decide)] at hvalue
  · rintro ⟨hhost, hport⟩
    rw [target, target, hhost, hport]

theorem writes_authority {e : Endpoint} (h : e.Legible) : HostPort.Writes e.authority e.target := by
  obtain ⟨hport, hdigits⟩ := e.digits_port
  refine ⟨h.host_ne, hport, hdigits, ?_⟩
  by_cases hcolon : ':' ∈ e.host.toList
  · right
    rw [authority, if_pos hcolon]
    rfl
  · left
    rw [authority, if_neg hcolon]
    exact ⟨rfl, hcolon, h.colon_or_no_bracket.resolve_left hcolon⟩

theorem legible_of_writes {e : Endpoint} (h : HostPort.Writes e.authority e.target) : e.Legible := by
  refine ⟨h.host_ne, or_iff_not_imp_left.mpr fun hcolon => ?_⟩
  rcases h.form with ⟨-, -, hhead⟩ | haddress
  · exact hhead
  · -- What is written without brackets is two characters shorter than it would be with them.
    rw [authority, if_neg hcolon] at haddress
    have hlength := congrArg String.length haddress
    simp only [target, String.length_append] at hlength
    have hshort : ":".length = 1 ∧ "[".length = 1 ∧ "]:".length = 2 := by decide
    omega

/-- An endpoint is read back from its text if and only if it is legible. -/
theorem ofAddress?_authority_iff {e : Endpoint} :
    HostPort.ofAddress? e.authority = some e.target ↔ e.Legible :=
  HostPort.ofAddress?_eq_some_iff.trans ⟨legible_of_writes, writes_authority⟩

theorem authority_inj {e f : Endpoint} (he : e.Legible) (hf : f.Legible) :
    e.authority = f.authority ↔ e.host = f.host ∧ e.port = f.port := by
  constructor
  · intro h
    have hsplit := ofAddress?_authority_iff.mpr he
    rw [h, ofAddress?_authority_iff.mpr hf] at hsplit
    exact target_inj.mp (Option.some.inj hsplit).symm
  · rintro ⟨hhost, hport⟩
    rw [authority, authority, hhost, hport]

end Endpoint

namespace Dialer

/-- Where endpoints are known for an address, a call is answered with the text of one of them. -/
theorem exists_of_known (d : Dialer) {c : Client} {address : String} {target : HostPort}
    {endpoints : List Endpoint} (hsplit : HostPort.ofAddress? address = some target)
    (hentry : c.cache.get? target.host = some endpoints) (hsome : endpoints ≠ []) :
    ∃ e ∈ endpoints, (d.resolve c address).1 = e.authority := by
  have hknown : known c address = endpoints := by
    rw [known_of_split hsplit, hentry, Option.getD_some]
  have hplace : d.cursor.toNat % endpoints.length < endpoints.length :=
    Nat.mod_lt _ (List.length_pos_of_ne_nil hsome)
  exact ⟨_, List.getElem_mem hplace, (d.resolve_of_known hknown hplace).1⟩

end Dialer

namespace Endpoint

/-- **The text of an endpoint tells its host and its port.** It is split into just these if and only
if the host is not empty, and holds a colon or does not begin with a bracket. No two such endpoints
that differ in host or port have one text; so where every endpoint known for an address is such, what
a dialer answers is the text of one of them, and names the host and the port of no other. -/
theorem text_tells_host_and_port :
    (∀ e : Endpoint, HostPort.ofAddress? e.authority = some ⟨e.host, toString e.port.toNat⟩ ↔
      e.Legible) ∧
    (∀ e f : Endpoint, e.Legible → f.Legible →
      (e.authority = f.authority ↔ e.host = f.host ∧ e.port = f.port)) ∧
    ∀ (d : Dialer) (c : Client) (address : String) (target : HostPort) (endpoints : List Endpoint),
      HostPort.ofAddress? address = some target →
      c.cache.get? target.host = some endpoints → endpoints ≠ [] →
      ∃ e ∈ endpoints, (d.resolve c address).1 = e.authority ∧
        (e.Legible →
          HostPort.ofAddress? (d.resolve c address).1 = some ⟨e.host, toString e.port.toNat⟩ ∧
          ∀ f : Endpoint, f.Legible → f.authority = (d.resolve c address).1 →
            f.host = e.host ∧ f.port = e.port) := by
  refine ⟨fun e => ofAddress?_authority_iff, fun e f => authority_inj, ?_⟩
  intro d c address target endpoints hsplit hentry hsome
  obtain ⟨e, hmem, hanswer⟩ := d.exists_of_known hsplit hentry hsome
  refine ⟨e, hmem, hanswer, fun he => ?_⟩
  rw [hanswer]
  exact ⟨ofAddress?_authority_iff.mpr he, fun f hf hsame => (authority_inj hf he).mp hsame⟩

/-- The same IPv6 address as a host, as it is and in brackets of its own: both are read back, the texts
differ, and a dialer gives the second one. A name in brackets is not read back. -/
theorem text_tells_host_and_port_bracketed :
    let bare : Endpoint := ⟨"fd00::1", 80, 1⟩
    let nested : Endpoint := ⟨"[fd00::1]", 80, 1⟩
    let c := ((Client.start "node" {}).step (.set "web" [nested])).2
    bare.Legible ∧ nested.Legible ∧ bare.authority ≠ nested.authority ∧
      (Dialer.resolve {} c "web:1").1 = "[[fd00::1]]:80" ∧
      HostPort.ofAddress? (Dialer.resolve {} c "web:1").1 = some ⟨"[fd00::1]", "80"⟩ ∧
      ¬(⟨"[web]", 80, 1⟩ : Endpoint).Legible := by
  intro bare nested c
  obtain ⟨hread, hsame, hresolve⟩ := text_tells_host_and_port
  have hbare : bare.Legible := ⟨by decide, .inl (by decide)⟩
  have hnested : nested.Legible := ⟨by decide, .inl (by decide)⟩
  obtain ⟨e, hmem, hanswer, htold⟩ := hresolve {} c "web:1" ⟨"web", "1"⟩ [nested]
    (by decide +kernel) (by decide +kernel) (by decide)
  obtain rfl := List.mem_singleton.mp hmem
  refine ⟨hbare, hnested, fun htext => ?_, hanswer.trans (by decide +kernel),
    (htold hnested).1.trans (by decide +kernel), ?_⟩
  · exact absurd ((hsame bare nested hbare hnested).mp htext).1 (by decide)
  · rw [← hread]
    decide +kernel

end Endpoint

end ServiceDiscovery
