import ServiceDiscovery.HostPort
import ServiceDiscovery.Proofs.Digits
/-!
# What an address is split into

An address is cut at its last colon, and a port has none: so the cut stands before the port, whatever
the host holds. Brackets are taken off after that, and they are the outermost ones. What remains to be
seen is that the two forms of an address do not overlap, which is why a host that is written without
brackets may not open one.
-/

namespace ServiceDiscovery

/-! ### Cutting lists -/

section Cut

variable {α : Type} [DecidableEq α] {sep last : α} {l front back : List α}

theorem not_mem_of_cutLast (h : cutLast sep l = none) : sep ∉ l := by
  induction l with
  | nil => simp
  | cons c rest ih =>
      cases hrest : cutLast sep rest with
      | some parts => simp [cutLast, hrest] at h
      | none =>
          have hc : c ≠ sep := by simpa [cutLast, hrest] using h
          simp [ih hrest, hc.symm]

theorem cutLast_of_not_mem (h : sep ∉ l) : cutLast sep l = none := by
  induction l with
  | nil => rfl
  | cons c rest ih =>
      simp only [List.mem_cons, not_or] at h
      rw [cutLast, ih h.2, if_neg (Ne.symm h.1)]

theorem cutLast_append (front : List α) (h : sep ∉ back) :
    cutLast sep (front ++ sep :: back) = some (front, back) := by
  induction front with
  | nil => rw [List.nil_append, cutLast, cutLast_of_not_mem h, if_pos rfl]
  | cons c front ih => rw [List.cons_append, cutLast, ih]

theorem of_cutLast (h : cutLast sep l = some (front, back)) :
    l = front ++ sep :: back ∧ sep ∉ back := by
  induction l generalizing front with
  | nil => cases h
  | cons c rest ih =>
      rw [cutLast] at h
      cases hrest : cutLast sep rest with
      | some parts =>
          obtain ⟨inner, later⟩ := parts
          rw [hrest] at h
          obtain ⟨rfl, rfl⟩ : c :: inner = front ∧ later = back := by simpa using h
          obtain ⟨rfl, hlater⟩ := ih hrest
          exact ⟨rfl, hlater⟩
      | none =>
          rw [hrest] at h
          obtain ⟨rfl, rfl, rfl⟩ : c = sep ∧ [] = front ∧ rest = back := by simpa using h
          exact ⟨rfl, not_mem_of_cutLast hrest⟩

/-- A list is cut where nothing behind is the separator. -/
theorem cutLast_eq_some_iff :
    cutLast sep l = some (front, back) ↔ l = front ++ sep :: back ∧ sep ∉ back := by
  refine ⟨of_cutLast, ?_⟩
  rintro ⟨rfl, h⟩
  exact cutLast_append front h

theorem dropLast?_eq_some_iff : dropLast? last l = some front ↔ l = front ++ [last] := by
  induction l generalizing front with
  | nil => simp [dropLast?]
  | cons c rest ih =>
      cases rest with
      | nil =>
          cases front with
          | nil => simp [dropLast?]
          | cons d front => simp [dropLast?]
      | cons d rest =>
          rw [dropLast?, Option.map_eq_some_iff]
          · constructor
            · rintro ⟨inner, hinner, rfl⟩
              rw [ih.mp hinner, List.cons_append]
            · intro h
              cases front with
              | nil => simp at h
              | cons e front =>
                  obtain ⟨rfl, hrest⟩ := List.cons.inj h
                  exact ⟨front, ih.mpr hrest, rfl⟩
          · nofun

end Cut

namespace HostPort

/-- The grammar of addresses. A host without colons may stand as it is before the colon and the port,
if it opens no bracket; in brackets there may stand any host. -/
structure Writes (address : String) (target : HostPort) : Prop where
  host_ne : target.host ≠ ""
  port_ne : target.port ≠ ""
  digits : ∀ c ∈ target.port.toList, '0' ≤ c ∧ c ≤ '9'
  form :
    (address = target.host ++ ":" ++ target.port ∧
      ':' ∉ target.host.toList ∧ target.host.toList.head? ≠ some '[') ∨
    address = "[" ++ target.host ++ "]:" ++ target.port

theorem bareHost_of_head_ne {front : List Char} (h : front.head? ≠ some '[') :
    bareHost front = if ':' ∈ front then none else some front := by
  cases front with
  | nil => rfl
  | cons c front =>
      have hc : c ≠ '[' := fun hc => h (congrArg some hc)
      rw [bareHost]
      simpa using hc

/-- What stands before the port of a host: the host itself, or the host in brackets. -/
theorem bareHost_eq_some_iff {front host : List Char} :
    bareHost front = some host ↔
      (front = host ∧ ':' ∉ host ∧ host.head? ≠ some '[') ∨ front = '[' :: host ++ [']'] := by
  by_cases hopen : front.head? = some '['
  · obtain ⟨inner, rfl⟩ := List.head?_eq_some_iff.mp hopen
    rw [bareHost, dropLast?_eq_some_iff]
    constructor
    · rintro rfl
      exact .inr rfl
    · rintro (⟨rfl, -, hhead⟩ | h)
      · exact absurd rfl hhead
      · exact (List.cons.inj h).2
  · rw [bareHost_of_head_ne hopen]
    constructor
    · intro h
      by_cases hcolon : ':' ∈ front
      · simp [hcolon] at h
      · obtain rfl : front = host := by simpa [hcolon] using h
        exact .inl ⟨rfl, hcolon, hopen⟩
    · rintro (⟨rfl, hcolon, -⟩ | rfl)
      · exact if_neg hcolon
      · exact absurd rfl hopen

theorem isPort_iff {port : List Char} :
    isPort port = true ↔ port ≠ [] ∧ ∀ c ∈ port, '0' ≤ c ∧ c ≤ '9' := by
  simp [isPort, Text.isDigit_iff]

theorem colon_not_mem {digits : List Char} (h : ∀ c ∈ digits, c.isDigit = true) : ':' ∉ digits :=
  fun hmem => absurd (h ':' hmem) (by decide)

theorem splitChars_eq_some_iff {address host port : List Char} :
    splitChars address = some (host, port) ↔
      host ≠ [] ∧ isPort port = true ∧
        ∃ front, cutLast ':' address = some (front, port) ∧ bareHost front = some host := by
  constructor
  · intro h
    rw [splitChars] at h
    split at h
    · cases h
    · next front back hcut =>
        split_ifs at h with hport
        split at h
        · next inner hbare =>
            split_ifs at h with hempty
            cases h
            exact ⟨by simpa using hempty, hport, front, hcut, hbare⟩
        · cases h
  · rintro ⟨hhost, hport, front, hcut, hbare⟩
    have hempty : ¬host.isEmpty = true := by simpa using hhost
    rw [splitChars, hcut]
    dsimp only
    rw [if_pos hport, hbare]
    exact if_neg hempty

/-- The two forms of an address, as characters. -/
theorem writes_iff {address : String} {target : HostPort} :
    Writes address target ↔
      target.host.toList ≠ [] ∧ isPort target.port.toList = true ∧
        ∃ front, address.toList = front ++ ':' :: target.port.toList ∧
          bareHost front = some target.host.toList := by
  have hplain : address = target.host ++ ":" ++ target.port ↔
      address.toList = target.host.toList ++ ':' :: target.port.toList := by
    rw [← String.toList_inj]
    simp
  have hbracketed : address = "[" ++ target.host ++ "]:" ++ target.port ↔
      address.toList = ('[' :: target.host.toList ++ [']']) ++ ':' :: target.port.toList := by
    rw [← String.toList_inj]
    simp
  simp only [bareHost_eq_some_iff, isPort_iff]
  constructor
  · intro h
    refine ⟨by simpa using h.host_ne, ⟨by simpa using h.port_ne, h.digits⟩, ?_⟩
    rcases h.form with ⟨haddress, hcolon, hhead⟩ | haddress
    · exact ⟨_, hplain.mp haddress, .inl ⟨rfl, hcolon, hhead⟩⟩
    · exact ⟨_, hbracketed.mp haddress, .inr rfl⟩
  · rintro ⟨hhost, ⟨hport, hdigits⟩, front, haddress, hform⟩
    refine ⟨by simpa using hhost, by simpa using hport, hdigits, ?_⟩
    rcases hform with ⟨rfl, hcolon, hhead⟩ | rfl
    · exact .inl ⟨hplain.mpr haddress, hcolon, hhead⟩
    · exact .inr (hbracketed.mpr haddress)

theorem ofAddress?_eq_some_iff {address : String} {target : HostPort} :
    ofAddress? address = some target ↔ Writes address target := by
  have hsplit : ofAddress? address = some target ↔
      splitChars address.toList = some (target.host.toList, target.port.toList) := by
    rw [ofAddress?, Option.map_eq_some_iff]
    constructor
    · rintro ⟨⟨host, port⟩, hparts, rfl⟩
      rw [hparts, String.toList_ofList, String.toList_ofList]
    · intro hparts
      exact ⟨_, hparts, by simp⟩
  rw [hsplit, splitChars_eq_some_iff, writes_iff]
  refine and_congr_right fun _ => and_congr_right fun hport => exists_congr fun front => ?_
  have hcolon : ':' ∉ target.port.toList :=
    colon_not_mem fun c hc => Text.isDigit_iff.mpr ((isPort_iff.mp hport).2 c hc)
  rw [cutLast_eq_some_iff, and_iff_left hcolon]

/-- **An address is split just as the grammar says.** It is split into a host and a port if and only if
it writes them, it is not split if and only if it writes none, and it never writes two. -/
theorem splits_what_is_written (address : String) :
    (∀ target, ofAddress? address = some target ↔ Writes address target) ∧
    (ofAddress? address = none ↔ ∀ target, ¬Writes address target) ∧
    (∀ target other, Writes address target → Writes address other → target = other) := by
  refine ⟨fun target => ofAddress?_eq_some_iff, ?_, fun target other htarget hother => ?_⟩
  · rw [Option.eq_none_iff_forall_ne_some]
    exact forall_congr' fun target => not_congr ofAddress?_eq_some_iff
  · have hsplit := ofAddress?_eq_some_iff.mpr htarget
    rw [ofAddress?_eq_some_iff.mpr hother] at hsplit
    exact (Option.some.inj hsplit).symm

/-- A host with brackets and a colon of its own, and a port with a leading zero. Without digits behind
its last colon an address writes nothing. -/
theorem splits_what_is_written_nested :
    let address := "[[a]:1]:080"
    let target : HostPort := ⟨"[a]:1", "080"⟩
    Writes address target ∧ ofAddress? address = some target ∧
      (∀ other, Writes address other → other = target) ∧ ∀ other, ¬Writes "[a:1]:" other := by
  intro address target
  obtain ⟨hsplit, -, hunique⟩ := splits_what_is_written address
  obtain ⟨-, hnone, -⟩ := splits_what_is_written "[a:1]:"
  have haddress : ofAddress? address = some target := by decide +kernel
  have hwrites : Writes address target := (hsplit target).mp haddress
  exact ⟨hwrites, haddress, fun other hother => hunique other target hother hwrites,
    hnone.mp (by decide +kernel)⟩

end HostPort

end ServiceDiscovery
