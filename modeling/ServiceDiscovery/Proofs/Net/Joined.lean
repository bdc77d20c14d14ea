import ServiceDiscovery.Net.SocketAddress
import ServiceDiscovery.Proofs.Digits
/-!
# An address text with a port behind it

Readers go on as far as they can, and no part of an IPv4 address or of a number goes on behind a
colon. So what they read from a text is not changed by a colon and whatever follows it, which is left
over instead. A text that opens no bracket is therefore, with a port behind it, a socket address
exactly if it is an IPv4 address; and the text of no IPv6 address opens a bracket.
-/

namespace ServiceDiscovery

open Text (decimal leadingDigits)

section Leaving

variable {α β : Type} (rest : List Char)

/-- What a reader makes of a text when more follows and is left over. -/
def leaving (read : Option (α × List Char)) : Option (α × List Char) :=
  read.map fun (a, t) => (a, t ++ rest)

/-- Two readers in a row leave over what both of them leave over. -/
theorem leaving_bind {read : Option (α × List Char)}
    {next : α × List Char → Option (β × List Char)}
    (h : ∀ a t, next (a, t ++ rest) = leaving rest (next (a, t))) :
    (leaving rest read >>= next) = leaving rest (read >>= next) := by
  cases read with
  | none => rfl
  | some first => exact h first.1 first.2

end Leaving

/-- What a reader makes of a text that it has to use up. -/
def whole {α : Type} : Option (α × List Char) → Option α
  | some (a, []) => some a
  | _ => none

theorem whole_map_eq_none {α β : Type} {read : Option (α × List Char)} (f : α → β)
    (h : ∀ a, read ≠ some (a, [])) : whole (read.map fun (a, t) => (f a, t)) = none := by
  rcases read with _ | ⟨a, _ | ⟨c, t⟩⟩
  · rfl
  · exact absurd rfl (h a)
  · rfl

section Extend

variable {c : Char} (hdigit : c.isDigit = false) (t rest : List Char)

include hdigit

theorem Ipv4.readOctet?_extend :
    readOctet? (t ++ c :: rest) = leaving (c :: rest) (readOctet? t) := by
  rw [readOctet?, leadingDigits, Text.span_extend hdigit, readOctet?, leadingDigits]
  dsimp only
  split_ifs <;> rfl

theorem SocketAddress.readNumber?_extend (bound : Nat) :
    readNumber? bound (t ++ c :: rest) = leaving (c :: rest) (readNumber? bound t) := by
  rw [readNumber?, leadingDigits, Text.span_extend hdigit, readNumber?, leadingDigits]
  dsimp only
  split_ifs
  · rfl
  · cases Text.boundedValue? 10 bound (t.span Char.isDigit).1 <;> rfl

omit hdigit in
theorem Ipv4.readNextOctet?_of_head_ne {t : List Char} (h : t.head? ≠ some '.') :
    readNextOctet? t = none := by
  rw [readNextOctet?]
  rintro u rfl
  exact h rfl

variable (hpoint : c ≠ '.')

include hpoint

theorem Ipv4.readNextOctet?_extend :
    readNextOctet? (t ++ c :: rest) = leaving (c :: rest) (readNextOctet? t) := by
  cases t with
  | nil => exact readNextOctet?_of_head_ne fun h => hpoint (Option.some.inj h)
  | cons d t =>
      by_cases hd : d = '.'
      · rw [hd]
        exact readOctet?_extend hdigit t rest
      · have hhead : ∀ u : List Char, (d :: u).head? ≠ some '.' :=
          fun u h => hd (Option.some.inj h)
        rw [List.cons_append, readNextOctet?_of_head_ne (hhead _),
          readNextOctet?_of_head_ne (hhead _)]
        rfl

theorem Ipv4.read?_extend : read? (t ++ c :: rest) = leaving (c :: rest) (read? t) := by
  have hnext : ∀ t, readNextOctet? (t ++ c :: rest) = leaving (c :: rest) (readNextOctet? t) :=
    fun t => readNextOctet?_extend hdigit t rest hpoint
  rw [read?, read?, readOctet?_extend hdigit]
  refine leaving_bind _ fun a t => ?_
  dsimp only
  rw [hnext]
  refine leaving_bind _ fun b t => ?_
  dsimp only
  rw [hnext]
  refine leaving_bind _ fun c t => ?_
  dsimp only
  rw [hnext]
  exact leaving_bind _ fun d t => rfl

end Extend

/-! ### Texts of addresses -/

section Text

variable {s : String}

theorem Ipv4.ofText?_eq (s : String) : ofText? s = whole (read? s.toList) := by
  -- Stating the equation of a definition that matches on what a reader gives would run the reader.
  delta ofText?
  generalize read? s.toList = read
  rcases read with _ | ⟨a, _ | ⟨c, u⟩⟩ <;> rfl

theorem Ipv6.ofText?_eq (s : String) : ofText? s = whole (read? s.toList) := by
  delta ofText?
  generalize read? s.toList = read
  rcases read with _ | ⟨a, _ | ⟨c, u⟩⟩ <;> rfl

theorem SocketAddress.ofChars?_eq (t : List Char) :
    ofChars? t = whole ((readV4? t).or (readV6? t)) := by
  delta ofChars?
  generalize (readV4? t).or (readV6? t) = read
  rcases read with _ | ⟨a, _ | ⟨c, u⟩⟩ <;> rfl

/-- An address of the fourth version is preferred. -/
theorem IpAddress.ofText?_eq_some_iff {a : IpAddress} :
    ofText? s = some a ↔
      match a with
      | .v4 a => Ipv4.ofText? s = some a
      | .v6 a => Ipv4.ofText? s = none ∧ Ipv6.ofText? s = some a := by
  delta ofText?
  generalize Ipv4.ofText? s = v4
  generalize Ipv6.ofText? s = v6
  cases v4 with
  | none => cases v6 <;> cases a <;> simp
  | some b => cases a <;> simp

theorem Ipv4.read?_bracket (t : List Char) : read? ('[' :: t) = none := rfl

theorem Ipv6.read?_bracket (t : List Char) : read? ('[' :: t) = none := rfl

/-- The text of an address opens no bracket. -/
theorem IpAddress.head?_ne {a : IpAddress} (h : ofText? s = some a) :
    s.toList.head? ≠ some '[' := by
  intro hhead
  obtain ⟨t, ht⟩ : ∃ t, s.toList = '[' :: t := List.head?_eq_some_iff.mp hhead
  rw [ofText?_eq_some_iff] at h
  cases a with
  | v4 a =>
      rw [Ipv4.ofText?_eq, ht, Ipv4.read?_bracket] at h
      cases h
  | v6 a =>
      rw [Ipv6.ofText?_eq s, ht, Ipv6.read?_bracket] at h
      cases h.2

end Text

/-! ### Ports -/

namespace SocketAddress

theorem readNumber?_decimal {bound n : Nat} (h : n < bound) {rest : List Char}
    (hrest : ∀ c ∈ rest.head?, c.isDigit = false) :
    readNumber? bound (decimal n ++ rest) = some (n, rest) := by
  rw [readNumber?, Text.leadingDigits_decimal hrest]
  dsimp only
  rw [if_neg (by simpa using Text.decimal_ne_nil n), Text.boundedValue?_decimal h]
  rfl

theorem readPort?_decimal (p : UInt16) : readPort? (':' :: decimal p.toNat) = some (p, []) := by
  have hnumber : readNumber? UInt16.size (decimal p.toNat ++ []) = some (p.toNat, []) :=
    readNumber?_decimal p.toNat_lt nofun
  rw [List.append_nil] at hnumber
  rw [readPort?, hnumber]
  exact congrArg (fun p => some (p, [])) UInt16.ofNat_toNat

theorem readPort?_of_head_ne {t : List Char} (h : t.head? ≠ some ':') : readPort? t = none := by
  rw [readPort?]
  rintro u rfl
  exact h rfl

/-- What is read before a colon does not use up the text. -/
theorem readPort?_colon {t rest : List Char} (h : t ≠ []) {p : UInt16} :
    readPort? (t ++ ':' :: rest) ≠ some (p, []) := by
  obtain ⟨c, t, rfl⟩ := List.exists_cons_of_ne_nil h
  by_cases hc : c = ':'
  · rw [hc, List.cons_append, readPort?, readNumber?_extend rfl]
    intro hread
    obtain ⟨⟨n, u⟩, hnumber, hp⟩ := Option.map_eq_some_iff.mp hread
    obtain ⟨⟨m, v⟩, -, hleft⟩ := Option.map_eq_some_iff.mp hnumber
    cases hp
    exact List.append_ne_nil_of_right_ne_nil v (List.cons_ne_nil _ _) (congrArg Prod.snd hleft)
  · have hhead : (c :: (t ++ ':' :: rest)).head? ≠ some ':' := fun h => hc (Option.some.inj h)
    rw [List.cons_append, readPort?_of_head_ne hhead]
    nofun

theorem readV6?_of_head_ne {t : List Char} (h : t.head? ≠ some '[') : readV6? t = none := by
  rw [readV6?]
  rintro u rfl
  exact h rfl

theorem readV4?_of_read {t u : List Char} {a : Ipv4} (h : Ipv4.read? t = some (a, u)) :
    readV4? t = (readPort? u).map fun (p, v) => (v4 a p, v) := by
  rw [readV4?, h]
  change ((readPort? u).bind fun (p, v) => some (v4 a p, v)) = _
  cases readPort? u <;> rfl

theorem readV4?_of_none {t : List Char} (h : Ipv4.read? t = none) : readV4? t = none := by
  rw [readV4?, h]
  rfl

/-- **A text with a port behind it is the socket address of the IPv4 address that it writes**, and
none if it writes none. -/
theorem ofChars?_joined {t : String} (h : t.toList.head? ≠ some '[') (p : UInt16) :
    ofChars? (t.toList ++ ':' :: decimal p.toNat) = (Ipv4.ofText? t).map fun a => v4 a p := by
  have hopen : (t.toList ++ ':' :: decimal p.toNat).head? ≠ some '[' := by
    cases hchars : t.toList with
    | nil => exact fun hhead => absurd (Option.some.inj hhead) (by decide)
    | cons c u =>
        rw [hchars] at h
        exact h
  have hextend : Ipv4.read? (t.toList ++ ':' :: decimal p.toNat) =
      leaving (':' :: decimal p.toNat) (Ipv4.read? t.toList) :=
    Ipv4.read?_extend rfl _ _ (by decide)
  rw [ofChars?_eq, readV6?_of_head_ne hopen, Option.or_none, Ipv4.ofText?_eq]
  cases hread : Ipv4.read? t.toList with
  | none =>
      rw [hread] at hextend
      rw [readV4?_of_none hextend]
      rfl
  | some read =>
      obtain ⟨a, u⟩ := read
      rw [hread] at hextend
      rw [readV4?_of_read hextend]
      cases u with
      | nil =>
          rw [List.nil_append, readPort?_decimal]
          rfl
      | cons c u =>
          exact whole_map_eq_none _ fun q => readPort?_colon (List.cons_ne_nil c u)

/-- **Only IPv4 addresses can have a port behind them.** -/
theorem ofChars?_of_address {t : String} {a : IpAddress} (h : IpAddress.ofText? t = some a)
    (p : UInt16) :
    ofChars? (t.toList ++ ':' :: decimal p.toNat) =
      match a with
      | .v4 a => some (v4 a p)
      | .v6 _ => none := by
  rw [ofChars?_joined (IpAddress.head?_ne h)]
  have hfamily := IpAddress.ofText?_eq_some_iff.mp h
  cases a with
  | v4 a => rw [hfamily, Option.map_some]
  | v6 a => rw [hfamily.1, Option.map_none]

end SocketAddress

end ServiceDiscovery
