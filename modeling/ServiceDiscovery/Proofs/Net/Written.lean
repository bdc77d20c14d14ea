import Mathlib.Data.Nat.Digits.Defs
import ServiceDiscovery.Proofs.Net.Joined
/-!
# Written addresses are read back

Addresses have one canonical text each, and it is read back whatever stands behind it, as long as
that cannot be taken for more of it. A group of an IPv6 address is never taken for an IPv4 address,
since no point follows its digits; and the two colons stand for exactly the zeros that were left out.
-/

namespace ServiceDiscovery

open Text (decimal leadingDigits isHexDigit)

/-! ### What ends a group of digits -/

/-- No digit stands in front of a text, not even a hexadecimal one. -/
def Bare (t : List Char) : Prop := ∀ c ∈ t.head?, isHexDigit c = false

theorem bare_cons {c : Char} (h : isHexDigit c = false) (t : List Char) : Bare (c :: t) := by
  rintro d ⟨⟩
  exact h

theorem Bare.span_eq {t : List Char} (h : Bare t) {p : Char → Bool}
    (hp : ∀ c, isHexDigit c = false → p c = false) : t.span p = ([], t) :=
  Text.span_append (t := []) nofun fun c hc => hp c (h c hc)

/-- The digits before do not go on, and are no part of an IPv4 address. -/
structure Ends (t : List Char) : Prop where
  bare : Bare t
  no_point : t.head? ≠ some '.'

theorem ends_colon (t : List Char) : Ends (':' :: t) := ⟨bare_cons rfl t, by simp⟩

theorem Ends.leadingDigits {t u : List Char} (ht : ∀ c ∈ t, isHexDigit c = true) (hu : Ends u) :
    (Text.leadingDigits (t ++ u)).2.head? ≠ some '.' := by
  induction t with
  | nil =>
      rw [List.nil_append, Text.leadingDigits,
        hu.bare.span_eq fun c hc => Text.isDigit_eq_false hc]
      exact hu.no_point
  | cons c t ih =>
      obtain ⟨hc, ht⟩ := List.forall_mem_cons.mp ht
      rw [Text.leadingDigits, List.span_eq_takeWhile_dropWhile] at ih ⊢
      cases hdigit : c.isDigit with
      | true =>
          rw [List.cons_append, List.dropWhile_cons_of_pos hdigit]
          exact ih ht
      | false =>
          rw [List.cons_append, List.dropWhile_cons_of_neg (Bool.eq_false_iff.mp hdigit)]
          intro hhead
          rw [Option.some.inj hhead] at hc
          exact absurd hc (by decide)

/-! ### IPv4 addresses -/

namespace Ipv4

theorem isOctet_decimal (n : UInt8) :
    isOctet (decimal n.toNat) = true ∧ UInt8.ofNat (Text.digitsValue 0 (decimal n.toNat)) = n := by
  have hall : ∀ n < 256, isOctet (decimal n) = true ∧ Text.digitsValue 0 (decimal n) = n := by
    decide +kernel
  obtain ⟨hoctet, hvalue⟩ := hall n.toNat n.toNat_lt
  rw [hvalue]
  exact ⟨hoctet, UInt8.ofNat_toNat⟩

section Write

variable {rest : List Char}

theorem readOctet?_decimal (n : UInt8) (hrest : ∀ c ∈ rest.head?, c.isDigit = false) :
    readOctet? (decimal n.toNat ++ rest) = some (n, rest) := by
  obtain ⟨hoctet, hvalue⟩ := isOctet_decimal n
  rw [readOctet?, Text.leadingDigits_decimal hrest]
  dsimp only
  rw [if_pos hoctet, hvalue]

theorem readNextOctet?_decimal (n : UInt8) (hrest : ∀ c ∈ rest.head?, c.isDigit = false) :
    readNextOctet? ('.' :: (decimal n.toNat ++ rest)) = some (n, rest) :=
  readOctet?_decimal n hrest

theorem read?_write (a : Ipv4) (hrest : ∀ c ∈ rest.head?, c.isDigit = false) :
    read? (a.write ++ rest) = some (a, rest) := by
  have hpoint : ∀ t : List Char, ∀ c ∈ ('.' :: t).head?, c.isDigit = false := by
    rintro t c ⟨⟩
    rfl
  simp only [write, List.append_assoc, List.cons_append, read?, Option.bind_eq_bind]
  rw [readOctet?_decimal a.first (hpoint _), Option.bind_some,
    readNextOctet?_decimal a.second (hpoint _), Option.bind_some,
    readNextOctet?_decimal a.third (hpoint _), Option.bind_some,
    readNextOctet?_decimal a.fourth hrest, Option.bind_some]
  rfl

end Write

theorem ofText?_text (a : Ipv4) : ofText? a.text = some a := by
  have hread : read? (a.write ++ []) = some (a, []) := a.read?_write nofun
  rw [List.append_nil] at hread
  rw [ofText?_eq, text, String.toList_ofList, hread]
  rfl

theorem read?_of_bare {t : List Char} (h : Bare t) : read? t = none := by
  rw [read?, readOctet?, leadingDigits, h.span_eq fun c hc => Text.isDigit_eq_false hc]
  rfl

/-- Digits with no point behind them are no address. -/
theorem read?_of_ends {t u : List Char} (ht : ∀ c ∈ t, isHexDigit c = true) (hu : Ends u) :
    read? (t ++ u) = none := by
  rw [read?, readOctet?]
  dsimp only
  split_ifs
  · rw [Option.bind_eq_bind, Option.bind_some]
    dsimp only
    rw [readNextOctet?_of_head_ne (hu.leadingDigits ht)]
    rfl
  · rfl

theorem halves_ofHalves (high low : UInt16) : (ofHalves high low).halves = (high, low) := by
  have hpair : ∀ n : UInt16, (UInt8.ofNat (n.toNat / 256)).toNat * 256 +
      (UInt8.ofNat n.toNat).toNat = n.toNat := by
    intro n
    have hhigh : n.toNat / 256 < UInt8.size := Nat.div_lt_of_lt_mul n.toNat_lt
    rw [UInt8.toNat_ofNat_of_lt' hhigh, UInt8.toNat_ofNat']
    exact Nat.div_add_mod' n.toNat 256
  rw [halves, ofHalves]
  dsimp only
  rw [hpair, hpair, UInt16.ofNat_toNat, UInt16.ofNat_toNat]

end Ipv4

/-! ### IPv6 addresses -/

namespace Ipv6

def writeGroup (g : UInt16) : List Char := Nat.toDigits 16 g.toNat

theorem isHexDigit_of_mem_writeGroup {g : UInt16} {c : Char} (h : c ∈ writeGroup g) :
    isHexDigit c = true :=
  Text.isHexDigit_of_mem_toDigits (by decide) (by decide) h

theorem readGroup?_writeGroup (g : UInt16) {rest : List Char} (hrest : Bare rest) :
    readGroup? (writeGroup g ++ rest) = some (g, rest) := by
  have hlength : (writeGroup g).length ≤ 4 :=
    Nat.toDigits_length 16 g.toNat 4 (by decide) (Nat.lt_of_lt_of_eq g.toNat_lt (by decide))
  have hnonempty : (writeGroup g).isEmpty = false := by simp [writeGroup]
  have hvalue : UInt16.ofNat (Text.baseValue 16 (writeGroup g)) = g := by
    rw [writeGroup, Text.baseValue_toDigits (by decide) (by decide), UInt16.ofNat_toNat]
  rw [readGroup?, hexDigits, Text.span_append (fun _ hc => isHexDigit_of_mem_writeGroup hc) hrest]
  dsimp only
  rw [if_neg (by simpa [hnonempty] using hlength), hvalue]

theorem readGroup?_of_bare {t : List Char} (h : Bare t) : readGroup? t = none := by
  rw [readGroup?, hexDigits, h.span_eq fun _ hc => hc]
  rfl

/-- A series of groups does not go on here. -/
structure Over (t : List Char) : Prop extends Ends t where
  next : ∀ u, t = ':' :: u → Bare u

theorem over_colons (t : List Char) : Over (':' :: ':' :: t) := by
  refine ⟨ends_colon _, ?_⟩
  rintro u ⟨⟩
  exact bare_cons rfl t

theorem over_of_ends {t : List Char} (h : Ends t) (hcolon : t.head? ≠ some ':') : Over t := by
  refine ⟨h, ?_⟩
  rintro u rfl
  exact absurd rfl hcolon

theorem over_nil : Over [] := ⟨⟨nofun, nofun⟩, nofun⟩

section Series

variable {t : List Char}

theorem readPart?_over (h : Over t) {α : Type} {part : List Char → Option (α × List Char)}
    (hpart : ∀ u, Bare u → part u = none) (first : Bool) : readPart? first part t = none := by
  cases first with
  | true => exact hpart t h.bare
  | false =>
      rw [readPart?.eq_def, if_neg Bool.false_ne_true]
      split
      · next u => exact hpart u (h.next u rfl)
      · rfl

theorem readSeries_over (limit : Nat) (first : Bool) (h : Over t) :
    readSeries limit first t = (⟨[], false⟩, t) := by
  cases limit with
  | zero => rfl
  | succ limit =>
      rw [readSeries, readPart?_over h (fun _ => Ipv4.read?_of_bare), ite_self,
        readPart?_over h fun _ => readGroup?_of_bare]

/-- A written group is read, and the rest after it. -/
theorem readSeries_group {g : UInt16} {more : List Char} (hmore : Ends more) (limit : Nat)
    {first : Bool} (ht : ∀ {α : Type} (part : List Char → Option (α × List Char)),
      readPart? first part t = part (writeGroup g ++ more)) :
    readSeries (limit + 1) first t =
      (⟨g :: (readSeries limit false more).1.groups, (readSeries limit false more).1.endsInIpv4⟩,
        (readSeries limit false more).2) := by
  have hv4 : Ipv4.read? (writeGroup g ++ more) = none :=
    Ipv4.read?_of_ends (fun _ hc => isHexDigit_of_mem_writeGroup hc) hmore
  rw [readSeries, ht, hv4, ite_self, ht, readGroup?_writeGroup g hmore.bare]

end Series

theorem writeGroups_cons (g : UInt16) (groups : List UInt16) :
    writeGroups (g :: groups) = writeGroup g ++ groups.flatMap fun g => ':' :: writeGroup g := by
  induction groups generalizing g with
  | nil => exact (List.append_nil _).symm
  | cons next groups ih =>
      rw [List.flatMap_cons, List.cons_append, ← ih next, writeGroups]
      change writeGroup g ++ [':'] ++ writeGroups (next :: groups) = _
      rw [List.append_assoc]
      rfl

section Rest

variable {rest : List Char} (hover : Over rest)

include hover

/-- Nor does a group go on in front of other groups. -/
theorem Over.tail (groups : List UInt16) :
    Ends ((groups.flatMap fun g => ':' :: writeGroup g) ++ rest) := by
  cases groups with
  | nil => exact hover.toEnds
  | cons g groups =>
      rw [List.flatMap_cons, List.cons_append, List.cons_append]
      exact ends_colon _

theorem readSeries_tail {groups : List UInt16} {limit : Nat} (hlimit : groups.length ≤ limit) :
    readSeries limit false ((groups.flatMap fun g => ':' :: writeGroup g) ++ rest) =
      (⟨groups, false⟩, rest) := by
  induction groups generalizing limit with
  | nil => exact readSeries_over limit false hover
  | cons g groups ih =>
      cases limit with
      | zero => cases hlimit
      | succ limit =>
          rw [List.flatMap_cons, List.append_assoc,
            readSeries_group (hover.tail groups) limit fun part => rfl,
            ih (Nat.le_of_succ_le_succ hlimit)]

theorem readSeries_writeGroups {groups : List UInt16} {limit : Nat}
    (hlimit : groups.length ≤ limit) :
    readSeries limit true (writeGroups groups ++ rest) = (⟨groups, false⟩, rest) := by
  cases groups with
  | nil => exact readSeries_over limit true hover
  | cons g groups =>
      cases limit with
      | zero => cases hlimit
      | succ limit =>
          rw [writeGroups_cons, List.append_assoc,
            readSeries_group (hover.tail groups) limit fun part => rfl,
            readSeries_tail hover (Nat.le_of_succ_le_succ hlimit)]

/-- What begins with a group is no IPv4 address. -/
theorem ipv4_read?_writeGroups (groups : List UInt16) :
    Ipv4.read? (writeGroups groups ++ rest) = none := by
  cases groups with
  | nil => exact Ipv4.read?_of_bare hover.bare
  | cons g groups =>
      rw [writeGroups_cons, List.append_assoc]
      exact Ipv4.read?_of_ends (fun _ hc => isHexDigit_of_mem_writeGroup hc) (hover.tail groups)

end Rest

theorem ipv4_read?_write (a : Ipv6) : Ipv4.read? a.write = none := by
  rw [write]
  split
  · exact Ipv4.read?_of_bare (bare_cons rfl _)
  · dsimp only
    split_ifs
    · exact ipv4_read?_writeGroups (over_colons _) _
    · have hnone := ipv4_read?_writeGroups over_nil a.groups
      rw [List.append_nil] at hnone
      exact hnone

/-- The zeros that the longest run names are there. -/
theorem longestZeros_eq (groups : List UInt16) :
    groups = groups.take (longestZeros groups).1 ++
      (List.replicate (longestZeros groups).2 0 ++
        groups.drop ((longestZeros groups).1 + (longestZeros groups).2)) := by
  induction groups with
  | nil => rfl
  | cons g rest ih =>
      rw [longestZeros]
      dsimp only
      split
      case isTrue =>
        have hzeros : (g :: rest).takeWhile (· = 0) =
            List.replicate ((g :: rest).takeWhile (· = 0)).length 0 :=
          List.eq_replicate_of_mem fun c hc =>
            of_decide_eq_true (List.all_eq_true.mp List.all_takeWhile c hc)
        rw [List.take_zero, List.nil_append, Nat.zero_add, ← hzeros, Text.drop_takeWhile,
          List.takeWhile_append_dropWhile]
      case isFalse =>
        rw [Nat.add_right_comm, List.drop_succ_cons, List.take_succ_cons, List.cons_append, ← ih]

theorem ofGroups?_groups (a : Ipv6) : ofGroups? a.groups = some a := dif_pos a.length_eq

theorem groups_of_mapped? {a : Ipv6} {v4 : Ipv4} (h : a.mapped? = some v4) :
    ∃ high low, a = ⟨[0, 0, 0, 0, 0, 0xffff, high, low], rfl⟩ ∧ v4 = Ipv4.ofHalves high low := by
  obtain ⟨groups, hlength⟩ := a
  rw [mapped?] at h
  split at h
  · next high low hgroups =>
      cases h
      cases hgroups
      exact ⟨high, low, rfl, rfl⟩
  · cases h

/-- Behind the groups before the two colons, those behind them are read, and zeros stand between. -/
theorem read?_of_colons {t u v : List Char} {groups : List UInt16} {tail : Series}
    (hgroups : readSeries 8 true t = (⟨groups, false⟩, ':' :: ':' :: u)) (hfew : groups.length < 8)
    (htail : readSeries (7 - groups.length) true u = (tail, v)) :
    read? t = (ofGroups? (groups ++
      List.replicate (8 - groups.length - tail.groups.length) 0 ++ tail.groups)).map (·, v) := by
  rw [read?, hgroups]
  refine (if_pos hfew).trans ?_
  rw [htail]

section Read

variable {rest : List Char} (hrest : Ends rest) (hcolon : rest.head? ≠ some ':')

include hrest hcolon

theorem read?_writeGroups (a : Ipv6) : read? (writeGroups a.groups ++ rest) = some (a, rest) := by
  have hseries := readSeries_writeGroups (over_of_ends hrest hcolon) (Nat.le_of_eq a.length_eq)
  rw [read?, hseries]
  split
  · next groups u heq =>
      cases heq
      exact absurd rfl hcolon
  · next s u heq =>
      cases heq
      rw [ofGroups?_groups]
      rfl

theorem read?_shortened (a : Ipv6) {start length : Nat} (hlength : 1 < length)
    (hgroups : a.groups =
      a.groups.take start ++ (List.replicate length 0 ++ a.groups.drop (start + length))) :
    read? (writeGroups (a.groups.take start) ++
      (':' :: ':' :: (writeGroups (a.groups.drop (start + length)) ++ rest))) = some (a, rest) := by
  have hsum := congrArg List.length hgroups
  simp only [List.length_append, List.length_replicate, a.length_eq] at hsum
  have hbehind := readSeries_writeGroups (over_of_ends hrest hcolon)
    (by omega : (a.groups.drop (start + length)).length ≤ 7 - (a.groups.take start).length)
  have hmissing : 8 - (a.groups.take start).length - (a.groups.drop (start + length)).length =
      length := by omega
  rw [read?_of_colons (readSeries_writeGroups (over_colons _) (by omega)) (by omega) hbehind]
  dsimp only
  rw [hmissing, List.append_assoc, ← hgroups, ofGroups?_groups]
  rfl

omit hcolon in
theorem readSeries_ipv4 (limit : Nat) (a : Ipv4) :
    readSeries (limit + 2) false (':' :: (a.write ++ rest)) =
      (⟨[a.halves.1, a.halves.2], true⟩, rest) := by
  have hpart : readPart? false Ipv4.read? (':' :: (a.write ++ rest)) = some (a, rest) :=
    a.read?_write fun c hc => Text.isDigit_eq_false (hrest.bare c hc)
  rw [readSeries, if_pos (Nat.succ_pos limit), hpart]

omit hcolon in
theorem read?_mapped (high low : UInt16) :
    read? ("::ffff:".toList ++ (Ipv4.ofHalves high low).write ++ rest) =
      some (⟨[0, 0, 0, 0, 0, 0xffff, high, low], rfl⟩, rest) := by
  have hword : "::ffff:".toList = ':' :: ':' :: (writeGroup 0xffff ++ [':']) := by decide
  have htail := readSeries_ipv4 hrest 4 (Ipv4.ofHalves high low)
  rw [Ipv4.halves_ofHalves] at htail
  have hgroups : readSeries 7 true
      (writeGroup 0xffff ++ ':' :: ((Ipv4.ofHalves high low).write ++ rest)) =
        (⟨[0xffff, high, low], true⟩, rest) := by
    rw [readSeries_group (ends_colon _) 6 fun part => rfl, htail]
  rw [hword]
  simp only [List.cons_append, List.append_assoc, List.nil_append]
  exact read?_of_colons (readSeries_over 8 true (over_colons _)) (by decide) hgroups

theorem read?_write (a : Ipv6) : read? (a.write ++ rest) = some (a, rest) := by
  rw [write]
  split
  · next v4 hmapped =>
      obtain ⟨high, low, rfl, rfl⟩ := groups_of_mapped? hmapped
      exact read?_mapped hrest high low
  · have hgroups := longestZeros_eq a.groups
    dsimp only
    split_ifs with hlength
    · rw [List.append_assoc, List.cons_append, List.cons_append]
      exact read?_shortened hrest hcolon a hlength hgroups
    · exact read?_writeGroups hrest hcolon a

end Read

theorem ofText?_text (a : Ipv6) : ofText? a.text = some a := by
  have hread := read?_write over_nil.toEnds nofun a
  rw [List.append_nil] at hread
  rw [ofText?_eq, text, String.toList_ofList, hread]
  rfl

end Ipv6

/-- **Every IP address is read back from its text.** -/
theorem IpAddress.ofText?_text (a : IpAddress) : ofText? a.text = some a := by
  rw [ofText?_eq_some_iff]
  cases a with
  | v4 a => exact a.ofText?_text
  | v6 a =>
      have hv4 : Ipv4.ofText? a.text = none := by
        rw [Ipv4.ofText?_eq, Ipv6.text, String.toList_ofList, a.ipv4_read?_write]
        rfl
      exact ⟨hv4, a.ofText?_text⟩

namespace SocketAddress

theorem readScope_written (scope : UInt32) (rest : List Char) :
    readScope ((if scope = 0 then [] else '%' :: decimal scope.toNat) ++ ']' :: rest) =
      (scope, ']' :: rest) := by
  have hend : ∀ c ∈ (']' :: rest).head?, c.isDigit = false := by
    rintro c ⟨⟩
    rfl
  split_ifs with hscope
  · rw [hscope]
    rfl
  · rw [List.cons_append, readScope, readNumber?_decimal scope.toNat_lt hend]
    dsimp only
    rw [UInt32.ofNat_toNat]

theorem readV6?_write (ip : Ipv6) (scope : UInt32) (port : UInt16) :
    readV6? (write (v6 ip scope port)) = some (v6 ip scope port, []) := by
  have hclose : ∀ t, Ends ((if scope = 0 then [] else '%' :: decimal scope.toNat) ++ ']' :: t) ∧
      ((if scope = 0 then [] else '%' :: decimal scope.toNat) ++ ']' :: t).head? ≠ some ':' := by
    intro t
    split_ifs
    · exact ⟨⟨bare_cons rfl t, by simp⟩, by simp⟩
    · exact ⟨⟨bare_cons rfl _, by simp⟩, by simp⟩
  obtain ⟨hends, hcolon⟩ := hclose (':' :: decimal port.toNat)
  rw [write]
  simp only [List.cons_append, List.append_assoc]
  rw [readV6?, Ipv6.read?_write hends hcolon, Option.bind_eq_bind, Option.bind_some]
  dsimp only
  rw [readScope_written]
  change ((readPort? (':' :: decimal port.toNat)).bind fun x => some (v6 ip scope x.1, x.2)) = _
  rw [readPort?_decimal]
  rfl

/-- **Every socket address is read back from its text.** -/
theorem ofText?_text (a : SocketAddress) : ofText? a.text = some a := by
  rw [ofText?, text, String.toList_ofList]
  cases a with
  | v4 ip port =>
      have hjoined := ofChars?_joined (IpAddress.head?_ne (IpAddress.ofText?_text (.v4 ip))) port
      rw [IpAddress.text, ip.ofText?_text, Ipv4.text, String.toList_ofList] at hjoined
      rw [write, hjoined, Option.map_some]
  | v6 ip scope port =>
      have hv4 : readV4? (write (v6 ip scope port)) = none := readV4?_of_none (Ipv4.read?_bracket _)
      rw [ofChars?_eq, hv4, Option.none_or, readV6?_write]
      rfl

end SocketAddress

end ServiceDiscovery
