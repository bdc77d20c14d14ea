import Mathlib.Data.List.TakeWhile
import ServiceDiscovery.Proofs.HostPort
import ServiceDiscovery.Proofs.Net.Joined
/-!
# The port at the end of an address

What a reader leaves over is an end of the text that it had. A socket address leaves nothing behind its
port, so the port is what stands behind the last colon of the text, whatever was put in front of it:
an address, half of one, or something else altogether.
-/

namespace ServiceDiscovery

open Text (decimal)

/-- What the reader leaves over of a text is an end of it. -/
def LeavesEnd {α : Type} (read : List Char → Option (α × List Char)) : Prop :=
  ∀ t a u, read t = some (a, u) → u <:+ t

section LeavesEnd

variable {α β : Type} {read : List Char → Option (α × List Char)}

/-- Two readers in a row leave an end of the text. -/
theorem LeavesEnd.bind {next : α × List Char → Option (β × List Char)} (hread : LeavesEnd read)
    (hnext : ∀ a, LeavesEnd fun u => next (a, u)) : LeavesEnd fun t => read t >>= next := by
  intro t b v h
  obtain ⟨⟨a, u⟩, hfirst, hthen⟩ := Option.bind_eq_some_iff.mp h
  exact (hnext a u b v hthen).trans (hread t a u hfirst)

theorem leavesEnd_pure (a : α) : LeavesEnd fun t => some (a, t) := by
  intro t b u h
  obtain ⟨-, rfl⟩ := Prod.mk.inj (Option.some.inj h)
  exact List.suffix_rfl

theorem span_suffix (p : Char → Bool) (t : List Char) : (t.span p).2 <:+ t := by
  rw [List.span_eq_takeWhile_dropWhile]
  exact List.dropWhile_suffix p

end LeavesEnd

namespace Ipv4

theorem readOctet?_leavesEnd : LeavesEnd readOctet? := by
  intro t a u h
  rw [readOctet?] at h
  dsimp only at h
  split_ifs at h
  obtain ⟨-, rfl⟩ := Prod.mk.inj (Option.some.inj h)
  exact span_suffix _ t

theorem readNextOctet?_leavesEnd : LeavesEnd readNextOctet? := by
  intro t a u h
  unfold readNextOctet? at h
  split at h
  · exact (readOctet?_leavesEnd _ a u h).trans (List.suffix_cons _ _)
  · cases h

theorem read?_leavesEnd : LeavesEnd read? := by
  unfold read?
  refine readOctet?_leavesEnd.bind fun a => ?_
  refine readNextOctet?_leavesEnd.bind fun b => ?_
  refine readNextOctet?_leavesEnd.bind fun c => ?_
  exact readNextOctet?_leavesEnd.bind fun d => leavesEnd_pure (Ipv4.mk a b c d)

end Ipv4

namespace Ipv6

theorem readGroup?_leavesEnd : LeavesEnd readGroup? := by
  intro t a u h
  rw [readGroup?] at h
  dsimp only at h
  split_ifs at h
  obtain ⟨-, rfl⟩ := Prod.mk.inj (Option.some.inj h)
  exact span_suffix _ t

theorem readPart?_leavesEnd {α : Type} {part : List Char → Option (α × List Char)}
    (hpart : LeavesEnd part) (first : Bool) : LeavesEnd (readPart? first part) := by
  intro t a u h
  unfold readPart? at h
  split_ifs at h
  · exact hpart t a u h
  · split at h
    · exact (hpart _ a u h).trans (List.suffix_cons _ _)
    · cases h

theorem readSeries_suffix (limit : Nat) (first : Bool) (t : List Char) :
    (readSeries limit first t).2 <:+ t := by
  induction limit generalizing first t with
  | zero => exact List.suffix_rfl
  | succ limit ih =>
      rw [readSeries]
      split
      · next a u h =>
        split_ifs at h
        exact readPart?_leavesEnd Ipv4.read?_leavesEnd first t a u h
      · split
        · exact List.suffix_rfl
        · next g u h =>
          exact (ih false u).trans (readPart?_leavesEnd readGroup?_leavesEnd first t g u h)

theorem read?_leavesEnd : LeavesEnd read? := by
  intro t a u h
  have hseries := readSeries_suffix 8 true t
  unfold read? at h
  split at h
  · next groups rest hread =>
    rw [hread] at hseries
    dsimp only at h
    split_ifs at h
    · obtain ⟨b, -, hb⟩ := Option.map_eq_some_iff.mp h
      obtain ⟨-, rfl⟩ := Prod.mk.inj hb
      have hbehind : rest <:+ t :=
        ((List.suffix_cons ':' rest).trans (List.suffix_cons ':' _)).trans hseries
      exact (readSeries_suffix _ true rest).trans hbehind
    · obtain ⟨b, -, hb⟩ := Option.map_eq_some_iff.mp h
      obtain ⟨-, rfl⟩ := Prod.mk.inj hb
      exact hseries
  · next series rest hread =>
    rw [hread] at hseries
    obtain ⟨b, -, hb⟩ := Option.map_eq_some_iff.mp h
    obtain ⟨-, rfl⟩ := Prod.mk.inj hb
    exact hseries

end Ipv6

namespace SocketAddress

theorem readNumber?_leavesEnd (bound : Nat) : LeavesEnd (readNumber? bound) := by
  intro t n u h
  rw [readNumber?] at h
  dsimp only at h
  split_ifs at h
  obtain ⟨m, -, hm⟩ := Option.map_eq_some_iff.mp h
  obtain ⟨-, rfl⟩ := Prod.mk.inj hm
  exact span_suffix _ t

theorem readScope_suffix (t : List Char) : (readScope t).2 <:+ t := by
  unfold readScope
  split
  · next rest =>
    split
    · next n later hread =>
      exact (readNumber?_leavesEnd _ rest n later hread).trans (List.suffix_cons '%' rest)
    · exact List.suffix_rfl
  · exact List.suffix_rfl

/-- An end of the text that was read as a port with nothing behind it. -/
def EndsInPort (t : List Char) (p : UInt16) : Prop := ∃ u, u <:+ t ∧ readPort? u = some (p, [])

theorem endsInPort_of_readV4? {t : List Char} {a : SocketAddress} (h : readV4? t = some (a, [])) :
    EndsInPort t a.port := by
  unfold readV4? at h
  obtain ⟨⟨ip, u⟩, hip, h⟩ := Option.bind_eq_some_iff.mp h
  obtain ⟨⟨p, v⟩, hport, h⟩ := Option.bind_eq_some_iff.mp h
  obtain ⟨rfl, rfl⟩ := Prod.mk.inj (Option.some.inj h)
  exact ⟨u, Ipv4.read?_leavesEnd t ip u hip, hport⟩

theorem endsInPort_of_readV6? {t : List Char} {a : SocketAddress} (h : readV6? t = some (a, [])) :
    EndsInPort t a.port := by
  unfold readV6? at h
  split at h
  · next t =>
    obtain ⟨⟨ip, u⟩, hip, h⟩ := Option.bind_eq_some_iff.mp h
    have hscope := readScope_suffix u
    dsimp only at h
    split at h
    · next scope v hclose =>
      rw [hclose] at hscope
      obtain ⟨⟨p, w⟩, hport, h⟩ := Option.bind_eq_some_iff.mp h
      obtain ⟨rfl, rfl⟩ := Prod.mk.inj (Option.some.inj h)
      have hbehind : u <:+ '[' :: t := (Ipv6.read?_leavesEnd t ip u hip).trans (List.suffix_cons _ _)
      exact ⟨v, ((List.suffix_cons ']' v).trans hscope).trans hbehind, hport⟩
    · cases h
  · cases h

theorem endsInPort_of_ofChars? {t : List Char} {a : SocketAddress} (h : ofChars? t = some a) :
    EndsInPort t a.port := by
  rw [ofChars?_eq] at h
  have hread : (readV4? t).or (readV6? t) = some (a, []) := by
    generalize (readV4? t).or (readV6? t) = read at h
    rcases read with _ | ⟨b, _ | ⟨c, v⟩⟩
    · cases h
    · exact congrArg (fun b => some (b, [])) (Option.some.inj h)
    · cases h
  rcases Option.or_eq_some_iff.mp hread with hv4 | ⟨-, hv6⟩
  · exact endsInPort_of_readV4? hv4
  · exact endsInPort_of_readV6? hv6

theorem exists_of_readPort? {u : List Char} {p : UInt16} (h : readPort? u = some (p, [])) :
    ∃ digits, u = ':' :: digits ∧ ∀ c ∈ digits, c.isDigit = true := by
  unfold readPort? at h
  split at h
  · next digits =>
    obtain ⟨⟨n, v⟩, hnumber, hp⟩ := Option.map_eq_some_iff.mp h
    obtain ⟨-, rfl⟩ := Prod.mk.inj hp
    rw [readNumber?] at hnumber
    dsimp only at hnumber
    split_ifs at hnumber
    obtain ⟨m, -, hm⟩ := Option.map_eq_some_iff.mp hnumber
    have hleft : digits.dropWhile Char.isDigit = [] := by
      simpa [Text.leadingDigits, List.span_eq_takeWhile_dropWhile] using (Prod.mk.inj hm).2
    exact ⟨digits, rfl, List.dropWhile_eq_nil_iff.mp hleft⟩
  · cases h

/-- **A port that is put behind a text stays the port**, whatever the text is. -/
theorem port_of_joined {t : List Char} {p : UInt16} {a : SocketAddress}
    (h : ofChars? (t ++ ':' :: decimal p.toNat) = some a) : a.port = p := by
  obtain ⟨u, ⟨front, hfront⟩, hport⟩ := endsInPort_of_ofChars? h
  obtain ⟨digits, rfl, hdigits⟩ := exists_of_readPort? hport
  -- The text is cut at its last colon in two ways, so they are the same.
  have hcut := cutLast_append front (HostPort.colon_not_mem hdigits)
  rw [hfront, cutLast_append t (HostPort.colon_not_mem fun _ hc => Text.isDigit_of_mem_decimal hc)]
    at hcut
  obtain ⟨-, rfl⟩ := Prod.mk.inj (Option.some.inj hcut)
  rw [readPort?_decimal] at hport
  exact (congrArg Prod.fst (Option.some.inj hport)).symm

end SocketAddress

end ServiceDiscovery
