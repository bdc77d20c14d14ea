import ServiceDiscovery.Proofs.Digits
import ServiceDiscovery.Setting.Inline
/-!
# Which texts may stand between quotes

A quoted text is gone through twice. First it is cut where it ends, and there a backslash hides the
character behind it, whatever that is. Then what was cut is read for what its escapes mean. The two
have to agree on which quote is the last one, although an escape may be longer than the one
character that is hidden: the others are hexadecimal digits, so no quote and no backslash is among
them.
-/

namespace ServiceDiscovery

namespace Setting

open Text (baseValue isHexDigit isUnescaped readEscape? readHex? span_append)

/-! ### The grammar -/

/-- What may stand behind a backslash. -/
inductive Escape : List Char → Prop
  | sign {c : Char} : c ∈ ['"', '\\', 'b', 'f', 'n', 'r', 't'] → Escape [c]
  | code {mark : Char} {digits : List Char} : (mark, digits.length) ∈ [('u', 4), ('U', 8)] →
      (∀ c ∈ digits, isHexDigit c = true) → (baseValue 16 digits).isValidChar →
      Escape (mark :: digits)

/-- What may stand between quotes. -/
inductive Body : List Char → Prop
  | nil : Body []
  | plain {c : Char} {t : List Char} :
      isUnescaped c = true → c ≠ '"' → c ≠ '\\' → Body t → Body (c :: t)
  | escape {e t : List Char} : Escape e → Body t → Body ('\\' :: (e ++ t))

/-- A text in quotes. -/
inductive Quotation : List Char → Prop
  | mk {body : List Char} : Body body → Quotation ('"' :: (body ++ ['"']))

theorem body_cons {c : Char} {t : List Char} (hc : c ≠ '\\') :
    Body (c :: t) ↔ (isUnescaped c = true ∧ c ≠ '"') ∧ Body t := by
  constructor
  · intro h
    cases h with
    | plain hplain hquote _ ht => exact ⟨⟨hplain, hquote⟩, ht⟩
    | escape => exact absurd rfl hc
  · rintro ⟨⟨hplain, hquote⟩, ht⟩
    exact .plain hplain hquote hc ht

theorem body_append {plain t : List Char} (hplain : ∀ c ∈ plain, c ≠ '\\') :
    Body (plain ++ t) ↔ (∀ c ∈ plain, isUnescaped c = true ∧ c ≠ '"') ∧ Body t := by
  induction plain with
  | nil => simp
  | cons c plain ih =>
      obtain ⟨hc, hplain⟩ := List.forall_mem_cons.mp hplain
      rw [List.cons_append, body_cons hc, ih hplain, List.forall_mem_cons, ← and_assoc]

/-! ### Escapes -/

theorem readHex?_append {digits : List Char} (hdigits : ∀ c ∈ digits, isHexDigit c = true)
    (hvalid : (baseValue 16 digits).isValidChar) (rest : List Char) :
    readHex? digits.length (digits ++ rest) = some (Char.ofNat (baseValue 16 digits), rest) := by
  rw [readHex?, List.take_left, List.drop_left, if_pos ⟨rfl, List.all_eq_true.mpr hdigits, hvalid⟩]

theorem exists_of_readHex? {count : Nat} {t rest : List Char} {c : Char}
    (h : readHex? count t = some (c, rest)) :
    ∃ digits, t = digits ++ rest ∧ digits.length = count ∧
      (∀ c ∈ digits, isHexDigit c = true) ∧ (baseValue 16 digits).isValidChar := by
  rw [readHex?] at h
  split_ifs at h with hdigits
  obtain ⟨hlength, hdigits, hvalid⟩ := hdigits
  cases h
  exact ⟨_, (List.take_append_drop count t).symm, hlength, List.all_eq_true.mp hdigits, hvalid⟩

theorem Escape.exists_readEscape? {e : List Char} (h : Escape e) (rest : List Char) :
    ∃ c, readEscape? (e ++ rest) = some (c, rest) := by
  cases h with
  | sign hc =>
      simp only [List.mem_cons, List.not_mem_nil, or_false] at hc
      rcases hc with rfl | rfl | rfl | rfl | rfl | rfl | rfl <;> exact ⟨_, rfl⟩
  | code hmark hdigits hvalid =>
      have hread := readHex?_append hdigits hvalid rest
      simp only [List.mem_cons, List.not_mem_nil, or_false, Prod.mk.injEq] at hmark
      rcases hmark with ⟨rfl, hlength⟩ | ⟨rfl, hlength⟩
      all_goals
        rw [hlength] at hread
        exact ⟨_, hread⟩

theorem exists_of_readEscape? {t rest : List Char} {c : Char} (h : readEscape? t = some (c, rest)) :
    ∃ e, Escape e ∧ t = e ++ rest := by
  cases t with
  | nil => cases h
  | cons d t =>
      have hsign : d ∈ ['"', '\\', 'b', 'f', 'n', 'r', 't'] → t = rest →
          ∃ e, Escape e ∧ d :: t = e ++ rest := by
        rintro hd rfl
        exact ⟨[d], .sign hd, rfl⟩
      have hcode : ∀ count, (d, count) ∈ [('u', 4), ('U', 8)] → readHex? count t = some (c, rest) →
          ∃ e, Escape e ∧ d :: t = e ++ rest := by
        intro count hd hread
        obtain ⟨digits, rfl, rfl, hdigits, hvalid⟩ := exists_of_readHex? hread
        exact ⟨d :: digits, .code hd hdigits hvalid, rfl⟩
      rw [readEscape?] at h
      split_ifs at h with hquote hb hf hn hr ht hu hU
      · exact hsign (by rcases hquote with rfl | rfl <;> decide) (Prod.mk.inj (Option.some.inj h)).2
      · exact hsign (by rw [hb]; decide) (Prod.mk.inj (Option.some.inj h)).2
      · exact hsign (by rw [hf]; decide) (Prod.mk.inj (Option.some.inj h)).2
      · exact hsign (by rw [hn]; decide) (Prod.mk.inj (Option.some.inj h)).2
      · exact hsign (by rw [hr]; decide) (Prod.mk.inj (Option.some.inj h)).2
      · exact hsign (by rw [ht]; decide) (Prod.mk.inj (Option.some.inj h)).2
      · exact hcode 4 (by rw [hu]; decide) h
      · exact hcode 8 (by rw [hU]; decide) h

/-! ### Where a quoted text ends -/

/-- Whether every quote is hidden behind a backslash, and no backslash hides what follows. -/
inductive Sealed : List Char → Prop
  | nil : Sealed []
  | hidden (c : Char) {t : List Char} : Sealed t → Sealed ('\\' :: c :: t)
  | plain {c : Char} {t : List Char} : c ≠ '"' → c ≠ '\\' → Sealed t → Sealed (c :: t)

theorem sealed_hidden {c : Char} {t : List Char} : Sealed ('\\' :: c :: t) ↔ Sealed t := by
  refine ⟨fun h => ?_, .hidden c⟩
  cases h with
  | hidden _ ht => exact ht
  | plain _ hbackslash => exact absurd rfl hbackslash

theorem sealed_cons {c : Char} {t : List Char} (hc : c ≠ '\\') :
    Sealed (c :: t) ↔ c ≠ '"' ∧ Sealed t := by
  refine ⟨fun h => ?_, fun ⟨hquote, ht⟩ => .plain hquote hc ht⟩
  cases h with
  | hidden => exact absurd rfl hc
  | plain hquote _ ht => exact ⟨hquote, ht⟩

theorem sealed_append {plain t : List Char} (hplain : ∀ c ∈ plain, c ≠ '\\') :
    Sealed (plain ++ t) ↔ (∀ c ∈ plain, c ≠ '"') ∧ Sealed t := by
  induction plain with
  | nil => simp
  | cons c plain ih =>
      obtain ⟨hc, hplain⟩ := List.forall_mem_cons.mp hplain
      rw [List.cons_append, sealed_cons hc, ih hplain, List.forall_mem_cons, ← and_assoc]

theorem Escape.sealed_iff {e t : List Char} (h : Escape e) :
    Sealed ('\\' :: (e ++ t)) ↔ Sealed t := by
  cases h with
  | sign => exact sealed_hidden
  | code _ hdigits _ =>
      have hne : ∀ c, isHexDigit c = true → c ≠ '\\' ∧ c ≠ '"' := by
        rintro c hc
        constructor <;> (rintro rfl; exact absurd hc (by decide))
      rw [List.cons_append, sealed_hidden, sealed_append fun c hc => (hne c (hdigits c hc)).1]
      exact and_iff_right fun c hc => (hne c (hdigits c hc)).2

theorem Body.sealed {t : List Char} (h : Body t) : Sealed t := by
  induction h with
  | nil => exact .nil
  | plain _ hquote hbackslash _ ih => exact .plain hquote hbackslash ih
  | escape he _ ih => exact he.sealed_iff.mpr ih

theorem Sealed.cutQuote?_append {t : List Char} (h : Sealed t) (seen rest : List Char) :
    cutQuote? seen (t ++ '"' :: rest) = some (seen.reverse ++ t, rest) := by
  induction h generalizing seen with
  | nil => rw [List.nil_append, cutQuote?, List.append_nil]
  | hidden c _ ih =>
      rw [List.cons_append, List.cons_append, cutQuote?, ih]
      simp
  | plain hquote hbackslash _ ih =>
      rw [List.cons_append, cutQuote?, ih]
      · simp
      · exact hquote
      · intro c u hc
        exact absurd hc hbackslash

theorem exists_of_cutQuote? {seen t inner rest : List Char}
    (h : cutQuote? seen t = some (inner, rest)) :
    ∃ u, Sealed u ∧ inner = seen.reverse ++ u ∧ t = u ++ '"' :: rest := by
  fun_induction cutQuote? seen t with
  | case1 => cases h
  | case2 seen t =>
      cases h
      exact ⟨[], .nil, by simp, rfl⟩
  | case3 seen c t ih =>
      obtain ⟨u, hu, rfl, rfl⟩ := ih h
      exact ⟨'\\' :: c :: u, .hidden c hu, by simp, rfl⟩
  | case4 seen c t hquote hbackslash ih =>
      obtain ⟨u, hu, rfl, rfl⟩ := ih h
      refine ⟨c :: u, .plain hquote ?_ hu, by simp, rfl⟩
      rintro rfl
      cases u with
      | nil => exact hbackslash _ _ rfl rfl
      | cons d u => exact hbackslash _ _ rfl rfl

/-! ### What stands between the quotes -/

/-- Nothing that is written gets longer. -/
theorem Body.exists_unescapeAfter? {t : List Char} (h : Body t) (room seen : List Char)
    (hroom : t.length ≤ room.length) :
    ∃ cs, unescapeAfter? room seen t = some cs ∧ cs.length ≤ seen.length + t.length := by
  induction h generalizing room seen with
  | nil => exact ⟨seen.reverse, by rw [unescapeAfter?], by simp⟩
  | @plain c t hplain _ hbackslash _ ih =>
      obtain _ | ⟨d, room⟩ := room
      · cases hroom
      obtain ⟨cs, hread, hle⟩ := ih room (c :: seen) (Nat.le_of_succ_le_succ hroom)
      refine ⟨cs, ?_, ?_⟩
      · rw [unescapeAfter?, if_neg hbackslash, if_pos hplain, hread]
      · simp only [List.length_cons] at hle ⊢
        omega
  | @escape e t he _ ih =>
      obtain _ | ⟨d, room⟩ := room
      · cases hroom
      obtain ⟨c, hescape⟩ := he.exists_readEscape? t
      simp only [List.length_cons, List.length_append] at hroom
      obtain ⟨cs, hread, hle⟩ := ih room (c :: seen) (by omega)
      refine ⟨cs, ?_, ?_⟩
      · rw [unescapeAfter?, if_pos rfl, hescape]
        exact hread
      · simp only [List.length_cons, List.length_append] at hle ⊢
        omega

theorem body_of_unescapeAfter? {room seen t cs : List Char} (hsealed : Sealed t)
    (h : unescapeAfter? room seen t = some cs) : Body t := by
  induction room generalizing seen t with
  | nil =>
      cases t with
      | nil => exact .nil
      | cons c t => cases h
  | cons d room ih =>
      cases t with
      | nil => exact .nil
      | cons c t =>
          rw [unescapeAfter?] at h
          split_ifs at h with hbackslash hplain
          · subst hbackslash
            split at h
            · next _ rest hescape =>
              obtain ⟨e, he, rfl⟩ := exists_of_readEscape? hescape
              exact .escape he (ih (he.sealed_iff.mp hsealed) h)
            · cases h
          · obtain ⟨hquote, hsealed⟩ := (sealed_cons hbackslash).mp hsealed
            exact .plain hplain hquote hbackslash (ih hsealed h)

theorem length_takeBytes_le (count : Nat) (t : List Char) :
    (takeBytes count t).length ≤ t.length := by
  induction t generalizing count with
  | nil => exact Nat.le_refl 0
  | cons c t ih =>
      rw [takeBytes]
      split_ifs
      · exact Nat.succ_le_succ (ih _)
      · exact Nat.zero_le _

/-- A text before its first backslash and from there on. -/
theorem exists_backslash (t : List Char) : ∃ plain escaped, t = plain ++ escaped ∧
    (∀ c ∈ plain, c ≠ '\\') ∧ (escaped = [] ∨ escaped.head? = some '\\') := by
  refine ⟨_, _, (List.takeWhile_append_dropWhile (p := (· ≠ '\\'))).symm, fun c hc => ?_, ?_⟩
  · simpa using List.all_eq_true.mp List.all_takeWhile c hc
  · have hhead := List.head?_dropWhile_not (· ≠ '\\') t
    cases hrest : t.dropWhile (· ≠ '\\') with
    | nil => exact .inl rfl
    | cons c rest =>
        rw [hrest] at hhead
        exact .inr (by simpa using hhead)

theorem unescape?_plain {t : List Char} (hplain : ∀ c ∈ t, c ≠ '\\') :
    unescape? t = unescapeAfter? t [] t := by
  have hspan : t.span (· ≠ '\\') = (t, []) := by
    have happend := @span_append (· ≠ '\\') t [] (fun c hc => decide_eq_true (hplain c hc)) nofun
    rwa [List.append_nil] at happend
  rw [unescape?, hspan]

/-- The text before the first escape is looked at apart. -/
theorem unescape?_append {plain escaped : List Char} (hplain : ∀ c ∈ plain, c ≠ '\\')
    (hescaped : escaped.head? = some '\\') :
    unescape? (plain ++ escaped) =
      if plain.all isUnescaped then
        unescapeAfter? escaped (takeBytes plain.length plain).reverse escaped
      else none := by
  have hspan : (plain ++ escaped).span (· ≠ '\\') = (plain, escaped) := by
    refine span_append (fun c hc => decide_eq_true (hplain c hc)) ?_
    rw [hescaped]
    rintro c ⟨⟩
    rfl
  rw [unescape?, hspan]
  cases escaped with
  | nil => cases hescaped
  | cons c escaped => rfl

theorem Body.exists_unescape? {t : List Char} (h : Body t) :
    ∃ cs, unescape? t = some cs ∧ cs.length ≤ t.length := by
  obtain ⟨plain, escaped, rfl, hplain, rfl | hescaped⟩ := exists_backslash t
  · rw [List.append_nil] at h ⊢
    obtain ⟨cs, hread, hle⟩ := h.exists_unescapeAfter? plain [] (Nat.le_refl _)
    exact ⟨cs, (unescape?_plain hplain).trans hread, by simpa using hle⟩
  · obtain ⟨hunescaped, hbody⟩ := (body_append hplain).mp h
    obtain ⟨cs, hread, hle⟩ := hbody.exists_unescapeAfter? escaped
      (takeBytes plain.length plain).reverse (Nat.le_refl _)
    refine ⟨cs, ?_, ?_⟩
    · rw [unescape?_append hplain hescaped,
        if_pos (List.all_eq_true.mpr fun c hc => (hunescaped c hc).1), hread]
    · rw [List.length_reverse] at hle
      rw [List.length_append]
      exact Nat.le_trans hle (Nat.add_le_add_right (length_takeBytes_le _ _) _)

theorem body_of_unescape? {t cs : List Char} (hsealed : Sealed t) (h : unescape? t = some cs) :
    Body t := by
  obtain ⟨plain, escaped, rfl, hplain, rfl | hescaped⟩ := exists_backslash t
  · rw [List.append_nil] at h hsealed ⊢
    rw [unescape?_plain hplain] at h
    exact body_of_unescapeAfter? hsealed h
  · obtain ⟨hquotes, hsealed⟩ := (sealed_append hplain).mp hsealed
    rw [unescape?_append hplain hescaped] at h
    split_ifs at h with hunescaped
    refine (body_append hplain).mpr
      ⟨fun c hc => ⟨?_, hquotes c hc⟩, body_of_unescapeAfter? hsealed h⟩
    exact List.all_eq_true.mp hunescaped c hc

/-! ### Reading -/

theorem Body.exists_readQuoted? {body : List Char} (h : Body body) (rest : List Char) :
    ∃ s, readQuoted? (body ++ '"' :: rest) = some (s, rest) ∧ s.toList.length ≤ body.length := by
  obtain ⟨cs, hread, hle⟩ := h.exists_unescape?
  refine ⟨String.ofList cs, ?_, ?_⟩
  · rw [readQuoted?, h.sealed.cutQuote?_append]
    simp [hread]
  · rwa [String.toList_ofList]

theorem exists_of_readQuoted? {t rest : List Char} {s : String}
    (h : readQuoted? t = some (s, rest)) : ∃ body, Body body ∧ t = body ++ '"' :: rest := by
  rw [readQuoted?] at h
  obtain ⟨⟨inner, rest'⟩, hcut, h⟩ := Option.bind_eq_some_iff.mp h
  obtain ⟨cs, hread, h⟩ := Option.bind_eq_some_iff.mp h
  cases h
  obtain ⟨body, hsealed, rfl, rfl⟩ := exists_of_cutQuote? hcut
  exact ⟨_, body_of_unescape? hsealed hread, rfl⟩

end Setting

end ServiceDiscovery
