import ServiceDiscovery.Proofs.Json.Size
/-!
# What is read was written

The strings of a value that was read take no more room, when they are written again, than the text
they were read from: a character is written in the shortest way there is. So a value is given a
weight, the room that its strings need and one byte for every element of a list, and every reader is
shown to give less than it takes. Readers that give nothing take at least nothing, and that has to be
said of every one of them, those that skip included.
-/

namespace ServiceDiscovery

namespace Json

/-! ### Words -/

theorem byteCount_skipSpace_le (t : Input) : byteCount (skipSpace t) ≤ byteCount t :=
  byteCount_le_of_suffix (List.dropWhile_suffix _)

theorem lt_of_skipSpace_eq {t rest : Input} {c : Char} (h : skipSpace t = c :: rest) :
    byteCount rest < byteCount t := by
  have hle := byteCount_skipSpace_le t
  have hpos := c.utf8Size_pos
  rw [h, byteCount_cons] at hle
  omega

theorem readWord_le {word : List Char} {t rest : Input} (h : readWord word t = .ok rest) :
    byteCount rest ≤ byteCount t := by
  induction word generalizing t with
  | nil =>
      cases h
      exact Nat.le_refl _
  | cons c word ih =>
      cases t with
      | nil => cases h
      | cons d t =>
          rw [readWord] at h
          split_ifs at h
          have hle := ih h
          rw [byteCount_cons]
          omega

theorem readCodeUnit_le {t rest : Input} {n : Nat} (h : readCodeUnit t = .ok (n, rest)) :
    byteCount rest + 4 ≤ byteCount t := by
  unfold readCodeUnit at h
  split at h
  · next a b c d t =>
      split at h
      · cases h
        have ha := a.utf8Size_pos
        have hb := b.utf8Size_pos
        have hc := c.utf8Size_pos
        have hd := d.utf8Size_pos
        simp only [byteCount_cons]
        omega
      · cases h
  · cases h

theorem readLowSurrogate_le {high : Nat} {t rest : Input} {c : Char}
    (h : readLowSurrogate high t = .ok (c, rest)) : byteCount rest ≤ byteCount t := by
  unfold readLowSurrogate at h
  split at h
  · split at h
    · cases h
    · next hunit =>
        split_ifs at h
        obtain ⟨-, rfl⟩ := Prod.mk.inj (Except.ok.inj h)
        have hle := readCodeUnit_le hunit
        simp only [byteCount_cons]
        omega
  all_goals cases h

theorem readUnicode_le {t rest : Input} {c : Char} (h : readUnicode t = .ok (c, rest)) :
    byteCount rest + 4 ≤ byteCount t := by
  unfold readUnicode at h
  split at h
  · cases h
  · next hunit =>
      have hle := readCodeUnit_le hunit
      split_ifs at h
      · have hlow := readLowSurrogate_le h
        omega
      · cases h
        exact hle

/-- An escape is no shorter than the character that it stands for is written. -/
theorem readEscape_le {t rest : Input} {c : Char} (h : readEscape t = .ok (c, rest)) :
    byteCount (escapeChar c) + byteCount rest ≤ byteCount t + 1 := by
  unfold readEscape at h
  split at h
  · cases h
  · next d t =>
      have hd := d.utf8Size_pos
      split at h
      · next e hshort =>
          cases h
          have hsize : byteCount (escapeChar c) ≤ 2 := by
            unfold shortEscape? at hshort
            split_ifs at hshort with hsame
            · cases hshort
              rcases hsame with rfl | rfl | rfl <;> decide
            all_goals
              cases hshort
              decide
          rw [byteCount_cons]
          omega
      · split_ifs at h
        have hle := readUnicode_le h
        have hsize := byteCount_escapeChar_le c
        rw [byteCount_cons]
        omega

theorem readChars_le {seen cs : List Char} {t rest : Input}
    (h : readChars seen t = .ok (cs, rest)) :
    escapedSize cs + byteCount rest < escapedSize seen + byteCount t := by
  induction seen, t using readChars.induct with
  | case1 seen =>
      rw [readChars] at h
      cases h
  | case2 seen t =>
      rw [readChars, if_pos rfl] at h
      cases h
      rw [escapedSize_reverse, byteCount_cons]
      have hquote : ('"' : Char).utf8Size = 1 := rfl
      omega
  | case3 seen t e hfailed hquote =>
      rw [readChars, if_neg hquote, if_pos rfl] at h
      split at h
      · cases h
      · next hread =>
          rw [hfailed] at hread
          cases hread
  | case4 seen t d t' hread hquote ih =>
      rw [readChars_escape seen hread] at h
      have hle := readEscape_le hread
      have hrest := ih h
      rw [escapedSize_cons] at hrest
      have hbackslash : ('\\' : Char).utf8Size = 1 := rfl
      rw [byteCount_cons]
      omega
  | case5 seen c t hquote hbackslash hcontrol =>
      rw [readChars, if_neg hquote, if_neg hbackslash, if_pos hcontrol] at h
      cases h
  | case6 seen c t hquote hbackslash hcontrol ih =>
      rw [readChars_plain seen t hquote hbackslash hcontrol] at h
      have hrest := ih h
      rw [escapedSize_cons, escapeChar_of_plain hquote hbackslash hcontrol, byteCount_cons,
        byteCount_nil] at hrest
      rw [byteCount_cons]
      omega

theorem readString_le {t rest : Input} {s : String} (h : readString t = .ok (s, rest)) :
    writtenSize s + byteCount rest < byteCount t := by
  obtain ⟨⟨cs, t'⟩, hchars, hs⟩ := exists_of_bind h
  cases hs
  have hle := readChars_le hchars
  rw [escapedSize_nil, Nat.zero_add] at hle
  rw [writtenSize_ofList]
  exact hle

/-! ### Numbers -/

theorem leadingDigits_le (t : Input) :
    byteCount (Text.leadingDigits t).2 ≤ byteCount t ∧
      ((Text.leadingDigits t).1 ≠ [] → byteCount (Text.leadingDigits t).2 < byteCount t) := by
  have hparts : (Text.leadingDigits t).1 ++ (Text.leadingDigits t).2 = t := by
    rw [Text.leadingDigits, List.span_eq_takeWhile_dropWhile]
    exact List.takeWhile_append_dropWhile
  have hsize := congrArg byteCount hparts
  rw [byteCount_append] at hsize
  refine ⟨by omega, fun hdigits => ?_⟩
  have hlength := length_le_byteCount (Text.leadingDigits t).1
  have hpos := List.length_pos_iff.mpr hdigits
  omega

theorem readFraction_le {t rest : Input} {digits : List Char}
    (h : readFraction t = .ok (digits, rest)) : byteCount rest ≤ byteCount t := by
  unfold readFraction at h
  split at h
  · next t =>
      have hle := (leadingDigits_le t).1
      simp only at h
      split_ifs at h
      cases h
      rw [byteCount_cons]
      omega
  · cases h
    exact Nat.le_refl _

theorem readExponentDigits_le {t rest : Input} {e : Bool × List Char}
    (h : readExponentDigits t = .ok (e, rest)) : byteCount rest ≤ byteCount t := by
  unfold readExponentDigits at h
  split at h
  next isNegative t' hsign =>
    have hle := (leadingDigits_le t').1
    have ht' : byteCount t' ≤ byteCount t := by
      split at hsign <;> cases hsign
      · exact Nat.le_add_left _ _
      · exact Nat.le_add_left _ _
      · exact Nat.le_refl _
    simp only at h
    split_ifs at h
    cases h
    omega

theorem readExponent_le {t rest : Input} {e : Option (Bool × List Char)}
    (h : readExponent t = .ok (e, rest)) : byteCount rest ≤ byteCount t := by
  unfold readExponent at h
  split at h
  · next c t =>
      split_ifs at h
      · obtain ⟨⟨digits, t'⟩, hread, hrest⟩ := exists_of_map h
        cases hrest
        have hle := readExponentDigits_le hread
        rw [byteCount_cons]
        omega
      · cases h
        exact Nat.le_refl _
  · cases h
    exact Nat.le_refl _

theorem readNumeral_lt {t rest : Input} {n : Numeral} (h : readNumeral t = .ok (n, rest)) :
    byteCount rest < byteCount t := by
  have hdigits := leadingDigits_le t
  unfold readNumeral at h
  split at h
  · cases h
  · cases h
  · next whole t' hempty _ hleading =>
      rw [hleading] at hdigits
      obtain ⟨⟨fraction, t₁⟩, hfraction, h⟩ := exists_of_bind h
      obtain ⟨⟨exponent, t₂⟩, hexponent, h⟩ := exists_of_bind h
      cases h
      have hlt : byteCount t' < byteCount t := hdigits.2 hempty
      have hfractionLe := readFraction_le hfraction
      have hexponentLe := readExponent_le hexponent
      omega

theorem readNumber_lt {isNegative : Bool} {t rest : Input} {n : JsonNumber}
    (h : readNumber isNegative t = .ok (n, rest)) : byteCount rest < byteCount t := by
  obtain ⟨⟨numeral, t'⟩, hnumeral, h⟩ := exists_of_bind h
  obtain ⟨n', _, h⟩ := exists_of_bind h
  cases h
  exact readNumeral_lt hnumeral

/-! ### Lists and objects -/

def Next.rest : Next → Input
  | .element t => t
  | .closed t => t

theorem nextItem_le {first : Bool} {t : Input} {n : Next} (h : nextItem first t = .ok n) :
    byteCount n.rest ≤ byteCount t := by
  have hspace := byteCount_skipSpace_le t
  unfold nextItem at h
  split at h
  · cases h
  · next c u hu =>
      rw [hu, byteCount_cons] at hspace
      split_ifs at h
      · cases h
        exact Nat.le_trans (Nat.le_add_left _ _) hspace
      · cases h
        exact hspace
      · have hinner := byteCount_skipSpace_le u
        split at h
        · cases h
        · next d v hv =>
            rw [hv, byteCount_cons] at hinner
            split_ifs at h
            cases h
            rw [Next.rest, byteCount_cons]
            omega

theorem nextKey_le {first : Bool} {t : Input} {n : Next} (h : nextKey first t = .ok n) :
    byteCount n.rest ≤ byteCount t := by
  have hspace := byteCount_skipSpace_le t
  unfold nextKey at h
  split at h
  · cases h
  · next c u hu =>
      rw [hu, byteCount_cons] at hspace
      split_ifs at h
      · cases h
        exact Nat.le_trans (Nat.le_add_left _ _) hspace
      · cases h
        exact Nat.le_trans (Nat.le_add_left _ _) hspace
      · have hinner := byteCount_skipSpace_le u
        split at h
        · cases h
        · next d v hv =>
            rw [hv, byteCount_cons] at hinner
            split_ifs at h
            cases h
            rw [Next.rest]
            omega

theorem readColon_le {t rest : Input} (h : readColon t = .ok rest) :
    byteCount rest ≤ byteCount t := by
  unfold readColon at h
  split at h
  · cases h
  · next hspace =>
      split_ifs at h
      cases h
      exact Nat.le_of_lt (lt_of_skipSpace_eq hspace)

theorem closeList_le {t rest : Input} (h : closeList t = .ok rest) :
    byteCount rest ≤ byteCount t := by
  unfold closeList at h
  split at h
  · cases h
  · next hspace =>
      split_ifs at h
      cases h
      exact Nat.le_of_lt (lt_of_skipSpace_eq hspace)

/-- The reader takes more than what it reads weighs. -/
def Weighs {α : Type} (reader : Input → Except Error (α × Input)) (weight : α → Nat) : Prop :=
  ∀ {t : Input} {v : α} {rest : Input}, reader t = .ok (v, rest) →
    weight v + byteCount rest < byteCount t

theorem readItems_le {α : Type} {item : Input → Except Error (α × Input)} {weight : α → Nat}
    (hitem : Weighs item weight) {room : Input} {first : Bool} {t rest : Input} {vs : List α}
    (h : readItems item room first t = .ok (vs, rest)) :
    total weight vs + byteCount rest ≤ byteCount t := by
  induction room generalizing first t vs with
  | nil => cases h
  | cons c room ih =>
      obtain ⟨n, hnext, h⟩ := exists_of_bind h
      have hle := nextItem_le hnext
      cases n with
      | closed t' =>
          cases h
          rw [total_nil, Nat.zero_add]
          exact hle
      | element t' =>
          obtain ⟨⟨v, t₁⟩, hv, h⟩ := exists_of_bind h
          obtain ⟨⟨vs', t₂⟩, hvs, h⟩ := exists_of_bind h
          cases h
          have hfirst := hitem hv
          have hlater := ih hvs
          rw [Next.rest] at hle
          rw [total_cons]
          omega

/-- If what is gathered grows by no more than what each member takes, then it grows by no more than
what the whole object takes. -/
theorem readMembers_le {σ : Type} {member : σ → String → Input → Except Error (σ × Input)}
    {weight : σ → Nat}
    (hmember : ∀ {s key t s' rest}, member s key t = .ok (s', rest) →
      weight s' + byteCount rest ≤ weight s + byteCount t)
    {room : Input} {first : Bool} {s s' : σ} {t rest : Input}
    (h : readMembers member room first s t = .ok (s', rest)) :
    weight s' + byteCount rest ≤ weight s + byteCount t := by
  induction room generalizing first s t with
  | nil => cases h
  | cons c room ih =>
      obtain ⟨n, hnext, h⟩ := exists_of_bind h
      have hle := nextKey_le hnext
      cases n with
      | closed t' =>
          cases h
          exact Nat.add_le_add_left hle _
      | element t' =>
          obtain ⟨⟨key, t₁⟩, hkey, h⟩ := exists_of_bind h
          obtain ⟨⟨s₁, t₂⟩, hs, h⟩ := exists_of_bind h
          have hkeyLt := readString_le hkey
          have hmemberLe := hmember hs
          have hlater := ih h
          rw [Next.rest] at hle
          omega

/-! ### Values -/

mutual

/-- The room that the strings of a value need, with one byte for each element of a list. The keys of
an object do not count. -/
def weight : Json → Nat
  | null => 0
  | bool _ => 0
  | number _ => 0
  | string s => writtenSize s
  | array items => weightItems items
  | object members => weightMembers members

def weightItems : List Json → Nat
  | [] => 0
  | v :: rest => weight v + weightItems rest + 1

def weightMembers : List (String × Json) → Nat
  | [] => 0
  | (_, v) :: rest => weight v + weightMembers rest

end

theorem weightItems_eq (items : List Json) : weightItems items = total weight items := by
  induction items with
  | nil => rfl
  | cons v rest ih => rw [weightItems, ih, total_cons]

theorem weightMembers_insertMember_le (key : String) (value : Json)
    (members : List (String × Json)) :
    weightMembers (insertMember key value members) ≤ weight value + weightMembers members := by
  induction members with
  | nil => exact Nat.le_refl _
  | cons first rest ih =>
      rw [insertMember]
      split_ifs
      · exact Nat.le_refl _
      · simp only [weightMembers]
        omega
      · simp only [weightMembers]
        omega

theorem weight_le_weightMembers {members : List (String × Json)} {m : String × Json}
    (h : m ∈ members) : weight m.2 ≤ weightMembers members := by
  induction members with
  | nil => cases h
  | cons first members ih =>
      rw [weightMembers]
      rcases List.mem_cons.mp h with rfl | h
      · omega
      · have hle := ih h
        omega

theorem readScalar_weighs : Weighs readScalar weight := by
  intro t v rest h
  have hword {word : List Char} {u : Input} {w : Json} (hw : weight w = 0)
      (hread : (readWord word u).map (fun t => (w, t)) = .ok (v, rest)) :
      weight v + byteCount rest ≤ byteCount u := by
    obtain ⟨u', hread, hv⟩ := exists_of_map hread
    cases hv
    rw [hw, Nat.zero_add]
    exact readWord_le hread
  unfold readScalar at h
  split at h
  · cases h
  · next c t =>
      have hpos := c.utf8Size_pos
      split_ifs at h
      · have hle := hword rfl h
        rw [byteCount_cons]
        omega
      · have hle := hword rfl h
        rw [byteCount_cons]
        omega
      · have hle := hword rfl h
        rw [byteCount_cons]
        omega
      · obtain ⟨⟨n, t'⟩, hnumber, hv⟩ := exists_of_map h
        cases hv
        have hlt := readNumber_lt hnumber
        rw [weight, byteCount_cons]
        omega
      · obtain ⟨⟨n, t'⟩, hnumber, hv⟩ := exists_of_map h
        cases hv
        have hlt := readNumber_lt hnumber
        rw [weight]
        omega
      · obtain ⟨⟨s, t'⟩, hstring, hv⟩ := exists_of_map h
        cases hv
        have hlt := readString_le hstring
        rw [weight, byteCount_cons]
        omega

theorem readEntry_le {value : Input → Except Error (Json × Input)} (hvalue : Weighs value weight)
    {members members' : List (String × Json)} {key : String} {t rest : Input}
    (h : readEntry value members key t = .ok (members', rest)) :
    weightMembers members' + byteCount rest ≤ weightMembers members + byteCount t := by
  obtain ⟨t', hcolon, h⟩ := exists_of_bind h
  obtain ⟨⟨v, t''⟩, hv, h⟩ := exists_of_bind h
  cases h
  have hcolonLe := readColon_le hcolon
  have hvalueLt := hvalue hv
  have hinsert := weightMembers_insertMember_le key v members
  omega

theorem readValue_weighs (depth : Nat) : Weighs (readValue depth) weight := by
  induction depth with
  | zero =>
      intro t v rest h
      rw [readValue] at h
      split at h
      · cases h
      · cases h
      · have hlt := readScalar_weighs h
        have hspace := byteCount_skipSpace_le t
        omega
  | succ depth ih =>
      intro t v rest h
      rw [readValue] at h
      split at h
      · next hspace =>
          obtain ⟨⟨items, t'⟩, hitems, hv⟩ := exists_of_map h
          cases hv
          have hle := readItems_le ih hitems
          have hlt := lt_of_skipSpace_eq hspace
          rw [weight, weightItems_eq]
          omega
      · next hspace =>
          obtain ⟨⟨members, t'⟩, hmembers, hv⟩ := exists_of_map h
          cases hv
          have hle := readMembers_le (readEntry_le ih) hmembers
          have hlt := lt_of_skipSpace_eq hspace
          rw [weightMembers] at hle
          rw [weight]
          omega
      · have hlt := readScalar_weighs h
        have hspace := byteCount_skipSpace_le t
        omega

/-! ### Skipped values -/

theorem skipEscape_le {t rest : Input} (h : skipEscape t = .ok rest) :
    byteCount rest ≤ byteCount t := by
  unfold skipEscape at h
  split at h
  · cases h
  · split_ifs at h
    · cases h
      exact Nat.le_add_left _ _
    · split at h
      · cases h
      · next hunit =>
          cases h
          have hle := readCodeUnit_le hunit
          rw [byteCount_cons]
          omega

theorem skipString_le {t rest : Input} (h : skipString t = .ok rest) :
    byteCount rest ≤ byteCount t := by
  induction t using skipString.induct with
  | case1 =>
      rw [skipString] at h
      cases h
  | case2 t =>
      rw [skipString, if_pos rfl] at h
      cases h
      exact Nat.le_add_left _ _
  | case3 t e hfailed hquote =>
      rw [skipString, if_neg hquote, if_pos rfl] at h
      split at h
      · cases h
      · next hskip =>
          rw [hfailed] at hskip
          cases hskip
  | case4 t t' hskip hquote ih =>
      rw [skipString, if_neg hquote, if_pos rfl] at h
      split at h
      · cases h
      · next hskip' =>
          rw [hskip] at hskip'
          cases hskip'
          have hle := skipEscape_le hskip
          have hrest := ih h
          rw [byteCount_cons]
          omega
  | case5 c t hquote hbackslash hcontrol =>
      rw [skipString, if_neg hquote, if_neg hbackslash, if_pos hcontrol] at h
      cases h
  | case6 c t hquote hbackslash hcontrol ih =>
      rw [skipString, if_neg hquote, if_neg hbackslash, if_neg hcontrol] at h
      exact Nat.le_trans (ih h) (Nat.le_add_left _ _)

theorem skipNumber_le {t rest : Input} (h : skipNumber t = .ok rest) :
    byteCount rest ≤ byteCount t := by
  unfold skipNumber at h
  split at h
  · next hnumeral =>
      cases h
      exact Nat.le_of_lt (readNumeral_lt hnumeral)
  · cases h

theorem skipScalar_le {t rest : Input} (h : skipScalar t = .ok rest) :
    byteCount rest ≤ byteCount t := by
  unfold skipScalar at h
  split at h
  · cases h
  · next c t =>
      split_ifs at h
      · exact Nat.le_trans (skipNumber_le h) (Nat.le_add_left _ _)
      · exact skipNumber_le h
      · exact Nat.le_trans (skipString_le h) (Nat.le_add_left _ _)
      · obtain ⟨⟨v, t'⟩, hscalar, hrest⟩ := exists_of_map h
        cases hrest
        exact Nat.le_of_lt (Nat.lt_of_le_of_lt (Nat.le_add_left _ _) (readScalar_weighs hscalar))

theorem skipKey_le {t rest : Input} (h : skipKey t = .ok rest) :
    byteCount rest ≤ byteCount t := by
  unfold skipKey at h
  split at h
  · cases h
  · next hspace =>
      split_ifs at h
      obtain ⟨t', hstring, hcolon⟩ := exists_of_bind h
      have hlt := lt_of_skipSpace_eq hspace
      have hstringLe := skipString_le hstring
      have hcolonLe := readColon_le hcolon
      omega

theorem enterValue_le {opened : List Bracket} {t : Input} {s : Skipping}
    (h : enterValue opened t = .ok s) : byteCount s.rest ≤ byteCount t := by
  unfold enterValue at h
  split at h
  · next hspace =>
      cases h
      exact Nat.le_of_lt (lt_of_skipSpace_eq hspace)
  · next hspace =>
      cases h
      exact Nat.le_of_lt (lt_of_skipSpace_eq hspace)
  · obtain ⟨t', hscalar, hs⟩ := exists_of_map h
    cases hs
    exact Nat.le_trans (skipScalar_le hscalar) (byteCount_skipSpace_le t)

theorem Bracket.enterElement_le {b : Bracket} {outer : List Bracket} {t : Input} {s : Skipping}
    (h : b.enterElement outer t = .ok s) : byteCount s.rest ≤ byteCount t := by
  cases b with
  | list => exact enterValue_le h
  | object =>
      obtain ⟨t', hkey, h⟩ := exists_of_bind h
      exact Nat.le_trans (enterValue_le h) (skipKey_le hkey)

theorem Bracket.moveOn_le {b : Bracket} {outer : List Bracket} {first : Bool} {t : Input}
    {s : Skipping} (h : b.moveOn outer first t = .ok s) : byteCount s.rest ≤ byteCount t := by
  have hspace := byteCount_skipSpace_le t
  unfold moveOn at h
  split at h
  · cases h
  · next c u hu =>
      rw [hu] at hspace
      have hu' : byteCount u ≤ byteCount (c :: u) := Nat.le_add_left _ _
      split_ifs at h
      · cases h
        exact Nat.le_trans hu' hspace
      · exact Nat.le_trans (enterElement_le h) hspace
      · exact Nat.le_trans (enterElement_le h) (Nat.le_trans hu' hspace)

theorem skipOpened_le {room : Input} {s : Skipping} {rest : Input}
    (h : skipOpened room s = .ok rest) : byteCount rest ≤ byteCount s.rest := by
  induction room generalizing s with
  | nil =>
      obtain ⟨opened, first, t⟩ := s
      cases opened with
      | nil =>
          cases h
          exact Nat.le_refl _
      | cons b outer => cases h
  | cons c room ih =>
      obtain ⟨opened, first, t⟩ := s
      cases opened with
      | nil =>
          cases h
          exact Nat.le_refl _
      | cons b outer =>
          rw [skipOpened] at h
          split at h
          · next hmove => exact Nat.le_trans (ih h) (Bracket.moveOn_le hmove)
          · cases h

theorem skipValue_le {t rest : Input} (h : skipValue t = .ok rest) :
    byteCount rest ≤ byteCount t := by
  obtain ⟨s, henter, hopened⟩ := exists_of_bind h
  exact Nat.le_trans (skipOpened_le hopened) (enterValue_le henter)

end Json

end ServiceDiscovery
