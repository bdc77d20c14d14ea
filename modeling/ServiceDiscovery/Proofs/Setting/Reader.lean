import ServiceDiscovery.Proofs.Setting.Grammar
/-!
# Which texts stand for themselves

The reader has no closing bracket to look for in a bare text, so where that ends depends on what it
stands in. It is read up to a character that no bare text has, and only such a character, or
nothing, can follow it. Given that, the reader reads whatever the grammar has, and what it has read
always is in the grammar. So a text stands for itself if and only if it is neither marked as
something else as a whole nor a number.
-/

namespace ServiceDiscovery

namespace Setting

open Text (isPlainBlank afterWord? span_append)

/-! ### What stands around a value -/

/-- What may stand behind a value in brackets, or at the end. -/
def Ends (t : List Char) : Prop := ∀ c ∈ t.head?, c = ',' ∨ c = ']' ∨ c = '\x7d'

theorem ends_cons {c : Char} (hc : c = ',' ∨ c = ']' ∨ c = '\x7d') (t : List Char) :
    Ends (c :: t) := by
  rintro d ⟨⟩
  exact hc

theorem Ends.isSeparator {t : List Char} (h : Ends t) : ∀ c ∈ t.head?, isSeparator c = true := by
  intro c hc
  rcases h c hc with rfl | rfl | rfl <;> rfl

theorem skipBlanks_append {before : List Char} (h : Blanks before) (t : List Char) :
    skipBlanks (before ++ t) = skipBlanks t :=
  List.dropWhile_append_of_pos h

theorem skipBlanks_of_head {t : List Char} (h : ∀ c ∈ t.head?, isPlainBlank c = false) :
    skipBlanks t = t := by
  cases t with
  | nil => rfl
  | cons c t => exact List.dropWhile_cons_of_neg (by rw [h c rfl]; exact Bool.false_ne_true)

theorem exists_blanks (t : List Char) : ∃ before, Blanks before ∧ t = before ++ skipBlanks t ∧
    ∀ c ∈ (skipBlanks t).head?, isPlainBlank c = false := by
  refine ⟨t.takeWhile isPlainBlank, List.all_eq_true.mp List.all_takeWhile,
    List.takeWhile_append_dropWhile.symm, fun c hc => ?_⟩
  have hhead := List.head?_dropWhile_not isPlainBlank t
  rw [skipBlanks] at hc
  rw [hc] at hhead
  simpa using hhead

/-! ### Values without brackets -/

theorem readScalar?_word (b : Bool) (t : List Char) :
    readScalar? ((toString b).toList ++ t) = some (bool b, t) := by
  cases b <;> rfl

theorem readScalar?_quoted (t : List Char) :
    readScalar? ('"' :: t) = (readQuoted? t).map fun x => (text x.1, x.2) := rfl

theorem exists_of_readScalar?_character {t rest : List Char} {v : Setting}
    (h : readScalar? ('\'' :: t) = some (v, rest)) : ∃ c, t = c :: '\'' :: rest := by
  obtain _ | ⟨c, _ | ⟨d, t⟩⟩ := t
  · cases h
  · cases h
  · by_cases hd : d = '\''
    · subst hd
      cases h
      exact ⟨c, rfl⟩
    · unfold readScalar? at h
      simp [afterWord?, hd] at h

theorem afterWord?_eq_none {word : String} {t : List Char} (h : ¬ word.toList <+: t) :
    afterWord? word t = none :=
  if_neg fun hword => h (List.isPrefixOf_iff_prefix.mp hword)

theorem readScalar?_bare {t bare rest : List Char} (hword : ∀ b : Bool, ¬ (toString b).toList <+: t)
    (hhead : ∀ c ∈ t.head?, c ≠ '"' ∧ c ≠ '\'')
    (hspan : t.span (fun c => !isSeparator c) = (bare, rest)) :
    readScalar? t = some (ofBare (Text.trim bare), rest) := by
  have hyes := afterWord?_eq_none (hword true)
  have hno := afterWord?_eq_none (hword false)
  unfold readScalar?
  split
  · next heq => cases hyes.symm.trans heq
  · next heq => cases hno.symm.trans heq
  · exact absurd rfl (hhead _ rfl).1
  · exact absurd rfl (hhead _ rfl).2
  · rw [hspan]

/-- A bare text that has come to its end cannot become a word by what follows. -/
theorem Bare.not_word_append {t rest : List Char} (h : Bare t)
    (hrest : ∀ c ∈ rest.head?, isSeparator c = true) (b : Bool) :
    ¬ (toString b).toList <+: t ++ rest := by
  intro hword
  rcases List.prefix_or_prefix_of_prefix hword (List.prefix_append t rest) with hshort | ⟨u, hu⟩
  · exact h.not_word b hshort
  · cases u with
    | nil =>
        rw [List.append_nil] at hu
        exact h.not_word b (hu ▸ List.prefix_refl t)
    | cons c u =>
        rw [← hu, List.prefix_append_right_inj] at hword
        obtain ⟨w, rfl⟩ := hword
        have hc : c ∈ (toString b).toList := by simp [← hu]
        exact Bool.false_ne_true ((not_separator_of_mem_word hc).symm.trans (hrest c rfl))

theorem Bare.readScalar?_append {t rest : List Char} (h : Bare t)
    (hrest : ∀ c ∈ rest.head?, isSeparator c = true) :
    readScalar? (t ++ rest) = some (ofBare (Text.trim t), rest) := by
  refine readScalar?_bare (h.not_word_append hrest) (fun c hc => ?_)
    (span_append (fun c hc => ?_) fun c hc => ?_)
  · cases t with
    | nil => constructor <;> (rintro rfl; exact absurd (hrest _ hc) (by decide))
    | cons d t => exact (h.head c hc).2
  · rw [h.not_separator c hc, Bool.not_false]
  · rw [hrest c hc, Bool.not_true]

theorem exists_of_readScalar? {t rest : List Char} {v : Setting}
    (hhead : ∀ c ∈ t.head?, isPlainBlank c = false) (h : readScalar? t = some (v, rest)) :
    (∃ u, Marked u ∧ t = u ++ rest) ∨
      ∃ u, Bare u ∧ t = u ++ rest ∧ ∀ c ∈ rest.head?, isSeparator c = true := by
  by_cases hword : ∃ b : Bool, (toString b).toList <+: t
  · obtain ⟨b, u, rfl⟩ := hword
    rw [readScalar?_word] at h
    cases h
    exact .inl ⟨_, .word b, rfl⟩
  by_cases hquote : t.head? = some '"'
  · obtain ⟨u, rfl⟩ := List.head?_eq_some_iff.mp hquote
    rw [readScalar?_quoted] at h
    obtain ⟨⟨s, _⟩, hquoted, h⟩ := Option.map_eq_some_iff.mp h
    cases h
    obtain ⟨body, hbody, rfl⟩ := exists_of_readQuoted? hquoted
    exact .inl ⟨_, .quoted (.mk hbody), by simp⟩
  by_cases hmark : t.head? = some '\''
  · obtain ⟨u, rfl⟩ := List.head?_eq_some_iff.mp hmark
    obtain ⟨c, rfl⟩ := exists_of_readScalar?_character h
    exact .inl ⟨_, .character c, rfl⟩
  · have hspan := List.span_eq_takeWhile_dropWhile (fun c => !isSeparator c) t
    have hhead' : ∀ c ∈ t.head?, c ≠ '"' ∧ c ≠ '\'' := by
      intro c hc
      constructor <;> (rintro rfl; contradiction)
    rw [readScalar?_bare (not_exists.mp hword) hhead' hspan] at h
    cases h
    have happend := (List.takeWhile_append_dropWhile (p := fun c => !isSeparator c) (l := t)).symm
    refine .inr ⟨_, ⟨fun c hc => ?_, fun c hc => ?_, fun b hb => ?_⟩, happend, fun c hc => ?_⟩
    · simpa using List.all_eq_true.mp List.all_takeWhile c hc
    · rw [List.head?_takeWhile] at hc
      have hc := (Option.filter_eq_some_iff.mp hc).1
      exact ⟨hhead c hc, hhead' c hc⟩
    · exact hword ⟨b, hb.trans (List.takeWhile_prefix _)⟩
    · have hnot := List.head?_dropWhile_not (fun c => !isSeparator c) t
      rw [hc] at hnot
      simpa using hnot

/-! ### Keys -/

theorem readKey?_plain {t key rest : List Char} (hhead : t.head? ≠ some '"')
    (hspan : t.span isKeyChar = (key, rest)) :
    readKey? t = if key.isEmpty then none else some (String.ofList key, rest) := by
  rw [readKey?, hspan]
  rintro u rfl
  exact hhead rfl

theorem Key.exists_readKey? {key rest : List Char} (h : Key key)
    (hrest : ∀ c ∈ rest.head?, isKeyChar c = false) :
    ∃ s, readKey? (key ++ rest) = some (s, rest) := by
  rcases h with ⟨⟨hbody⟩⟩ | ⟨hne, hchars⟩
  · obtain ⟨s, hread, -⟩ := hbody.exists_readQuoted? rest
    refine ⟨s, ?_⟩
    rw [List.cons_append, List.append_assoc]
    exact hread
  · have hhead : (key ++ rest).head? ≠ some '"' := by
      obtain _ | ⟨c, key⟩ := key
      · exact absurd rfl hne
      · intro hc
        exact ne_of_isKeyChar (hchars c List.mem_cons_self) (by decide) (Option.some.inj hc)
    rw [readKey?_plain hhead (span_append hchars hrest), if_neg (by simpa using hne)]
    exact ⟨_, rfl⟩

theorem exists_of_readKey? {t rest : List Char} {s : String} (h : readKey? t = some (s, rest)) :
    ∃ key, Key key ∧ t = key ++ rest := by
  by_cases hquote : t.head? = some '"'
  · obtain ⟨u, rfl⟩ := List.head?_eq_some_iff.mp hquote
    obtain ⟨body, hbody, rfl⟩ := exists_of_readQuoted? h
    exact ⟨_, .quoted (.mk hbody), by simp⟩
  · rw [readKey?_plain hquote (List.span_eq_takeWhile_dropWhile isKeyChar t)] at h
    split_ifs at h with hne
    cases h
    exact ⟨_, .plain (by simpa using hne) (List.all_eq_true.mp List.all_takeWhile),
      List.takeWhile_append_dropWhile.symm⟩

/-! ### What readers accept and consume -/

section Readers

variable {α : Type} {n : Nat}

/-- Whether a reader reads every text of a language up to a length. -/
def Accepts (read : List Char → Option (α × List Char)) (language : List Char → Prop) (n : Nat) :
    Prop :=
  ∀ t, language t → t.length ≤ n → ∀ rest, Ends rest → ∃ v, read (t ++ rest) = some (v, rest)

/-- Whether all that a reader reads of a text up to a length is in a language. -/
def Consumes (read : List Char → Option (α × List Char)) (language : List Char → Prop) (n : Nat) :
    Prop :=
  ∀ t v rest, t.length ≤ n → read t = some (v, rest) → ∃ u, language u ∧ t = u ++ rest

variable {value : List Char → Option (Setting × List Char)} {language : List Char → Prop}

theorem Accepts.member (h : Accepts value language n) :
    Accepts (readMember? value) (Member language) n := by
  rintro _ ⟨hbefore, hkey, hafter, ht⟩ hlength rest hrest
  next before key after t =>
  simp only [List.length_append, List.length_cons] at hlength
  obtain ⟨v, hvalue⟩ := h t ht (by omega) rest hrest
  have hstop : ∀ c ∈ (after ++ '=' :: (t ++ rest)).head?, isKeyChar c = false := by
    cases after with
    | nil =>
        rintro c ⟨⟩
        decide
    | cons d after =>
        rintro c ⟨⟩
        exact isKeyChar_of_blank (hafter d List.mem_cons_self)
  obtain ⟨s, hread⟩ := hkey.exists_readKey? hstop
  have hskip : skipBlanks (key ++ (after ++ '=' :: (t ++ rest))) =
      key ++ (after ++ '=' :: (t ++ rest)) := by
    obtain ⟨c, key, rfl, hblank, -⟩ := hkey.exists_cons
    exact skipBlanks_of_head (by rintro d ⟨⟩; exact hblank)
  have hskip' : skipBlanks (after ++ '=' :: (t ++ rest)) = '=' :: (t ++ rest) := by
    rw [skipBlanks_append hafter]
    exact skipBlanks_of_head (by rintro d ⟨⟩; decide)
  refine ⟨(s, v), ?_⟩
  simp only [List.append_assoc, List.cons_append]
  rw [readMember?, skipBlanks_append hbefore, hskip, hread]
  simp [hskip', hvalue]

theorem Consumes.member (h : Consumes value language n) :
    Consumes (readMember? value) (Member language) n := by
  intro t m rest hlength hread
  obtain ⟨before, hbefore, ht, -⟩ := exists_blanks t
  obtain ⟨⟨s, u⟩, hkey, hread⟩ := Option.bind_eq_some_iff.mp hread
  obtain ⟨key, hkey, hsplit⟩ := exists_of_readKey? hkey
  obtain ⟨after, hafter, hu, -⟩ := exists_blanks u
  dsimp only at hread
  split at hread
  · next w hequals =>
    obtain ⟨⟨v, w'⟩, hvalue, hread⟩ := Option.bind_eq_some_iff.mp hread
    cases hread
    rw [hsplit, hu, hequals] at ht
    rw [ht] at hlength
    simp only [List.length_append, List.length_cons] at hlength
    obtain ⟨x, hx, rfl⟩ := h w v w' (by omega) hvalue
    exact ⟨_, .mk hbefore hkey hafter hx, by simp [ht]⟩
  · cases hread

variable {item : List Char → Option (α × List Char)} {close : Char}

section Steps

variable {d : Char} {room t u rest : List Char} {v : α} {vs : List α}

theorem readItems?_close : readItems? item close (d :: room) (close :: rest) = some ([], rest) := by
  rw [readItems?]
  exact if_pos rfl

theorem readItems?_last (hhead : t.head? ≠ some close) (hcomma : close ≠ ',')
    (hitem : item t = some (v, close :: rest)) :
    readItems? item close (d :: room) t = some ([v], rest) := by
  rw [readItems?, if_neg hhead, hitem]
  simp [hcomma]

theorem readItems?_comma (hhead : t.head? ≠ some close) (hitem : item t = some (v, ',' :: u))
    (hlater : readItems? item close room u = some (vs, rest)) :
    readItems? item close (d :: room) t = some (v :: vs, rest) := by
  rw [readItems?, if_neg hhead, hitem]
  simp [hlater]

end Steps

theorem Accepts.items_within (h : Accepts item language n) (hclose : close = ']' ∨ close = '\x7d')
    (hhead : ∀ t, language t → ∀ c ∈ t.head?, c ≠ close) {t : List Char}
    (ht : Series language t) (hlength : t.length ≤ n) {room : List Char}
    (hroom : t.length < room.length) (rest : List Char) :
    ∃ vs, readItems? item close room (t ++ close :: rest) = some (vs, rest) := by
  have hcomma : close ≠ ',' := by rcases hclose with rfl | rfl <;> decide
  induction ht generalizing room with
  | nil =>
      obtain _ | ⟨d, room⟩ := room
      · cases hroom
      · exact ⟨[], readItems?_close⟩
  | @last t ht =>
      obtain _ | ⟨d, room⟩ := room
      · cases hroom
      obtain ⟨v, hitem⟩ := h t ht hlength _ (ends_cons (.inr hclose) rest)
      obtain _ | ⟨c, t⟩ := t
      · exact ⟨[], readItems?_close⟩
      · have hne : (c :: t ++ close :: rest).head? ≠ some close :=
          fun hc => hhead _ ht c rfl (Option.some.inj hc)
        exact ⟨[v], readItems?_last hne hcomma hitem⟩
  | @cons t later ht _ ih =>
      obtain _ | ⟨d, room⟩ := room
      · cases hroom
      simp only [List.length_append, List.length_cons] at hlength hroom
      obtain ⟨vs, hlater⟩ := @ih (by omega) room (by omega)
      obtain ⟨v, hitem⟩ := h t ht (by omega) (',' :: (later ++ close :: rest))
        (ends_cons (.inl rfl) _)
      have hne : (t ++ ',' :: (later ++ close :: rest)).head? ≠ some close := by
        obtain _ | ⟨c, t⟩ := t
        · exact fun hc => hcomma (Option.some.inj hc).symm
        · exact fun hc => hhead _ ht c rfl (Option.some.inj hc)
      rw [List.append_assoc, List.cons_append]
      exact ⟨v :: vs, readItems?_comma hne hitem hlater⟩

theorem Accepts.items (h : Accepts item language n) (hclose : close = ']' ∨ close = '\x7d')
    (hhead : ∀ t, language t → ∀ c ∈ t.head?, c ≠ close) {t : List Char} (ht : Series language t)
    (hlength : t.length ≤ n) (rest : List Char) :
    ∃ vs, readItems? item close (t ++ close :: rest) (t ++ close :: rest) = some (vs, rest) := by
  refine h.items_within hclose hhead ht hlength ?_ rest
  rw [List.length_append, List.length_cons]
  omega

theorem Consumes.items (h : Consumes item language n) {room t rest : List Char} {vs : List α}
    (hlength : t.length ≤ n) (hread : readItems? item close room t = some (vs, rest)) :
    ∃ u, Series language u ∧ t = u ++ close :: rest := by
  induction room generalizing t vs with
  | nil => cases hread
  | cons d room ih =>
      rw [readItems?] at hread
      split_ifs at hread with hempty
      · obtain ⟨u, rfl⟩ := List.head?_eq_some_iff.mp hempty
        cases hread
        exact ⟨[], .nil, rfl⟩
      · obtain ⟨⟨v, u⟩, hitem, hnext⟩ := Option.bind_eq_some_iff.mp hread
        obtain ⟨x, hx, rfl⟩ := h t v u hlength hitem
        obtain _ | ⟨c, u⟩ := u
        · cases hnext
        dsimp only at hnext
        split_ifs at hnext with hcomma hclose
        · obtain ⟨⟨later, w⟩, hlater, hdone⟩ := Option.bind_eq_some_iff.mp hnext
          cases hdone
          simp only [List.length_append, List.length_cons] at hlength
          obtain ⟨y, hy, rfl⟩ := ih (by omega) hlater
          exact ⟨_, .cons hx hy, by simp [hcomma]⟩
        · cases hnext
          exact ⟨x, .last hx, by rw [hclose]⟩

end Readers

/-! ### Values -/

section Values

variable {d : Char} {room t u : List Char}

theorem read?_list (h : skipBlanks t = '[' :: u) :
    read? (d :: room) t =
      (readItems? (read? room) ']' u u).map fun x => (list x.1, skipBlanks x.2) := by
  rw [read?, h]
  exact Option.map_map _ _ _

theorem read?_table (h : skipBlanks t = '\x7b' :: u) :
    read? (d :: room) t = (readItems? (readMember? (read? room)) '\x7d' u u).map
      fun x => (ofMembers x.1, skipBlanks x.2) := by
  rw [read?, h]
  exact Option.map_map _ _ _

theorem read?_scalar (h : skipBlanks t = u) (hhead : ∀ c ∈ u.head?, c ≠ '[' ∧ c ≠ '\x7b') :
    read? (d :: room) t = (readScalar? u).map fun x => (x.1, skipBlanks x.2) := by
  unfold read?
  rw [h]
  split
  · exact absurd rfl (hhead _ rfl).1
  · exact absurd rfl (hhead _ rfl).2
  · rfl

/-- A marked text is read as the kind of value that it is marked as, and never as itself. -/
theorem Marked.exists_read? (h : Marked t) (haccepts : Accepts (read? room) Writes room.length)
    (hlength : t.length ≤ room.length + 1) {before after : List Char} (hbefore : Blanks before)
    (hafter : Blanks after) {rest : List Char} (hrest : ∀ c ∈ rest.head?, isPlainBlank c = false) :
    ∃ v, read? (d :: room) (before ++ (t ++ (after ++ rest))) = some (v, rest) ∧
      v ≠ text (String.ofList t) := by
  have hend : skipBlanks (after ++ rest) = rest := by
    rw [skipBlanks_append hafter, skipBlanks_of_head hrest]
  have hskip : skipBlanks (before ++ (t ++ (after ++ rest))) = t ++ (after ++ rest) := by
    obtain ⟨c, u, rfl, hc, -⟩ := h.exists_cons
    rw [skipBlanks_append hbefore]
    exact skipBlanks_of_head (by rintro d ⟨⟩; exact hc)
  cases h with
  | word b =>
      refine ⟨bool b, ?_, nofun⟩
      rw [read?_scalar hskip (by cases b <;> (rintro c ⟨⟩; decide)), readScalar?_word]
      exact congrArg (fun u => some (bool b, u)) hend
  | quoted h =>
      obtain ⟨hbody⟩ := h
      next body =>
      obtain ⟨s, hread, hle⟩ := hbody.exists_readQuoted? (after ++ rest)
      refine ⟨text s, ?_, fun hs => ?_⟩
      · rw [read?_scalar hskip (by rintro c ⟨⟩; decide), List.cons_append, readScalar?_quoted,
          List.append_assoc, List.singleton_append, hread]
        exact congrArg (fun u => some (text s, u)) hend
      · obtain rfl := Setting.text.inj hs
        rw [String.toList_ofList] at hle
        simp only [List.length_cons, List.length_append] at hle
        omega
  | character c =>
      refine ⟨text (String.singleton c), ?_, fun hs => ?_⟩
      · rw [read?_scalar hskip (by rintro c ⟨⟩; decide)]
        exact congrArg (fun u => some (text (String.singleton c), u)) hend
      · have hlist := congrArg String.toList (Setting.text.inj hs)
        simp at hlist
  | @list t ht =>
      simp only [List.length_cons, List.length_append] at hlength
      have happend : '[' :: (t ++ [']']) ++ (after ++ rest) =
          '[' :: (t ++ ']' :: (after ++ rest)) := by
        simp
      rw [happend] at hskip ⊢
      obtain ⟨vs, hread⟩ := haccepts.items (.inl rfl) (fun _ => Writes.head_ne) ht (by omega)
        (after ++ rest)
      refine ⟨Setting.list vs, ?_, nofun⟩
      rw [read?_list hskip, hread]
      exact congrArg (fun u => some (Setting.list vs, u)) hend
  | @table t ht =>
      simp only [List.length_cons, List.length_append] at hlength
      have happend : '\x7b' :: (t ++ ['\x7d']) ++ (after ++ rest) =
          '\x7b' :: (t ++ '\x7d' :: (after ++ rest)) := by
        simp
      rw [happend] at hskip ⊢
      obtain ⟨ms, hread⟩ := haccepts.member.items (.inr rfl) (fun _ => Member.head_ne) ht (by omega)
        (after ++ rest)
      refine ⟨ofMembers ms, ?_, nofun⟩
      rw [read?_table hskip, hread]
      exact congrArg (fun u => some (ofMembers ms, u)) hend

/-- A bare text is read as what it stands for. -/
theorem Bare.read?_append (h : Bare t) {before rest : List Char} (hbefore : Blanks before)
    (hrest : Ends rest) :
    read? (d :: room) (before ++ (t ++ rest)) = some (ofBare (Text.trim t), rest) := by
  have hhead : ∀ c ∈ (t ++ rest).head?, isPlainBlank c = false ∧ c ≠ '[' ∧ c ≠ '\x7b' := by
    intro c hc
    obtain _ | ⟨b, t⟩ := t
    · refine ⟨isPlainBlank_eq_false (hrest.isSeparator c hc) rfl, ?_⟩
      rcases hrest c hc with rfl | rfl | rfl <;> decide
    · refine ⟨(h.head c hc).1, ?_⟩
      constructor <;> (rintro rfl; cases h.not_separator _ (List.mem_of_mem_head? hc))
  have hskip : skipBlanks (before ++ (t ++ rest)) = t ++ rest := by
    rw [skipBlanks_append hbefore, skipBlanks_of_head fun c hc => (hhead c hc).1]
  have hend : skipBlanks rest = rest :=
    skipBlanks_of_head fun c hc => isPlainBlank_eq_false (hrest.isSeparator c hc) rfl
  rw [read?_scalar hskip fun c hc => (hhead c hc).2, h.readScalar?_append hrest.isSeparator,
    Option.map_some, hend]

theorem accepts_read? (room : List Char) : Accepts (read? room) Writes room.length := by
  induction room with
  | nil =>
      intro t _ hlength rest _
      obtain rfl := List.length_eq_zero_iff.mp (Nat.le_zero.mp hlength)
      exact ⟨text "", rfl⟩
  | cons d room ih =>
      rintro _ (⟨hbefore, hmarked, hafter⟩ | ⟨hbefore, hbare⟩) hlength rest hrest
      · simp only [List.length_append, List.length_cons] at hlength
        obtain ⟨v, hread, -⟩ := hmarked.exists_read? ih (by omega) hbefore hafter
          fun c hc => isPlainBlank_eq_false (hrest.isSeparator c hc) rfl
        simp only [List.append_assoc]
        exact ⟨v, hread⟩
      · rw [List.append_assoc]
        exact ⟨_, hbare.read?_append hbefore hrest⟩

theorem bare_nil : Bare [] where
  not_separator := nofun
  head := nofun
  not_word b h := by
    have hnil := List.prefix_nil.mp h
    cases b <;> exact absurd hnil (by decide)

theorem consumes_read? (room : List Char) : Consumes (read? room) Writes room.length := by
  induction room with
  | nil =>
      intro t v rest hlength hread
      obtain rfl := List.length_eq_zero_iff.mp (Nat.le_zero.mp hlength)
      cases hread
      exact ⟨[] ++ [], .bare (List.forall_mem_nil _) bare_nil, rfl⟩
  | cons d room ih =>
      intro t v rest hlength hread
      obtain ⟨before, hbefore, ht, hhead⟩ := exists_blanks t
      have hmarked : ∀ m w, Marked m → skipBlanks t = m ++ w → rest = skipBlanks w →
          ∃ u, Writes u ∧ t = u ++ rest := by
        rintro m w hm hskip rfl
        obtain ⟨after, hafter, hw, -⟩ := exists_blanks w
        refine ⟨_, .marked hbefore hm hafter, ?_⟩
        rw [ht, hskip]
        conv_lhs => rw [hw]
        simp
      have hinner : ∀ c u, skipBlanks t = c :: u → u.length ≤ room.length := by
        intro c u hskip
        rw [ht, hskip] at hlength
        simp only [List.length_append, List.length_cons] at hlength
        omega
      by_cases hbracket : (skipBlanks t).head? = some '['
      · obtain ⟨u, hu⟩ := List.head?_eq_some_iff.mp hbracket
        rw [read?_list hu] at hread
        obtain ⟨⟨vs, w⟩, hitems, hdone⟩ := Option.map_eq_some_iff.mp hread
        cases hdone
        obtain ⟨m, hm, rfl⟩ := ih.items (hinner _ _ hu) hitems
        exact hmarked _ w (.list hm) (by simp [hu]) rfl
      by_cases hbrace : (skipBlanks t).head? = some '\x7b'
      · obtain ⟨u, hu⟩ := List.head?_eq_some_iff.mp hbrace
        rw [read?_table hu] at hread
        obtain ⟨⟨ms, w⟩, hitems, hdone⟩ := Option.map_eq_some_iff.mp hread
        cases hdone
        obtain ⟨m, hm, rfl⟩ := ih.member.items (hinner _ _ hu) hitems
        exact hmarked _ w (.table hm) (by simp [hu]) rfl
      have hplain : ∀ c ∈ (skipBlanks t).head?, c ≠ '[' ∧ c ≠ '\x7b' := by
        intro c hc
        constructor <;> (rintro rfl; contradiction)
      rw [read?_scalar rfl hplain] at hread
      obtain ⟨⟨v, w⟩, hscalar, hdone⟩ := Option.map_eq_some_iff.mp hread
      cases hdone
      rcases exists_of_readScalar? hhead hscalar with ⟨m, hm, hskip⟩ | ⟨u, hu, hskip, hw⟩
      · exact hmarked m w hm hskip rfl
      · refine ⟨_, .bare hbefore hu, ?_⟩
        dsimp only
        rw [skipBlanks_of_head fun c hc => isPlainBlank_eq_false (hw c hc) rfl, List.append_assoc,
          ← hskip]
        exact ht

end Values

/-! ### Whole texts -/

theorem ofText_of_read? {s : String} {v : Setting} (h : read? s.toList s.toList = some (v, [])) :
    ofText s = v := by
  rw [ofText, h]

theorem Marked.ofText_ne {s : String} (h : Marked s.toList) : ofText s ≠ text s := by
  obtain ⟨c, room, hcons, -⟩ := h.exists_cons
  have hlength : s.toList.length ≤ room.length + 1 := by rw [hcons, List.length_cons]
  have hblanks : Blanks [] := List.forall_mem_nil _
  obtain ⟨v, hread, hne⟩ :=
    @exists_read? c room _ h (accepts_read? room) hlength [] [] hblanks hblanks [] nofun
  rw [List.nil_append, List.append_nil, List.append_nil, ← hcons] at hread
  rw [String.ofList_toList] at hne
  rwa [ofText_of_read? hread]

theorem Bare.ofText_eq {s : String} (h : Bare s.toList) :
    ofText s = ofBare (Text.trim s.toList) := by
  apply ofText_of_read?
  cases hcons : s.toList with
  | nil => rfl
  | cons c room =>
      rw [hcons] at h
      have hread := @Bare.read?_append c room _ h [] [] (List.forall_mem_nil _) nofun
      rwa [List.nil_append, List.append_nil] at hread

/-- **A text stands for itself unless it is marked as something else or a number.** -/
theorem ofText_eq_text_iff {s : String} (h : Text.trim s.toList = s.toList) :
    ofText s = text s ↔ ¬ Reserved s.toList := by
  by_cases hmarked : Marked s.toList
  · exact iff_of_false hmarked.ofText_ne fun hfree => hfree (.inl hmarked)
  by_cases hbare : Bare s.toList
  · have hbare := hbare.ofText_eq
    rw [h] at hbare
    have hnumeral := @ofBare_eq_text_iff s.toList
    rw [String.ofList_toList] at hnumeral
    rw [hbare, hnumeral, Reserved, or_iff_right hmarked]
  · refine iff_of_true ?_ ?_
    · rw [ofText]
      split
      · next v hread =>
        obtain ⟨t, ht, hwhole⟩ := consumes_read? _ _ v [] (Nat.le_refl _) hread
        rw [List.append_nil] at hwhole
        rcases (hwhole ▸ ht).cases_of_trim h with hm | hb
        · exact absurd hm hmarked
        · exact absurd hb hbare
      · rfl
    · rintro (hm | hn)
      · exact hmarked hm
      · exact hbare hn.bare

end Setting

end ServiceDiscovery
