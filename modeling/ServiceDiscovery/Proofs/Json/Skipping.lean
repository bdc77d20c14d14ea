import ServiceDiscovery.Proofs.Json.Values
/-!
# Written values are skipped whole

Skipping keeps a list of the brackets that are open, so it cannot be followed value by value through
its own recursion. What is shown of each value is that skipping comes out behind it with the
brackets that were open before, and with room for whatever is left: every move takes a character,
and the bracket that opens a list or an object pays for the move into its first element, before
which there is no comma.
-/

namespace ServiceDiscovery

namespace Json

/-! ### Scalars -/

theorem skipString_plain {c : Char} (t : Input) (hquote : c ≠ '"') (hbackslash : c ≠ '\\')
    (hcontrol : ¬ c.toNat < 32) : skipString (c :: t) = skipString t := by
  rw [skipString, if_neg hquote, if_neg hbackslash, if_neg hcontrol]

theorem skipString_escape {t rest : Input} (h : skipEscape t = .ok rest) :
    skipString ('\\' :: t) = skipString rest := by
  rw [skipString, if_neg (by decide), if_pos rfl]
  split
  · next hfailed =>
      rw [h] at hfailed
      cases hfailed
  · next hskip =>
      rw [h] at hskip
      cases hskip
      rfl

theorem skipString_escapeChar (c : Char) (t : Input) :
    skipString (escapeChar c ++ t) = skipString t := by
  have hstands := standsAs_escapeChar c
  generalize escapeChar c = text at hstands
  cases hstands with
  | plain hquote hbackslash hcontrol => exact skipString_plain t hquote hbackslash hcontrol
  | escaped _ hskip => exact skipString_escape (hskip t)

theorem skipString_escaped (cs : List Char) (rest : Input) :
    skipString (cs.flatMap escapeChar ++ '"' :: rest) = .ok rest := by
  induction cs with
  | nil => rw [List.flatMap_nil, List.nil_append, skipString, if_pos rfl]
  | cons c cs ih => rw [List.flatMap_cons, List.append_assoc, skipString_escapeChar, ih]

theorem skipNumber_writeNat (n : Nat) {rest : Input} (hrest : Follows rest) :
    skipNumber (writeNat n ++ rest) = .ok rest := by
  rw [skipNumber, readNumeral_writeNat n hrest]

theorem skipScalar_digit {c : Char} (h : c.isDigit = true) (t : Input) :
    skipScalar (c :: t) = skipNumber (c :: t) := by
  rw [skipScalar, if_neg (ne_of_isDigit h rfl), if_pos h]

/-! ### Moves -/

namespace Bracket

theorem follows_closing (b : Bracket) (rest : Input) : Follows (b.closing :: rest) := by
  cases b with
  | list => exact follows_cons rest (.inr (.inl rfl))
  | object => exact follows_cons rest (.inr (.inr rfl))

theorem moveOn_closing (b : Bracket) (outer : List Bracket) (first : Bool) (rest : Input) :
    b.moveOn outer first (b.closing :: rest) = .ok ⟨outer, false, rest⟩ := by
  rw [moveOn, (b.follows_closing rest).skipSpace_eq]
  exact if_pos rfl

theorem moveOn_element (b : Bracket) (outer : List Bracket) (first : Bool) {text : List Char}
    (texts : List (List Char)) (rest : Input) (h : Opens text) :
    b.moveOn outer first (elements first (text :: texts) ++ rest) =
      b.enterElement outer (text ++ (elements false texts ++ rest)) := by
  cases first with
  | true =>
      have hopens := h.append (elements false texts ++ rest)
      rw [elements_first, List.append_assoc, moveOn, hopens.skipSpace_eq]
      obtain ⟨c, t, heq, -, hlist, hobject⟩ := hopens.exists_cons
      have hclosing : c ≠ b.closing := by
        cases b with
        | list => exact hlist
        | object => exact hobject
      rw [heq]
      exact (if_neg hclosing).trans (if_pos rfl)
  | false =>
      have hclosing : ',' ≠ b.closing := by cases b <;> decide
      rw [elements_later, List.cons_append, List.append_assoc, moveOn,
        (follows_cons _ (.inl rfl)).skipSpace_eq]
      exact if_neg hclosing

end Bracket

theorem skipOpened_bind (c : Char) (room : Input) (b : Bracket) (outer : List Bracket)
    (first : Bool) (t : Input) :
    skipOpened (c :: room) ⟨b :: outer, first, t⟩ = b.moveOn outer first t >>= skipOpened room := by
  rw [skipOpened]
  cases b.moveOn outer first t <;> rfl

/-- Whatever follows the text, skipping comes out behind it with the given brackets open, and with
enough room for what is left. -/
def Passes (enter : Input → Except Error Skipping) (opened : List Bracket) (text : List Char) :
    Prop :=
  ∀ rest room : Input, Follows rest → (text ++ rest).length ≤ room.length →
    ∃ room' : Input, rest.length ≤ room'.length ∧
      (enter (text ++ rest) >>= skipOpened room) = skipOpened room' ⟨opened, false, rest⟩

/-- From anywhere inside a bracket, skipping comes out behind it. -/
theorem skipOpened_elements {b : Bracket} {outer : List Bracket} {texts : List (List Char)}
    (h : ∀ text ∈ texts, Opens text ∧ Passes (b.enterElement outer) (b :: outer) text)
    (first : Bool) {rest room : Input}
    (hroom : (elements first texts ++ b.closing :: rest).length + first.toNat ≤ room.length) :
    ∃ room' : Input, rest.length ≤ room'.length ∧
      skipOpened room ⟨b :: outer, first, elements first texts ++ b.closing :: rest⟩ =
        skipOpened room' ⟨outer, false, rest⟩ := by
  induction texts generalizing first room with
  | nil =>
      rw [elements_nil, List.nil_append, List.length_cons] at hroom
      rw [elements_nil, List.nil_append]
      cases room with
      | nil =>
          rw [List.length_nil] at hroom
          omega
      | cons c room =>
          rw [List.length_cons] at hroom
          refine ⟨room, by omega, ?_⟩
          rw [skipOpened_bind, b.moveOn_closing, ok_bind]
  | cons text texts ih =>
      obtain ⟨⟨hopens, hpasses⟩, htexts⟩ := List.forall_mem_cons.mp h
      have hlength := length_elements_cons first text texts
      rw [List.length_append, List.length_cons] at hroom
      cases room with
      | nil =>
          rw [List.length_nil] at hroom
          omega
      | cons c room =>
          rw [List.length_cons] at hroom
          have hfollows := follows_elements texts (b.follows_closing rest)
          have hentered : (text ++ (elements false texts ++ b.closing :: rest)).length ≤
              room.length := by
            rw [List.length_append, List.length_append, List.length_cons]
            omega
          obtain ⟨between, hbetween, hpassed⟩ := hpasses _ room hfollows hentered
          rw [skipOpened_bind, b.moveOn_element outer first texts _ hopens, hpassed]
          exact ih htexts false hbetween

/-! ### Values -/

section Values

variable {opened : List Bracket}

theorem passes_of_scalar {c : Char} {text : List Char} (hspace : isSpace c = false)
    (hlist : c ≠ '[') (hobject : c ≠ '\x7b')
    (hskip : ∀ rest, Follows rest → skipScalar (c :: (text ++ rest)) = .ok rest) :
    Passes (enterValue opened) opened (c :: text) := by
  intro rest room hrest hroom
  have henter : enterValue opened (c :: (text ++ rest)) = .ok ⟨opened, false, rest⟩ := by
    rw [enterValue, skipSpace_cons _ hspace]
    split
    · next heq => exact absurd (List.cons.inj heq).1 hlist
    · next heq => exact absurd (List.cons.inj heq).1 hobject
    · rw [hskip rest hrest]
      rfl
  rw [List.length_append] at hroom
  refine ⟨room, by omega, ?_⟩
  rw [List.cons_append, henter, ok_bind]

theorem passes_keyword {c : Char} {word : List Char} {v : Json} (hspace : isSpace c = false)
    (hlist : c ≠ '[') (hobject : c ≠ '\x7b')
    (hscalar : ∀ t, skipScalar (c :: t) =
      ((readWord word t).map fun t => (v, t)).map Prod.snd) :
    Passes (enterValue opened) opened (c :: word) := by
  refine passes_of_scalar hspace hlist hobject fun rest _ => ?_
  rw [hscalar, readWord_append]
  rfl

theorem passes_natural (n : Nat) : Passes (enterValue opened) opened (writeNat n) := by
  obtain ⟨c, digits, hwritten, hdigit⟩ := exists_digit_writeNat n
  rw [hwritten]
  refine passes_of_scalar (isSpace_of_isDigit hdigit) (ne_of_isDigit hdigit rfl)
    (ne_of_isDigit hdigit rfl) fun rest hrest => ?_
  rw [skipScalar_digit hdigit, ← List.cons_append, ← hwritten, skipNumber_writeNat n hrest]

theorem passes_negative (n : Nat) : Passes (enterValue opened) opened ('-' :: writeNat n) :=
  passes_of_scalar rfl (by decide) (by decide) fun rest hrest => by
    rw [skipScalar, if_pos rfl, skipNumber_writeNat n hrest]

theorem passes_string (s : String) : Passes (enterValue opened) opened (writeString s) := by
  rw [writeString, List.cons_append]
  refine passes_of_scalar rfl (by decide) (by decide) fun rest _ => ?_
  rw [List.append_assoc]
  exact skipString_escaped s.toList rest

theorem passes_list {texts : List (List Char)}
    (h : ∀ text ∈ texts,
      Opens text ∧ Passes (enterValue (.list :: opened)) (.list :: opened) text) :
    Passes (enterValue opened) opened (writeList texts) := by
  intro rest room _ hroom
  rw [writeList, List.append_assoc, List.cons_append, List.length_cons] at hroom
  rw [writeList, List.append_assoc]
  exact skipOpened_elements (b := .list) h true hroom

theorem skipKey_writeString (key : String) (t : Input) :
    skipKey (writeString key ++ ':' :: t) = .ok t := by
  rw [writeString_append, skipKey]
  change (skipString _ >>= readColon) = _
  rw [skipString_escaped, ok_bind]
  rfl

/-- A member is passed if its value is. -/
theorem passes_member {key : String} {text : List Char}
    (h : Passes (enterValue (.object :: opened)) (.object :: opened) text) :
    Passes (Bracket.object.enterElement opened) (.object :: opened) (writeMember key text) := by
  intro rest room hrest hroom
  have henter : Bracket.object.enterElement opened (writeMember key text ++ rest) =
      enterValue (.object :: opened) (text ++ rest) := by
    rw [writeMember, List.append_assoc, List.cons_append]
    change (skipKey _ >>= enterValue (.object :: opened)) = _
    rw [skipKey_writeString, ok_bind]
  rw [writeMember, List.append_assoc, List.length_append, List.cons_append,
    List.length_cons] at hroom
  rw [henter]
  exact h rest room hrest (by omega)

theorem passes_object {texts : List (List Char)}
    (h : ∀ text ∈ texts,
      Opens text ∧ Passes (Bracket.object.enterElement opened) (.object :: opened) text) :
    Passes (enterValue opened) opened (writeObject texts) := by
  intro rest room _ hroom
  rw [writeObject, List.append_assoc, List.cons_append, List.length_cons] at hroom
  rw [writeObject, List.append_assoc]
  exact skipOpened_elements (b := .object) h true hroom

end Values

theorem writeMembers_eq (members : List (String × Json)) :
    writeMembers members = members.map fun m => writeMember m.1 (write m.2) := by
  induction members with
  | nil => rfl
  | cons m rest ih => rw [writeMembers, ih, List.map_cons]

theorem Canonical.passes {depth : Nat} {v : Json} (h : Canonical depth v) (opened : List Bracket) :
    Passes (enterValue opened) opened (write v) := by
  induction h generalizing opened with
  | null depth =>
      change Passes _ _ ('n' :: "ull".toList)
      exact passes_keyword rfl (by decide) (by decide) fun _ => rfl
  | bool depth b =>
      cases b with
      | true =>
          change Passes _ _ ('t' :: "rue".toList)
          exact passes_keyword rfl (by decide) (by decide) fun _ => rfl
      | false =>
          change Passes _ _ ('f' :: "alse".toList)
          exact passes_keyword rfl (by decide) (by decide) fun _ => rfl
  | natural depth n => exact passes_natural n.toNat
  | negative depth n => exact passes_negative (n.val + 1)
  | string depth s => exact passes_string s
  | array hitems ih =>
      rw [write, writeItems_eq]
      refine passes_list fun text htext => ?_
      obtain ⟨v, hv, rfl⟩ := List.mem_map.mp htext
      exact ⟨(hitems v hv).reads.opens, ih v hv _⟩
  | object _ hmembers ih =>
      rw [write, writeMembers_eq]
      refine passes_object fun text htext => ?_
      obtain ⟨m, hm, rfl⟩ := List.mem_map.mp htext
      exact ⟨opens_writeMember _ _, passes_member (ih m hm _)⟩

/-- **A written value is skipped whole**, at any depth. -/
theorem Canonical.skipValue_write {depth : Nat} {v : Json} (h : Canonical depth v) {rest : Input}
    (hrest : Follows rest) : skipValue (write v ++ rest) = .ok rest := by
  obtain ⟨room, -, hpassed⟩ := h.passes [] rest _ hrest (Nat.le_refl _)
  change (enterValue [] (write v ++ rest) >>= skipOpened (write v ++ rest)) = _
  rw [hpassed]
  cases room <;> rfl

end Json

end ServiceDiscovery
