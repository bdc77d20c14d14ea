import ServiceDiscovery.Json.Reader
import ServiceDiscovery.Proofs.Except
import ServiceDiscovery.Proofs.Json.Words
/-!
# Written values are read back

Lists and objects are read element by element, so what is shown of them is shown over any reader of
their elements that reads each written element back. For the values of JSON themselves it follows
by induction. `Canonical` says which values these are: the numbers are whole, the members of an
object are in order, and the brackets are not nested too deeply for the reader.
-/

namespace ServiceDiscovery

namespace Json

/-- The reader gets the value off the text, whatever follows it. -/
structure Reads {α : Type} (reader : Input → Except Error (α × Input)) (text : List Char) (v : α) :
    Prop where
  opens : Opens text
  reads : ∀ rest, Follows rest → reader (text ++ rest) = .ok (v, rest)

/-- Whatever follows the text, the reader takes it off and gives the result, or fails if there is
none. -/
def Yields {α : Type} (reader : Input → Except Error (α × Input)) (text : List Char)
    (result : Option α) : Prop :=
  ∀ rest : Input, Follows rest →
    (reader (text ++ rest)).toOption = result.map fun x => (x, rest)

theorem Reads.yields {α : Type} {reader : Input → Except Error (α × Input)} {text : List Char}
    {v : α} (h : Reads reader text v) : Yields reader text (some v) := by
  intro rest hrest
  rw [h.reads rest hrest]
  rfl

/-! ### Elements -/

/-- The elements behind the first one, each after its comma. -/
def commaTail (texts : List (List Char)) : List Char := texts.flatMap fun text => ',' :: text

theorem commaSeparated_cons (text : List Char) (texts : List (List Char)) :
    commaSeparated (text :: texts) = text ++ commaTail texts := by
  induction texts generalizing text with
  | nil => exact (List.append_nil text).symm
  | cons next texts ih =>
      rw [commaSeparated, ih, commaTail, commaTail, List.flatMap_cons, List.cons_append]
      nofun

/-- The texts of the elements of a list or an object, up to its closing bracket; `first` says
whether no element stands before them. -/
def elements (first : Bool) (texts : List (List Char)) : List Char :=
  if first then commaSeparated texts else commaTail texts

theorem elements_nil (first : Bool) : elements first [] = [] := by
  cases first <;> rfl

theorem elements_first (text : List Char) (texts : List (List Char)) :
    elements true (text :: texts) = text ++ elements false texts :=
  commaSeparated_cons text texts

theorem elements_later (text : List Char) (texts : List (List Char)) :
    elements false (text :: texts) = ',' :: (text ++ elements false texts) := rfl

theorem length_elements_cons (first : Bool) (text : List Char) (texts : List (List Char)) :
    (elements first (text :: texts)).length + first.toNat =
      text.length + (elements false texts).length + 1 := by
  cases first with
  | true => rw [elements_first, List.length_append, Bool.toNat_true]
  | false => rw [elements_later, List.length_cons, List.length_append, Bool.toNat_false]

/-- There is room for as many moves as there are elements, and for one more. -/
theorem length_lt_elements {texts : List (List Char)} (h : ∀ text ∈ texts, Opens text)
    (first : Bool) (c : Char) (rest : Input) :
    texts.length < (elements first texts ++ c :: rest).length := by
  have hle : texts.length ≤ (elements first texts).length := by
    induction texts generalizing first with
    | nil => exact Nat.zero_le _
    | cons text texts ih =>
        obtain ⟨hopens, htexts⟩ := List.forall_mem_cons.mp h
        obtain ⟨d, t, rfl, -⟩ := hopens.exists_cons
        have hlater := ih htexts false
        have hlength := length_elements_cons first (d :: t) texts
        have hfirst := Bool.toNat_le first
        rw [List.length_cons] at hlength ⊢
        omega
  rw [List.length_append, List.length_cons]
  omega

theorem follows_elements (texts : List (List Char)) {rest : Input} (h : Follows rest) :
    Follows (elements false texts ++ rest) := by
  cases texts with
  | nil => exact h
  | cons text texts => exact follows_cons _ (.inl rfl)

/-! ### Lists -/

theorem nextItem_closing (first : Bool) (rest : Input) :
    nextItem first (']' :: rest) = .ok (.closed rest) := by
  cases first <;> rfl

theorem nextItem_elements (first : Bool) {text : List Char} (texts : List (List Char))
    (rest : Input) (h : Opens text) :
    nextItem first (elements first (text :: texts) ++ rest) =
      .ok (.element (text ++ (elements false texts ++ rest))) := by
  obtain ⟨c, t, heq, hspace, hbracket, -⟩ := (h.append (elements false texts ++ rest)).exists_cons
  cases first with
  | true =>
      rw [elements_first, List.append_assoc, heq, nextItem, skipSpace_cons t hspace]
      exact (if_neg hbracket).trans (if_pos rfl)
  | false =>
      have hcomma : skipSpace (',' :: c :: t) = ',' :: c :: t := skipSpace_cons _ rfl
      rw [elements_later, List.cons_append, List.append_assoc, heq]
      simp only [nextItem, hcomma, skipSpace_cons t hspace, hbracket, Char.reduceEq,
        Bool.false_eq_true, if_false, if_true]

section List

variable {α β : Type} {item : Input → Except Error (α × Input)} {write : β → List Char}
  {f : β → Except Error α} {vs : List β}

/-- Items are read one after the other, and the list fails with the first of them that does. -/
theorem readItems_elements (hopens : ∀ v ∈ vs, Opens (write v))
    (hitems : ∀ v ∈ vs, Yields item (write v) (f v).toOption) (first : Bool) {room : Input}
    (hroom : vs.length < room.length) (rest : Input) :
    (readItems item room first (elements first (vs.map write) ++ ']' :: rest)).toOption =
      (vs.mapM f).toOption.map fun xs => (xs, rest) := by
  induction vs generalizing first room with
  | nil =>
      cases room with
      | nil => cases hroom
      | cons c room =>
          rw [readItems, List.map_nil, elements_nil, List.nil_append, nextItem_closing, ok_bind]
          rfl
  | cons v vs ih =>
      obtain ⟨hopen, hopens⟩ := List.forall_mem_cons.mp hopens
      obtain ⟨hv, hitems⟩ := List.forall_mem_cons.mp hitems
      cases room with
      | nil => cases hroom
      | cons c room =>
          have hlater := ih hopens hitems false (Nat.lt_of_succ_lt_succ hroom)
          have hfollows := follows_elements (vs.map write) (follows_cons rest (.inr (.inl rfl)))
          rw [readItems, List.map_cons, nextItem_elements first _ _ hopen, ok_bind]
          dsimp only
          rw [toOption_bind, hv _ hfollows, List.mapM_cons, toOption_bind]
          cases f v with
          | error e => rfl
          | ok x =>
              change (readItems item room false _ >>= fun r => .ok (x :: r.1, r.2)).toOption =
                (vs.mapM f >>= fun xs => .ok (x :: xs)).toOption.map _
              rw [toOption_bind, hlater, toOption_bind]
              cases vs.mapM f <;> rfl

theorem readList_elements (hopens : ∀ v ∈ vs, Opens (write v))
    (hitems : ∀ v ∈ vs, Yields item (write v) (f v).toOption) (rest : Input) :
    (readList item (commaSeparated (vs.map write) ++ ']' :: rest)).toOption =
      (vs.mapM f).toOption.map fun xs => (xs, rest) := by
  have hroom := length_lt_elements (List.forall_mem_map.mpr hopens) true ']' rest
  rw [List.length_map] at hroom
  exact readItems_elements hopens hitems true hroom rest

theorem readList_written {write : α → List Char} {vs : List α}
    (hitems : ∀ v ∈ vs, Reads item (write v) v) (rest : Input) :
    readList item (commaSeparated (vs.map write) ++ ']' :: rest) = .ok (vs, rest) := by
  have hread := readList_elements (f := Except.ok) (fun v hv => (hitems v hv).opens)
    (fun v hv => (hitems v hv).yields) rest
  have hall : vs.mapM Except.ok = (.ok vs : Except Error (List α)) :=
    mapM_eq_ok_iff.mpr (List.forall₂_same.mpr fun _ _ => rfl)
  rw [hall] at hread
  exact eq_ok_of_toOption hread

end List

/-! ### Objects -/

theorem readColon_colon (t : Input) : readColon (':' :: t) = .ok t := rfl

/-- From one state to another, a reader of members gathers what the texts of some members hold. -/
inductive Gathers {σ : Type} (member : σ → String → Input → Except Error (σ × Input))
    (named : String → Prop) : σ → List (List Char) → σ → Prop where
  | nil (s : σ) : Gathers member named s [] s
  | cons {s s' s'' : σ} {key : String} {text : List Char} {texts : List (List Char)}
      (hkey : named key)
      (hmember : ∀ rest, Follows rest → member s key (':' :: (text ++ rest)) = .ok (s', rest))
      (hrest : Gathers member named s' texts s'') :
      Gathers member named s (writeMember key text :: texts) s''

theorem writeMember_append (key : String) (text : List Char) (rest : Input) :
    writeMember key text ++ rest =
      '"' :: (key.toList.flatMap escapeChar ++ '"' :: ':' :: (text ++ rest)) := by
  rw [writeMember, List.append_assoc, writeString_append]
  rfl

theorem opens_writeMember (key : String) (text : List Char) : Opens (writeMember key text) := rfl

theorem nextKey_closing (first : Bool) (rest : Input) :
    nextKey first ('\x7d' :: rest) = .ok (.closed rest) := by
  cases first <;> rfl

theorem nextKey_elements (first : Bool) (key : String) (text : List Char) (texts : List (List Char))
    (rest : Input) :
    nextKey first (elements first (writeMember key text :: texts) ++ rest) =
      .ok (.element (key.toList.flatMap escapeChar ++
        '"' :: ':' :: (text ++ (elements false texts ++ rest)))) := by
  cases first with
  | true =>
      rw [elements_first, List.append_assoc, writeMember_append]
      rfl
  | false =>
      rw [elements_later, List.cons_append, List.append_assoc, writeMember_append]
      rfl

section Object

variable {σ : Type} {member : σ → String → Input → Except Error (σ × Input)}
  {named : String → Prop} {s s' : σ} {texts : List (List Char)}

theorem Gathers.opens (h : Gathers member named s texts s') : ∀ text ∈ texts, Opens text := by
  induction h with
  | nil => exact List.forall_mem_nil _
  | cons _ _ _ ih => exact List.forall_mem_cons.mpr ⟨opens_writeMember _ _, ih⟩

theorem readMembers_elements (h : Gathers member named s texts s') (first : Bool) {room : Input}
    (hroom : texts.length < room.length) (rest : Input) :
    readMembers member room first s (elements first texts ++ '\x7d' :: rest) = .ok (s', rest) := by
  induction h generalizing first room with
  | nil =>
      cases room with
      | nil => cases hroom
      | cons c room =>
          rw [readMembers, elements_nil, List.nil_append, nextKey_closing, ok_bind]
          rfl
  | @cons s s' s'' key text texts hkey hmember hrest ih =>
      cases room with
      | nil => cases hroom
      | cons c room =>
          have hfollows := follows_elements texts (follows_cons rest (.inr (.inr rfl)))
          rw [readMembers, nextKey_elements, ok_bind]
          change (readString _ >>= _) = _
          rw [readString_escaped, ok_bind]
          change (member s key _ >>= _) = _
          rw [hmember _ hfollows, ok_bind]
          exact ih false (Nat.lt_of_succ_lt_succ hroom)

theorem readObject_written (h : Gathers member named s texts s') (rest : Input) :
    readObject member s (commaSeparated texts ++ '\x7d' :: rest) = .ok (s', rest) :=
  readMembers_elements h true (length_lt_elements h.opens true '\x7d' rest) rest

end Object

/-! ### Values -/

/-- A value with whole numbers and with the members of its objects in order, in which at most
`depth` brackets are open at a time. -/
inductive Canonical : (depth : Nat) → Json → Prop where
  | null (depth : Nat) : Canonical depth null
  | bool (depth : Nat) (b : Bool) : Canonical depth (bool b)
  | natural (depth : Nat) (n : UInt64) : Canonical depth (number (.natural n))
  | negative (depth : Nat) (n : Fin highBit) : Canonical depth (number (.negative n))
  | string (depth : Nat) (s : String) : Canonical depth (string s)
  | array {depth : Nat} {items : List Json} (hitems : ∀ v ∈ items, Canonical depth v) :
      Canonical (depth + 1) (array items)
  | object {depth : Nat} {members : List (String × Json)}
      (hsorted : members.Pairwise fun m n => m.1 < n.1)
      (hmembers : ∀ m ∈ members, Canonical depth m.2) : Canonical (depth + 1) (object members)

theorem Canonical.mono {depth larger : Nat} {v : Json} (h : Canonical depth v)
    (hle : depth ≤ larger) : Canonical larger v := by
  induction h generalizing larger with
  | null => exact .null _
  | bool depth b => exact .bool _ b
  | natural depth n => exact .natural _ n
  | negative depth n => exact .negative _ n
  | string depth s => exact .string _ s
  | array hitems ih =>
      cases larger with
      | zero => cases hle
      | succ larger => exact .array fun v hv => ih v hv (Nat.le_of_succ_le_succ hle)
  | object hsorted hmembers ih =>
      cases larger with
      | zero => cases hle
      | succ larger => exact .object hsorted fun m hm => ih m hm (Nat.le_of_succ_le_succ hle)

theorem writeItems_eq (items : List Json) : writeItems items = items.map write := by
  induction items with
  | nil => rfl
  | cons v rest ih => rw [writeItems, ih, List.map_cons]

theorem insertMember_last {key : String} {value : Json} {members : List (String × Json)}
    (h : ∀ m ∈ members, m.1 < key) : insertMember key value members = members ++ [(key, value)] := by
  induction members with
  | nil => rfl
  | cons m rest ih =>
      obtain ⟨hm, hrest⟩ := List.forall_mem_cons.mp h
      have hne : key ≠ m.1 := by
        rintro rfl
        exact String.lt_irrefl _ hm
      rw [insertMember, if_neg (String.lt_asymm hm), if_neg hne, ih hrest, List.cons_append]

theorem ne_of_isDigit {c d : Char} (hc : c.isDigit = true) (hd : d.isDigit = false) : c ≠ d := by
  rintro rfl
  rw [hc] at hd
  cases hd

theorem isSpace_of_isDigit {c : Char} (h : c.isDigit = true) : isSpace c = false := by
  have hne : c ≠ ' ' ∧ c ≠ '\n' ∧ c ≠ '\t' ∧ c ≠ '\r' :=
    ⟨ne_of_isDigit h rfl, ne_of_isDigit h rfl, ne_of_isDigit h rfl, ne_of_isDigit h rfl⟩
  simp [isSpace, hne]

theorem isOpening_of_isDigit {c : Char} (h : c.isDigit = true) : isOpening c = true := by
  have hne : c ≠ ']' ∧ c ≠ '\x7d' := ⟨ne_of_isDigit h rfl, ne_of_isDigit h rfl⟩
  simp [isOpening, isSpace_of_isDigit h, hne]

theorem readScalar_digit {c : Char} (h : c.isDigit = true) (t : Input) :
    readScalar (c :: t) = (readNumber false (c :: t)).map fun (n, t) => (number n, t) := by
  rw [readScalar, if_neg (ne_of_isDigit h rfl), if_neg (ne_of_isDigit h rfl),
    if_neg (ne_of_isDigit h rfl), if_neg (ne_of_isDigit h rfl), if_pos h]

theorem exists_digit_writeNat (n : Nat) : ∃ c digits, writeNat n = c :: digits ∧ c.isDigit = true := by
  cases h : writeNat n with
  | nil => exact absurd h (writeNat_ne_nil n)
  | cons c digits =>
      have hmem : c ∈ writeNat n := by
        rw [h]
        exact List.mem_cons_self
      exact ⟨c, digits, rfl, isDigit_of_mem_writeNat hmem⟩

theorem opens_writeNat (n : Nat) : Opens (writeNat n) := by
  obtain ⟨c, digits, hwritten, hdigit⟩ := exists_digit_writeNat n
  rw [hwritten]
  exact isOpening_of_isDigit hdigit

theorem readValue_scalar {c : Char} (depth : Nat) (t : Input) (h : isSpace c = false)
    (hlist : c ≠ '[') (hobject : c ≠ '\x7b') : readValue depth (c :: t) = readScalar (c :: t) := by
  cases depth with
  | zero =>
      rw [readValue, skipSpace_cons t h]
      split
      · next heq => exact absurd (List.cons.inj heq).1 hlist
      · next heq => exact absurd (List.cons.inj heq).1 hobject
      · rfl
  | succ depth =>
      rw [readValue, skipSpace_cons t h]
      split
      · next heq => exact absurd (List.cons.inj heq).1 hlist
      · next heq => exact absurd (List.cons.inj heq).1 hobject
      · rfl

theorem reads_of_scalar {c : Char} {text : List Char} {v : Json} (depth : Nat)
    (hopening : isOpening c = true) (hlist : c ≠ '[') (hobject : c ≠ '\x7b')
    (hread : ∀ rest, Follows rest → readScalar (c :: (text ++ rest)) = .ok (v, rest)) :
    Reads (readValue depth) (c :: text) v := by
  refine ⟨hopening, fun rest hrest => ?_⟩
  have hspace : isSpace c = false := by
    cases h : isSpace c with
    | false => rfl
    | true =>
        rw [isOpening, h] at hopening
        cases hopening
  rw [List.cons_append, readValue_scalar depth _ hspace hlist hobject, hread rest hrest]

theorem reads_natural (depth : Nat) (n : UInt64) :
    Reads (readValue depth) (writeNat n.toNat) (number (.natural n)) := by
  obtain ⟨c, digits, hwritten, hdigit⟩ := exists_digit_writeNat n.toNat
  rw [hwritten]
  refine reads_of_scalar depth (isOpening_of_isDigit hdigit) (ne_of_isDigit hdigit rfl)
    (ne_of_isDigit hdigit rfl) fun rest hrest => ?_
  have hread := readNumber_natural n.toNat_lt hrest
  rw [UInt64.ofNat_toNat, hwritten, List.cons_append] at hread
  rw [readScalar_digit hdigit, hread]
  rfl

theorem reads_negative (depth : Nat) (n : Fin highBit) :
    Reads (readValue depth) ('-' :: writeNat (n.val + 1)) (number (.negative n)) := by
  refine reads_of_scalar depth rfl (by decide) (by decide) fun rest hrest => ?_
  change (readNumber true (writeNat (n.val + 1) ++ rest)).map _ = _
  rw [readNumber_negative n hrest]
  rfl

theorem reads_string (depth : Nat) (s : String) :
    Reads (readValue depth) (writeString s) (string s) := by
  refine ⟨rfl, fun rest _ => ?_⟩
  rw [writeString_append, readValue_scalar depth _ rfl (by decide) (by decide)]
  change (readString _).map _ = _
  rw [readString_escaped]
  rfl

theorem reads_keyword {c : Char} {word : List Char} {v : Json} (depth : Nat)
    (hopening : isOpening c = true) (hlist : c ≠ '[') (hobject : c ≠ '\x7b')
    (hscalar : ∀ input, readScalar (c :: input) = (readWord word input).map fun t => (v, t)) :
    Reads (readValue depth) (c :: word) v := by
  refine reads_of_scalar depth hopening hlist hobject fun rest _ => ?_
  rw [hscalar, readWord_append]
  rfl

theorem reads_bool (depth : Nat) (b : Bool) : Reads (readValue depth) (write (bool b)) (bool b) := by
  cases b with
  | true =>
      change Reads (readValue depth) ('t' :: "rue".toList) (bool true)
      exact reads_keyword depth rfl (by decide) (by decide) fun _ => rfl
  | false =>
      change Reads (readValue depth) ('f' :: "alse".toList) (bool false)
      exact reads_keyword depth rfl (by decide) (by decide) fun _ => rfl

theorem reads_null (depth : Nat) : Reads (readValue depth) (write null) null := by
  change Reads (readValue depth) ('n' :: "ull".toList) null
  exact reads_keyword depth rfl (by decide) (by decide) fun _ => rfl

/-- The members of an object once the given ones have been read behind those before them. -/
def gathered (before members : List (String × Json)) : List (String × Json) :=
  members.foldl (fun sorted m => insertMember m.1 m.2 sorted) before

theorem gathered_of_sorted {before members : List (String × Json)}
    (h : (before ++ members).Pairwise fun m n => m.1 < n.1) :
    gathered before members = before ++ members := by
  induction members generalizing before with
  | nil => exact (List.append_nil before).symm
  | cons m rest ih =>
      have hbefore : ∀ n ∈ before, n.1 < m.1 := fun n hn =>
        (List.pairwise_append.mp h).2.2 n hn m List.mem_cons_self
      have happend : before ++ m :: rest = (before ++ [m]) ++ rest := by
        rw [List.append_assoc, List.singleton_append]
      rw [happend] at h ⊢
      rw [gathered, List.foldl_cons, insertMember_last hbefore]
      exact ih h

/-- The members of an object may come in any order. -/
theorem gathers_members {value : Input → Except Error (Json × Input)}
    {members : List (String × Json)} (hmembers : ∀ m ∈ members, Reads value (write m.2) m.2)
    (before : List (String × Json)) :
    Gathers (readEntry value) (fun _ => True) before (writeMembers members)
      (gathered before members) := by
  induction members generalizing before with
  | nil => exact .nil before
  | cons m rest ih =>
      obtain ⟨hm, hrest⟩ := List.forall_mem_cons.mp hmembers
      refine .cons trivial (fun after hafter => ?_) (ih hrest (insertMember m.1 m.2 before))
      rw [readEntry, readColon_colon, ok_bind, hm.reads after hafter, ok_bind]
      rfl

theorem reads_object {depth : Nat} {members : List (String × Json)}
    (hmembers : ∀ m ∈ members, Reads (readValue depth) (write m.2) m.2) :
    Reads (readValue (depth + 1)) (writeObject (writeMembers members))
      (object (gathered [] members)) := by
  refine ⟨rfl, fun rest _ => ?_⟩
  rw [writeObject, List.append_assoc]
  change (readObject (readEntry (readValue depth)) []
    (commaSeparated (writeMembers members) ++ '\x7d' :: rest)).map _ = _
  rw [readObject_written (gathers_members hmembers [])]
  rfl

/-- **Written values are read back.** -/
theorem Canonical.reads {depth : Nat} {v : Json} (h : Canonical depth v) :
    Reads (readValue depth) (write v) v := by
  induction h with
  | null depth => exact reads_null depth
  | bool depth b => exact reads_bool depth b
  | natural depth n => exact reads_natural depth n
  | negative depth n => exact reads_negative depth n
  | string depth s => exact reads_string depth s
  | @array depth items _ ih =>
      refine ⟨rfl, fun rest _ => ?_⟩
      rw [write, writeItems_eq, writeList, List.append_assoc]
      change (readList (readValue depth) (commaSeparated (items.map write) ++ ']' :: rest)).map _ = _
      rw [readList_written ih]
      rfl
  | @object depth members hsorted _ ih =>
      have hinOrder : gathered [] members = members := gathered_of_sorted hsorted
      have hread := reads_object ih
      rw [hinOrder] at hread
      exact hread

end Json

end ServiceDiscovery
