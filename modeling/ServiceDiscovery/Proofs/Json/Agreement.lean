import ServiceDiscovery.Proofs.Json.Meaning
import ServiceDiscovery.Proofs.Json.Skipping
import ServiceDiscovery.Proofs.Message
/-!
# Reading a text and reading a value agree

A value of a shape can be read out of a text or out of a JSON value. The two readers share nothing
but the check of a number: one goes through characters, with separators between the elements, and
skips what it does not know; the other goes through a tree. On a written value they give the same.
Failures are told in other words, in an order of their own, so nothing is said of them but that they
come together.

The shape need not be sound for this. A text holds the members in the order of the object and the
items in the order of the list, and either reader fills the slots of a record in that order.
-/

namespace ServiceDiscovery

namespace Json

theorem Yields.map {α β : Type} {reader : Input → Except Error (α × Input)} {text : List Char}
    {result : Except Error α} (h : Yields reader text result.toOption) (f : α → β) :
    Yields (fun t => (reader t).map fun (v, t) => (f v, t)) text (result.map f).toOption := by
  intro rest hrest
  rw [toOption_map, toOption_map, h rest hrest, Option.map_map, Option.map_map]
  rfl

/-! ### The first character -/

/-- What the first character of a written value tells of it. -/
structure Begins (v : Json) (c : Char) : Prop where
  space : isSpace c = false
  null : c = 'n' → v = .null
  number : c = '-' ∨ c.isDigit = true → ∃ n, v = .number n
  string : c = '"' → ∃ s, v = .string s
  array : c = '[' → ∃ items, v = .array items
  object : c = '\x7b' → ∃ members, v = .object members

theorem begins_write {depth : Nat} {v : Json} (h : Canonical depth v) :
    ∃ c t, write v = c :: t ∧ v.Begins c := by
  cases h with
  | null => exact ⟨'n', _, rfl, by constructor <;> simp [isSpace]⟩
  | bool _ b =>
      cases b with
      | true => exact ⟨'t', _, rfl, by constructor <;> simp [isSpace]⟩
      | false => exact ⟨'f', _, rfl, by constructor <;> simp [isSpace]⟩
  | natural _ n =>
      obtain ⟨c, digits, hwritten, hdigit⟩ := exists_digit_writeNat n.toNat
      have hne : ∀ {d : Char}, d.isDigit = false → c ≠ d := ne_of_isDigit hdigit
      exact ⟨c, digits, hwritten, isSpace_of_isDigit hdigit, fun h => absurd h (hne rfl),
        fun _ => ⟨_, rfl⟩, fun h => absurd h (hne rfl), fun h => absurd h (hne rfl),
        fun h => absurd h (hne rfl)⟩
  | negative => exact ⟨'-', _, rfl, by constructor <;> simp [isSpace]⟩
  | string => exact ⟨'"', _, rfl, by constructor <;> simp [isSpace]⟩
  | array => exact ⟨'[', _, rfl, by constructor <;> simp [isSpace]⟩
  | object => exact ⟨'\x7b', _, rfl, by constructor <;> simp [isSpace]⟩

/-- A value of another kind than the one that is wanted. -/
theorem yields_mismatch {α : Type} {depth : Nat} {v : Json} {result : Except Error α}
    {reader : Input → Except Error (α × Input)} (h : Canonical depth v)
    (hreader : ∀ c, v.Begins c → ∀ t, (reader (c :: t)).toOption = none)
    (hresult : result.toOption = none) : Yields reader (write v) result.toOption := by
  intro rest _
  obtain ⟨c, t, hwritten, hbegins⟩ := begins_write h
  rw [hwritten, List.cons_append, hreader c hbegins, hresult]
  rfl

/-! ### Elements -/

/-- A list is not closed where a further item stands. -/
theorem closeList_elements {first : Bool} {text : List Char} (texts : List (List Char))
    (rest : Input) (h : Opens text) :
    (closeList (elements first (text :: texts) ++ rest)).toOption = none := by
  obtain ⟨c, t, heq, hspace, hclosing⟩ : ∃ c t,
      elements first (text :: texts) ++ rest = c :: t ∧ isSpace c = false ∧ c ≠ ']' := by
    cases first with
    | true =>
        obtain ⟨c, t, rfl, hspace, hclosing, -⟩ := h.exists_cons
        rw [elements_first]
        exact ⟨c, _, rfl, hspace, hclosing⟩
    | false => exact ⟨',', _, rfl, rfl, by decide⟩
  rw [heq, closeList, skipSpace_cons t hspace]
  dsimp only
  rw [if_neg hclosing]
  split_ifs <;> rfl

theorem yields_members {σ : Type} {member : σ → String → Input → Except Error (σ × Input)}
    {f : σ → String × Json → Except Error σ} {members : List (String × Json)}
    (h : ∀ m ∈ members, ∀ s, Yields (member s m.1) (':' :: write m.2) (f s m).toOption)
    (first : Bool) {room : Input} (hroom : members.length < room.length) (s : σ) (rest : Input) :
    (readMembers member room first s
      (elements first (writeMembers members) ++ '\x7d' :: rest)).toOption =
      (members.foldlM f s).toOption.map fun s => (s, rest) := by
  induction members generalizing first room s with
  | nil =>
      cases room with
      | nil => cases hroom
      | cons c room =>
          rw [readMembers, writeMembers, elements_nil, List.nil_append, nextKey_closing, ok_bind]
          rfl
  | cons m members ih =>
      obtain ⟨hm, hmembers⟩ := List.forall_mem_cons.mp h
      cases room with
      | nil => cases hroom
      | cons c room =>
          have hlater := ih hmembers false (Nat.lt_of_succ_lt_succ hroom)
          have hfollows := follows_elements (writeMembers members)
            (follows_cons rest (.inr (.inr rfl)))
          have hmember := hm s _ hfollows
          rw [List.cons_append] at hmember
          rw [readMembers, writeMembers, nextKey_elements, ok_bind]
          dsimp only
          rw [readString_escaped, ok_bind]
          dsimp only
          rw [toOption_bind, hmember, List.foldlM_cons, toOption_bind]
          cases f s m with
          | error e => rfl
          | ok s' => exact hlater s'

/-! ### Readers of one kind of value -/

section Kinds

variable {c : Char} {depth : Nat} {v : Json}

theorem readUnsigned_of_ne (label : String) (bound : Nat) (hspace : isSpace c = false)
    (hc : ¬ (c = '-' ∨ c.isDigit = true)) (t : Input) :
    (readUnsigned label bound (c :: t)).toOption = none := by
  rw [readUnsigned, skipSpace_cons t hspace]
  dsimp only
  rw [if_neg hc]
  rfl

theorem yields_unsigned (label : String) (bound : Nat) (hv : Canonical depth v) :
    Yields (readUnsigned label bound) (write v) (ofUnsigned label bound v).toOption := by
  have hwhole := hv
  cases hv with
  | natural _ n =>
      intro rest hrest
      obtain ⟨c, digits, hwritten, hdigit⟩ := exists_digit_writeNat n.toNat
      have hread := readNumber_natural n.toNat_lt hrest
      change (readUnsigned label bound (writeNat n.toNat ++ rest)).toOption =
        (unsigned label bound (.natural n)).toOption.map _
      rw [hwritten, List.cons_append, UInt64.ofNat_toNat] at hread
      rw [hwritten, List.cons_append, readUnsigned, skipSpace_cons _ (isSpace_of_isDigit hdigit)]
      dsimp only
      rw [if_pos (.inr hdigit), if_neg (ne_of_isDigit hdigit rfl), hread, ok_bind]
      cases unsigned label bound (.natural n) <;> rfl
  | negative _ n =>
      intro rest hrest
      change (readNumber true (writeNat (n.val + 1) ++ rest) >>= _).toOption = none
      rw [readNumber_negative n hrest, ok_bind]
      rfl
  | _ =>
      refine yields_mismatch hwhole (fun c hbegins t => ?_) rfl
      refine readUnsigned_of_ne label bound hbegins.space (fun hc => ?_) t
      obtain ⟨n, hn⟩ := hbegins.number hc
      cases hn

theorem read_string_of_ne (hspace : isSpace c = false) (hc : c ≠ '"') (t : Input) :
    (Shape.string.read depth (c :: t)).toOption = none := by
  rw [Shape.read, skipSpace_cons t hspace]
  split
  · rfl
  · next heq => exact absurd (List.cons.inj heq).1 hc
  · rfl

theorem yields_string (hv : Canonical depth v) :
    Yields (Shape.string.read depth) (write v) (Shape.string.ofJson v).toOption := by
  have hwhole := hv
  cases hv with
  | string _ s =>
      have hread : Reads (Shape.string.read depth) (writeString s) s :=
        Shape.reads .string trivial trivial
      exact hread.yields
  | _ =>
      refine yields_mismatch hwhole (fun c hbegins t => ?_) rfl
      refine read_string_of_ne hbegins.space (fun hc => ?_) t
      obtain ⟨s, hs⟩ := hbegins.string hc
      cases hs

/-- A value that is there is read with its own reader, since only `null` begins with that letter. -/
theorem yields_optional {α : Type} {s : Shape α} (hv : Canonical depth v)
    (h : Yields (s.read depth) (write v) (s.ofJson v).toOption) :
    Yields ((Shape.optional s).read depth) (write v) ((Shape.optional s).ofJson v).toOption := by
  intro rest hrest
  by_cases hnull : v = .null
  · subst hnull
    change ((readWord "ull".toList ("ull".toList ++ rest)).map fun t => (none, t)).toOption = _
    rw [readWord_append]
    rfl
  · obtain ⟨c, t, hwritten, hbegins⟩ := begins_write hv
    have hvalue := h.map some rest hrest
    have hresult : (Shape.optional s).ofJson v = (s.ofJson v).map some := by
      cases v with
      | null => exact absurd rfl hnull
      | _ => rfl
    rw [hwritten, List.cons_append] at hvalue ⊢
    rw [hresult, ← hvalue, Shape.read, skipSpace_cons _ hbegins.space]
    split
    · next heq => exact absurd (hbegins.null (List.cons.inj heq).1) hnull
    · rfl

theorem read_list_of_ne {α : Type} {s : Shape α} (hspace : isSpace c = false) (hc : c ≠ '[')
    (t : Input) : ((Shape.list s).read depth (c :: t)).toOption = none := by
  unfold Shape.read
  rw [skipSpace_cons t hspace]
  split
  · rfl
  · rfl
  · next heq => exact absurd (List.cons.inj heq).1 hc
  · rfl

theorem read_record_of_ne {σ α β : Type} {name : String} {fields : Fields σ α} {build : α → β}
    {parts : β → α} (hspace : isSpace c = false) (hlist : c ≠ '[') (hobject : c ≠ '\x7b')
    (t : Input) :
    ((Shape.record name fields build parts).read depth (c :: t)).toOption = none := by
  unfold Shape.read
  rw [skipSpace_cons t hspace]
  split
  · rfl
  · rfl
  · rfl
  · next heq => exact absurd (List.cons.inj heq).1 hlist
  · next heq => exact absurd (List.cons.inj heq).1 hobject
  · rfl

theorem opens_items {items : List Json} (h : ∀ v ∈ items, Canonical depth v) :
    ∀ text ∈ items.map write, Opens text := by
  intro text htext
  obtain ⟨v, hv, rfl⟩ := List.mem_map.mp htext
  exact (h v hv).reads.opens

theorem opens_members (members : List (String × Json)) :
    ∀ text ∈ writeMembers members, Opens text := by
  intro text htext
  rw [writeMembers_eq] at htext
  obtain ⟨m, -, rfl⟩ := List.mem_map.mp htext
  exact opens_writeMember _ _

theorem yields_list {α : Type} {s : Shape α} (hv : Canonical depth v)
    (h : ∀ {depth v}, Canonical depth v → Yields (s.read depth) (write v) (s.ofJson v).toOption) :
    Yields ((Shape.list s).read depth) (write v) ((Shape.list s).ofJson v).toOption := by
  have hwhole := hv
  cases hv with
  | @array depth items hitems =>
      intro rest _
      rw [write, writeItems_eq, writeList, List.append_assoc]
      exact readList_elements (fun v hv => (hitems v hv).reads.opens) (fun v hv => h (hitems v hv))
        rest
  | _ =>
      refine yields_mismatch hwhole (fun c hbegins t => ?_) rfl
      refine read_list_of_ne hbegins.space (fun hc => ?_) t
      obtain ⟨items, hitems⟩ := hbegins.array hc
      cases hitems

/-! ### Records -/

variable {σ α β : Type} {fields : Fields σ α}

/-- A record is read from a list or from an object, whichever the value is. -/
theorem yields_record {name : String} {build : α → β} {parts : β → α} (hv : Canonical depth v)
    (hitems : ∀ {depth : Nat} {items : List Json} (owner : String) (rest : Input),
      (∀ v ∈ items, Canonical depth v) →
      (fields.readItems owner depth 0 (elements true (items.map write) ++ ']' :: rest)).toOption =
        (fields.ofItems owner items.length 0 items).toOption.map fun xs => (xs, rest))
    (hmember : ∀ {depth : Nat} {v : Json} (slots : σ) (key : String), Canonical depth v →
      Yields (fields.readMember depth slots key) (':' :: write v)
        (fields.ofMember slots key v).toOption) :
    Yields ((Shape.record name fields build parts).read depth) (write v)
      ((Shape.record name fields build parts).ofJson v).toOption := by
  have hwhole := hv
  cases hv with
  | @array depth items hcanonical =>
      intro rest _
      have hread := hitems (lengthWanted name fields.size) rest hcanonical
      rw [write, writeItems_eq, writeList, List.append_assoc]
      change ((fields.readItems _ depth 0 (elements true (items.map write) ++ ']' :: rest)).map
        _).toOption = ((fields.ofItems _ items.length 0 items).map build).toOption.map _
      rw [toOption_map, hread, toOption_map, Option.map_map, Option.map_map]
      rfl
  | @object depth members _ hcanonical =>
      intro rest _
      have hroom := length_lt_elements (opens_members members) true '\x7d' rest
      rw [writeMembers_eq, List.length_map, ← writeMembers_eq] at hroom
      have hread : (readObject (fields.readMember depth) fields.empty
          (elements true (writeMembers members) ++ '\x7d' :: rest)).toOption = _ :=
        yields_members (f := fun slots m => fields.ofMember slots m.1 m.2)
          (fun m hm slots => hmember slots m.1 (hcanonical m hm)) true hroom fields.empty rest
      rw [write, writeObject, List.append_assoc]
      change (readObject (fields.readMember depth) fields.empty
        (elements true (writeMembers members) ++ '\x7d' :: rest) >>= _).toOption =
          (members.foldlM (fun slots m => fields.ofMember slots m.1 m.2) fields.empty >>=
            _).toOption.map _
      rw [toOption_bind, hread, toOption_bind]
      cases members.foldlM (fun slots m => fields.ofMember slots m.1 m.2) fields.empty with
      | error e => rfl
      | ok slots =>
          change (fields.finish slots >>= _).toOption = (fields.finish slots >>= _).toOption.map _
          cases fields.finish slots <;> rfl
  | _ =>
      refine yields_mismatch hwhole (fun c hbegins t => ?_) rfl
      refine read_record_of_ne hbegins.space (fun hc => ?_) (fun hc => ?_) t
      · obtain ⟨items, hitems⟩ := hbegins.array hc
        cases hitems
      · obtain ⟨members, hmembers⟩ := hbegins.object hc
        cases hmembers

end Kinds

/-! ### Shapes -/

mutual

/-- A text is read as the value that it writes is, by every shape. -/
theorem Shape.yields {α : Type} : (s : Shape α) → ∀ {depth : Nat} {v : Json}, Canonical depth v →
    Yields (s.read depth) (write v) (s.ofJson v).toOption
  | .string, _, _, hv => yields_string hv
  | .uint16, _, _, hv => (yields_unsigned "u16" UInt16.size hv).map UInt16.ofNat
  | .uint32, _, _, hv => (yields_unsigned "u32" UInt32.size hv).map UInt32.ofNat
  | .any, _, _, hv => hv.reads.yields
  | .optional s, _, _, hv => yields_optional hv (s.yields hv)
  | .list s, _, _, hv => yields_list hv s.yields
  | .record _ fields _ _, _, _, hv =>
      yields_record hv (fun owner rest hitems => fields.items_yield owner hitems _ 0 rest)
        fields.member_yields

theorem Fields.member_yields {σ α : Type} : (f : Fields σ α) → ∀ {depth : Nat} {v : Json}
    (slots : σ) (key : String), Canonical depth v →
      Yields (f.readMember depth slots key) (':' :: write v) (f.ofMember slots key v).toOption
  | .nil, _, v, (), key, hv => by
      intro rest hrest
      change (skipValue (write v ++ rest) >>= fun t => Except.ok ((), t)).toOption = _
      rw [hv.skipValue_write hrest]
      rfl
  | .cons name shape absent silent later, depth, v, (slot, slots), key, hv => by
      intro rest hrest
      rw [Fields.readMember, Fields.ofMember]
      by_cases hname : key = name
      · rw [if_pos hname, if_pos hname]
        cases slot with
        | some x => rfl
        | none =>
            change (shape.read depth (write v ++ rest) >>= _).toOption =
              (shape.ofJson v >>= _).toOption.map _
            rw [toOption_bind, shape.yields hv rest hrest]
            cases shape.ofJson v <;> rfl
      · rw [if_neg hname, if_neg hname]
        have hlater := later.member_yields slots key hv rest hrest
        rw [toOption_map, hlater, toOption_map, Option.map_map, Option.map_map]
        rfl

theorem Fields.items_yield {σ α : Type} (owner : String) : (f : Fields σ α) →
    ∀ {depth : Nat} {items : List Json}, (∀ v ∈ items, Canonical depth v) →
      ∀ (total read : Nat) (rest : Input),
        (f.readItems owner depth read
          (elements (read = 0) (items.map write) ++ ']' :: rest)).toOption =
            (f.ofItems owner total read items).toOption.map fun xs => (xs, rest)
  | .nil, _, [], _, _, _, rest => by
      rw [List.map_nil, elements_nil]
      rfl
  | .nil, _, v :: items, hitems, _, _, rest => by
      have hopens := (opens_items hitems) (write v) List.mem_cons_self
      rw [Fields.readItems, toOption_map, List.map_cons, closeList_elements _ _ hopens]
      rfl
  | .cons name shape absent silent later, _, [], _, _, read, rest => by
      rw [Fields.readItems, List.map_nil, elements_nil, List.nil_append, nextItem_closing, ok_bind]
      dsimp only
      rw [Fields.ofItems]
      cases (Fields.cons name shape absent silent later).defaults owner read <;> rfl
  | .cons name shape absent silent later, depth, v :: items, hitems, total, read, rest => by
      obtain ⟨hv, hitems⟩ := List.forall_mem_cons.mp hitems
      have hfollows := follows_elements (items.map write) (follows_cons rest (.inr (.inl rfl)))
      have hlater : (later.readItems owner depth (read + 1)
          (elements false (items.map write) ++ ']' :: rest)).toOption = _ :=
        later.items_yield owner hitems total (read + 1) rest
      rw [Fields.readItems, List.map_cons, nextItem_elements _ _ _ hv.reads.opens, ok_bind]
      dsimp only
      rw [toOption_bind, shape.yields hv _ hfollows, Fields.ofItems, toOption_bind]
      cases shape.ofJson v with
      | error e => rfl
      | ok x =>
          change (later.readItems owner depth (read + 1)
            (elements false (items.map write) ++ ']' :: rest) >>= _).toOption =
            (later.ofItems owner total (read + 1) items >>= _).toOption.map _
          rw [toOption_bind, hlater, toOption_bind]
          cases later.ofItems owner total (read + 1) items <;> rfl

end

theorem Shape.toOption_parse_text {α : Type} (s : Shape α) {v : Json} (hv : Canonical maxDepth v) :
    (s.parse v.text).toOption = (s.ofJson v).toOption := by
  have hread := s.yields hv [] follows_nil
  rw [List.append_nil] at hread
  rw [Shape.parse, readWhole, Json.text, String.toList_ofList, toOption_bind, hread]
  cases s.ofJson v <;> rfl

/-- **A text and the value that it writes are read alike.** A JSON value with whole numbers, nested
no deeper than is read at all, gives the same through its text as by itself, whatever it is read as:
a request, a response, a resource, an endpoint or the payload of a resource. It gives something
through the one exactly when it does through the other, and that is what the value stands for. -/
theorem readers_agree {v : Json} (hv : Canonical maxDepth v) {α : Type} (s : Shape α) :
    (∀ x, s.parse v.text = .ok x ↔ s.ofJson v = .ok x) ∧
      (s.Sound → ∀ x, s.parse v.text = .ok x ↔ s.Means v x) := by
  have hagree : ∀ x, s.parse v.text = .ok x ↔ s.ofJson v = .ok x := by
    intro x
    rw [← toOption_eq_some_iff, s.toOption_parse_text hv, toOption_eq_some_iff]
  exact ⟨hagree, fun hs x => (hagree x).trans (s.ofJson_eq_ok_iff hs)⟩

/-- Members that are missing, `null` or unknown, and lists in the place of records that are too
short, exact and too long. -/
theorem readers_agree_mixed :
    let resource : Json :=
      .object [("spare", .array [.null, .object [("", .string "\n")]]), ("type_url", .string "t")]
    let response : Json :=
      .array [.string "1", .string "n",
        .array [resource, .array [.string "u"], .array [.string "u", .number (.negative 0)]]]
    let request : Json :=
      .object [("client_identity", .string "c"), ("error_detail", .null),
        ("resource_names", .array []), ("resource_type", .string "t")]
    let endpoint : Json := .array [.string "h", natural 1, natural 2, .null]
    (∀ v ∈ [resource, response, request, endpoint], Canonical maxDepth v) ∧
      Resource.shape.parse resource.text = .ok ⟨"t", .null⟩ ∧
      Response.shape.parse response.text =
        .ok ⟨"1", "n", [⟨"t", .null⟩, ⟨"u", .null⟩, ⟨"u", .number (.negative 0)⟩]⟩ ∧
      Request.shape.parse request.text = .ok ⟨"c", "t", [], "", "", none⟩ ∧
      Request.shape.Sound ∧ Request.shape.Means request ⟨"c", "t", [], "", "", none⟩ ∧
      ∀ e, Endpoint.shape.parse endpoint.text ≠ .ok e := by
  intro resource response request endpoint
  have hresource : ∀ depth, Canonical (depth + 3) resource := by
    intro depth
    refine .object (by decide +kernel) ?_
    simp only [List.forall_mem_cons]
    refine ⟨.array ?_, .string _ _, nofun⟩
    simp only [List.forall_mem_cons]
    refine ⟨.null _, .object (List.pairwise_singleton _ _) ?_, nofun⟩
    exact List.forall_mem_singleton.mpr (.string _ _)
  have hresponse : Canonical maxDepth response := by
    refine .array ?_
    simp only [List.forall_mem_cons]
    refine ⟨.string _ _, .string _ _, .array ?_, nofun⟩
    simp only [List.forall_mem_cons]
    refine ⟨hresource _, .array (List.forall_mem_singleton.mpr (.string _ _)), .array ?_, nofun⟩
    simp only [List.forall_mem_cons]
    exact ⟨.string _ _, .negative _ _, nofun⟩
  have hrequest : Canonical maxDepth request := by
    refine .object (by decide +kernel) ?_
    simp only [List.forall_mem_cons]
    exact ⟨.string _ _, .null _, .array nofun, .string _ _, nofun⟩
  have hendpoint : Canonical maxDepth endpoint := by
    refine .array ?_
    simp only [List.forall_mem_cons]
    exact ⟨.string _ _, .natural _ _, .natural _ _, .null _, nofun⟩
  have hparse : Request.shape.parse request.text = .ok ⟨"c", "t", [], "", "", none⟩ :=
    ((readers_agree hrequest _).1 _).mpr rfl
  refine ⟨?_, ((readers_agree (hresource 124) _).1 _).mpr rfl,
    ((readers_agree hresponse _).1 _).mpr rfl, hparse, Request.shape_sound,
    ((readers_agree hrequest _).2 Request.shape_sound _).mp hparse, ?_⟩
  · simp only [List.forall_mem_cons]
    exact ⟨hresource 124, hresponse, hrequest, hendpoint, nofun⟩
  · intro e he
    have hvalue := ((readers_agree hendpoint Endpoint.shape).1 e).mp he
    cases hvalue

end Json

end ServiceDiscovery
