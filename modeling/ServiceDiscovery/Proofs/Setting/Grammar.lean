import Mathlib.Data.List.DropRight
import ServiceDiscovery.Proofs.Setting.Numeral
import ServiceDiscovery.Proofs.Setting.Quotation
/-!
# The grammar of settings in one line

What a text of the environment can be, as languages. A bare text has no mark at its front and none
at its end, so what it is said to be is only what it is not: it has no separator in it, and it does
not begin like a text that is marked. A text with no blanks at its ends is the one or the other.
-/

namespace ServiceDiscovery

namespace Setting

open Text (isBlank isPlainBlank)

/-! ### The grammar -/

def Blanks (t : List Char) : Prop := ∀ c ∈ t, isPlainBlank c = true

/-- A bare text, without the blanks in front of it. -/
structure Bare (t : List Char) : Prop where
  not_separator : ∀ c ∈ t, isSeparator c = false
  head : ∀ c ∈ t.head?, isPlainBlank c = false ∧ c ≠ '"' ∧ c ≠ '\''
  not_word : ∀ b : Bool, ¬ (toString b).toList <+: t

/-- Items with commas between them, and perhaps one behind the last of them. -/
inductive Series (item : List Char → Prop) : List Char → Prop
  | nil : Series item []
  | last {t : List Char} : item t → Series item t
  | cons {t rest : List Char} : item t → Series item rest → Series item (t ++ ',' :: rest)

/-- A key of a table. -/
inductive Key : List Char → Prop
  | quoted {t : List Char} : Quotation t → Key t
  | plain {t : List Char} : t ≠ [] → (∀ c ∈ t, isKeyChar c = true) → Key t

/-- A key and its value. -/
inductive Member (value : List Char → Prop) : List Char → Prop
  | mk {before key after t : List Char} : Blanks before → Key key → Blanks after → value t →
      Member value (before ++ (key ++ (after ++ '=' :: t)))

mutual

/-- A text whose first characters say that it is more than a bare text, and which ends with what
belongs to them. -/
inductive Marked : List Char → Prop
  | word (b : Bool) : Marked (toString b).toList
  | quoted {t : List Char} : Quotation t → Marked t
  | character (c : Char) : Marked ['\'', c, '\'']
  | list {t : List Char} : Series Writes t → Marked ('[' :: (t ++ [']']))
  | table {t : List Char} : Series (Member Writes) t → Marked ('\x7b' :: (t ++ ['\x7d']))

/-- A text that stands for a value, with the blanks around it. Those behind a bare text are part of
it. -/
inductive Writes : List Char → Prop
  | marked {before t after : List Char} : Blanks before → Marked t → Blanks after →
      Writes (before ++ (t ++ after))
  | bare {before t : List Char} : Blanks before → Bare t → Writes (before ++ t)

end

/-- The texts that do not stand for themselves. -/
def Reserved (t : List Char) : Prop := Marked t ∨ Numeral t

/-! ### Characters -/

theorem isSeparator_cases {c : Char} (h : isSeparator c = true) :
    c = ',' ∨ c = '\x7b' ∨ c = '\x7d' ∨ c = '[' ∨ c = ']' := by
  simpa [isSeparator, or_assoc] using h

theorem isPlainBlank_cases {c : Char} (h : isPlainBlank c = true) :
    c = ' ' ∨ c = '\t' ∨ c = '\n' ∨ c = '\r' ∨ c = '\x0c' := by
  simpa [isPlainBlank, or_assoc] using h

section Apart

variable {p : Char → Bool} {c : Char}

theorem isSeparator_eq_false (h : p c = true)
    (hp : (p ',' || p '\x7b' || p '\x7d' || p '[' || p ']') = false) : isSeparator c = false := by
  simp only [Bool.or_eq_false_iff, and_assoc] at hp
  obtain ⟨hcomma, hbrace, hbrace', hbracket, hbracket'⟩ := hp
  refine Bool.eq_false_iff.mpr fun hseparator => ?_
  rcases isSeparator_cases hseparator with rfl | rfl | rfl | rfl | rfl <;> simp_all

theorem isPlainBlank_eq_false (h : p c = true)
    (hp : (p ' ' || p '\t' || p '\n' || p '\r' || p '\x0c') = false) : isPlainBlank c = false := by
  simp only [Bool.or_eq_false_iff, and_assoc] at hp
  obtain ⟨hspace, htab, hline, hreturn, hfeed⟩ := hp
  refine Bool.eq_false_iff.mpr fun hblank => ?_
  rcases isPlainBlank_cases hblank with rfl | rfl | rfl | rfl | rfl <;> simp_all

end Apart

theorem ne_of_isKeyChar {c d : Char} (h : isKeyChar c = true) (hd : isKeyChar d = false) :
    c ≠ d := by
  rintro rfl
  exact Bool.false_ne_true (hd.symm.trans h)

theorem isKeyChar_of_blank {c : Char} (h : isPlainBlank c = true) : isKeyChar c = false := by
  rcases isPlainBlank_cases h with rfl | rfl | rfl | rfl | rfl <;> decide

theorem not_separator_of_mem_word {b : Bool} {c : Char} (h : c ∈ (toString b).toList) :
    isSeparator c = false := by
  have hall : (toString b).toList.all (fun c => !isSeparator c) = true := by cases b <;> rfl
  simpa using List.all_eq_true.mp hall c h

/-! ### First characters -/

theorem Key.exists_cons {key : List Char} (h : Key key) :
    ∃ c t, key = c :: t ∧ isPlainBlank c = false ∧ isSeparator c = false := by
  rcases h with ⟨⟨_⟩⟩ | ⟨hne, hchars⟩
  · exact ⟨_, _, rfl, by decide, by decide⟩
  · obtain _ | ⟨c, key⟩ := key
    · exact absurd rfl hne
    · have hc := hchars c List.mem_cons_self
      exact ⟨c, key, rfl, isPlainBlank_eq_false hc rfl, isSeparator_eq_false hc rfl⟩

theorem Marked.exists_cons {t : List Char} (h : Marked t) :
    ∃ c u, t = c :: u ∧ isPlainBlank c = false ∧ c ≠ ']' := by
  cases h with
  | word b => cases b <;> exact ⟨_, _, rfl, by decide, by decide⟩
  | quoted h =>
      cases h
      exact ⟨_, _, rfl, by decide, by decide⟩
  | _ => exact ⟨_, _, rfl, by decide, by decide⟩

theorem blank_ne {before : List Char} (h : Blanks before) {c : Char} (hc : isSeparator c = true) :
    ∀ b ∈ before.head?, b ≠ c := by
  rintro b hb rfl
  have hplain := isSeparator_eq_false (h b (List.mem_of_mem_head? hb)) rfl
  exact Bool.false_ne_true (hplain.symm.trans hc)

theorem Writes.head_ne {t : List Char} (h : Writes t) : ∀ c ∈ t.head?, c ≠ ']' := by
  rcases h with ⟨hbefore, hmarked, -⟩ | ⟨hbefore, hbare⟩
  · next before t after =>
    obtain _ | ⟨b, before⟩ := before
    · obtain ⟨c, u, rfl, -, hc⟩ := hmarked.exists_cons
      rintro d ⟨⟩
      exact hc
    · exact blank_ne hbefore rfl
  · next before t =>
    obtain _ | ⟨b, before⟩ := before
    · rintro c hc rfl
      cases (hbare.not_separator _ (List.mem_of_mem_head? hc))
    · exact blank_ne hbefore rfl

theorem Member.head_ne {t : List Char} (h : Member Writes t) : ∀ c ∈ t.head?, c ≠ '\x7d' := by
  obtain ⟨hbefore, hkey, -, -⟩ := h
  next before key after t =>
  obtain _ | ⟨b, before⟩ := before
  · obtain ⟨c, u, rfl, -, hc⟩ := hkey.exists_cons
    rintro d ⟨⟩ rfl
    cases hc
  · exact blank_ne hbefore rfl

/-! ### Texts without blanks at their ends -/

theorem isBlank_of_isPlainBlank {c : Char} (h : isPlainBlank c = true) : isBlank c = true := by
  rcases isPlainBlank_cases h with rfl | rfl | rfl | rfl | rfl <;> rfl

theorem not_blank_head_of_dropWhile {p : Char → Bool} {t : List Char} (h : t.dropWhile p = t) :
    ∀ c ∈ t.head?, p c = false := by
  intro c hc
  have hhead := List.head?_dropWhile_not p t
  rw [h, hc] at hhead
  simpa using hhead

/-- A text that has nothing to trim has no blank at either end. -/
theorem not_blank_of_trim {t : List Char} (h : Text.trim t = t) :
    (∀ c ∈ t.head?, isBlank c = false) ∧ ∀ c ∈ t.getLast?, isBlank c = false := by
  have hfront : t.dropWhile isBlank = t := by
    have hwhole := congrArg List.length h
    rw [Text.trim, List.length_reverse] at hwhole
    refine (List.dropWhile_suffix _).eq_of_length_le ?_
    calc t.length = ((t.dropWhile isBlank).reverse.dropWhile isBlank).length := hwhole.symm
      _ ≤ (t.dropWhile isBlank).reverse.length := (List.dropWhile_suffix _).length_le
      _ = (t.dropWhile isBlank).length := List.length_reverse
  rw [Text.trim, hfront, List.reverse_eq_iff] at h
  refine ⟨not_blank_head_of_dropWhile hfront, fun c hc => ?_⟩
  rw [← List.head?_reverse] at hc
  exact not_blank_head_of_dropWhile h c hc

theorem Writes.cases_of_trim {t : List Char} (h : Writes t) (ht : Text.trim t = t) :
    Marked t ∨ Bare t := by
  obtain ⟨hfirst, hlast⟩ := not_blank_of_trim ht
  have hfront : ∀ before u, Blanks before → t = before ++ u → before = [] := by
    rintro before u hbefore rfl
    obtain _ | ⟨c, before⟩ := before
    · rfl
    · have hc := isBlank_of_isPlainBlank (hbefore c List.mem_cons_self)
      exact absurd (hc.symm.trans (hfirst c rfl)) nofun
  have hback : ∀ u after, Blanks after → t = u ++ after → after = [] := by
    rintro u after hafter rfl
    cases hend : after.getLast? with
    | none => exact List.getLast?_eq_none_iff.mp hend
    | some c =>
        have hc := isBlank_of_isPlainBlank (hafter c (List.mem_of_getLast? hend))
        rw [List.getLast?_append, hend] at hlast
        exact absurd (hc.symm.trans (hlast c rfl)) nofun
  rcases h with ⟨hbefore, hmarked, hafter⟩ | ⟨hbefore, hbare⟩
  · obtain rfl := hfront _ _ hbefore rfl
    obtain rfl := hback _ _ hafter rfl
    rw [List.nil_append, List.append_nil]
    exact .inl hmarked
  · obtain rfl := hfront _ _ hbefore rfl
    exact .inr hbare

theorem Numeral.bare {t : List Char} (h : Numeral t) : Bare t where
  not_separator c hc := isSeparator_eq_false (h.numeric c hc) rfl
  head c hc := by
    have hc := h.numeric c (List.mem_of_mem_head? hc)
    refine ⟨isPlainBlank_eq_false hc rfl, ?_⟩
    constructor <;> (rintro rfl; cases hc)
  not_word b hword := by
    obtain ⟨u, rfl⟩ := hword
    cases b with
    | false => cases h.numeric 'f' (List.mem_append_left u (by decide))
    | true => cases h.numeric 't' (List.mem_append_left u (by decide))

end Setting

end ServiceDiscovery
