import Mathlib.Data.List.Forall2
import ServiceDiscovery.Proofs.Frame.Lines
import ServiceDiscovery.Proofs.Message
/-!
# Responses are received line by line

Taking responses off a stream until it is over is reading its lines one after another, up to the
first that holds no response. Every call takes off one line, so it is enough to know what a call
makes of a stream that begins with a line, and of one that is a line without an end.
-/

namespace ServiceDiscovery

namespace Frame

open Json (Canonical)

/-! ### One line -/

/-- The line is short enough and holds the response. A carriage return at its end does not belong to
what is read, but to its length. -/
structure Holds (line : List UInt8) (r : Response) : Prop where
  short : line.length ≤ maxLength
  reads : ∃ s, text? (dropReturn line) = some s ∧ Response.shape.parse s = .ok r

/-- The text of a line, or why it has none. -/
def textOf (line : List UInt8) : Except ConnectionFailure String :=
  if line.length > maxLength then .error .lineTooLong
  else
    match text? (dropReturn line) with
    | some s => .ok s
    | none => .error .notText

/-- The response that a line holds, or why it breaks the connection. -/
def responseOf (line : List UInt8) : Except ConnectionFailure Response :=
  (textOf line).bind fun s => (Response.shape.parse s).mapError .malformed

theorem textOf_eq_ok_iff {line : List UInt8} {s : String} :
    textOf line = .ok s ↔ line.length ≤ maxLength ∧ text? (dropReturn line) = some s := by
  rw [textOf]
  split_ifs with hlong
  · exact ⟨nofun, fun h => absurd hlong (Nat.not_lt.mpr h.1)⟩
  · cases text? (dropReturn line) with
    | none => exact ⟨nofun, fun h => nomatch h.2⟩
    | some s' => simp [Nat.le_of_not_lt hlong]

theorem responseOf_eq_ok_iff {line : List UInt8} {r : Response} :
    responseOf line = .ok r ↔ Holds line r := by
  rw [responseOf]
  constructor
  · intro h
    cases htext : textOf line with
    | error f =>
        rw [htext] at h
        cases h
    | ok s =>
        obtain ⟨hshort, hs⟩ := textOf_eq_ok_iff.mp htext
        refine ⟨hshort, s, hs, ?_⟩
        rw [htext, Except.bind] at h
        cases hparse : Response.shape.parse s with
        | error e =>
            rw [hparse] at h
            cases h
        | ok r' =>
            rw [hparse] at h
            exact congrArg Except.ok (Except.ok.inj h)
  · rintro ⟨hshort, s, hs, hparse⟩
    rw [textOf_eq_ok_iff.mpr ⟨hshort, hs⟩, Except.bind, hparse]
    rfl

theorem kind_of_textOf_eq_error {line : List UInt8} {f : ConnectionFailure}
    (h : textOf line = .error f) : f.kind = .invalidData := by
  rw [textOf] at h
  split_ifs at h
  · cases h
    rfl
  · split at h
    · cases h
    · cases h
      rfl

theorem kind_of_responseOf_eq_error {line : List UInt8} {f : ConnectionFailure}
    (h : responseOf line = .error f) : f.kind = .invalidData := by
  rw [responseOf] at h
  cases htext : textOf line with
  | error f' =>
      rw [htext] at h
      cases h
      exact kind_of_textOf_eq_error htext
  | ok s =>
      rw [htext, Except.bind] at h
      cases hparse : Response.shape.parse s with
      | error e =>
          rw [hparse] at h
          cases h
          rfl
      | ok r =>
          rw [hparse] at h
          cases h

/-! ### One call -/

theorem receive_of_next {bytes line rest : List UInt8}
    (h : next bytes = (textOf line).map fun s => (some s, rest)) :
    receive bytes = (responseOf line).map fun r => (some r, rest) := by
  rw [receive, h, responseOf]
  cases textOf line with
  | error f => rfl
  | ok s =>
      simp only [Except.map, Except.bind]
      cases Response.shape.parse s <;> rfl

theorem receive_more {line : List UInt8} (h : lineFeed ∉ line) (rest : List UInt8) :
    receive (line ++ lineFeed :: rest) = (responseOf line).map fun r => (some r, rest) := by
  apply receive_of_next
  rw [next, cut_more h, textOf]
  simp only [Option.isNone_some, Bool.false_eq_true, false_and, if_false, Option.getD_some]
  split_ifs
  · rfl
  · cases text? (dropReturn line) <;> rfl

theorem receive_last {line : List UInt8} (h : lineFeed ∉ line)
    (hmore : ¬ (line = [] ∨ line = [carriageReturn])) :
    receive line = (responseOf line).map fun r => (some r, []) := by
  apply receive_of_next
  rw [next, cut_last h, textOf]
  simp only [Option.isNone_none, true_and, hmore, if_false, Option.getD_none]
  split_ifs
  · rfl
  · cases text? (dropReturn line) <;> rfl

theorem receive_over {line : List UInt8} (hover : line = [] ∨ line = [carriageReturn]) :
    receive line = .ok (none, []) := by
  rcases hover with rfl | rfl <;> rfl

theorem receive_shorter {bytes rest : List UInt8} {r : Response}
    (h : receive bytes = .ok (some r, rest)) : rest.length < bytes.length := by
  induction bytes using streamInduction with
  | last line hline =>
      by_cases hover : line = [] ∨ line = [carriageReturn]
      · rw [receive_over hover] at h
        cases h
      · rw [receive_last hline hover] at h
        cases hread : responseOf line with
        | error f =>
            rw [hread] at h
            cases h
        | ok r' =>
            rw [hread] at h
            cases h
            exact List.length_pos_iff.mpr fun hempty => hover (.inl hempty)
  | more line rest' hline _ =>
      rw [receive_more hline] at h
      cases hread : responseOf line with
      | error f =>
          rw [hread] at h
          cases h
      | ok r' =>
          rw [hread] at h
          cases h
          rw [List.length_append, List.length_cons]
          omega

/-! ### All calls -/

/-- The responses that successive calls take off a closed stream, up to its end or to a failure. -/
def receiveAll (bytes : List UInt8) : List Response × Option ConnectionFailure :=
  match _h : receive bytes with
  | .error f => ([], some f)
  | .ok (none, _) => ([], none)
  | .ok (some r, rest) => (r :: (receiveAll rest).1, (receiveAll rest).2)
termination_by bytes.length
decreasing_by all_goals exact receive_shorter _h

/-- The responses of some lines, up to the first line that holds none. -/
def readLines : List (List UInt8) → List Response × Option ConnectionFailure
  | [] => ([], none)
  | line :: rest =>
    match responseOf line with
    | .error f => ([], some f)
    | .ok r => (r :: (readLines rest).1, (readLines rest).2)

theorem receiveAll_of_receive {bytes line rest : List UInt8}
    (h : receive bytes = (responseOf line).map fun r => (some r, rest)) :
    receiveAll bytes = match responseOf line with
      | .error f => ([], some f)
      | .ok r => (r :: (receiveAll rest).1, (receiveAll rest).2) := by
  rw [receiveAll]
  cases hread : responseOf line with
  | error f =>
      rw [hread] at h
      split
      · next hfailed =>
          rw [h] at hfailed
          cases hfailed
          rfl
      · next hover =>
          rw [h] at hover
          cases hover
      · next htaken =>
          rw [h] at htaken
          cases htaken
  | ok r =>
      rw [hread] at h
      split
      · next hfailed =>
          rw [h] at hfailed
          cases hfailed
      · next hover =>
          rw [h] at hover
          cases hover
      · next htaken =>
          rw [h] at htaken
          cases htaken
          rfl

theorem receiveAll_of_over {line : List UInt8} (hover : line = [] ∨ line = [carriageReturn]) :
    receiveAll line = ([], none) := by
  rw [receiveAll]
  split
  · next hfailed =>
      rw [receive_over hover] at hfailed
      cases hfailed
  · rfl
  · next htaken =>
      rw [receive_over hover] at htaken
      cases htaken

/-- **Receiving is reading line by line.** -/
theorem receiveAll_eq (bytes : List UInt8) : receiveAll bytes = readLines (lines bytes) := by
  induction bytes using streamInduction with
  | last line hline =>
      rw [lines_last hline]
      split_ifs with hover
      · exact receiveAll_of_over hover
      · rw [receiveAll_of_receive (receive_last hline hover), receiveAll_of_over (.inl rfl)]
        rfl
  | more line rest hline ih =>
      rw [lines_more hline, receiveAll_of_receive (receive_more hline rest), ih]
      rfl

theorem readLines_append {before : List (List UInt8)} {rs : List Response}
    (h : List.Forall₂ Holds before rs) (rest : List (List UInt8)) :
    readLines (before ++ rest) = (rs ++ (readLines rest).1, (readLines rest).2) := by
  induction h with
  | nil => rfl
  | cons hline _ ih =>
      rw [List.cons_append, readLines, responseOf_eq_ok_iff.mpr hline, ih]
      rfl

/-! ### Written responses -/

/-- How the end of a line is written. -/
inductive LineEnd where
  | feed
  | returnAndFeed
  deriving DecidableEq, Repr

/-- What stands before the line feed of a line end. -/
def LineEnd.returns : LineEnd → List UInt8
  | feed => []
  | returnAndFeed => [carriageReturn]

def writtenLine (r : Response) (e : LineEnd) : List UInt8 :=
  bytesOf (Response.shape.text r) ++ e.returns

/-- Responses, each with a line end, and behind them perhaps one without. -/
def written (ended : List (Response × LineEnd)) (last : Option Response) : List UInt8 :=
  (ended.flatMap fun m => writtenLine m.1 m.2 ++ [lineFeed]) ++
    last.elim [] fun r => bytesOf (Response.shape.text r)

/-- All payloads have whole numbers only and do not nest too deeply. -/
def Plain (r : Response) : Prop := ∀ x ∈ r.resources, Canonical 100 x.value

theorem dropReturn_of_not_mem {line : List UInt8} (h : carriageReturn ∉ line) :
    dropReturn line = line := by
  rw [dropReturn, if_neg fun hlast => h (List.mem_of_getLast? hlast)]

theorem dropReturn_returns {line : List UInt8} (h : carriageReturn ∉ line) (e : LineEnd) :
    dropReturn (line ++ e.returns) = line := by
  cases e with
  | feed => rw [LineEnd.returns, List.append_nil, dropReturn_of_not_mem h]
  | returnAndFeed => rw [LineEnd.returns, dropReturn, List.getLast?_concat, if_pos rfl,
      List.dropLast_concat]

section Written

variable {r : Response} (h : Plain r)
include h

theorem Plain.not_mem_text {b : UInt8} (hb : b.toNat < 32) :
    b ∉ bytesOf (Response.shape.text r) := by
  refine not_mem_bytesOf ?_ hb
  rw [Json.Shape.text, String.toList_ofList]
  exact Response.shape.visible_write (Response.shape_fits h)

theorem Plain.lineFeed_not_mem (e : LineEnd) : lineFeed ∉ writtenLine r e := by
  rw [writtenLine, List.mem_append, not_or]
  refine ⟨h.not_mem_text (by decide), ?_⟩
  cases e <;> decide

theorem Plain.holds {e : LineEnd} (hshort : (writtenLine r e).length ≤ maxLength) :
    Holds (writtenLine r e) r := by
  refine ⟨hshort, Response.shape.text r, ?_, ?_⟩
  · rw [writtenLine, dropReturn_returns (h.not_mem_text (by decide))]
    exact text?_eq_some_iff.mpr rfl
  · exact Response.parse_text fun x hx => (h x hx).mono (by decide)

theorem Plain.lines_text : lines (bytesOf (Response.shape.text r)) = [writtenLine r .feed] := by
  have htext : bytesOf (Response.shape.text r) ≠ [] := by
    rw [bytesOf_eq, Json.Shape.text, String.toList_ofList]
    change String.utf8EncodeChar '\x7b' ++ _ ≠ []
    exact List.append_ne_nil_of_left_ne_nil String.utf8EncodeChar_ne_nil _
  have hreturn : bytesOf (Response.shape.text r) ≠ [carriageReturn] := by
    intro heq
    exact h.not_mem_text (by decide) (heq ▸ List.mem_singleton_self carriageReturn)
  rw [lines_last (h.not_mem_text (by decide)), if_neg (not_or.mpr ⟨htext, hreturn⟩), writtenLine,
    LineEnd.returns, List.append_nil]

end Written

theorem lines_written {ended : List (Response × LineEnd)} {last : Option Response}
    (hended : ∀ m ∈ ended, Plain m.1) (hlast : ∀ r ∈ last, Plain r) :
    lines (written ended last) =
      ended.map (fun m => writtenLine m.1 m.2) ++ last.toList.map (writtenLine · .feed) := by
  induction ended with
  | nil =>
      cases last with
      | none => rfl
      | some r =>
          rw [written, List.flatMap_nil, List.nil_append, Option.elim_some,
            (hlast r rfl).lines_text]
          rfl
  | cons m ended ih =>
      obtain ⟨hm, hended⟩ := List.forall_mem_cons.mp hended
      have hstream : written (m :: ended) last =
          writtenLine m.1 m.2 ++ lineFeed :: written ended last := by
        rw [written, List.flatMap_cons, List.append_assoc, List.append_assoc,
          List.singleton_append, written]
      rw [hstream, lines_more (hm.lineFeed_not_mem m.2), ih hended, List.map_cons,
        List.cons_append]

theorem holds_lines_written {ended : List (Response × LineEnd)} {last : Option Response}
    (hended : ∀ m ∈ ended, Plain m.1) (hlast : ∀ r ∈ last, Plain r)
    (hshort : ∀ line ∈ lines (written ended last), line.length ≤ maxLength) :
    List.Forall₂ Holds (lines (written ended last)) (ended.map Prod.fst ++ last.toList) := by
  rw [lines_written hended hlast] at hshort ⊢
  obtain ⟨hshortEnded, hshortLast⟩ := List.forall_mem_append.mp hshort
  refine List.rel_append ?_ ?_
  · rw [List.forall₂_map_left_iff, List.forall₂_map_right_iff, List.forall₂_same]
    exact fun m hm => (hended m hm).holds (hshortEnded _ (List.mem_map_of_mem hm))
  · rw [List.forall₂_map_left_iff, List.forall₂_same]
    exact fun r hr =>
      (hlast r (Option.mem_toList.mp hr)).holds (hshortLast _ (List.mem_map_of_mem hr))

/-! ### The law -/

/-- **Responses are received line by line.** If every line of a closed stream holds a response, then
receiving gives these in order and then the end. This is so for all responses that are written one a
line, whichever way each line is ended. If some line holds none, receiving gives the responses of the
lines before the first such line, and then fails for want of valid data. -/
theorem received_line_by_line :
    (∀ (bytes : List UInt8) (rs : List Response), List.Forall₂ Holds (lines bytes) rs →
      receiveAll bytes = (rs, none)) ∧
    (∀ (ended : List (Response × LineEnd)) (last : Option Response),
      (∀ m ∈ ended, Plain m.1) → (∀ r ∈ last, Plain r) →
      (∀ line ∈ lines (written ended last), line.length ≤ maxLength) →
      receiveAll (written ended last) = (ended.map Prod.fst ++ last.toList, none)) ∧
    ∀ (bytes : List UInt8) (before : List (List UInt8)) (bad : List UInt8)
      (after : List (List UInt8)) (rs : List Response), lines bytes = before ++ bad :: after →
      List.Forall₂ Holds before rs → (∀ r, ¬ Holds bad r) →
      ∃ f, receiveAll bytes = (rs, some f) ∧ f.kind = .invalidData := by
  have hall (bytes : List UInt8) (rs : List Response) (h : List.Forall₂ Holds (lines bytes) rs) :
      receiveAll bytes = (rs, none) := by
    have hread := readLines_append h []
    rw [List.append_nil] at hread
    rw [receiveAll_eq, hread, readLines, List.append_nil]
  refine ⟨hall, fun ended last hended hlast hshort => ?_, ?_⟩
  · exact hall _ _ (holds_lines_written hended hlast hshort)
  · intro bytes before bad after rs hlines hbefore hbad
    cases hread : responseOf bad with
    | ok r => exact absurd (responseOf_eq_ok_iff.mp hread) (hbad r)
    | error f =>
        refine ⟨f, ?_, kind_of_responseOf_eq_error hread⟩
        rw [receiveAll_eq, hlines, readLines_append hbefore, readLines, hread, List.append_nil]

/-- Three responses with different line ends, and the same stream with a line in the place of the
last one that breaks off inside a character. -/
theorem received_line_by_line_broken :
    let first : Response := ⟨"1", "\r\n", [⟨"t", .number (.natural 5)⟩]⟩
    let second : Response := ⟨"", "é", []⟩
    let ended : List (Response × LineEnd) := [(first, .returnAndFeed), (second, .feed)]
    let broken := written ended none ++ [0xC3, carriageReturn, lineFeed, lineFeed]
    (∀ m ∈ ended, Plain m.1) ∧
      (∀ line ∈ lines (written ended (some first)), line.length ≤ maxLength) ∧
      receiveAll (written ended (some first)) = ([first, second, first], none) ∧
      List.Forall₂ Holds (lines (written ended none)) [first, second] ∧
      receiveAll (written ended none) = ([first, second], none) ∧
      lines broken = lines (written ended none) ++ [0xC3, carriageReturn] :: [[]] ∧
      ∃ f, receiveAll broken = ([first, second], some f) ∧ f.kind = .invalidData := by
  intro first second ended broken
  have hfirst : Plain first := List.forall_mem_singleton.mpr (.natural _ _)
  have hended : ∀ m ∈ ended, Plain m.1 := by
    simp only [ended, List.forall_mem_cons]
    exact ⟨hfirst, nofun, nofun⟩
  have hshort : ∀ line ∈ lines (written ended (some first)), line.length ≤ maxLength := by
    decide +kernel
  have hholds : List.Forall₂ Holds (lines (written ended none)) [first, second] :=
    holds_lines_written hended nofun (by decide +kernel)
  have hlines : lines broken = lines (written ended none) ++ [0xC3, carriageReturn] :: [[]] := by
    decide +kernel
  have hbad : ∀ r, ¬ Holds [0xC3, carriageReturn] r := by
    rintro r ⟨-, s, htext, -⟩
    have hnone : text? (dropReturn [0xC3, carriageReturn]) = none := by decide +kernel
    rw [hnone] at htext
    cases htext
  have hlast : ∀ r ∈ some first, Plain r := by
    rintro r ⟨⟩
    exact hfirst
  exact ⟨hended, hshort, received_line_by_line.2.1 ended (some first) hended hlast hshort, hholds,
    received_line_by_line.1 _ _ hholds, hlines,
    received_line_by_line.2.2 broken _ _ _ _ hlines hholds hbad⟩

end Frame

end ServiceDiscovery
