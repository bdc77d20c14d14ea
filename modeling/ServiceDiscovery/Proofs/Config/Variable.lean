import ServiceDiscovery.Proofs.Config.Precedence
import ServiceDiscovery.Proofs.Setting.Reader
/-!
# A text in a variable of the environment

A variable of the environment holds a text, and a key that wants a text could take it as it is. But
the variable is read as a setting first, for no one knows yet what its key wants. So the key gets
what is written only where the text stands for itself; elsewhere it is given a value that is no
text, which is refused, or another text.
-/

namespace ServiceDiscovery

namespace Config

/-- The surroundings of a process with one variable and no files. -/
def oneVariable (name value : String) : Surroundings := { environment := [(name, value)] }

/-- The layers of a process of which nothing but one setting in the environment is known. -/
def oneSetting (key : String) (v : Setting) : Layers :=
  [⟨.environment, [(key, v)]⟩, ⟨.json, []⟩, ⟨.toml, []⟩]

theorem load_nodeId (s : String) :
    load (oneVariable "MESHGLUE_NODE_ID" s) = settle (oneSetting "node_id" (Setting.ofText s)) :=
  load_eq_settle rfl rfl

theorem load_serverUri (s : String) :
    load (oneVariable "MESHGLUE_SERVER_URI" s) =
      settle (oneSetting "server_uri" (Setting.ofText s)) :=
  load_eq_settle rfl rfl

section Settled

variable {v : Setting} {s : String}

theorem valid_default : Valid {} where
  identified := by decide
  initial_pos := by decide
  ordered := by decide

theorem settle_nodeId (hs : s ≠ "") :
    settle (oneSetting "node_id" (.text s)) = .ok { nodeId := s } := by
  refine settle_eq_ok_iff.mpr ⟨{ nodeId := s }, ?_, rfl, ?_, valid_default.initial_pos,
    valid_default.ordered⟩
  · exact ofLayers_eq_ok_iff.mpr ⟨rfl, rfl, rfl, rfl, rfl, rfl, rfl⟩
  · simpa using hs

theorem settle_serverUri (s : String) :
    settle (oneSetting "server_uri" (.text s)) = .ok { serverUri := s } := by
  refine settle_eq_ok_iff.mpr ⟨{ serverUri := s }, ?_, rfl, valid_default.identified,
    valid_default.initial_pos, valid_default.ordered⟩
  exact ofLayers_eq_ok_iff.mpr ⟨rfl, rfl, rfl, rfl, rfl, rfl, rfl⟩

theorem eq_text_of_nodeId {c : Config} (h : settle (oneSetting "node_id" v) = .ok c) :
    v = .text c.nodeId := by
  obtain ⟨d, hd, hc, -⟩ := settle_eq_ok_iff.mp h
  obtain ⟨-, -, -, -, hid, -, -⟩ := ofLayers_eq_ok_iff.mp hd
  rw [(withBindIp_eq_ok hc).1]
  exact Setting.asText_eq_ok_iff.mp ((Layers.extract_eq_ok_iff rfl).mp hid)

theorem eq_text_of_serverUri {c : Config} (h : settle (oneSetting "server_uri" v) = .ok c) :
    v = .text c.serverUri := by
  obtain ⟨d, hd, hc, -⟩ := settle_eq_ok_iff.mp h
  obtain ⟨-, -, -, -, -, huri, -⟩ := ofLayers_eq_ok_iff.mp hd
  rw [(withBindIp_eq_ok hc).1]
  exact Setting.asText_eq_ok_iff.mp ((Layers.extract_eq_ok_iff rfl).mp huri)

end Settled

/-- **A text of the environment is taken as it is written unless it is reserved.** Let a text be the
only variable of a process, and no blanks be at its ends. The identity, or the address of the
server, is that text if and only if the text is not marked as another value and not a number, and
then everything else is as it is by default. -/
theorem taken_as_written {s : String} (hs : s ≠ "") (htrim : Text.trim s.toList = s.toList) :
    ((∃ c, load (oneVariable "MESHGLUE_NODE_ID" s) = .ok c ∧ c.nodeId = s) ↔
      ¬ Setting.Reserved s.toList) ∧
    ((∃ c, load (oneVariable "MESHGLUE_SERVER_URI" s) = .ok c ∧ c.serverUri = s) ↔
      ¬ Setting.Reserved s.toList) ∧
    (¬ Setting.Reserved s.toList →
      load (oneVariable "MESHGLUE_NODE_ID" s) = .ok { nodeId := s } ∧
      load (oneVariable "MESHGLUE_SERVER_URI" s) = .ok { serverUri := s }) := by
  have htext := Setting.ofText_eq_text_iff htrim
  have hfree : ¬ Setting.Reserved s.toList →
      load (oneVariable "MESHGLUE_NODE_ID" s) = .ok { nodeId := s } ∧
      load (oneVariable "MESHGLUE_SERVER_URI" s) = .ok { serverUri := s } := by
    intro h
    rw [load_nodeId, load_serverUri, htext.mpr h]
    exact ⟨settle_nodeId hs, settle_serverUri s⟩
  refine ⟨⟨?_, fun h => ⟨_, (hfree h).1, rfl⟩⟩, ⟨?_, fun h => ⟨_, (hfree h).2, rfl⟩⟩, hfree⟩
  · rintro ⟨c, hload, rfl⟩
    rw [load_nodeId] at hload
    exact htext.mp (eq_text_of_nodeId hload)
  · rintro ⟨c, hload, rfl⟩
    rw [load_serverUri] at hload
    exact htext.mp (eq_text_of_serverUri hload)

/-- Neither a list that does not end nor a number of too many bits is reserved, nor a text that only
begins with a word. A list is, even if its last item is a bracket in quotes, and a number with a
point. -/
theorem taken_as_written_unfinished :
    let loads (s : String) : Prop :=
      load (oneVariable "MESHGLUE_NODE_ID" s) = .ok { nodeId := s } ∧
        load (oneVariable "MESHGLUE_SERVER_URI" s) = .ok { serverUri := s }
    let refuses (s : String) : Prop :=
      Setting.Reserved s.toList ∧
        ¬ ∃ c, load (oneVariable "MESHGLUE_SERVER_URI" s) = .ok c ∧ c.serverUri = s
    loads "18446744073709551616" ∧ loads "[a, b" ∧ loads "trueish" ∧ refuses "[a, \"]\"]" ∧
      refuses "-.5e+7" := by
  intro loads refuses
  obtain ⟨hlarge, -, hlarge'⟩ :=
    taken_as_written (s := "18446744073709551616") (by decide) (by decide +kernel)
  obtain ⟨hopen, -, hopen'⟩ := taken_as_written (s := "[a, b") (by decide) (by decide +kernel)
  obtain ⟨hword, -, hword'⟩ := taken_as_written (s := "trueish") (by decide) (by decide +kernel)
  obtain ⟨-, hlist, -⟩ := taken_as_written (s := "[a, \"]\"]") (by decide) (by decide +kernel)
  obtain ⟨-, hpoint, -⟩ := taken_as_written (s := "-.5e+7") (by decide) (by decide +kernel)
  have hreserved : Setting.Reserved "[a, \"]\"]".toList := by
    have hbare : Setting.Bare ['a'] :=
      { not_separator := by simp [Setting.isSeparator]
        head := by simp [Text.isPlainBlank]
        not_word := fun b => by cases b <;> decide }
    have hbracket : Setting.Quotation ['"', ']', '"'] :=
      .mk (.plain rfl (by decide) (by decide) .nil)
    have hwritten : "[a, \"]\"]".toList =
        '[' :: (([] ++ ['a']) ++ ',' :: ([' '] ++ (['"', ']', '"'] ++ [])) ++ [']']) := by
      rfl
    have hblank : Setting.Blanks [' '] := List.forall_mem_singleton.mpr rfl
    have hnone : Setting.Blanks [] := List.forall_mem_nil _
    rw [hwritten]
    exact .inl (.list (.cons (.bare hnone hbare) (.last (.marked hblank (.quoted hbracket) hnone))))
  have hdecimal : Setting.Reserved "-.5e+7".toList := by
    have hwritten :
        "-.5e+7".toList = ['-'] ++ ([] ++ '.' :: (['5'] ++ 'e' :: (['+'] ++ ['7']))) := by
      rfl
    have hdigit : ∀ c : Char, c.isDigit = true → Setting.Digits [c] := fun c hc =>
      ⟨List.cons_ne_nil c [], List.forall_mem_singleton.mpr hc⟩
    rw [hwritten]
    exact .inr (.inr (.inr (.mk (.given (.inr rfl)) (hdigit '5' rfl)
      (.given (.inl rfl) (.given (.inl rfl)) (hdigit '7' rfl)))))
  exact ⟨hlarge' (hlarge.mp ⟨{ nodeId := "18446744073709551616" },
      eq_ok_of_toOption (by decide +kernel), rfl⟩),
    hopen' (hopen.mp ⟨{ nodeId := "[a, b" }, eq_ok_of_toOption (by decide +kernel), rfl⟩),
    hword' (hword.mp ⟨{ nodeId := "trueish" }, eq_ok_of_toOption (by decide +kernel), rfl⟩),
    ⟨hreserved, fun h => hlist.mp h hreserved⟩, hdecimal, fun h => hpoint.mp h hdecimal⟩

/-- An identity of digits is no text to the layer that gives it, and the process does not start. -/
theorem identity_of_digits_refused :
    "123" ≠ "" ∧ Text.trim "123".toList = "123".toList ∧
      load (oneVariable "MESHGLUE_NODE_ID" "123") =
        .error (.setting (.invalidType (.unsigned 123) "a string") ["node_id"] .environment) ∧
      ¬ ∃ c, load (oneVariable "MESHGLUE_NODE_ID" "123") = .ok c ∧ c.nodeId = "123" := by
  have hload : load (oneVariable "MESHGLUE_NODE_ID" "123") =
      .error (.setting (.invalidType (.unsigned 123) "a string") ["node_id"] .environment) := by
    rfl
  refine ⟨by decide, by decide +kernel, hload, ?_⟩
  rw [hload]
  rintro ⟨c, h, -⟩
  cases h

end Config

end ServiceDiscovery
