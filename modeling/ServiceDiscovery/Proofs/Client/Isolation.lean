import ServiceDiscovery.Proofs.Client.Schedule
/-!
# Services do not disturb each other

Two courses in which a service has the same share are put side by side: an event that does not
concern the service is a step of its own course alone, and the events of the share are steps of both.
What is seen of the service is then the same in both courses, whatever happens to other services and
however late timers are; if the timers of its own watch are exact, that watch connects at the same
times as well.
-/

namespace ServiceDiscovery

namespace Client

open Watch (attempts)

/-- Two courses side by side, seen from a service. -/
inductive Lockstep (service : String) : Client → List Event → Client → List Event → Prop where
  | done (c₁ c₂ : Client) : Lockstep service c₁ [] c₂ []
  | left {c₁ c₂ : Client} {e : Event} {rest second : List Event}
      (hquiet : c₁.concerns service e = false)
      (hrest : Lockstep service (c₁.step e).2 rest c₂ second) :
      Lockstep service c₁ (e :: rest) c₂ second
  | right {c₁ c₂ : Client} {e : Event} {first rest : List Event}
      (hquiet : c₂.concerns service e = false)
      (hrest : Lockstep service c₁ first (c₂.step e).2 rest) :
      Lockstep service c₁ first c₂ (e :: rest)
  | both {c₁ c₂ : Client} {e : Event} {rest₁ rest₂ : List Event} (hnow : c₁.now = c₂.now)
      (h₁ : c₁.concerns service e = true) (h₂ : c₂.concerns service e = true)
      (hrest : Lockstep service (c₁.step e).2 rest₁ (c₂.step e).2 rest₂) :
      Lockstep service c₁ (e :: rest₁) c₂ (e :: rest₂)

theorem share_of_quiet {c : Client} {service : String} {e : Event} (rest : List Event)
    (h : c.concerns service e = false) :
    c.share service (e :: rest) = (c.step e).2.share service rest := by
  rw [share, if_neg (by rw [h]; exact Bool.false_ne_true)]

theorem share_of_concerns {c : Client} {service : String} {e : Event} (rest : List Event)
    (h : c.concerns service e = true) :
    c.share service (e :: rest) = (c.now, e) :: (c.step e).2.share service rest := by
  rw [share, if_pos h]

theorem lockstep_of_share {c₁ c₂ : Client} {service : String} {first second : List Event}
    (hshare : c₁.share service first = c₂.share service second) :
    Lockstep service c₁ first c₂ second := by
  induction first generalizing c₁ c₂ second with
  | nil =>
      induction second generalizing c₂ with
      | nil => exact .done c₁ c₂
      | cons e rest ih =>
          cases hconcerns : c₂.concerns service e with
          | false =>
              rw [share_of_quiet rest hconcerns] at hshare
              exact .right hconcerns (ih hshare)
          | true =>
              rw [share_of_concerns rest hconcerns] at hshare
              cases hshare
  | cons e rest ih =>
      cases hconcerns : c₁.concerns service e with
      | false =>
          rw [share_of_quiet rest hconcerns] at hshare
          exact .left hconcerns (ih hshare)
      | true =>
          rw [share_of_concerns rest hconcerns] at hshare
          -- The second course has events of its own before the one that they share.
          induction second generalizing c₂ with
          | nil => cases hshare
          | cons e' rest' ih' =>
              cases hconcerns' : c₂.concerns service e' with
              | false =>
                  rw [share_of_quiet rest' hconcerns'] at hshare
                  exact .right hconcerns' (ih' hshare)
              | true =>
                  rw [share_of_concerns rest' hconcerns'] at hshare
                  obtain ⟨hhead, hrest⟩ := List.cons.inj hshare
                  obtain ⟨hnow, rfl⟩ := Prod.mk.inj hhead
                  exact .both hnow hconcerns hconcerns' (ih hrest)

section Lockstep

variable {c₁ c₂ : Client} {service : String} {first second : List Event}

theorem Lockstep.sightings_eq (h : Lockstep service c₁ first c₂ second)
    (hview : c₁.view service = c₂.view service) :
    c₁.sightings service first = c₂.sightings service second := by
  induction h with
  | done => rfl
  | left hquiet _ ih =>
      rw [sightings, sightings_of_quiet hquiet]
      exact ih ((view_of_quiet hquiet).trans hview)
  | right hquiet _ ih =>
      rw [sightings, sightings_of_quiet hquiet]
      exact ih (hview.trans (view_of_quiet hquiet).symm)
  | both hnow h₁ h₂ _ ih =>
      rw [sightings, sightings, sightings_of_joint hview hnow h₁ h₂, hnow,
        ih (view_of_joint hview hnow h₁ h₂)]

theorem Lockstep.agenda_eq (h : Lockstep service c₁ first c₂ second) {made₁ made₂ : List Duration}
    (hview : c₁.view service = c₂.view service) (h₁ : Timely c₁ service made₁)
    (h₂ : Timely c₂ service made₂) (hprompt₁ : c₁.Prompt service first)
    (hprompt₂ : c₂.Prompt service second)
    (hovertaken : c₁.overtaken service first = c₂.overtaken service second)
    (hagenda : c₁.agenda service made₁ = c₂.agenda service made₂) :
    (c₁.run first).agenda service (made₁ ++ attempts (c₁.turnsOf service first)) =
      (c₂.run second).agenda service (made₂ ++ attempts (c₂.turnsOf service second)) := by
  induction h generalizing made₁ made₂ with
  | done c₁ c₂ =>
      rw [turnsOf, turnsOf, Watch.attempts_nil, List.append_nil, List.append_nil]
      exact hagenda
  | @left c₁ c₂ e rest second hquiet _ ih =>
      rw [overtaken, overtakes_of_quiet hquiet, Bool.false_or] at hovertaken
      rw [made_cons made₁ c₁]
      exact ih ((view_of_quiet hquiet).trans hview) (h₁.step hprompt₁.1) h₂ hprompt₁.2 hprompt₂
        hovertaken ((h₁.agenda_of_quiet hprompt₁.1 hquiet).trans hagenda)
  | @right c₁ c₂ e first rest hquiet _ ih =>
      rw [overtaken, overtakes_of_quiet hquiet, Bool.false_or] at hovertaken
      rw [made_cons made₂ c₂]
      exact ih (hview.trans (view_of_quiet hquiet).symm) h₁ (h₂.step hprompt₂.1) hprompt₁ hprompt₂.2
        hovertaken (hagenda.trans (h₂.agenda_of_quiet hprompt₂.1 hquiet).symm)
  | @both c₁ c₂ e rest₁ rest₂ hnow hconcerns₁ hconcerns₂ _ ih =>
      obtain ⟨hovertakes, hrest⟩ := overtaken_cons hovertaken
      have hnext := agenda_of_joint hview hnow hconcerns₁ hconcerns₂ hprompt₁.1 hprompt₂.1 h₁ h₂
        hovertakes hagenda
      have htimely₁ := h₁.step hprompt₁.1
      have htimely₂ := h₂.step hprompt₂.1
      rw [made_cons made₁ c₁, made_cons made₂ c₂]
      rw [attempts_of_concerns hconcerns₁, List.append_nil] at htimely₁ ⊢
      rw [attempts_of_concerns hconcerns₂, List.append_nil] at htimely₂ ⊢
      exact ih (view_of_joint hview hnow hconcerns₁ hconcerns₂) htimely₁ htimely₂ hprompt₁.2
        hprompt₂.2 hrest hnext

end Lockstep

/-! ### The law -/

/-- **Services are isolated.** In two courses of a client in which a service has the same share, at
the same times, all that is seen of it is the same: the requests that are sent for it, the answers to
queries, and each change of its entry and of its mark. If the timers of its own watch are exact, and
a cancellation at the very moment of one comes before it in both courses or in neither, then the watch
also connects at the same times, as far as both courses reach. -/
theorem services_are_isolated (identity : String) (bounds : Backoff.Bounds) (service : String)
    (first second : List Event)
    (hshare : (start identity bounds).share service first =
      (start identity bounds).share service second) :
    let unused := start identity bounds
    unused.sightings service first = unused.sightings service second ∧
    (unused.Prompt service first → unused.Prompt service second →
      unused.overtaken service first = unused.overtaken service second →
      ∀ time : Duration, time.nanos ≤ (unused.run first).now.nanos →
        time.nanos ≤ (unused.run second).now.nanos →
        (attempts (unused.turnsOf service first)).filter (fun t => t.nanos < time.nanos) =
          (attempts (unused.turnsOf service second)).filter fun t => t.nanos < time.nanos) := by
  intro unused
  have hlockstep := lockstep_of_share hshare
  refine ⟨hlockstep.sightings_eq rfl, ?_⟩
  intro hprompt₁ hprompt₂ hovertaken time htime₁ htime₂
  have hstart : Timely unused service [] := ⟨nofun, nofun⟩
  have hagenda := hlockstep.agenda_eq rfl hstart hstart hprompt₁ hprompt₂ hovertaken rfl
  have hpast₁ := (hstart.run hprompt₁).filter_agenda htime₁
  have hpast₂ := (hstart.run hprompt₂).filter_agenda htime₂
  rw [hagenda] at hpast₁
  exact hpast₁.symm.trans hpast₂

/-- Beside the service, another one is refused a connection, or is only asked for. -/
theorem services_are_isolated_refused :
    let bounds : Backoff.Bounds := ⟨.ofMillis 100, .ofMillis 1000⟩
    let own : List Event := [.connected, .sendFailed, .closed].map (.signal "a")
    let first : List Event :=
      [.watch "b", .watch "a", .signal "b" .wake, .signal "b" .connectFailed, .signal "a" .wake,
        .pass (.ofMillis 30)] ++ own ++
      [.set "b" [], .pass (.ofMillis 100), .signal "a" .wake, .get "a", .pass (.ofMillis 1)]
    let second : List Event :=
      [.watch "a", .get "b", .signal "a" .wake, .pass (.ofMillis 10), .pass (.ofMillis 20)] ++ own ++
      [.pass (.ofMillis 100), .get "a", .signal "a" .wake, .pass (.ofMillis 5)]
    let unused := start "node" bounds
    unused.share "a" first = unused.share "a" second ∧
      unused.sightings "a" first = unused.sightings "a" second ∧
      (unused.Prompt "a" first ∧ unused.Prompt "a" second) ∧
      (attempts (unused.turnsOf "a" second)).filter (fun t => t.nanos < (Duration.ofMillis 131).nanos) =
        [.ofMillis 0, .ofMillis 130] := by
  intro bounds own first second unused
  have hfirst : unused.concernedAt "a" first =
      [none, some ⟨0⟩, none, none, none, none] ++ List.replicate 3 (some (.ofMillis 30)) ++
        [none, none, none, some (.ofMillis 130), none] := by decide +kernel
  have hsecond : unused.concernedAt "a" second =
      [some ⟨0⟩, none, none, none, none] ++ List.replicate 3 (some (.ofMillis 30)) ++
        [none, some (.ofMillis 130), none, none] := by decide +kernel
  have hshare : unused.share "a" first = unused.share "a" second := by
    rw [share_eq, share_eq, hfirst, hsecond]
    rfl
  have hprompt : unused.Prompt "a" first ∧ unused.Prompt "a" second := by decide +kernel
  obtain ⟨hsightings, hattempts⟩ := services_are_isolated "node" bounds "a" first second hshare
  have hsame := hattempts hprompt.1 hprompt.2 (by decide +kernel) (.ofMillis 131) (by decide +kernel)
    (by decide +kernel)
  refine ⟨hshare, hsightings, hprompt, hsame.symm.trans ?_⟩
  decide +kernel

end Client

end ServiceDiscovery
