import ServiceDiscovery.Proofs.Client.Strides
import ServiceDiscovery.Proofs.Config.Check
/-!
# How a configured client paces itself

A configuration that can be loaded has delays that are ordered and not zero, and that fit a
duration. A watch of a client with these delays therefore pauses within them, after every session
and for any number of sessions; only the longest sleep is a limit of its own, and a first delay
beyond it is cut.
-/

namespace ServiceDiscovery

namespace Client

open Watch (Lap laps pauses)

/-- **A loaded configuration bounds every pause.** Each delay that a watch sleeps is the pause of
one of its laps. It is not zero, at most the configured ceiling, and at least the configured first
delay or the longest sleep; after a session that resets the backoff it is just the lesser of these.
A session begins no earlier than the pause before it is over, and as long as no session resets the
backoff the pauses do not get shorter. -/
theorem pauses_within_bounds {s : Surroundings} {c : Config} (hload : Config.load s = .ok c)
    (events : List Event) (service : String) :
    let first := (Duration.ofMillis c.backoffInitialMs.toNat).least (.ofMillis 946080000000)
    let turns := (start c.nodeId c.bounds).turnsOf service events
    (laps turns).filterMap Lap.slept = pauses turns ∧
    (∀ lap ∈ laps turns, ∀ d ∈ lap.slept,
      0 < d.nanos ∧ first.nanos ≤ d.nanos ∧
      d.nanos ≤ (Duration.ofMillis c.backoffMaxMs.toNat).nanos ∧
      (lap.session.resets = true → d = first)) ∧
    (laps turns).IsChain Lap.Precedes := by
  intro first turns
  have hvalid := Config.valid_of_load hload
  have hceiling := c.ceiling_le_limit
  have hordered := hvalid.initial_le_ceiling
  have hstart := strides_start c.nodeId c.bounds service
  have hmeasured := (hstart.run events).measured
  refine ⟨?_, fun lap hlap d hd => ?_, hmeasured.isChain hceiling⟩
  · rw [laps, List.filterMap_reverse, hstart.slept_run, List.filterMap_nil, List.append_nil,
      List.reverse_reverse]
  · obtain ⟨older, rfl⟩ := hmeasured.eq_pauseAfter (List.mem_reverse.mp hlap) hd
    have hfirst := Watch.initial_le_pauseAfter hceiling hordered (lap.session :: older)
    have hpos : 0 < first.nanos := Nat.lt_min.mpr ⟨hvalid.bounds_pos, by decide⟩
    exact ⟨Nat.lt_of_lt_of_le hpos hfirst, hfirst, Watch.pauseAfter_le_ceiling hceiling _,
      Watch.pauseAfter_of_resets hceiling hordered _ _⟩

/-- Three refused connections double the delay up to the ceiling, and a stream that the server ends
brings the first one back. -/
theorem pauses_within_bounds_mixed :
    let s : Surroundings :=
      { environment := [("MESHGLUE_BACKOFF_INITIAL_MS", "100"), ("MESHGLUE_BACKOFF_MAX_MS", "300")] }
    let c : Config := { backoffInitialMs := 100, backoffMaxMs := 300 }
    let refused (ms : Nat) : List Event :=
      [.signal "web" .wake, .signal "web" .connectFailed, .pass (.ofMillis ms)]
    let events : List Event := .watch "web" :: refused 100 ++ refused 200 ++ refused 350 ++
      [.wake, .connected, .sent, .ended, .closed].map (.signal "web")
    let turns := (start c.nodeId c.bounds).turnsOf "web" events
    Config.load s = .ok c ∧
      pauses turns = [.ofMillis 100, .ofMillis 200, .ofMillis 300, .ofMillis 100] ∧
      (∀ lap ∈ laps turns, ∀ d ∈ lap.slept, 0 < d.nanos ∧ d.nanos ≤ (Duration.ofMillis 300).nanos) ∧
      (laps turns).IsChain Lap.Precedes := by
  intro s c refused events turns
  have hload : Config.load s = .ok c := eq_ok_of_toOption (by decide +kernel)
  obtain ⟨-, hbounded, hchain⟩ := pauses_within_bounds hload events "web"
  refine ⟨hload, by decide +kernel, fun lap hlap d hd => ?_, hchain⟩
  obtain ⟨hpos, -, hle, -⟩ := hbounded lap hlap d hd
  exact ⟨hpos, hle⟩

/-- A first delay beyond the longest sleep is asked for and not slept whole: the watch connects
again a millisecond too early. -/
theorem first_delay_cut :
    let s : Surroundings :=
      { environment := [("MESHGLUE_BACKOFF_INITIAL_MS", "946080000001"),
          ("MESHGLUE_BACKOFF_MAX_MS", "946080000001")] }
    let c : Config := { backoffInitialMs := 946080000001, backoffMaxMs := 946080000001 }
    let first := Duration.ofMillis c.backoffInitialMs.toNat
    let cut := Duration.ofMillis 946080000000
    let events : List Event :=
      [.watch "a", .signal "a" .wake, .signal "a" .connectFailed, .pass cut, .signal "a" .wake]
    let turns := (start c.nodeId c.bounds).turnsOf "a" events
    Config.load s = .ok c ∧
      laps turns = [⟨{ began := ⟨0⟩, ended := some ⟨0⟩ }, some first⟩, ⟨{ began := cut }, none⟩] ∧
      pauses turns = [cut] ∧ cut.nanos < first.nanos := by
  intro s c first cut events turns
  exact ⟨eq_ok_of_toOption (by decide +kernel), by decide +kernel, by decide +kernel,
    by decide +kernel⟩

end Client

end ServiceDiscovery
