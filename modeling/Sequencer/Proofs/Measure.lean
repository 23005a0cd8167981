import Sequencer.Proofs.Passes

/-! Measured lengths. The length pass and the MIDI pass follow one free run and stop it by different
rules; what the first has measured is where the second one stops. -/
namespace Sequencer

namespace Player

variable {limits : Limits} {rule : LoopRule} {together : Bool} {source : Source} {depth : Nat}
  {start position : Position} {trips count total n : Nat}

theorem Ending.reached
    (ending : Ending limits rule together source depth start trips count total) :
    ∃ n ≤ count, n ≤ limits.maxSteps ∧ ∃ position,
      start.after source depth n = some position ∧ position.tick = total := by
  cases ending with
  | @finished count position reached final within =>
    exact ⟨count, Nat.le_succ _, Nat.le_of_lt within, position, reached, rfl⟩
  | cut further within counted again stale => exact ⟨_, Nat.le_refl _, within, _, further, rfl⟩
  | stopped reached within why => exact ⟨_, Nat.le_refl _, within, _, reached, rfl⟩

theorem Ending.within
    (ending : Ending limits rule together source depth start trips count total) :
    count ≤ limits.maxSteps := by
  cases ending with
  | finished reached final within => exact within
  | cut further within counted again stale => exact within
  | stopped reached within why => exact within

theorem Ending.total_le_last (early : start.tick ≤ Tick.last)
    (ending : Ending limits rule together source depth start trips count total) :
    total ≤ Tick.last := by
  obtain ⟨n, _, _, position, reached, rfl⟩ := ending.reached
  exact Position.tick_le_last early reached

/-- Once the free run has come back to a position, it does not leave the tick any more. -/
theorem tick_le_of_repeat {m : Nat} {target : Position} (early : start.tick ≤ Tick.last)
    (lt : m < count) (reached : start.after source depth m = some target)
    (again : start.after source depth count = some target)
    (there : start.after source depth n = some position) : position.tick ≤ target.tick := by
  rcases Nat.lt_or_ge n count with before | after
  · exact Position.tick_mono early (Nat.le_of_lt before) there again
  · refine Nat.le_of_eq (Position.tick_of_repeat early lt reached again (n - count) ?_)
    rw [Nat.add_sub_cancel' after]
    exact there

theorem tick_le_of_final {last : Position} (early : start.tick ≤ Tick.last)
    (reached : start.after source depth count = some last)
    (final : last.next? source depth = none)
    (there : start.after source depth n = some position) : position.tick ≤ last.tick :=
  Position.tick_mono early (Position.le_of_final reached final there) there reached

/-- A track that goes on as long as it makes progress passes all ticks within its budget, unless
its time is up. -/
theorem Ending.passes (early : start.tick ≤ Tick.last)
    (ending : Ending limits .progress together source depth start trips count total)
    (there : start.after source depth n = some position) (short : n ≤ limits.maxSteps) :
    position.tick ≤ total ∨ limits.stopTime ≠ 0 ∧ limits.stopTime ≤ total := by
  cases ending with
  | finished reached final within => exact .inl (tick_le_of_final early reached final there)
  | cut further within counted again stale =>
    obtain ⟨m, le, reached⟩ := stale rfl
    exact .inl (tick_le_of_repeat early (Nat.lt_succ_of_le le) reached further there)
  | stopped reached within why =>
    rcases why with budget | up | ⟨_, late⟩
    · exact .inl (Position.tick_mono early (Nat.le_trans short budget) there reached)
    · exact .inr up
    · rw [Position.tick_eq_last early reached late]
      exact .inl (Position.tick_le_last early there)

/-- A track whose guard has cut nothing, or nothing that takes time, has come as far as its budget
lets it. -/
theorem Ending.exhausts (early : start.tick ≤ Tick.last) (unlimited : limits.stopTime = 0)
    (ending : Ending limits rule together source depth start trips count total)
    (uncut : trips = 0 ∨ total = start.tick)
    (there : start.after source depth n = some position) (short : n ≤ limits.maxSteps) :
    position.tick ≤ total := by
  cases ending with
  | finished reached final within => exact tick_le_of_final early reached final there
  | @cut count target further within counted again stale =>
    rcases uncut with none | still
    · exact absurd none (Nat.ne_of_gt counted)
    · -- No time has passed since the start, so that the junction was reached at the same tick.
      obtain ⟨tick, m, le, reached⟩ := again
      have after := Position.tick_mono early (Nat.zero_le m) rfl reached
      have before := Position.tick_mono early (Nat.le_succ_of_le le) reached further
      have same : (⟨target.junction, tick⟩ : Position) = target := by
        simp only at after before
        have ticks : tick = target.tick := by omega
        rw [ticks]
      exact tick_le_of_repeat early (Nat.lt_succ_of_le le) (same ▸ reached) further there
  | stopped reached within why =>
    rcases why with budget | ⟨limited, _⟩ | ⟨_, late⟩
    · exact Position.tick_mono early (Nat.le_trans short budget) there reached
    · exact absurd unlimited limited
    · rw [Position.tick_eq_last early reached late]
      exact Position.tick_le_last early there

variable {maxSteps measuredTrips measured measuredCount length : Nat} {loops : LoopRule}

theorem Ending.measured_le (early : start.tick ≤ Tick.last)
    (first : Ending ⟨maxSteps, 0⟩ loops together source depth start measuredTrips measuredCount
      measured)
    (second : Ending ⟨maxSteps, length⟩ .progress together source depth start trips count total)
    (bound : measured ≤ length) : measured ≤ total := by
  obtain ⟨n, _, short, position, reached, rfl⟩ := first.reached
  rcases second.passes early reached short with le | ⟨_, up⟩
  · exact le
  · exact Nat.le_trans bound up

theorem Ending.eq_measured (early : start.tick ≤ Tick.last)
    (first : Ending ⟨maxSteps, 0⟩ loops together source depth start measuredTrips measuredCount
      measured)
    (second : Ending ⟨maxSteps, length⟩ .progress together source depth start trips count total)
    (bound : measured ≤ length) (uncut : measuredTrips = 0) : total = measured := by
  refine Nat.le_antisymm ?_ (first.measured_le early second bound)
  obtain ⟨n, _, short, position, reached, rfl⟩ := second.reached
  exact first.exhausts early rfl (.inl uncut) reached short

/-- The longest track ends at the length that was measured. -/
theorem Ending.eq_length (first : Ending ⟨maxSteps, 0⟩ loops together source depth start
      measuredTrips measuredCount measured)
    (second : Ending ⟨maxSteps, length⟩ .progress together source depth start trips count total)
    (atStart : start.tick = 0)
    (visited : ∀ n < count, ∀ position, start.after source depth n = some position →
      length ≠ 0 → position.tick < length)
    (longest : measured = length) : total = length := by
  have early : start.tick ≤ Tick.last := atStart ▸ Nat.zero_le _
  refine Nat.le_antisymm ?_ (longest ▸ first.measured_le early second (Nat.le_of_eq longest))
  obtain ⟨n, le, short, position, reached, rfl⟩ := second.reached
  by_cases empty : length = 0
  · subst empty
    rw [longest] at first
    exact first.exhausts early rfl (.inr atStart.symm) reached short
  · -- Only a position that is not visited any more can be as late as the length.
    obtain ⟨m, _, _, other, there, tick⟩ := first.reached
    have after : n ≤ m := by
      refine Nat.le_of_not_lt fun lt => ?_
      have before := visited m (Nat.lt_of_lt_of_le lt le) other there empty
      omega
    have ordered := Position.tick_mono early after reached there
    omega

end Player
namespace Sequence

variable {source : Source} {sequence : Sequence Unit} {pass : Pass} {stopTime : Nat}
  {stage : Stage (Unit × List Visit)} {transposes : Transposes} {before track : Track}
  {start solo : Player}

theorem total_le_length (sequence : Sequence Unit) (stage : Stage Unit) (transposes : Transposes)
    (member : track ∈ stage.tracks) :
    track.totalTicks ≤ (sequence.conclude .length stage transposes).length := by
  refine List.le_foldl_max (.inr ?_)
  refine List.mem_map.mpr ⟨track.conclude .length, ?_, rfl⟩
  exact List.mem_map.mpr ⟨track, member, rfl⟩

theorem Ended.measured_eq (ended : sequence.Ended pass stopTime stage before track start solo) :
    track.measuredTrips = before.measuredTrips ∧ track.measuredTicks = before.measuredTicks := by
  obtain ⟨own, delay, rfl⟩ := ended.real_eq
  have trips := congrArg Track.measuredTrips ended.closes.identity
  have ticks := congrArg Track.measuredTicks ended.closes.identity
  exact ⟨Eq.trans trips ended.measured.1, Eq.trans ticks ended.measured.2⟩

theorem opening_of_origin {first second : Track} (same : origin first = origin second) :
    first.opening = second.opening :=
  congrArg (fun origin : Nat × Nat × UInt8 => (⟨⟨origin.2.1, [], []⟩, 0⟩ : Position)) same

/-- The track at the end of the MIDI pass, against what the length pass has measured. -/
structure KeepsLength (length : Nat) (track : Track) : Prop where
  longest : track.measuredTicks = length → track.totalTicks = length
  least : track.measuredTicks ≤ track.totalTicks
  unlooped : track.measuredTrips = 0 → track.totalTicks = track.measuredTicks

theorem Passes.keepsLength {measuring playing : Stage (Unit × List Visit)}
    {transposes transposes' : Transposes} (intact : sequence.Intact source)
    (measured : sequence.Passes .length 0 measuring transposes)
    (played : (sequence.conclude .length measuring.unlogged transposes).Passes .midi
      (sequence.conclude .length measuring.unlogged transposes).length playing transposes')
    (member : track ∈ playing.tracks) : KeepsLength
      (sequence.conclude .length measuring.unlogged transposes).length track := by
  obtain ⟨i, found⟩ := List.getElem?_of_mem member
  obtain ⟨_, start, solo, there, second⟩ := played.ended (measured.intact intact) found
  rw [conclude_tracks, List.getElem?_map] at there
  obtain ⟨earlier, known, rfl⟩ := Option.map_eq_some_iff.mp there
  obtain ⟨before, _, _, _, first⟩ := measured.ended intact known
  have bound := total_le_length sequence measuring.unlogged transposes
    (List.mem_of_getElem? known)
  have origins : origin track = origin earlier :=
    second.origin_eq.trans (origin_conclude .length earlier)
  obtain ⟨trips, ticks⟩ := second.measured_eq
  change track.measuredTrips = earlier.guard.trips at trips
  change track.measuredTicks = earlier.totalTicks at ticks
  have early : track.opening.tick ≤ Tick.last := Nat.zero_le _
  have ending := first.follows.ending
  have ending' := second.follows.ending
  have visited := second.follows.early
  rw [← opening_of_origin origins] at ending
  generalize (sequence.conclude .length measuring.unlogged transposes).length = length
    at bound ending' visited ⊢
  constructor
  · intro longest
    exact ending.eq_length ending' rfl visited (ticks.symm.trans longest)
  · rw [ticks]
    exact ending.measured_le early ending' bound
  · intro unlooped
    rw [ticks]
    exact ending.eq_measured early ending' bound (trips.symm.trans unlooped)

theorem Voices.of_start {holds : Player → List Visit → Player → Track → Prop} {log : List Visit}
    {shared : Shared} {starts : List Player} {tracks : List Track}
    (voices : Voices holds log shared starts tracks) {start : Player} (member : start ∈ starts) :
    ∃ track, Voice (holds start) start log shared track := by
  induction voices with
  | nil => cases member
  | cons first rest ih =>
    rcases List.mem_cons.mp member with rfl | member
    · exact ⟨_, first⟩
    · exact ih member

theorem Passes.early (passes : sequence.Passes pass stopTime stage transposes)
    (limited : stopTime ≠ 0) : ∀ visit ∈ stage.memory.2, visit.tick < stopTime := by
  intro visit member
  obtain ⟨start, known, track⟩ := passes.played.inside visit member
  obtain ⟨_, solo, ⟨ends, _⟩, _, _⟩ := Voices.of_start passes.played.ensemble.voices known
  refine ends.early visit ?_ limited
  exact List.mem_filter.mpr ⟨member, decide_eq_true track⟩

/-- After loading, the MIDI of every track is as long as was measured: exactly so for the longest
tracks and for tracks without loops, and never shorter. No instruction is decoded past the end. -/
theorem load_keepsLength (reachable : Reachable source sequence) :
    ∃ measured loaded visits,
      (do (← sequence.runPass .listing 0).runPass .length 0) = .ok measured ∧
      measured.visits .midi measured.length = .ok visits ∧
      sequence.load = .ok loaded ∧ loaded.length = measured.length ∧
      (∀ track ∈ loaded.tracks, KeepsLength loaded.length track) ∧
      (0 < loaded.length → ∀ visit ∈ visits, visit.tick < loaded.length) := by
  have intact := reachable.intact
  obtain ⟨_, _, listed⟩ := intact.passes .listing 0
  have intact := listed.intact intact
  obtain ⟨_, _, measured⟩ := intact.passes .length 0
  obtain ⟨_, _, played⟩ := (measured.intact intact).passes .midi _
  refine ⟨_, _, _, Except.bind_eq_ok.mpr ⟨_, listed.run, measured.run⟩, played.visits,
    Except.bind_eq_ok.mpr ⟨_, listed.run, Except.bind_eq_ok.mpr ⟨_, measured.run, played.run⟩⟩,
    rfl, ?_, ?_⟩
  · intro track member
    obtain ⟨track, known, rfl⟩ := List.mem_map.mp member
    obtain ⟨longest, least, unlooped⟩ := measured.keepsLength intact played known
    exact ⟨longest, least, unlooped⟩
  · intro positive
    exact played.early (Nat.ne_of_gt positive)

/-- Two tracks: one rests and ends, the other one rests and goes back to its start. -/
def uneven : Source :=
  #[0x52, 0x53, 0x45, 0x51, 1, 0, 0, 0, 0, 0, 2, 0, 17, 0, 1, 21, 0,
    0x01, 3, 0, 0x00, 0x01, 1, 0, 0x50, 21, 0]

theorem load_keepsLength_uneven : ∃ sequence,
    ofSource RefSeq.format () uneven = .ok sequence ∧
    ∃ measured loaded visits,
      (do (← sequence.runPass .listing 0).runPass .length 0) = .ok measured ∧
      measured.visits .midi measured.length = .ok visits ∧
      sequence.load = .ok loaded ∧ loaded.length = measured.length ∧
      (∀ track ∈ loaded.tracks, KeepsLength loaded.length track) ∧
      (0 < loaded.length → ∀ visit ∈ visits, visit.tick < loaded.length) :=
  ⟨_, rfl, load_keepsLength (.opened (show ofSource RefSeq.format () uneven = .ok _ from rfl))⟩

end Sequence
end Sequencer
