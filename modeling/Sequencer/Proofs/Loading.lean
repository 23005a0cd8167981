import Sequencer.Proofs.Measure

/-! Loading. It plays three passes; none of them fails, and each leaves every track at rest. -/
namespace Sequencer

/-- The track has stopped within its budget, and its counters are numbers of 32 bits. -/
structure Track.AtRest (maxSteps : Nat) (track : Track) : Prop where
  stopped : track.active = false
  steps : track.steps ≤ maxSteps
  trips : track.guard.trips ≤ Tick.last
  length : track.totalTicks ≤ Tick.last

theorem Track.AtRest.conclude {maxSteps : Nat} {track : Track} (rests : track.AtRest maxSteps)
    (pass : Pass) : (track.conclude pass).AtRest maxSteps := by
  obtain ⟨stopped, steps, trips, length⟩ := rests
  cases pass <;> exact ⟨stopped, steps, trips, length⟩

namespace Sequence

variable {source : Source} {sequence : Sequence Unit} {pass : Pass} {stopTime : Nat}
  {stage : Stage (Unit × List Visit)} {transposes : Transposes} {before track : Track}
  {start solo : Player}

theorem Ended.atRest (bounded : sequence.options.maxSteps ≤ Tick.last)
    (ended : sequence.Ended pass stopTime stage before track start solo) :
    track.AtRest sequence.options.maxSteps := by
  obtain ⟨stopped, steps⟩ := ended.stopped
  obtain ⟨own, delay, rfl⟩ := ended.real_eq
  have closes := ended.closes
  have within := closes.ending.within
  refine ⟨stopped, steps ▸ within, Nat.le_trans closes.trips (Nat.le_trans within bounded), ?_⟩
  refine closes.ending.total_le_last ?_
  obtain ⟨_, opening, _⟩ := mem_starts ended.began
  rw [position_of_opening opening]
  exact Nat.zero_le _

theorem Passes.atRest (passes : sequence.Passes pass stopTime stage transposes)
    (intact : sequence.Intact source) :
    ∀ track ∈ (sequence.conclude pass stage.unlogged transposes).tracks,
      track.AtRest sequence.options.maxSteps := by
  intro track member
  rw [conclude_tracks] at member
  obtain ⟨ended, known, rfl⟩ := List.mem_map.mp member
  obtain ⟨i, found⟩ := List.getElem?_of_mem known
  obtain ⟨before, start, solo, _, ending⟩ := passes.ended intact found
  exact (ending.atRest intact.bounded).conclude pass

theorem Passes.conclude_length (passes : sequence.Passes pass stopTime stage transposes) :
    (sequence.conclude pass stage.unlogged transposes).tracks.length = sequence.tracks.length := by
  rw [conclude_tracks, List.length_map]
  exact passes.length_eq

/-- A loaded sequence can be queried: its tracks are at rest, its timeline is settled, its
transposes are known, and it has the MIDI of each track. -/
structure Loaded (sequence loaded : Sequence Unit) : Prop where
  rests : ∀ track ∈ loaded.tracks, track.AtRest sequence.options.maxSteps
  settled : loaded.timeline.settled = true ∧ loaded.timeline.settle = loaded.timeline
  transposes : ∃ transposes, loaded.currentTransposes = .ok transposes
  tracks : loaded.tracks.length = sequence.tracks.length
  midi : ∃ output, loaded.midi = some output ∧ output.tracks.length = sequence.tracks.length

/-- The tick that the MIDI of a loaded sequence stops at is the length that was measured. -/
theorem Intact.passes_midi (intact : sequence.Intact source) :
    ∃ stage transposes, sequence.Passes .midi sequence.length stage transposes :=
  intact.passes .midi sequence.length

/-- Loading completes, whatever the bytes of the file are. -/
theorem load_completes (reachable : Reachable source sequence) :
    ∃ loaded, sequence.load = .ok loaded ∧ sequence.Loaded loaded := by
  have intact := reachable.intact
  obtain ⟨_, _, listed⟩ := intact.passes .listing 0
  have intactListed := listed.intact intact
  obtain ⟨_, _, measured⟩ := intactListed.passes .length 0
  have intactMeasured := measured.intact intactListed
  obtain ⟨playing, transposes, played⟩ := intactMeasured.passes_midi
  have tracks := played.conclude_length.trans (measured.conclude_length.trans
    listed.conclude_length)
  refine ⟨_, Except.bind_eq_ok.mpr ⟨_, listed.run, Except.bind_eq_ok.mpr ⟨_, measured.run,
    played.run⟩⟩, ⟨played.atRest intactMeasured, ⟨rfl, rfl⟩, ⟨transposes, rfl⟩, tracks, _, rfl, ?_⟩⟩
  rw [← tracks, conclude_tracks, midiOutput, List.length_map, List.length_map]

/-- A track that jumps to itself, and one whose first byte is no instruction. -/
def astray : Source :=
  #[0x52, 0x53, 0x45, 0x51, 1, 0, 0, 0, 0, 0, 2, 0, 17, 0, 1, 20, 0, 0x50, 17, 0, 0xFF]

theorem load_completes_astray : ∃ sequence,
    ofSource RefSeq.format () astray = .ok sequence ∧
    ∃ loaded, sequence.load = .ok loaded ∧ sequence.Loaded loaded :=
  ⟨_, rfl, load_completes (.opened (show ofSource RefSeq.format () astray = .ok _ from rfl))⟩

end Sequence
end Sequencer
