import Sequencer.Proofs.InTurn.Stage
import Sequencer.Proofs.Passes

/-! Tracks that keep time together, and the same tracks in turn. As long as nothing slides, a file
is played the same way in both. -/
namespace Sequencer

open Player

/-- The figures of a track: its length, its trips around cycles and its instructions. -/
structure Tally where
  totalTicks : Nat
  trips : Nat
  steps : Nat
  measuredTicks : Nat
  measuredTrips : Nat
deriving DecidableEq, Repr

def Track.tally (track : Track) : Tally :=
  ⟨track.totalTicks, track.guard.trips, track.steps, track.measuredTicks, track.measuredTrips⟩

namespace Sequence

/-- The same sequence, but for its tracks, which play in turn. -/
structure Untimed (sequence other : Sequence Unit) : Prop where
  source : other.source = sequence.source
  header : other.header = { sequence.header with tickSync := false }
  options : other.options = sequence.options
  tracks : other.tracks.map (Track.reset sequence.header) =
    sequence.tracks.map (Track.reset sequence.header)

variable {source : Source} {sequence other : Sequence Unit} {pass : Pass} {stopTime : Nat}
  {stage stage' : Stage (Unit × List Visit)} {transposes transposes' : Transposes}

theorem Untimed.setting (untimed : sequence.Untimed other) (pass : Pass) :
    other.setting pass = { sequence.setting pass with tickSync := false } := by
  unfold Sequence.setting
  rw [untimed.source, untimed.header, untimed.options]

theorem Untimed.openStage (untimed : sequence.Untimed other) (pass : Pass) :
    (other.openStage pass).tracks = (sequence.openStage pass).tracks ∧
      { (other.openStage pass).shared with arena := {} } =
        { (sequence.openStage pass).shared with arena := {} } := by
  have tracks : other.stage.tracks.map (Track.reset other.header) =
      sequence.stage.tracks.map (Track.reset sequence.header) := by
    rw [untimed.header]
    exact untimed.tracks
  have tempo : other.header.tempo = sequence.header.tempo := by rw [untimed.header]
  have initial : initialMessages other.header = initialMessages sequence.header := by
    rw [untimed.header]
    rfl
  unfold Sequence.openStage
  rw [untimed.options]
  dsimp only
  split
  · simp only [writeInitialState, Shared.reset, tracks, tempo, initial, and_self]
  · simp only [Shared.reset, tracks, tempo, and_self]

theorem Untimed.starts (untimed : sequence.Untimed other) (pass : Pass) :
    other.starts pass = (sequence.starts pass).map inTurn := by
  obtain ⟨tracks, shared⟩ := untimed.openStage pass
  unfold Sequence.starts
  rw [untimed.setting, tracks, shared, List.map_map]
  rfl

theorem Untimed.opening (untimed : sequence.Untimed other) (pass : Pass) :
    other.opening pass = sequence.opening pass := by
  have same := congrArg (fun shared : Shared => shared.conductor.events.toList)
    (untimed.openStage pass).2
  exact same

theorem Passes.alike (intact : sequence.Intact source) (untimed : sequence.Untimed other)
    (bounded : sequence.options.maxSteps ≤ 65536)
    (passes : sequence.Passes pass stopTime stage transposes)
    (passes' : other.Passes pass stopTime stage' transposes')
    (quiet : ∀ visit ∈ stage.memory.2, visit.isSlide source = false) : stage.Alike stage' := by
  have played := passes'.played
  have limits : other.limits stopTime = sequence.limits stopTime := by
    unfold Sequence.limits
    rw [untimed.options]
  rw [untimed.starts, limits] at played
  refine passes.played.alike bounded ?_ ?_ played
  · intro start member
    have opening := (mem_starts member).2.1
    exact ⟨fresh_of_opening opening, opening.dials⟩
  · intro start member visit there
    rw [(mem_starts member).1]
    change visit.isSlide sequence.source = false
    rw [intact.reads]
    exact quiet visit there

/-- What a pass leaves of two sequences that are the same but for their timing. -/
theorem Untimed.conclude (untimed : sequence.Untimed other) (alike : stage.Alike stage') (pass : Pass)
    (transposes transposes' : Transposes) :
    (sequence.conclude pass stage.unlogged transposes).Untimed
      (other.conclude pass stage'.unlogged transposes') := by
  obtain ⟨_, source, options, header⟩ :=
    conclude_fixed sequence pass stage.unlogged transposes
  obtain ⟨_, source', options', header'⟩ :=
    conclude_fixed other pass stage'.unlogged transposes'
  refine ⟨by rw [source, source', untimed.source], by rw [header, header', untimed.header],
    by rw [options, options', untimed.options], ?_⟩
  have blind (track : Track) : (track.conclude pass).reset sequence.header =
      (track.outcome.conclude pass).reset sequence.header := by
    cases pass <;> rfl
  have outcomes (stage : Stage (Unit × List Visit)) :
      (stage.tracks.map (Track.conclude pass)).map (Track.reset sequence.header) =
        (stage.tracks.map Track.outcome).map fun track =>
          (track.conclude pass).reset sequence.header := by
    rw [List.map_map, List.map_map]
    exact List.map_congr_left fun track _ => blind track
  rw [conclude_tracks, conclude_tracks, header]
  exact (outcomes stage').trans ((congrArg _ alike.tracks).trans (outcomes stage).symm)

theorem Passes.faithful (passes : sequence.Passes pass stopTime stage transposes) :
    stage.shared.arena.Faithful sequence.source := passes.played.ensemble.faithful

theorem Passes.changes_alike (untimed : sequence.Untimed other) (alike : stage.Alike stage')
    (passes : sequence.Passes pass stopTime stage transposes)
    (passes' : other.Passes pass stopTime stage' transposes') :
    transposes'.ofAll = transposes.ofAll := by
  have faithful := passes'.faithful
  rw [untimed.source] at faithful
  apply Array.toList_inj.mp
  rw [passes.changes, passes'.changes, Shared.changes_eq_rows passes.faithful,
    Shared.changes_eq_rows faithful, alike.rows]

/-- The conductor does not end by itself. -/
theorem unended_conductor (sequence : Sequence Unit) (pass : Pass) (visits : List Visit) :
    ∀ event ∈ sequence.opening pass ++ visits.filterMap (Visit.conducted? (sequence.setting pass)),
      MidiTrack.isEnd event = false := by
  intro event member
  rcases List.mem_append.mp member with member | member
  · unfold Sequence.opening Sequence.openStage at member
    split at member
    · have tempo : event = ⟨0, 0, .tempo (microsOfBpm sequence.header.tempo), none⟩ := by
        simpa [writeInitialState, Shared.reset, MidiTrack.push] using member
      rw [tempo]
      rfl
    · simp [Shared.reset] at member
  · obtain ⟨visit, _, written⟩ := List.mem_filterMap.mp member
    unfold Visit.conducted? at written
    split at written
    · obtain ⟨message, conducted, rfl⟩ := Option.map_eq_some_iff.mp written
      obtain ⟨kind, _, conducted⟩ := Option.bind_eq_some_iff.mp conducted
      cases kind <;> cases conducted <;> rfl
    · cases written

theorem Passes.conductor_alike (intact : sequence.Intact source)
    (untimed : sequence.Untimed other) (alike : stage.Alike stage')
    (passes : sequence.Passes pass stopTime stage transposes)
    (passes' : other.Passes pass stopTime stage' transposes')
    (quiet : ∀ visit ∈ stage.memory.2, visit.isSlide source = false) :
    stage'.shared.conductor.finalize = stage.shared.conductor.finalize := by
  have reads : (sequence.setting pass).source = source := intact.reads
  have reads' : (other.setting pass).source = source := untimed.source.trans intact.reads
  have quiet' : ∀ visit ∈ stage'.memory.2, visit.isSlide source = false := by
    intro visit member
    have there : visit ∈ stage'.memory.2.filter fun other => other.tick = visit.tick :=
      List.mem_filter.mpr ⟨member, decide_eq_true rfl⟩
    rw [alike.visits] at there
    exact quiet visit (List.mem_filter.mp there).1
  have messages := passes.conductor_eq (by rw [reads]; exact quiet)
  have messages' := passes'.conductor_eq (by rw [reads']; exact quiet')
  have writes : Visit.conducted? (other.setting pass) = Visit.conducted? (sequence.setting pass) := by
    rw [untimed.setting]
    rfl
  refine MidiTrack.finalize_congr ?_ ?_ fun tick => ?_
  · rw [messages']
    exact unended_conductor other pass _
  · rw [messages]
    exact unended_conductor sequence pass _
  · rw [messages, messages', untimed.opening, writes, List.filter_append, List.filter_append,
      filter_conducted, filter_conducted, alike.visits]

theorem Passes.midi_alike (intact : sequence.Intact source)
    (untimed : sequence.Untimed other) (alike : stage.Alike stage')
    (passes : sequence.Passes pass stopTime stage transposes)
    (passes' : other.Passes pass stopTime stage' transposes')
    (quiet : ∀ visit ∈ stage.memory.2, visit.isSlide source = false) :
    midiOutput other.header transposes' stage'.unlogged =
      midiOutput sequence.header transposes stage.unlogged := by
  have transposed : transposes'.allAt = transposes.allAt := by
    unfold Transposes.allAt
    rw [Passes.changes_alike untimed alike passes passes']
  have conductor := Passes.conductor_alike intact untimed alike passes passes' quiet
  have tracks := congrArg (List.map fun track : Track =>
    (track.midi.transpose transposes.allAt).finalize) alike.tracks
  rw [List.map_map, List.map_map] at tracks
  unfold midiOutput
  rw [transposed, untimed.header]
  exact congr (congrArg (MidiOutput.mk sequence.header.ticksPerQuarter) conductor) tracks

/-- Two sequences are played the same way: as long, with the same messages and the same transposes,
and with the same events at the same ticks. -/
structure SoundsLike (first second : Sequence Unit) : Prop where
  length : second.length = first.length
  tallies : second.tracks.map Track.tally = first.tracks.map Track.tally
  midi : ∃ output, first.midi = some output ∧ second.midi = some output
  transposes : ∃ transposes transposes', first.transposes = some transposes ∧
    second.transposes = some transposes' ∧ transposes'.ofAll = transposes.ofAll
  rows : second.stage.shared.rowsByStart = first.stage.shared.rowsByStart

theorem length_alike (alike : stage.Alike stage') (sequence other : Sequence Unit)
    (transposes transposes' : Transposes) :
    (other.conclude .length stage'.unlogged transposes').length =
      (sequence.conclude .length stage.unlogged transposes).length := by
  have totals := congrArg (List.map Track.totalTicks) alike.tracks
  rw [List.map_map, List.map_map] at totals
  have measured (stage : Stage (Unit × List Visit)) :
      (measure stage.unlogged).tracks.map Track.totalTicks =
        stage.tracks.map (Track.totalTicks ∘ Track.outcome) := List.map_map ..
  have lengths := congrArg (List.foldl max 0) totals
  rw [← measured, ← measured] at lengths
  exact lengths

theorem Passes.soundsLike (intact : sequence.Intact source) (untimed : sequence.Untimed other)
    (bounded : sequence.options.maxSteps ≤ 65536) (length : other.length = sequence.length)
    (passes : sequence.Passes .midi stopTime stage transposes)
    (passes' : other.Passes .midi stopTime stage' transposes')
    (quiet : ∀ visit ∈ stage.memory.2, visit.isSlide source = false) :
    (sequence.conclude .midi stage.unlogged transposes).SoundsLike
      (other.conclude .midi stage'.unlogged transposes') := by
  have alike := passes.alike intact untimed bounded passes' quiet
  have midi := Passes.midi_alike intact untimed alike passes passes' quiet
  refine ⟨length, ?_, ⟨_, rfl, congrArg some midi⟩,
    ⟨_, _, rfl, rfl, Passes.changes_alike untimed alike passes passes'⟩, ?_⟩
  · have tallies := congrArg (List.map Track.tally) alike.tracks
    have blind (stage : Stage (Unit × List Visit)) :
        (stage.tracks.map (Track.conclude .midi)).map Track.tally =
          (stage.tracks.map Track.outcome).map Track.tally := by
      rw [List.map_map, List.map_map]
      rfl
    rw [conclude_tracks, conclude_tracks]
    exact (blind stage').trans (tallies.trans (blind stage).symm)
  · have sorted (stage : Stage (Unit × List Visit)) := Shared.rowsByStart_settle stage.shared
    have rows := congrArg (List.map some) alike.rows
    exact (sorted stage').trans (rows.trans (sorted stage).symm)

/-- Without slides a sequence is loaded the same way with its tracks playing together as with its
tracks in turn. -/
theorem load_soundsLike (reachable : Reachable source sequence)
    (bounded : sequence.options.maxSteps ≤ 65536)
    (quiet : ∀ tickSync visits, (sequence.withTickSync tickSync).visitsOfLoad = .ok visits →
      ∀ visit ∈ visits, visit.isSlide source = false) :
    ∃ together inTurn, (sequence.withTickSync true).load = .ok together ∧
      (sequence.withTickSync false).load = .ok inTurn ∧ together.SoundsLike inTurn := by
  have untimed : (sequence.withTickSync true).Untimed (sequence.withTickSync false) :=
    ⟨rfl, rfl, rfl, rfl⟩
  have intact : (sequence.withTickSync true).Intact source := (Reachable.synced reachable true).intact
  have intact' : (sequence.withTickSync false).Intact source :=
    (Reachable.synced reachable false).intact
  obtain ⟨listing, changes, listed⟩ := intact.passes .listing 0
  have intactListed := listed.intact intact
  obtain ⟨measuring, middle, measured⟩ := intactListed.passes .length 0
  have intactMeasured := measured.intact intactListed
  obtain ⟨playing, _, played⟩ := intactMeasured.passes .midi _
  have visits := visitsOfLoad_eq listed.run measured.run played.run listed.visits measured.visits
    played.visits
  have still := quiet true _ visits
  -- Each pass is alike in both, and leaves sequences that differ in their timing alone.
  obtain ⟨listing', changes', listed'⟩ := intact'.passes .listing 0
  have untimedListed := untimed.conclude (listed.alike intact untimed bounded listed'
    fun visit member => still visit (List.mem_append_left _ (List.mem_append_left _ member)))
    .listing changes changes'
  have intactListed' := listed'.intact intact'
  obtain ⟨measuring', middle', measured'⟩ := intactListed'.passes .length 0
  have alike := measured.alike intactListed untimedListed bounded measured' fun visit member =>
    still visit (List.mem_append_left _ (List.mem_append_right _ member))
  have untimedMeasured := untimedListed.conclude alike .length middle middle'
  have length := length_alike alike
    ((sequence.withTickSync true).conclude .listing listing.unlogged changes)
    ((sequence.withTickSync false).conclude .listing listing'.unlogged changes') middle middle'
  obtain ⟨playing', _, played'⟩ := (measured'.intact intactListed').passes .midi _
  refine ⟨_, _, Except.bind_eq_ok.mpr ⟨_, listed.run, Except.bind_eq_ok.mpr
    ⟨_, measured.run, played.run⟩⟩, Except.bind_eq_ok.mpr ⟨_, listed'.run,
      Except.bind_eq_ok.mpr ⟨_, measured'.run, played'.run⟩⟩, ?_⟩
  have quiet : ∀ visit ∈ playing.memory.2, visit.isSlide source = false := fun visit member =>
    still visit (List.mem_append_right _ member)
  rw [length] at played'
  exact played.soundsLike intactMeasured untimedMeasured bounded length played' quiet

/-- Two tracks that transpose all notes, set the tempo, and sound a note each. -/
def duet : Source :=
  #[0x52, 0x53, 0x45, 0x51, 1, 0, 0, 0, 0, 0, 2, 0, 17, 0, 1, 28, 0,
    0x34, 2, 0x12, 60, 100, 4, 0, 0x01, 4, 0, 0x00,
    0x40, 120, 0, 0x10, 62, 90, 0x01, 4, 0, 0x11, 62, 0x00]

theorem isSlide_duet (visit : Visit) : visit.isSlide duet = false := by
  have inside : ∀ offset < 40, ((RefSeq.kindAt? duet offset).any EventKind.isSlide) = false := by
    decide +kernel
  unfold Visit.isSlide
  rcases Nat.lt_or_ge visit.offset 40 with within | outside
  · exact inside visit.offset within
  · rw [RefSeq.kindAt_outside outside]
    rfl

theorem load_soundsLike_duet : ∃ sequence,
    ofSource RefSeq.format () duet = .ok sequence ∧
    (sequence.withOptions { maxSteps := 65536 }).options.maxSteps ≤ 65536 ∧
    (∀ tickSync visits, ((sequence.withOptions { maxSteps := 65536 }).withTickSync
      tickSync).visitsOfLoad = .ok visits → ∀ visit ∈ visits, visit.isSlide duet = false) ∧
    ∃ together inTurn,
      ((sequence.withOptions { maxSteps := 65536 }).withTickSync true).load = .ok together ∧
      ((sequence.withOptions { maxSteps := 65536 }).withTickSync false).load = .ok inTurn ∧
      together.SoundsLike inTurn :=
  have quiet (sequence : Sequence Unit) (tickSync : Bool) (visits : List Visit)
      (_ : (sequence.withTickSync tickSync).visitsOfLoad = .ok visits) :
      ∀ visit ∈ visits, visit.isSlide duet = false := fun visit _ => isSlide_duet visit
  ⟨_, rfl, Nat.le_refl _, quiet _, load_soundsLike (.configured (.opened
    (show ofSource RefSeq.format () duet = .ok _ from rfl)) { maxSteps := 65536 } (by decide))
    (Nat.le_refl _) (quiet _)⟩

end Sequence
end Sequencer
