import Sequencer.Proofs.NoteSpans
import Sequencer.Proofs.Player.Levels

/-! Setting a level ends its slide. Behind an instruction that sets a level, finished MIDI has only
messages of later instructions for the controller, if tracks keep time together. If they do not, slides
are written when they are read, and so are those of their messages that are behind it. -/
namespace Sequencer

theorem MidiMessage.sets_shift (message : MidiMessage) (semitones : Int) (dial : Dial) :
    (message.shift semitones).sets dial = message.sets dial := by
  cases message <;> rfl

namespace MidiEvent

variable {dial : Dial} {event : MidiEvent}

theorem sets_transpose (event : MidiEvent) (transposeAt : Nat → Int) (dial : Dial) :
    (event.transpose transposeAt).message.sets dial = event.message.sets dial := by
  rcases event.transpose_eq transposeAt with same | ⟨_, _, same⟩
  · rw [same]
  · rw [same]
    exact MidiMessage.sets_shift ..

/-- No shift has a part in levels. -/
theorem transpose_of_sets (sets : event.message.sets dial = true) (transposeAt : Nat → Int) :
    event.transpose transposeAt = event := by
  rcases event.transpose_eq transposeAt with same | ⟨_, _, same⟩
  · exact same
  · obtain ⟨tick, channel, message, transposeTick⟩ := event
    rw [same]
    cases message with
    | control => rfl
    | _ => cases sets

end MidiEvent

namespace MidiTrack

variable {dial : Dial} {event : MidiEvent}

theorem mem_levels {midi : MidiTrack} :
    event ∈ midi.levels dial ↔ event ∈ midi.events.toList ∧ event.message.sets dial = true :=
  List.mem_filter

/-- Finished MIDI has the messages for a level that the track has written. -/
theorem mem_levels_finished (midi : MidiTrack) (transposeAt : Nat → Int) :
    event ∈ (midi.transpose transposeAt).finalize.levels dial ↔ event ∈ midi.levels dial := by
  rw [mem_levels, mem_levels]
  refine and_congr_left fun sets => ?_
  have other : isEnd event = false := by
    refine decide_eq_false fun last => ?_
    rw [last] at sets
    cases sets
  rw [mem_finalize other, transpose, Array.toList_map]
  constructor
  · intro member
    obtain ⟨before, there, rfl⟩ := List.mem_map.mp member
    rw [MidiEvent.sets_transpose] at sets
    rwa [MidiEvent.transpose_of_sets sets]
  · intro member
    exact List.mem_map.mpr ⟨event, member, MidiEvent.transpose_of_sets sets transposeAt⟩

end MidiTrack

/-- What sets the level before a message, is before the instruction that gives the message, or behind a
slide that is written ahead. -/
theorem MidiEvent.Stems.latest {source : Source} {together : Bool} {dial : Dial}
    {entries : List LevelVisit} {event : MidiEvent}
    (stems : event.Stems source together dial entries) {m : Nat} {set : LevelVisit}
    (there : entries[m]? = some set) (sets : set.visit.SetsLevel source dial)
    (before : set.visit.tick < event.tick) : ∃ (n : Nat) (entry : LevelVisit),
      entries[n]? = some entry ∧ entry.Gives source dial event ∧
      (m < n ∨ together = false ∧ n < m ∧ entry.visit.Slides source dial) := by
  cases stems with
  | opening first =>
    rw [first] at before
    exact absurd before (Nat.not_lt_zero _)
  | @given n entry decoded gives current =>
    refine ⟨n, entry, decoded, gives, ?_⟩
    by_cases later : m < n
    · exact .inl later
    · obtain ⟨alone, slides⟩ := (current m set there sets before).resolve_left later
      have apart : n ≠ m := by
        rintro rfl
        cases decoded.symm.trans there
        exact sets.not_slides slides
      exact .inr ⟨alone, by omega, slides⟩

namespace Sequence

variable {source : Source} {sequence : Sequence Unit} {stopTime : Nat}
  {stage : Stage (Unit × List Visit)} {before track : Track} {start solo : Player}

theorem levelStart_of_starts (member : start ∈ sequence.starts .midi) (dial : Dial) :
    start.LevelStart dial := by
  obtain ⟨_, opening, _⟩ := mem_starts member
  refine ⟨Player.fresh_of_opening opening, tied_of_starts member, writes_of_starts member, ?_,
    opening.dials dial⟩
  intro event known
  obtain ⟨track, _, rfl⟩ := mem_starts_openTrack member
  obtain ⟨_, _, rfl⟩ := mem_openTrack (MidiTrack.mem_levels.mp known).1
  rfl

theorem Ended.stems (ended : sequence.Ended .midi stopTime stage before track start solo)
    (countable : (sequence.limits stopTime).Countable (sequence.setting .midi).loopRule)
    (dial : Dial) : ∃ entries : List LevelVisit,
      entries.map LevelVisit.visit = visitsOf stage.memory.2 track.index ∧
      ∀ event ∈ track.midi.levels dial,
        event.Stems sequence.source sequence.header.tickSync dial entries := by
  obtain ⟨setting, _⟩ := mem_starts ended.began
  have stems := ended.ends.levelled (levelStart_of_starts ended.began dial) (setting ▸ countable)
  rw [setting, ← ended.index_eq, ← ended.midi_eq] at stems
  exact stems

/-- Of each track and each level, a MIDI pass has for every message behind an instruction that sets the
level another instruction that gives it. Tracks that keep time together have decoded that one later.
Otherwise it may also be a slide that was decoded earlier. -/
theorem runPass_levels (reachable : Reachable source sequence) (stopTime : Nat) :
    ∃ log next output, sequence.visits .midi stopTime = .ok log ∧
      sequence.runPass .midi stopTime = .ok next ∧ next.midi = some output ∧
      output.tracks.length = next.tracks.length ∧
      ∀ (i : Nat) (track : Track) (midi : MidiTrack), next.tracks[i]? = some track →
        output.tracks[i]? = some midi → ∀ dial, ∃ entries : List LevelVisit,
          entries.map LevelVisit.visit = visitsOf log track.index ∧
          ∀ (m : Nat) (set : LevelVisit), entries[m]? = some set →
            set.visit.SetsLevel source dial →
            ∀ event ∈ midi.levels dial, set.visit.tick < event.tick →
              ∃ (n : Nat) (entry : LevelVisit), entries[n]? = some entry ∧
                entry.Gives source dial event ∧
                (m < n ∨ sequence.header.tickSync = false ∧ n < m ∧
                  entry.visit.Slides source dial) := by
  have intact := reachable.intact
  have countable : (sequence.limits stopTime).Countable (sequence.setting .midi).loopRule :=
    .inl intact.bounded
  obtain ⟨stage, transposes, passes⟩ := intact.passes .midi stopTime
  refine ⟨_, _, midiOutput sequence.header transposes stage.unlogged, passes.visits, passes.run, rfl,
    ?_, ?_⟩
  · exact length_midiOutput ..
  · intro i track midi found written dial
    obtain ⟨played, there, rfl, rfl⟩ := midi_of_midiOutput found written
    obtain ⟨_, _, _, _, ended⟩ := passes.ended intact there
    obtain ⟨entries, visited, stems⟩ := ended.stems countable dial
    rw [intact.reads] at stems
    refine ⟨entries, visited, fun m set known sets event member before => ?_⟩
    exact (stems event ((MidiTrack.mem_levels_finished ..).mp member)).latest known sets before

/-- A slide of the volume to 0 in 10 ticks, and at once a volume of 90 for 20 ticks. -/
def halted : Source :=
  #[0x52, 0x53, 0x45, 0x51, 1, 0, 0, 0, 0, 0, 1, 0, 14, 0,
    0x21, 10, 0, 0, 0x20, 90, 0x01, 20, 0, 0x00]

theorem runPass_levels_halted : ∃ sequence,
    ofSource RefSeq.format () halted = .ok sequence ∧
    ∃ log next output, (sequence.withTickSync true).visits .midi 0 = .ok log ∧
      (sequence.withTickSync true).runPass .midi 0 = .ok next ∧ next.midi = some output ∧
      output.tracks.length = next.tracks.length ∧
      ∀ (i : Nat) (track : Track) (midi : MidiTrack), next.tracks[i]? = some track →
        output.tracks[i]? = some midi → ∀ dial, ∃ entries : List LevelVisit,
          entries.map LevelVisit.visit = visitsOf log track.index ∧
          ∀ (m : Nat) (set : LevelVisit), entries[m]? = some set →
            set.visit.SetsLevel halted dial →
            ∀ event ∈ midi.levels dial, set.visit.tick < event.tick →
              ∃ (n : Nat) (entry : LevelVisit), entries[n]? = some entry ∧
                entry.Gives halted dial event ∧
                (m < n ∨ (sequence.withTickSync true).header.tickSync = false ∧ n < m ∧
                  entry.visit.Slides halted dial) :=
  ⟨_, rfl, runPass_levels ((Reachable.opened
    (show ofSource RefSeq.format () halted = .ok _ from rfl)).synced true) 0⟩

/-- Tracks that do not keep time together have messages behind the volume of 90, and the instructions
after it, a rest and the end, have none for the volume. -/
theorem not_ended_halted : ∃ sequence log next output midi event,
    ofSource RefSeq.format () halted = .ok sequence ∧ sequence.visits .midi 0 = .ok log ∧
    sequence.runPass .midi 0 = .ok next ∧ next.midi = some output ∧
    output.tracks[0]? = some midi ∧
    visitsOf log 0 = [⟨0, 14, 0⟩, ⟨0, 18, 0⟩, ⟨0, 20, 0⟩, ⟨0, 23, 20⟩] ∧
    RefSeq.kindAt? halted 18 = some (.level .volume 90) ∧
    event ∈ midi.levels .volume ∧ 0 < event.tick ∧
    ∀ (n : Nat) (visit : Visit) (level : UInt8), 1 < n → (visitsOf log 0)[n]? = some visit →
      ¬ LevelVisit.Gives halted .volume ⟨visit, level⟩ event := by
  have opened : ofSource RefSeq.format () halted = .ok _ := rfl
  have intact := (Reachable.opened opened).intact
  obtain ⟨stage, transposes, passes⟩ := intact.passes .midi 0
  have reached : Position.after halted 64 ⟨⟨14, [], []⟩, 0⟩ 3 = some ⟨⟨23, [], []⟩, 20⟩ := by
    decide +kernel
  obtain ⟨before, track, start, solo, tracks, index, ended, all, own⟩ := passes.single intact
    (show _ = [(0, 14, 0)] from rfl) reached (by decide +kernel) (by decide) (.inl rfl) rfl
  have visits : visitsOf stage.memory.2 0 =
      [⟨0, 14, 0⟩, ⟨0, 18, 0⟩, ⟨0, 20, 0⟩, ⟨0, 23, 20⟩] := by
    rw [all, own]
    decide +kernel
  -- On its own it ends with the last message of the slide.
  have ahead : (start.playOut 4).map (fun last : Player =>
      decide (⟨10, 0, .control Controller.volume 0, none⟩ ∈ last.track.midi.levels .volume)) =
        some true := by
    obtain ⟨opening, member, rfl⟩ := mem_starts_openTrack ended.began
    cases List.mem_singleton.mp member
    decide +kernel
  obtain ⟨last, played, written⟩ := Option.map_eq_some_iff.mp ahead
  obtain rfl := ended.playOut intact rfl last (by rw [index, visits]; exact played)
  have written := of_decide_eq_true written
  rw [← ended.midi_eq] at written
  refine ⟨_, _, _, _, (track.midi.transpose transposes.allAt).finalize, _, opened, passes.visits,
    passes.run, rfl, ?_, visits, by decide +kernel,
    (MidiTrack.mem_levels_finished ..).mpr written, by decide, ?_⟩
  · rw [midiOutput, show stage.unlogged.tracks = [track] from tracks]
    rfl
  · rw [visits]
    intro n visit level later there gives
    have last : visit = ⟨0, 20, 0⟩ ∨ visit = ⟨0, 23, 20⟩ := by
      obtain ⟨beyond, rfl⟩ := Nat.exists_eq_add_of_le' later
      rcases beyond with _ | _ | beyond
      · exact .inl (Option.some.inj there).symm
      · exact .inr (Option.some.inj there).symm
      · cases there
    have rest : RefSeq.kindAt? halted 20 = some (.rest 20) := by decide +kernel
    have trackEnd : RefSeq.kindAt? halted 23 = some .trackEnd := by decide +kernel
    rcases last with rfl | rfl
    · rcases gives.now_or_slides with now | ⟨_, _, slides⟩
      · cases now
      · cases rest.symm.trans slides
    · rcases gives.now_or_slides with now | ⟨_, _, slides⟩
      · cases now
      · cases trackEnd.symm.trans slides

end Sequence
end Sequencer
