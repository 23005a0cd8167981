import Sequencer.Proofs.Conductor
import Sequencer.Proofs.Loading
import Sequencer.Proofs.Midi.File
import Sequencer.Proofs.RefSeq.Strength

/-! The MIDI of a loaded file. MIDI has room for each message of a track, and a file gives it back,
if no instruction of the track gives a velocity or a level above 127. Such a number is written as it
is, and a file has another one in its place. -/
namespace Sequencer

theorem MidiTrack.carries_of_representable {midi : MidiTrack}
    (fits : ∀ event ∈ midi.events.toList, event.Representable) : midi.Carries False where
  shaped := fun event member => (MidiEvent.representable_iff.mp (fits event member)).1
  strength := by
    refine iff_false_intro ?_
    rintro ⟨event, member, strong⟩
    exact absurd (MidiEvent.representable_iff.mp (fits event member)).2 (UInt8.not_le.mpr strong)

namespace Sequence

variable {source : Source} {sequence : Sequence Unit} {stopTime : Nat}
  {stage : Stage (Unit × List Visit)} {transposes : Transposes} {before track : Track}
  {start solo : Player}

theorem openStage_inRange {σ : Type} (sequence : Sequence σ) (pass : Pass) :
    (sequence.openStage pass).shared.InRange := by
  have empty : (sequence.stage.shared.reset sequence.header).InRange :=
    fun event member => absurd member List.not_mem_nil
  unfold openStage
  dsimp only
  split
  · exact empty.push 0 (.tempo _) ⟨microsOfBpm_pos _, microsOfBpm_le _⟩
  · exact empty

/-- MIDI has room for what the conductor has, in any format. -/
theorem conductor_representable {σ : Type} {sequence played : Sequence σ}
    (done : sequence.runPass .midi stopTime = .ok played) : ∃ output, played.midi = some output ∧
      ∀ event ∈ output.conductor.events.toList, event.Representable := by
  obtain ⟨stage, ran, closed⟩ := Except.bind_eq_ok.mp done
  rw [closePass_eq] at closed
  obtain ⟨transposes, _, rfl⟩ := Except.map_eq_ok.mp closed
  have active : ∀ track ∈ (sequence.openStage .midi).tracks, track.active = true := by
    intro track member
    rw [openStage_openTrack] at member
    obtain ⟨earlier, _, rfl⟩ := List.mem_map.mp member
    exact (opening_openTrack _ _ earlier).active
  have ended := (Player.upkeep_inRange (sequence.setting .midi)).play
    (fun memory player => Routine.orders_any _ player) (sequence.limits stopTime) active
    (openStage_inRange sequence .midi) _ ran
  have carries := (MidiTrack.carries_of_representable ended.2).finalize
  exact ⟨_, rfl, carries.representable_iff.mpr id⟩

theorem initialMessages_representable (header : Header) :
    ∀ message ∈ initialMessages header, message.Representable := by
  have masked (n : UInt8) : n &&& 0x7F ≤ 127 := UInt8.and_le_right
  refine List.forall_mem_append.mpr ⟨?_, ?_⟩
  · intro message member
    obtain ⟨number, _, rfl⟩ := Option.map_eq_some_iff.mp (Option.mem_toList.mp member)
    exact masked number
  · refine List.forall_mem_cons.mpr ⟨⟨by decide, masked _⟩, ?_⟩
    refine List.forall_mem_cons.mpr ⟨⟨by decide, masked _⟩, ?_⟩
    exact List.forall_mem_singleton.mpr ⟨by decide, masked _⟩

/-- Every track starts on one of sixteen channels. -/
def Channelled (sequence : Sequence Unit) : Prop :=
  ∀ track ∈ sequence.tracks, track.startChannel ≤ 15

theorem channelled_of_origins {first second : Sequence Unit}
    (same : second.tracks.map origin = first.tracks.map origin) (channelled : first.Channelled) :
    second.Channelled := by
  intro track member
  have known := List.mem_map_of_mem (f := origin) member
  rw [same] at known
  obtain ⟨earlier, there, alike⟩ := List.mem_map.mp known
  have channel : earlier.startChannel = track.startChannel :=
    congrArg (fun origin => origin.2.2) alike
  rw [← channel]
  exact channelled earlier there

theorem Reachable.channelled (reachable : Reachable source sequence) : sequence.Channelled := by
  induction reachable with
  | opened accepted =>
    obtain ⟨header, pointers, _, _, rfl⟩ := fresh_of_accepted accepted
    intro track member
    obtain ⟨index, inside, rfl⟩ := List.mem_mapIdx.mp member
    exact UInt8.and_le_right
  | configured _ _ _ ih | looped _ _ ih | synced _ _ ih => exact ih
  | played reachable pass stopTime run ih =>
    obtain ⟨stage, transposes, passes⟩ := reachable.intact.passes pass stopTime
    cases passes.run.symm.trans run
    exact channelled_of_origins (passes.conclude_origins reachable.intact) ih

theorem carries_openTrack (header : Header) (writes : Bool) (small : track.startChannel ≤ 15) :
    (openTrack header writes track).midi.Carries False := by
  refine MidiTrack.carries_of_representable fun event member => ?_
  obtain ⟨message, initial, rfl⟩ := mem_openTrack member
  exact ⟨small, initialMessages_representable header message initial⟩

theorem voiced_of_starts (channelled : sequence.Channelled)
    (member : start ∈ sequence.starts .midi) : start.Voiced [] start := by
  obtain ⟨track, there, rfl⟩ := mem_starts_openTrack member
  have opening := opening_openTrack sequence.header
    (Pass.midi = .midi && sequence.options.initialState) track
  have still := (openStage_shared sequence .midi).2.2
  have small := channelled track there
  constructor
  · refine ⟨rfl, fun dial ramp moves => ?_, fun ramp moves => ?_⟩
    · cases (opening.dials dial).symm.trans moves
    · cases still.symm.trans moves
  · refine ⟨rfl, small, ?_, (carries_openTrack sequence.header _ small).of_iff ?_⟩
    · rw [opening.openNotes]
      exact fun _ member => absurd member List.not_mem_nil
    · simp [RefSeq.Loud]

/-- A track that has ended is as loud as its instructions. -/
theorem Ended.carries (ended : sequence.Ended .midi stopTime stage before track start solo)
    (channelled : sequence.Channelled) :
    track.midi.Carries (RefSeq.Loud sequence.source (visitsOf stage.memory.2 track.index)) := by
  have voiced := ended.ends.voiced (voiced_of_starts channelled ended.began)
  obtain ⟨own, delay, same⟩ := ended.real_eq
  have midi : track.midi = solo.track.midi := by
    rw [same]
    rfl
  rw [midi, ended.index_eq, ← (show start.setting.source = sequence.source from
    congrArg Setting.source (mem_starts ended.began).1)]
  exact voiced.carries.midi

/-- No instruction that has an entry of the track gives a strength above 127. -/
def Fits (sequence : Sequence Unit) (track : Nat) : Prop :=
  ∀ entry ∈ sequence.timeline.entries.toList, ∀ event,
    sequence.arena.get? entry.event = some event → event.track = track → event.kind.strength ≤ 127

theorem fits_iff (sequence : Sequence Unit) (track : Nat) :
    sequence.Fits track ↔ ¬ sequence.stage.shared.Loud track := by
  simp only [Fits, Shared.Loud, timeline, arena, not_exists, not_and, UInt8.not_lt]

/-- The MIDI of a track, once it is finished, is too strong where its instructions are. -/
theorem Passes.carries (passes : sequence.Passes .midi stopTime stage transposes)
    (intact : sequence.Intact source) (channelled : sequence.Channelled) {i : Nat}
    (found : stage.tracks[i]? = some track) :
    (track.midi.transpose transposes.allAt).finalize.Carries (stage.shared.Loud track.index) := by
  obtain ⟨before, start, solo, _, ended⟩ := passes.ended intact found
  have ensemble := passes.played.ensemble
  have carries := (ended.carries channelled).of_iff
    (loud_of_journal ensemble.journal ensemble.faithful)
  exact (carries.transpose transposes.allAt).finalize

/-- Loading a file lists its events, measures its length and plays its MIDI last. -/
theorem Reachable.load_runs (reachable : Reachable source sequence) :
    ∃ listed measured stage transposes, Reachable source measured ∧
      measured.options = sequence.options ∧ measured.header = sequence.header ∧
      measured.tracks.map origin = sequence.tracks.map origin ∧
      sequence.runPass .listing 0 = .ok listed ∧ listed.runPass .length 0 = .ok measured ∧
      measured.Passes .midi measured.length stage transposes ∧
      sequence.load = .ok (measured.conclude .midi stage.unlogged transposes) := by
  obtain ⟨_, _, listed⟩ := reachable.intact.passes .listing 0
  have reachableListed := reachable.played .listing 0 listed.run
  obtain ⟨_, _, measured⟩ := reachableListed.intact.passes .length 0
  have reachableMeasured := reachableListed.played .length 0 measured.run
  obtain ⟨stage, transposes, played⟩ := reachableMeasured.intact.passes_midi
  have origins := (measured.conclude_origins reachableListed.intact).trans
    (listed.conclude_origins reachable.intact)
  refine ⟨_, _, stage, transposes, reachableMeasured, rfl, rfl, origins, listed.run, measured.run,
    played, ?_⟩
  exact Except.bind_eq_ok.mpr ⟨_, listed.run, Except.bind_eq_ok.mpr ⟨_, measured.run, played.run⟩⟩

theorem Reachable.load_eq (reachable : Reachable source sequence) :
    ∃ measured stage transposes, Reachable source measured ∧
      measured.options = sequence.options ∧
      measured.tracks.map origin = sequence.tracks.map origin ∧
      measured.Passes .midi measured.length stage transposes ∧
      sequence.load = .ok (measured.conclude .midi stage.unlogged transposes) := by
  obtain ⟨_, measured, stage, transposes, reachable, options, _, origins, _, _, passes, loads⟩ :=
    reachable.load_runs
  exact ⟨measured, stage, transposes, reachable, options, origins, passes, loads⟩

/-- MIDI has room for the numbers of all messages of a loaded file, velocities and levels of
instructions aside. It has room for each message of a track, and a file gives all of them back, just
if the instructions of the track have none above 127. -/
theorem load_representable (reachable : Reachable source sequence) :
    ∃ loaded output, sequence.load = .ok loaded ∧ loaded.midi = some output ∧
      output.tracks.length = loaded.tracks.length ∧
      (∀ event ∈ output.conductor.events.toList, event.Representable) ∧ output.conductor.Survives ∧
      ∀ (i : Nat) (track : Track) (midi : MidiTrack), loaded.tracks[i]? = some track →
        output.tracks[i]? = some midi →
          (∀ event ∈ midi.events.toList, event.Shaped) ∧
          ((∀ event ∈ midi.events.toList, event.Representable) ↔ loaded.Fits track.index) ∧
          (midi.Survives ↔ loaded.Fits track.index) := by
  obtain ⟨measured, stage, transposes, reachable, _, _, passes, loads⟩ := reachable.load_eq
  obtain ⟨output, written, conductor⟩ := conductor_representable passes.run
  have same : some (midiOutput measured.header transposes stage.unlogged) = some output := written
  cases same
  refine ⟨_, _, loads, rfl, ?_, conductor, ?_, ?_⟩
  · rw [conclude_tracks, midiOutput, List.length_map, List.length_map]
  · refine (MidiTrack.survives_iff (MidiTrack.exists_isEnd_finalize _) fun event member => ?_).mpr
      conductor
    exact (MidiEvent.representable_iff.mp (conductor event member)).1
  · intro i track midi found written
    rw [conclude_tracks, List.getElem?_map] at found
    obtain ⟨ended, there, rfl⟩ := Option.map_eq_some_iff.mp found
    change stage.tracks[i]? = _ at there
    rw [midiOutput, List.getElem?_map] at written
    change (stage.tracks[i]?).map _ = _ at written
    rw [there] at written
    cases written
    have carries := passes.carries reachable.intact reachable.channelled there
    have fits := carries.representable_iff.trans
      (fits_iff (measured.conclude .midi stage.unlogged transposes) ended.index).symm
    refine ⟨carries.shaped, fits, ?_⟩
    exact (MidiTrack.survives_iff (MidiTrack.exists_isEnd_finalize _) carries.shaped).trans fits

/-- One track: its level is set to 200. -/
def deafening : Source :=
  #[0x52, 0x53, 0x45, 0x51, 1, 0, 0, 0, 0, 0, 1, 0, 14, 0, 0x20, 200, 0x00]

theorem load_representable_deafening : ∃ sequence,
    ofSource RefSeq.format () deafening = .ok sequence ∧
    ∃ loaded output, sequence.load = .ok loaded ∧ loaded.midi = some output ∧
      output.tracks.length = loaded.tracks.length ∧
      (∀ event ∈ output.conductor.events.toList, event.Representable) ∧ output.conductor.Survives ∧
      ∀ (i : Nat) (track : Track) (midi : MidiTrack), loaded.tracks[i]? = some track →
        output.tracks[i]? = some midi →
          (∀ event ∈ midi.events.toList, event.Shaped) ∧
          ((∀ event ∈ midi.events.toList, event.Representable) ↔ loaded.Fits track.index) ∧
          (midi.Survives ↔ loaded.Fits track.index) :=
  ⟨_, rfl, load_representable (.opened
    (show ofSource RefSeq.format () deafening = .ok _ from rfl))⟩

/-- A track decodes its first instruction, if it may decode any. -/
theorem Follows.decodes_first {pass : Pass} {own : List Visit}
    (follows : sequence.Follows pass stopTime own track) (may : 0 < sequence.options.maxSteps) :
    ∃ visit ∈ own, visit.offset = track.startOffset := by
  have begun : own.length ≠ 0 := by
    intro none
    have ending := follows.ending
    rw [none] at ending
    generalize track.totalTicks = total at ending
    cases ending with
    | stopped reached within why =>
      cases reached
      rcases why with spent | ⟨limited, passed⟩ | ⟨_, late⟩
      · exact Nat.not_le.mpr may spent
      · exact limited (Nat.le_zero.mp passed)
      · exact Nat.not_lt_zero _ late
  have first : track.opening.visit ∈
      track.opening.freeRun sequence.source sequence.options.maxDepth own.length :=
    List.mem_filterMap.mpr ⟨0, List.mem_range.mpr (Nat.pos_of_ne_zero begun), rfl⟩
  rw [← follows.decoded] at first
  obtain ⟨visit, member, same⟩ := List.mem_map.mp first
  exact ⟨visit, member, congrArg Prod.fst same⟩

/-- MIDI has no room for a message of the loaded file. -/
theorem not_representable_deafening : ∃ sequence loaded output midi event,
    ofSource RefSeq.format () deafening = .ok sequence ∧ sequence.load = .ok loaded ∧
      loaded.midi = some output ∧ midi ∈ output.tracks ∧ event ∈ midi.events.toList ∧
      ¬ event.Representable := by
  have opened : ofSource RefSeq.format () deafening = .ok _ := rfl
  have reachable := Reachable.opened opened
  obtain ⟨measured, stage, transposes, reachable, options, origins, passes, loads⟩ :=
    reachable.load_eq
  have lengths := (passes.origins reachable.intact).trans origins
  obtain ⟨track, tracks, origin⟩ := List.map_eq_singleton_iff.mp lengths
  have found : stage.tracks[0]? = some track := by rw [tracks]; rfl
  obtain ⟨before, start, solo, _, ended⟩ := passes.ended reachable.intact found
  obtain ⟨visit, own, first⟩ := ended.follows.decodes_first (by rw [options]; decide)
  have reads := reachable.intact.reads
  have offset : visit.offset = 14 := first.trans (congrArg (fun origin => origin.2.1) origin)
  have loud : RefSeq.Loud measured.source (visitsOf stage.memory.2 track.index) := by
    refine ⟨visit, own, ?_⟩
    rw [reads, offset]
    decide
  have carries := ((ended.carries reachable.channelled).transpose transposes.allAt).finalize
  obtain ⟨event, member, strong⟩ := carries.strength.mpr loud
  refine ⟨_, _, midiOutput measured.header transposes stage.unlogged, _, event, opened, loads, rfl,
    List.mem_map_of_mem (List.mem_of_getElem? found), member, fun fits => ?_⟩
  exact absurd (MidiEvent.representable_iff.mp fits).2 (UInt8.not_le.mpr strong)

end Sequence
end Sequencer
