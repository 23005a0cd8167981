import Sequencer.Proofs.Passes
import Sequencer.Proofs.Score.Pairing

/-! Notes of the MIDI pass. Every note of a track's timeline is a note of its finished MIDI, and the
other way round, whatever has become of its end. -/
namespace Sequencer

theorem Arena.Faithful.startsNote {source : Source} {arena : Arena}
    (faithful : arena.Faithful source) {id : Nat} {event : Event}
    (found : arena.get? id = some event) :
    event.kind.startsNote = RefSeq.startsNote source event.offset := by
  obtain ⟨player, reads, recording⟩ := faithful id event found
  subst reads
  unfold Player.recording? at recording
  split at recording
  · cases recording
  · rename_i instruction stop read
    obtain ⟨kind, recorded, rfl⟩ := Option.map_eq_some_iff.mp recording
    rw [Player.startsNote_of_read read]
    cases instruction with
    | cut => cases recorded
    | event | octaveNote | unknown =>
      cases recorded
      rfl

namespace Player

variable {start player : Player}

theorem engraved_of_opening (opening : start.track.Opening)
    (writing : start.setting.pass = .midi) (arena : start.shared.arena = {})
    (timeline : start.shared.timeline = {})
    (silent : ∀ event ∈ start.track.midi.events.toList, event.message.isNote = false) :
    start.Engraved where
  sound := by
    rw [arena]
    exact Arena.sound_empty
  resolved := by
    simp [Shared.Resolved, Shared.tags, Timeline.skeleton, timeline]
  notated := by
    have none : start.shared.noteIndices start.setting.source = [] := by
      simp [Shared.noteIndices, Timeline.size, timeline]
    rw [none]
    refine ⟨start.track.midi.events.toList.map fun event => (event, Option.none), writing, ?_, ?_⟩
    · rw [opening.openNotes]
      refine ⟨by simp [Function.comp_def, sheet], ?_, ?_, ?_, ?_, .nil⟩
      · intro item member
        obtain ⟨event, there, rfl⟩ := List.mem_map.mp member
        exact (silent event there).symm
      · intro item member index label
        obtain ⟨event, there, rfl⟩ := List.mem_map.mp member
        cases label
      · exact fun _ member => absurd member List.not_mem_nil
      · exact fun _ member => absurd member List.not_mem_nil
    · rw [opening.timedNotes]
      exact fun _ member => absurd member List.not_mem_nil

/-- An entry of the player's own timeline that was made for a note. -/
def NoteEntry (player : Player) (index : Nat) (entry : Entry) : Prop :=
  player.shared.timeline.entries[index]? = some entry ∧
    ∃ event, player.shared.arena.get? entry.event = some event ∧
      RefSeq.startsNote player.setting.source event.offset = true

theorem mem_noteIndices {index : Nat} :
    index ∈ player.shared.noteIndices player.setting.source ↔
      ∃ entry, player.NoteEntry index entry := by
  unfold Shared.noteIndices
  rw [List.mem_filter, List.mem_range]
  constructor
  · rintro ⟨_, starts⟩
    obtain ⟨event, known, starts⟩ := (Option.any_eq_true ..).mp starts
    obtain ⟨entry, found, stored⟩ := Option.bind_eq_some_iff.mp known
    exact ⟨entry, found, event, stored, starts⟩
  · rintro ⟨entry, found, event, stored, starts⟩
    refine ⟨(Array.getElem?_eq_some_iff.mp found).1, ?_⟩
    have known : player.shared.eventAt? index = some event := by
      rw [Shared.eventAt?, found]
      exact stored
    rw [known]
    exact starts

/-- A player without open notes has a pair of messages for each of its notes. -/
theorem Engraved.pairing (engraved : player.Engraved) (closed : player.track.openNotes = []) :
    ∃ labelled : Labelled, labelled.Pairing player.track.channel player.track.midi.events.toList
      player.NoteEntry := by
  obtain ⟨labelled, _, score, _⟩ := engraved.notated
  rw [closed] at score
  refine ⟨labelled, score.messages, score.notes, ?_, ?_⟩
  · intro item member index label
    exact mem_noteIndices.mp (score.labels item member index label)
  · intro index entry note
    rcases score.voices index (mem_noteIndices.mpr ⟨entry, note⟩) with ⟨_, there, _⟩ |
      ⟨entry', found, whole⟩
    · cases there
    · cases found.symm.trans note.1
      exact whole

end Player

namespace Sequence

variable {source : Source} {sequence : Sequence Unit} {pass : Pass} {stopTime : Nat}
  {stage : Stage (Unit × List Visit)} {transposes : Transposes} {before track : Track}
  {start solo : Player}

/-- An entry of a track that a note-on or a note with a duration has recorded. -/
def NoteEntry (sequence : Sequence Unit) (track index : Nat) (entry : Entry) : Prop :=
  sequence.timeline.entries[index]? = some entry ∧
    ∃ event, sequence.arena.get? entry.event = some event ∧ event.track = track ∧
      event.kind.startsNote = true

theorem isNote_openTrack {header : Header} {writes : Bool} {track : Track} :
    ∀ event ∈ (openTrack header writes track).midi.events.toList,
      event.message.isNote = false := by
  intro event member
  obtain ⟨message, initial, rfl⟩ := mem_openTrack member
  unfold initialMessages at initial
  cases known : header.program <;> rw [known] at initial <;> simp at initial <;>
    rcases initial with rfl | rfl | rfl | rfl <;> rfl

theorem silent_of_starts (member : start ∈ sequence.starts .midi) :
    ∀ event ∈ start.track.midi.events.toList, event.message.isNote = false := by
  obtain ⟨track, _, rfl⟩ := mem_starts_openTrack member
  exact isNote_openTrack

theorem Ended.engraved (ended : sequence.Ended .midi stopTime stage before track start solo)
    (bounded : sequence.options.maxSteps ≤ 65536) :
    solo.Engraved ∧ solo.track.openNotes = [] := by
  obtain ⟨setting, opening, shared⟩ := mem_starts ended.began
  obtain ⟨_, timeline, _⟩ := openStage_shared sequence .midi
  have engraved : start.Engraved := by
    refine Player.engraved_of_opening opening ?_ ?_ ?_ (silent_of_starts ended.began)
    · rw [setting]
      rfl
    · rw [shared]
    · rw [shared]
      exact timeline
  exact ended.ends.engraved (Player.fresh_of_opening opening) bounded engraved

theorem Ended.source_eq (ended : sequence.Ended pass stopTime stage before track start solo) :
    solo.setting.source = sequence.source := by
  rw [ended.closes.setting, (mem_starts ended.began).1]
  rfl

/-- What a track notes on its own is a note of its among those of all tracks. -/
theorem Ended.note_of_own (ended : sequence.Ended .midi stopTime stage before track start solo)
    (faithful : stage.shared.arena.Faithful sequence.source) (transposes : Transposes)
    {k : Nat} {entry : Entry} (note : solo.NoteEntry k entry) :
    ∃ index entry', (stage.shared.indicesOf solo.track.index)[k]? = some index ∧
      (sequence.conclude .midi stage.unlogged transposes).NoteEntry track.index index entry' := by
  have hosts := ended.home.timeline
  obtain ⟨found, event, stored, starts⟩ := note
  obtain ⟨i, there⟩ := hosts.own_index (Array.getElem?_eq_some_iff.mp found).1
  obtain ⟨mine, theirs, here, found', _, _, event, event', stored', known, place, own⟩ :=
    hosts.entries k i there
  cases here.symm.trans found
  cases stored'.symm.trans stored
  refine ⟨i, theirs, there, found', event', known, ?_, ?_⟩
  · rw [Player.Mirrors.index ended.home, ← own]
    exact congrArg Place.track place
  · rw [faithful.startsNote known, show event'.offset = event.offset from
      congrArg Place.offset place, ← ended.source_eq]
    exact starts

/-- A note of a track is one that it notes on its own. -/
theorem Ended.own_of_note (ended : sequence.Ended .midi stopTime stage before track start solo)
    (faithful : stage.shared.arena.Faithful sequence.source) (transposes : Transposes)
    {index : Nat} {theirs : Entry} (note : (sequence.conclude .midi stage.unlogged
      transposes).NoteEntry track.index index theirs) :
    ∃ k entry, (stage.shared.indicesOf solo.track.index)[k]? = some index ∧
      solo.NoteEntry k entry ∧ entry.start = theirs.start ∧
        entry.duration = theirs.duration := by
  obtain ⟨found, event', known, own, starts⟩ := note
  have found : stage.shared.timeline.entries[index]? = some theirs := found
  have known : stage.shared.arena.get? theirs.event = some event' := known
  have same : track.index = solo.track.index := Player.Mirrors.index ended.home
  have mine : index ∈ stage.shared.indicesOf solo.track.index := by
    refine Shared.mem_indicesOf.mpr ⟨theirs.start, event'.place, ?_, own.trans same⟩
    simp only [Shared.tags, Timeline.skeleton, List.getElem?_map, Array.getElem?_toList, found,
      Option.map_some, known]
  obtain ⟨k, there⟩ := List.getElem?_of_mem mine
  obtain ⟨entry, theirs', here, found', start, duration, event, event'', stored, known', place, _⟩ :=
    ended.home.timeline.entries k index there
  cases found'.symm.trans found
  cases known'.symm.trans known
  refine ⟨k, entry, there, ⟨here, event, stored, ?_⟩, start, duration⟩
  rw [faithful.startsNote known, show event'.offset = event.offset from
    congrArg Place.offset place, ← ended.source_eq] at starts
  exact starts

/-- What a track has written are the notes of its own entries, among those of all tracks. -/
theorem Ended.pairing (ended : sequence.Ended .midi stopTime stage before track start solo)
    (bounded : sequence.options.maxSteps ≤ 65536)
    (faithful : stage.shared.arena.Faithful sequence.source) (transposes : Transposes) :
    ∃ labelled : Labelled, labelled.Pairing track.channel track.midi.events.toList
      ((sequence.conclude .midi stage.unlogged transposes).NoteEntry track.index) := by
  obtain ⟨engraved, closed⟩ := ended.engraved bounded
  obtain ⟨labelled, pairing⟩ := engraved.pairing closed
  obtain ⟨delay, same⟩ := ended.home.twins.track
  change track = _ at same
  have channel : track.channel = solo.track.channel := by
    rw [same]
    rfl
  have midi : track.midi = solo.track.midi := by
    rw [same]
    rfl
  rw [channel, midi]
  exact ⟨_, pairing.relabel ended.home.timeline.nodup
    (fun _ _ => ended.note_of_own faithful transposes)
    fun _ _ => ended.own_of_note faithful transposes⟩

/-- After the MIDI pass the note messages of each finished track are pairs, one for each entry that
a note of the track has in the timeline. -/
theorem runPass_pairsNotes (reachable : Reachable source sequence)
    (bounded : sequence.options.maxSteps ≤ 65536) (stopTime : Nat) :
    ∃ played output, sequence.runPass .midi stopTime = .ok played ∧
      played.midi = some output ∧ output.tracks.length = played.tracks.length ∧
      ∀ (i : Nat) (track : Track) (midi : MidiTrack), played.tracks[i]? = some track →
        output.tracks[i]? = some midi → ∃ labelled : Labelled,
          labelled.Pairing track.channel midi.events.toList (played.NoteEntry track.index) := by
  have intact := reachable.intact
  obtain ⟨stage, transposes, passes⟩ := intact.passes .midi stopTime
  refine ⟨_, midiOutput sequence.header transposes stage.unlogged, passes.run, rfl, ?_, ?_⟩
  · rw [conclude_tracks, midiOutput, List.length_map, List.length_map]
  · intro i track midi found written
    rw [conclude_tracks, List.getElem?_map] at found
    obtain ⟨ended, there, rfl⟩ := Option.map_eq_some_iff.mp found
    rw [midiOutput, List.getElem?_map] at written
    change (stage.tracks[i]?).map _ = _ at written
    change stage.tracks[i]? = _ at there
    rw [there] at written
    cases written
    obtain ⟨before, start, solo, _, ending⟩ := passes.ended intact there
    have faithful := passes.played.ensemble.faithful
    obtain ⟨labelled, pairing⟩ := ending.pairing bounded faithful transposes
    have transposed := pairing.transpose transposes.allAt
    rw [← Array.toList_map] at transposed
    exact transposed.finalize (ended.midi.transpose transposes.allAt)

/-- One track: a note is tied over, and another one is open at the end. -/
def tied : Source :=
  #[0x52, 0x53, 0x45, 0x51, 1, 0, 0, 0, 0, 0, 1, 0, 14, 0,
    0x12, 60, 100, 4, 0, 0x02, 8, 0, 0x10, 62, 90, 0x01, 2, 0, 0x00]

theorem runPass_pairsNotes_tied : ∃ sequence,
    ofSource RefSeq.format () tied = .ok sequence ∧
    (sequence.withOptions { maxSteps := 65536 }).options.maxSteps ≤ 65536 ∧
    ∃ played output,
      (sequence.withOptions { maxSteps := 65536 }).runPass .midi 0 = .ok played ∧
      played.midi = some output ∧ output.tracks.length = played.tracks.length ∧
      ∀ (i : Nat) (track : Track) (midi : MidiTrack), played.tracks[i]? = some track →
        output.tracks[i]? = some midi → ∃ labelled : Labelled,
          labelled.Pairing track.channel midi.events.toList (played.NoteEntry track.index) :=
  ⟨_, rfl, Nat.le_refl _, runPass_pairsNotes (.configured (.opened
    (show ofSource RefSeq.format () tied = .ok _ from rfl)) { maxSteps := 65536 } (by decide))
    (Nat.le_refl _) 0⟩

end Sequence
end Sequencer
