import Sequencer.Proofs.NoteCouples
import Sequencer.Proofs.NoteNames

/-! The keys of notes. A note is written in the nearest key that MIDI has for what its track makes
of it, and this key is shifted by the transpose of all tracks, again to the nearest key. Start and
end of a note are shifted alike. The nearest key of the whole sum is another one if the second shift
takes back some of what the first one has lost. -/
namespace Sequencer

theorem MidiMessage.isNote_of_strikes {message : MidiMessage} (strikes : message.strikes = true) :
    message.isNote = true := by
  cases message with
  | noteOn => rfl
  | _ => cases strikes

/-- The track goes out of range with a note, and the transpose of all tracks comes back some way. -/
def Overshoots (own all : Int) : Prop :=
  127 < own ∧ all < 0 ∧ 0 < own + all ∨ own < 0 ∧ 0 < all ∧ own + all < 127

theorem clampKey_clampKey_add_iff (own all : Int) :
    clampKey ((clampKey own).toNat + all) = clampKey (own + all) ↔ ¬ Overshoots own all := by
  rw [← UInt8.toNat_inj, toNat_clampKey, toNat_clampKey, toNat_clampKey]
  unfold Overshoots
  omega

namespace Labelled

variable {alike : UInt8 → UInt8 → Prop} {labelled : Labelled} {events : List MidiEvent} {id k : Nat}

/-- The labels of the messages that start notes, in their order. -/
def starts (labelled : Labelled) : List Nat :=
  (labelled.filter fun item => item.1.message.strikes).filterMap Prod.snd

/-- The same labels, by the number of the note. -/
def number (labelled : Labelled) : Labelled :=
  labelled.map fun item => (item.1, item.2.map labelled.starts.idxOf)

/-- Of the two messages of a couple the first one starts the note. -/
theorem Couple.strikes (couple : labelled.Couple alike id) : ∃ first last,
    labelled.voice id = [first, last] ∧ first.Couples alike last ∧
      (labelled.voice id).filter (fun event => event.message.strikes) = [first] := by
  obtain ⟨first, last, voice, couples⟩ := couple
  obtain ⟨key, velocity, starts, ends⟩ := couples.messages
  refine ⟨first, last, voice, couples, ?_⟩
  rw [voice]
  simp [starts, ends, MidiMessage.strikes]

namespace Couples

variable (couples : labelled.Couples alike events)
include couples

theorem count_starts_le (id : Nat) : labelled.starts.count id ≤ 1 := by
  have own : labelled.starts.count id =
      ((labelled.voice id).filter fun event => event.message.strikes).length := by
    unfold starts voice
    rw [List.count, List.countP_filterMap, List.filter_map, List.length_map, List.filter_filter,
      ← List.countP_eq_length_filter, List.countP_filter]
    refine List.countP_congr fun item _ => ?_
    cases item.2 <;> simp [and_comm]
  rw [own]
  by_cases labels : ∃ item ∈ labelled, item.2 = some id
  · obtain ⟨item, member, label⟩ := labels
    obtain ⟨first, last, _, _, single⟩ := (couples.couples item member id label).strikes
    rw [single]
    exact Nat.le_refl _
  · have none : labelled.voice id = [] := voice_nil_of_fresh fun item member label own same =>
      labels ⟨item, member, same ▸ own⟩
    rw [none]
    exact Nat.zero_le _

theorem nodup_starts : labelled.starts.Nodup :=
  List.nodup_iff_count_le_one.mpr couples.count_starts_le

/-- Each couple has its start. -/
theorem mem_starts {item : MidiEvent × Option Nat} (member : item ∈ labelled)
    (label : item.2 = some id) : id ∈ labelled.starts := by
  obtain ⟨first, last, _, _, single⟩ := (couples.couples item member id label).strikes
  have start : first ∈ (labelled.voice id).filter fun event => event.message.strikes := by
    rw [single]
    exact List.mem_singleton.mpr rfl
  obtain ⟨sounding, strikes⟩ := List.mem_filter.mp start
  obtain ⟨⟨event, label'⟩, there, rfl⟩ := List.mem_map.mp sounding
  obtain ⟨there, own⟩ := List.mem_filter.mp there
  exact List.mem_filterMap.mpr ⟨_, List.mem_filter.mpr ⟨there, strikes⟩, of_decide_eq_true own⟩

/-- A message that starts a note is the first one of a couple. -/
theorem label_of_strikes {item : MidiEvent × Option Nat} (member : item ∈ labelled)
    (strikes : item.1.message.strikes = true) : ∃ id, item.2 = some id ∧
      ∃ last, labelled.voice id = [item.1, last] ∧ item.1.Couples alike last := by
  have note : item.2.isSome = true := by
    rw [couples.notes item member]
    exact MidiMessage.isNote_of_strikes strikes
  obtain ⟨event, label⟩ := item
  obtain ⟨id, rfl⟩ := Option.isSome_iff_exists.mp note
  obtain ⟨first, last, voice, coupled, single⟩ := (couples.couples _ member id rfl).strikes
  obtain ⟨position, found⟩ := List.getElem?_of_mem member
  have start : event ∈ (labelled.voice id).filter fun event => event.message.strikes :=
    List.mem_filter.mpr ⟨mem_voice found, strikes⟩
  rw [single, List.mem_singleton] at start
  exact ⟨id, rfl, last, start ▸ voice, start ▸ coupled⟩

/-- The starts of notes, each with its label. -/
theorem forall₂_starts : List.Forall₂ (fun event id => ∃ last, labelled.voice id = [event, last] ∧
    event.Couples alike last) (events.filter fun event => event.message.strikes)
      labelled.starts := by
  rw [← couples.messages, List.filter_map]
  refine List.forall₂_filterMap fun item member => ?_
  obtain ⟨member, strikes⟩ := List.mem_filter.mp member
  exact couples.label_of_strikes member strikes

theorem voice_number (found : labelled.starts[k]? = some id) :
    labelled.number.voice k = labelled.voice id := by
  unfold voice number
  rw [List.filter_map, List.map_map]
  have same : labelled.filter ((fun item : MidiEvent × Option Nat => item.2 = some k) ∘
      fun item => (item.1, item.2.map labelled.starts.idxOf)) =
        labelled.filter fun item => item.2 = some id := by
    refine List.filter_congr fun item member => ?_
    cases label : item.2 with
    | none => simp [label]
    | some other =>
      have there := List.getElem?_idxOf (couples.mem_starts member label)
      simp only [Function.comp_apply, label, Option.map_some, Option.some.injEq]
      refine decide_eq_decide.mpr ⟨?_, ?_⟩
      · rintro rfl
        exact Option.some.inj (there.symm.trans found)
      · rintro rfl
        exact (List.getElem?_inj (List.getElem?_eq_some_iff.mp there).1 couples.nodup_starts).mp
          (there.trans found.symm)
  rw [same]
  rfl

end Couples
end Labelled

/-- The two messages of a note. They are at its key with all that its track makes of it, in reach of
MIDI, and with the transpose of all tracks, in reach again. -/
structure Reading.Sounds (source : Source) (transposeAt : Nat → Int) (note : Reading)
    (first last : MidiEvent) : Prop where
  couples : first.Couples Eq last
  tick : first.tick = note.visit.tick
  keys : ∀ key velocity, note.struck? source = some (key, velocity) → note.registers.drum = none →
    ∃ sounding, first.message = .noteOn sounding velocity ∧ last.message = .noteOff sounding ∧
      sounding = clampKey ((clampKey (note.registers.ownKey key)).toNat +
        transposeAt note.visit.tick) ∧
      (sounding = clampKey (note.registers.ownKey key + transposeAt note.visit.tick) ↔
        ¬ Overshoots (note.registers.ownKey key) (transposeAt note.visit.tick))

/-- The messages of notes are couples that sound the notes of a track, one for each note, with the
number of the note for a label. -/
structure Labelled.SoundsNotes (labelled : Labelled) (source : Source) (transposeAt : Nat → Int)
    (own : List Visit) (midi : MidiTrack) : Prop where
  messages : labelled.map Prod.fst = midi.events.toList
  notes : ∀ item ∈ labelled, item.2.isSome = item.1.message.isNote
  labels : ∀ item ∈ labelled, ∀ k ∈ item.2, k < (RefSeq.notes source own).length
  sounds : ∀ (k : Nat) (note : Reading), (RefSeq.notes source own)[k]? = some note →
    ∃ first last, labelled.voice k = [first, last] ∧ note.Sounds source transposeAt first last

theorem Reading.sounds_of_strike {source : Source} {transposeAt : Nat → Int} {note : Reading}
    {channel : UInt8} {written last : MidiEvent}
    (strikes : note.strike? source channel = some written)
    (couples : (written.transpose transposeAt).Couples Eq last) :
    note.Sounds source transposeAt (written.transpose transposeAt) last where
  couples := couples
  tick := by
    rw [MidiEvent.tick_transpose]
    exact Reading.tick_of_strike strikes
  keys := fun key velocity known plain => by
    rw [Reading.strike?, known] at strikes
    cases strikes
    have message : ((note.registers.strike note.visit.tick channel key velocity).transpose
        transposeAt).message = _ := MidiEvent.message_transpose_strike channel velocity plain
    obtain ⟨sounding, velocity', starts, ends⟩ := couples.messages
    cases message.symm.trans starts
    exact ⟨_, starts, ends, rfl, clampKey_clampKey_add_iff _ _⟩

namespace Labelled

variable {labelled : Labelled} {source : Source} {transposeAt : Nat → Int} {own : List Visit}
  {midi : MidiTrack}

/-- Couples are those of a track's notes if their starts are. -/
theorem Couples.soundsNotes (couples : labelled.Couples Eq midi.events.toList) {channel : UInt8}
    (strikes : midi.strikes.map some = (RefSeq.notes source own).map fun note =>
      (note.strike? source channel).map (MidiEvent.transpose transposeAt)) :
    labelled.number.SoundsNotes source transposeAt own midi := by
  have pairs := couples.forall₂_starts
  have notes : labelled.starts.length = (RefSeq.notes source own).length := by
    have lengths := congrArg List.length strikes
    rw [List.length_map, List.length_map] at lengths
    exact pairs.length_eq.symm.trans lengths
  refine ⟨?_, ?_, ?_, ?_⟩
  · rw [← couples.messages, number, List.map_map]
    rfl
  · intro item member
    obtain ⟨earlier, there, rfl⟩ := List.mem_map.mp member
    rw [Option.isSome_map]
    exact couples.notes earlier there
  · intro item member k label
    obtain ⟨earlier, there, rfl⟩ := List.mem_map.mp member
    obtain ⟨id, known, rfl⟩ := Option.map_eq_some_iff.mp label
    rw [← notes]
    exact List.idxOf_lt_length_iff.mpr (couples.mem_starts there known)
  · intro k note read
    obtain ⟨id, found⟩ : ∃ id, labelled.starts[k]? = some id :=
      ⟨_, List.getElem?_eq_getElem (notes ▸ (List.getElem?_eq_some_iff.mp read).1)⟩
    have here := congrArg (·[k]?) strikes
    simp only [List.getElem?_map, read, Option.map_some] at here
    obtain ⟨event, struck, same⟩ := Option.map_eq_some_iff.mp here
    obtain ⟨written, strikes, rfl⟩ := Option.map_eq_some_iff.mp same.symm
    obtain ⟨last, voice, coupled⟩ := pairs.at struck found
    refine ⟨_, last, ?_, Reading.sounds_of_strike strikes coupled⟩
    rw [couples.voice_number found, voice]

end Labelled

namespace Sequence

variable {source : Source} {sequence : Sequence Unit} {stopTime : Nat}
  {stage : Stage (Unit × List Visit)} {transposes : Transposes} {track : Track}

/-- What a finished pass has written for a track are couples that sound its notes. -/
theorem Passes.soundsNotes (passes : sequence.Passes .midi stopTime stage transposes)
    (intact : sequence.Intact source) {i : Nat} (found : stage.tracks[i]? = some track) :
    ∃ labelled : Labelled, labelled.SoundsNotes source transposes.allAt
      (visitsOf stage.memory.2 track.index) (track.midi.transpose transposes.allAt).finalize := by
  obtain ⟨before, start, solo, _, ended⟩ := passes.ended intact found
  have strikes := ended.strikes_finalize transposes
  rw [intact.reads] at strikes
  have steady : sequence.format.Steady := intact.format ▸ RefSeq.steady
  obtain ⟨output, written, couples⟩ := couples_of_steady steady passes.run
  cases written
  have member : (track.midi.transpose transposes.allAt).finalize ∈
      (midiOutput sequence.header transposes stage.unlogged).tracks :=
    List.mem_map.mpr ⟨track, List.mem_of_getElem? found, rfl⟩
  obtain ⟨labelled, coupled⟩ := couples _ member
  exact ⟨_, coupled.soundsNotes strikes⟩

/-- In the MIDI of a loaded file each note of a track without a drum is two messages at one key. The
key is what comes of the transpose and the correction of the track in reach of MIDI, shifted by the
transpose of all tracks at the start of the note, in reach of MIDI again. It is the nearest key of
the whole sum but for a track that overshoots. -/
theorem load_soundsNotes (reachable : Reachable source sequence) :
    ∃ listed measured log loaded output transposes,
      sequence.runPass .listing 0 = .ok listed ∧ listed.runPass .length 0 = .ok measured ∧
      measured.visits .midi measured.length = .ok log ∧ sequence.load = .ok loaded ∧
      loaded.midi = some output ∧ loaded.transposes = some transposes ∧
      output.tracks.length = loaded.tracks.length ∧
      ∀ (i : Nat) (track : Track) (midi : MidiTrack), loaded.tracks[i]? = some track →
        output.tracks[i]? = some midi → ∃ labelled : Labelled,
          labelled.SoundsNotes source transposes.allAt (visitsOf log track.index) midi := by
  obtain ⟨listed, measured, stage, transposes, reachable, _, _, _, lists, measures, passes,
    loads⟩ := reachable.load_runs
  refine ⟨listed, measured, stage.memory.2, _, midiOutput measured.header transposes stage.unlogged,
    transposes, lists, measures, passes.visits, loads, rfl, conclude_transposes .., ?_, ?_⟩
  · exact length_midiOutput ..
  · intro i track midi found written
    obtain ⟨ended, there, rfl, rfl⟩ := midi_of_midiOutput found written
    exact passes.soundsNotes reachable.intact there

/-- A track that goes 20 keys up where all tracks go 20 down, and plays key 120. -/
def overshot : Source :=
  #[0x52, 0x53, 0x45, 0x51, 1, 0, 0, 0, 0, 0, 1, 0, 14, 0,
    0x33, 20, 0x34, 0xEC, 0x12, 120, 100, 4, 0, 0x00]

theorem load_soundsNotes_overshot : ∃ sequence,
    ofSource RefSeq.format () overshot = .ok sequence ∧
    ∃ listed measured log loaded output transposes,
      sequence.runPass .listing 0 = .ok listed ∧ listed.runPass .length 0 = .ok measured ∧
      measured.visits .midi measured.length = .ok log ∧ sequence.load = .ok loaded ∧
      loaded.midi = some output ∧ loaded.transposes = some transposes ∧
      output.tracks.length = loaded.tracks.length ∧
      ∀ (i : Nat) (track : Track) (midi : MidiTrack), loaded.tracks[i]? = some track →
        output.tracks[i]? = some midi → ∃ labelled : Labelled,
          labelled.SoundsNotes overshot transposes.allAt (visitsOf log track.index) midi :=
  ⟨_, rfl, load_soundsNotes (.opened
    (show ofSource RefSeq.format () overshot = .ok _ from rfl))⟩

/-- The note is played 13 keys lower than the sum of key and transposes. -/
theorem not_once_overshot : ∃ sequence listed measured log loaded output transposes midi note,
    ofSource RefSeq.format () overshot = .ok sequence ∧
      sequence.runPass .listing 0 = .ok listed ∧ listed.runPass .length 0 = .ok measured ∧
      measured.visits .midi measured.length = .ok log ∧ sequence.load = .ok loaded ∧
      loaded.midi = some output ∧ loaded.transposes = some transposes ∧ output.tracks = [midi] ∧
      RefSeq.notes overshot (visitsOf log 0) = [note] ∧
      note.struck? overshot = some (120, 100) ∧ note.registers = { transpose := 20 } ∧
      transposes.allAt note.visit.tick = -20 ∧
      clampKey (note.registers.ownKey 120 + transposes.allAt note.visit.tick) = 120 ∧
      ∃ first ∈ midi.events.toList, ∃ last ∈ midi.events.toList,
        first.message = .noteOn 107 100 ∧ last.message = .noteOff 107 := by
  have opened : ofSource RefSeq.format () overshot = .ok _ := rfl
  have reachable := Reachable.opened opened
  have reached : Position.after overshot 64 ⟨⟨14, [], []⟩, 0⟩ 3 = some ⟨⟨23, [], []⟩, 0⟩ := by
    decide +kernel
  -- The track goes through all of its four instructions.
  obtain ⟨listing, measured, stage, transposes, track, reachable, lists, measures, passes, loads,
    tracks, index, midi, all, own⟩ := reachable.load_single (show _ = [(0, 14, 0)] from rfl)
      reached (by decide +kernel) (by decide) rfl
  have found : stage.tracks[0]? = some track := by rw [tracks]; rfl
  have notes : RefSeq.notes overshot (visitsOf stage.memory.2 0) =
      [⟨⟨0, 18, 0⟩, { transpose := 20 }⟩] := by
    rw [all, own]
    decide +kernel
  have tags : stage.memory.2.filterMap (Visit.tag? overshot) =
      [(0, some ⟨0, 14⟩), (0, some ⟨0, 16⟩), (0, some ⟨0, 18⟩), (0, some ⟨0, 23⟩)] := by
    rw [own]
    decide +kernel
  have changes : transposes.ofAll = #[⟨0, -20⟩] := by
    rw [← Array.toList_inj, passes.changes_eq, reachable.intact.reads, tags,
      List.mergeSort_of_pairwise (by decide)]
    decide +kernel
  have lowered : transposes.allAt 0 = -20 := by
    rw [Transposes.allAt, changes]
    decide +kernel
  have nearest :
      clampKey (Registers.ownKey { transpose := 20 } 120 + transposes.allAt 0) = 120 := by
    rw [lowered]
    decide
  obtain ⟨labelled, sounds⟩ := passes.soundsNotes reachable.intact found
  rw [index] at sounds
  obtain ⟨first, last, voice, played⟩ := sounds.sounds 0 _ (by rw [notes]; rfl)
  have struck : Reading.struck? overshot ⟨⟨0, 18, 0⟩, { transpose := 20 }⟩ = some (120, 100) := by
    decide +kernel
  obtain ⟨sounding, starts, ends, key, _⟩ := played.keys 120 100 struck rfl
  have same : sounding = 107 := by
    rw [key]
    dsimp only
    rw [lowered]
    decide
  subst same
  have inside {event : MidiEvent} (sounding : event ∈ labelled.voice 0) :
      event ∈ (track.midi.transpose transposes.allAt).finalize.events.toList :=
    sounds.messages ▸ Labelled.mem_of_mem_voice sounding
  exact ⟨_, listing, measured, stage.memory.2, _, _, transposes, _, _, opened, lists, measures,
    passes.visits, loads, rfl, conclude_transposes .., midi, notes, struck, rfl, lowered,
    nearest, first, inside (by simp [voice]), last, inside (by simp [voice]), starts, ends⟩

end Sequence
end Sequencer
