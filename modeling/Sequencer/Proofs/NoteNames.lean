import Sequencer.Sequence.Report
import Sequencer.Proofs.NoteReadings
import Sequencer.Proofs.Representable

/-! The names of notes. A note is listed by the key that the store has for its bytes, and sounds in
the key that the track has just read. They are the same unless the bytes were first read in another
octave, while no drum and no key correction have a part in it. -/
namespace Sequencer

namespace MidiTrack

variable {midi : MidiTrack}

theorem strikes_shift (message : MidiMessage) (semitones : Int) :
    (message.shift semitones).strikes = message.strikes := by
  cases message <;> rfl

theorem strikes_transpose (midi : MidiTrack) (transposeAt : Nat → Int) :
    (midi.transpose transposeAt).strikes =
      midi.strikes.map (MidiEvent.transpose transposeAt) := by
  rw [strikes, transpose, Array.toList_map, List.filter_map, strikes]
  refine congrArg (List.map _) (List.filter_congr fun event _ => ?_)
  rcases event.transpose_eq transposeAt with same | ⟨_, _, same⟩
  · exact congrArg (fun event => event.message.strikes) same
  · rw [Function.comp_apply, same, strikes_shift]

/-- The starts of notes are written in the order of their ticks, and keep it. -/
theorem strikes_finalize
    (ascending : midi.strikes.Pairwise fun first second => first.tick ≤ second.tick) :
    midi.finalize.strikes = midi.strikes := by
  have kept : (midi.events.toList.filter fun event => !isEnd event).filter
      (fun event => event.message.strikes) = midi.strikes := by
    rw [List.filter_filter, strikes]
    refine List.filter_congr fun event _ => ?_
    cases known : event.message <;> simp [isEnd, known, MidiMessage.strikes]
  unfold finalize
  rw [strikes, List.toList_toArray, List.filter_append, List.filter_mergeSort, kept]
  · exact List.append_nil _
  · simpa only [decide_eq_true_eq] using fun _ _ _ => Nat.le_trans
  · simpa only [Bool.or_eq_true, decide_eq_true_eq] using fun _ _ => Nat.le_total _ _
  · rw [kept]
    exact ascending.imp decide_eq_true

end MidiTrack

theorem Reading.tick_of_strike {source : Source} {channel : UInt8} {reading : Reading}
    {event : MidiEvent} (strikes : reading.strike? source channel = some event) :
    event.tick = reading.visit.tick := by
  obtain ⟨struck, _, rfl⟩ := Option.map_eq_some_iff.mp strikes
  rfl

theorem RefSeq.strikes_of_notes (source : Source) (channel : UInt8) (visits : List Visit) :
    ((readings source {} visits).filterMap (Reading.strike? source channel)).map some =
      (notes source visits).map (Reading.strike? source channel) := by
  rw [List.map_filterMap_some_eq_filter_map_isSome, List.filter_map, notes]
  refine congrArg (List.map _) (List.filter_congr fun reading _ => ?_)
  rw [Function.comp_apply, Reading.strike?, Option.isSome_map]

/-- The key of a note with what its track alone makes of it. -/
def Registers.ownKey (registers : Registers) (key : UInt8) : Int :=
  key.toNat + registers.transpose.toInt + registers.keyCorrection.toInt

/-- What the starts of notes are like after all shifts. -/
theorem MidiEvent.message_transpose_strike {registers : Registers} {tick : Nat} {key : UInt8}
    {transposeAt : Nat → Int} (channel velocity : UInt8) (plain : registers.drum = none) :
    ((registers.strike tick channel key velocity).transpose transposeAt).message =
      .noteOn (clampKey ((clampKey (registers.ownKey key)).toNat + transposeAt tick)) velocity := by
  unfold Registers.strike Registers.soundingKey MidiEvent.transpose
  rw [plain]
  dsimp only
  by_cases unshifted : transposeAt tick = 0
  · have clamped : clampKey ((clampKey (registers.ownKey key)).toNat + 0) =
        clampKey (registers.ownKey key) := by
      rw [← UInt8.toNat_inj, toNat_clampKey, toNat_clampKey]
      omega
    rw [if_pos unshifted, unshifted, clamped]
    rfl
  · rw [if_neg unshifted]
    rfl

theorem MidiEvent.transpose_strike {registers : Registers} {tick : Nat} {key : UInt8}
    {transposeAt : Nat → Int} (channel velocity : UInt8) (plain : registers.drum = none)
    (uncorrected : registers.keyCorrection = 0)
    (own : 0 ≤ key.toNat + registers.transpose.toInt ∧
      key.toNat + registers.transpose.toInt ≤ 127)
    (all : 0 ≤ key.toNat + registers.transpose.toInt + transposeAt tick ∧
      key.toNat + registers.transpose.toInt + transposeAt tick ≤ 127) :
    ∃ sounding, ((registers.strike tick channel key velocity).transpose transposeAt).message =
      .noteOn sounding velocity ∧
      (sounding.toNat : Int) = key.toNat + registers.transpose.toInt + transposeAt tick := by
  refine ⟨_, message_transpose_strike channel velocity plain, ?_⟩
  rw [toNat_clampKey, toNat_clampKey, Registers.ownKey, uncorrected, Int8.toInt_zero]
  omega

namespace Sequence

variable {source : Source} {sequence opened : Sequence Unit} {pass : Pass} {stopTime : Nat}
  {stage : Stage (Unit × List Visit)} {transposes : Transposes} {before track : Track}
  {start solo : Player}

theorem tied_of_starts (member : start ∈ sequence.starts pass) : start.Tied := by
  obtain ⟨_, opening, _⟩ := mem_starts member
  unfold Player.Tied
  rw [opening.timedNotes]
  exact fun _ member => absurd member List.not_mem_nil

theorem writes_of_starts (member : start ∈ sequence.starts .midi) : start.writing = true := by
  unfold Player.writing
  rw [(mem_starts member).1]
  rfl

theorem Ended.midi_eq (ended : sequence.Ended pass stopTime stage before track start solo) :
    track.midi = solo.track.midi := by
  obtain ⟨_, _, same⟩ := ended.real_eq
  rw [same]
  rfl

theorem Ended.strikes (ended : sequence.Ended .midi stopTime stage before track start solo) :
    track.midi.strikes = (RefSeq.readings sequence.source {}
      (visitsOf stage.memory.2 track.index)).filterMap
        (Reading.strike? sequence.source start.track.channel) := by
  obtain ⟨setting, _⟩ := mem_starts ended.began
  obtain ⟨opened, _, known⟩ := mem_starts_openTrack ended.began
  have registers : start.track.registers = {} := by
    rw [known]
    rfl
  have silent : start.track.midi.strikes = [] :=
    List.filter_eq_nil_iff.mpr fun event member => Bool.eq_false_iff.mp
      (MidiMessage.strikes_of_isNote (silent_of_starts ended.began event member))
  have strikes := (ended.ends.registered (tied_of_starts ended.began)
    (writes_of_starts ended.began)).strikes
  rw [ended.midi_eq, strikes, silent, registers, setting, ended.index_eq]
  rfl

/-- The notes of a track in its finished MIDI, in the order in which the track has read them. -/
theorem Ended.strikes_finalize
    (ended : sequence.Ended .midi stopTime stage before track start solo)
    (transposes : Transposes) :
    ((track.midi.transpose transposes.allAt).finalize.strikes).map some =
      (RefSeq.notes sequence.source (visitsOf stage.memory.2 track.index)).map fun note =>
        (note.strike? sequence.source start.track.channel).map
          (MidiEvent.transpose transposes.allAt) := by
  have ticks : track.midi.strikes.Pairwise fun first second => first.tick ≤ second.tick := by
    have ascending := ended.follows.ascending
    have visits : (RefSeq.readings sequence.source {} (visitsOf stage.memory.2 track.index)).map
        Reading.visit = visitsOf stage.memory.2 track.index := RefSeq.visits_readings _
    rw [← visits] at ascending
    rw [ended.strikes]
    refine (List.pairwise_map.mp ascending).filterMap _ fun first second le event strikes
      event' strikes' => ?_
    rw [Reading.tick_of_strike strikes, Reading.tick_of_strike strikes']
    exact le
  have shifted : (track.midi.transpose transposes.allAt).strikes.Pairwise
      fun first second => first.tick ≤ second.tick := by
    rw [MidiTrack.strikes_transpose]
    refine List.pairwise_map.mpr (ticks.imp fun {first second} le => ?_)
    rw [MidiEvent.tick_transpose, MidiEvent.tick_transpose]
    exact le
  rw [MidiTrack.strikes_finalize shifted, MidiTrack.strikes_transpose, ended.strikes, List.map_map]
  have notes := congrArg (List.map (Option.map (MidiEvent.transpose transposes.allAt)))
    (RefSeq.strikes_of_notes sequence.source start.track.channel
      (visitsOf stage.memory.2 track.index))
  rw [List.map_map, List.map_map] at notes
  exact notes

/-- Whatever a file is put through, its store has the events of first visits. -/
theorem Reachable.descends (reachable : Reachable source sequence) :
    ∃ opened, sequence.Descends source opened := by
  induction reachable with
  | @opened sequence accepted => exact ⟨sequence, descends_ofSource accepted⟩
  | configured _ options bounded ih =>
    obtain ⟨opened, descends⟩ := ih
    exact ⟨opened, descends.withOptions options bounded⟩
  | @looped sequence _ loopCount ih =>
    obtain ⟨opened, descends⟩ := ih
    exact ⟨opened, descends.withOptions { sequence.options with loopCount } descends.bounded⟩
  | synced reachable tickSync ih =>
    obtain ⟨opened, descends⟩ := ih
    have header := congrArg (fun header : Header => { header with tickSync }) descends.header
    exact ⟨opened.withTickSync tickSync, (reachable.synced tickSync).intact, header,
      descends.origins, descends.charted⟩
  | played _ pass stopTime run ih =>
    obtain ⟨opened, descends⟩ := ih
    obtain ⟨next, _, done, _, siblings, _⟩ := descends.alone.runPass pass stopTime
    cases run.symm.trans done
    exact ⟨opened, siblings.mine⟩

theorem Descends.charted_of_passes (descends : sequence.Descends source opened)
    (passes : sequence.Passes pass stopTime stage transposes) :
    stage.shared.arena.Charted source opened.tracks := by
  obtain ⟨next, _, done, _, siblings, _⟩ := descends.alone.runPass pass stopTime
  cases passes.run.symm.trans done
  have charted := siblings.mine.charted
  rw [conclude_arena] at charted
  exact charted

/-- The event that a visit has left is that of the first reading of its bytes. -/
theorem Passes.firstReading (passes : sequence.Passes pass stopTime stage transposes)
    (descends : sequence.Descends source opened) {visit : Visit} {id : Nat} {event : Event}
    (visited : visit ∈ stage.memory.2) (stored : stage.shared.arena.get? id = some event)
    (place : event.place = visit.place) :
    ∃ first, (RefSeq.readings source {} (visitsOf stage.memory.2 visit.track)).find?
      (fun reading => reading.visit.offset = visit.offset) = some first ∧
        first.kind? source = some event.kind := by
  have track : event.track = visit.track := congrArg Place.track place
  have offset : event.offset = visit.offset := congrArg Place.offset place
  obtain ⟨begun, member, same, charted⟩ := descends.charted_of_passes passes _ event stored
  obtain ⟨depth, leads⟩ := (descends.follows passes).leads begun member
  rw [same, track] at leads
  obtain ⟨first, read, event'⟩ := charted.first leads
    (fun other member => (of_decide_eq_true (List.mem_filter.mp member).2).trans track.symm)
    ⟨visit, List.mem_filter.mpr ⟨visited, decide_eq_true rfl⟩, offset.symm⟩
  rw [offset] at read
  refine ⟨first, read, ?_⟩
  rw [Reading.kind?, event']
  rfl

/-- What the name of the note of an entry is made of. -/
theorem noteLabel_eq {index : Nat} {entry : Entry} {event : Event} {key : UInt8} {own : Int}
    (found : sequence.timeline.entries[index]? = some entry)
    (stored : sequence.arena.get? entry.event = some event) (known : event.kind.key? = some key)
    (current : sequence.transposes = some transposes)
    (shift : transposes.entryTranspose index = .ok own) : sequence.noteLabel index =
      .ok (some (noteName (key.toNat + (transposes.allAt entry.start + own)))) := by
  unfold noteLabel currentTransposes
  rw [Timeline.get, found, current]
  simp only [Bind.bind, Except.bind, stored, known, shift]
  rfl

/-- How the entry of a note is listed: at the tick of the note, and by the key of the first reading
of its bytes. -/
structure Lists (sequence : Sequence Unit) (source : Source) (transposes : Transposes)
    (readings : List Reading) (index : Nat) (note : Reading) (first : UInt8) : Prop where
  entry : ∃ entry, sequence.timeline.entries[index]? = some entry ∧ entry.start = note.visit.tick
  read : ∃ reading velocity, readings.find? (fun reading =>
    reading.visit.offset = note.visit.offset) = some reading ∧
      reading.struck? source = some (first, velocity)
  label : sequence.noteLabel index = .ok (some (noteName (first.toNat +
    note.registers.transpose.toInt + transposes.allAt note.visit.tick)))

theorem Passes.lists (passes : sequence.Passes pass stopTime stage transposes)
    (descends : sequence.Descends source opened) {index : Nat} {note : Reading} {owner : Nat}
    (enters : Shared.Enters source stage.memory.2 owner index note) :
    ∃ first, (sequence.conclude pass stage.unlogged transposes).Lists source transposes
      (RefSeq.readings source {} (visitsOf stage.memory.2 owner)) index note first := by
  obtain ⟨⟨earlier, later, split, rfl, registers⟩, own, starts⟩ := enters
  have journal := passes.played.ensemble.journal
  have faithful := passes.played.ensemble.faithful
  rw [show (sequence.setting pass).source = source from descends.reads] at journal faithful
  have recorded := RefSeq.isRecorded_of_startsNote starts
  obtain ⟨entry, event, found, start, _, stored, place⟩ :=
    Shared.event_of_tag (Shared.tag_of_visit journal split recorded)
  subst own
  have visited : note.visit ∈ stage.memory.2 := by
    rw [split]
    simp
  obtain ⟨first, read, kind⟩ := passes.firstReading descends visited stored place
  have starts' : event.kind.struck?.isSome = true := by
    have offset : event.offset = note.visit.offset := congrArg Place.offset place
    rw [event.kind.isSome_struck, faithful.startsNote stored, offset, starts]
  obtain ⟨⟨key, velocity⟩, struck⟩ := Option.isSome_iff_exists.mp starts'
  have known : first.struck? source = some (key, velocity) := by
    rw [Reading.struck?, kind]
    exact struck
  -- The note itself leaves the transpose of its track alone.
  have transpose := passes.entryTranspose descends.toIntact split recorded
  obtain ⟨⟨key', velocity'⟩, struck'⟩ :=
    Option.isSome_iff_exists.mp ((RefSeq.isSome_struck note).trans starts)
  have behind := RefSeq.after_of_struck struck'
  rw [visitsOf_push, if_pos rfl, RefSeq.registersAfter_append, ← registers, behind] at transpose
  have listed : (sequence.conclude pass stage.unlogged transposes).timeline.entries[
      RefSeq.entryAfter source earlier]? = some entry := by
    rw [conclude_orders]
    exact found
  have stored' : (sequence.conclude pass stage.unlogged transposes).arena.get? entry.event =
      some event := by
    rw [conclude_arena]
    exact stored
  have label := noteLabel_eq listed stored' (EventKind.key_of_struck struck)
    (conclude_transposes ..) transpose
  refine ⟨key, ⟨entry, listed, start⟩, ⟨first, velocity, read, known⟩, label.trans ?_⟩
  rw [start]
  exact congrArg (fun key : Int => Except.ok (some (noteName key))) (by omega)

/-- The notes of a track in the three places where they are kept: its readings, its entries and its
finished MIDI. Each is listed and sounds at the same tick, and the name in the list is that of the
key that sounds if the first reading of its bytes has found the same key. -/
structure NamesNotes (sequence : Sequence Unit) (source : Source) (transposes : Transposes)
    (own : List Visit) (track : Nat) (midi : MidiTrack) : Prop where
  entries : (sequence.stage.shared.notesOf track).length = (RefSeq.notes source own).length
  messages : midi.strikes.length = (RefSeq.notes source own).length
  names : ∀ (k index : Nat) (note : Reading) (event : MidiEvent),
    (sequence.stage.shared.notesOf track)[k]? = some index →
    (RefSeq.notes source own)[k]? = some note → midi.strikes[k]? = some event →
    event.tick = note.visit.tick ∧ ∃ first,
      sequence.Lists source transposes (RefSeq.readings source {} own) index note first ∧
      ∀ key velocity, note.struck? source = some (key, velocity) → note.registers.drum = none →
        note.registers.keyCorrection = 0 →
        0 ≤ key.toNat + note.registers.transpose.toInt ∧
          key.toNat + note.registers.transpose.toInt ≤ 127 →
        0 ≤ key.toNat + note.registers.transpose.toInt + transposes.allAt note.visit.tick ∧
          key.toNat + note.registers.transpose.toInt + transposes.allAt note.visit.tick ≤ 127 →
        ∃ sounding, event.message = .noteOn sounding velocity ∧
          (sounding.toNat : Int) = key.toNat + note.registers.transpose.toInt +
            transposes.allAt note.visit.tick ∧
          (first = key → sequence.noteLabel index = .ok (some (noteName sounding.toNat)))

theorem notesOf_conclude (sequence : Sequence Unit) (pass : Pass) (stage : Stage Unit)
    (transposes : Transposes) (track : Nat) :
    (sequence.conclude pass stage transposes).stage.shared.notesOf track =
      stage.shared.notesOf track := by
  cases pass <;> rfl

theorem Passes.namesNotes (passes : sequence.Passes .midi stopTime stage transposes)
    (descends : sequence.Descends source opened) {i : Nat}
    (found : stage.tracks[i]? = some track) :
    (sequence.conclude .midi stage.unlogged transposes).NamesNotes source transposes
      (visitsOf stage.memory.2 track.index) track.index
      (track.midi.transpose transposes.allAt).finalize := by
  obtain ⟨before, start, solo, _, ended⟩ := passes.ended descends.toIntact found
  have strikes := ended.strikes_finalize transposes
  have journal := passes.played.ensemble.journal
  have faithful := passes.played.ensemble.faithful
  rw [show (sequence.setting .midi).source = source from descends.reads] at journal faithful
  rw [descends.reads] at strikes
  have enters := Shared.enters_notes journal faithful track.index
  refine ⟨?_, ?_, ?_⟩
  · rw [notesOf_conclude]
    exact enters.length_eq
  · have lengths := congrArg List.length strikes
    rwa [List.length_map, List.length_map] at lengths
  · intro k index note event listed read struck
    rw [notesOf_conclude] at listed
    obtain ⟨first, lists⟩ := passes.lists descends (enters.at listed read)
    have sounds := congrArg (·[k]?) strikes
    simp only [List.getElem?_map, struck, read, Option.map_some, Option.some.injEq] at sounds
    obtain ⟨written, strikes, rfl⟩ := Option.map_eq_some_iff.mp sounds.symm
    refine ⟨?_, first, lists, ?_⟩
    · rw [MidiEvent.tick_transpose]
      exact Reading.tick_of_strike strikes
    · intro key velocity known plain uncorrected own all
      rw [Reading.strike?, known] at strikes
      cases strikes
      obtain ⟨sounding, message, value⟩ :=
        MidiEvent.transpose_strike start.track.channel velocity plain uncorrected own all
      refine ⟨sounding, message, value, ?_⟩
      rintro rfl
      rw [value]
      exact lists.label

/-- The name that a listing gives a note of a loaded file is that of the key in which the note
sounds, unless the bytes of the note were another key when the track first read them. No drum and no
key correction has a part in this, and the key is one that MIDI has, with the transpose of the track
alone and with that of all tracks. -/
theorem load_namesNotes (reachable : Reachable source sequence) :
    ∃ listed measured log loaded output transposes,
      sequence.runPass .listing 0 = .ok listed ∧ listed.runPass .length 0 = .ok measured ∧
      measured.visits .midi measured.length = .ok log ∧ sequence.load = .ok loaded ∧
      loaded.midi = some output ∧ loaded.transposes = some transposes ∧
      output.tracks.length = loaded.tracks.length ∧
      ∀ (i : Nat) (track : Track) (midi : MidiTrack), loaded.tracks[i]? = some track →
        output.tracks[i]? = some midi → loaded.NamesNotes source transposes
          (visitsOf log track.index) track.index midi := by
  obtain ⟨listed, measured, stage, transposes, reachable, _, _, _, lists, measures, passes,
    loads⟩ := reachable.load_runs
  obtain ⟨opened, descends⟩ := reachable.descends
  refine ⟨listed, measured, stage.memory.2, _, midiOutput measured.header transposes stage.unlogged,
    transposes, lists, measures, passes.visits, loads, rfl, conclude_transposes .., ?_, ?_⟩
  · exact length_midiOutput ..
  · intro i track midi found written
    obtain ⟨ended, there, rfl, rfl⟩ := midi_of_midiOutput found written
    exact passes.namesNotes descends there

/-- A track that calls a note in octave 4, and again in octave 5. -/
def recalled : Source :=
  #[0x52, 0x53, 0x45, 0x51, 1, 0, 0, 0, 0, 0, 1, 0, 14, 0,
    0x51, 23, 0, 0x14, 5, 0x51, 23, 0, 0x00, 0x13, 0, 100, 4, 0, 0x52]

theorem load_namesNotes_recalled : ∃ sequence,
    ofSource RefSeq.format () recalled = .ok sequence ∧
    ∃ listed measured log loaded output transposes,
      sequence.runPass .listing 0 = .ok listed ∧ listed.runPass .length 0 = .ok measured ∧
      measured.visits .midi measured.length = .ok log ∧ sequence.load = .ok loaded ∧
      loaded.midi = some output ∧ loaded.transposes = some transposes ∧
      output.tracks.length = loaded.tracks.length ∧
      ∀ (i : Nat) (track : Track) (midi : MidiTrack), loaded.tracks[i]? = some track →
        output.tracks[i]? = some midi → loaded.NamesNotes recalled transposes
          (visitsOf log track.index) track.index midi :=
  ⟨_, rfl, load_namesNotes (.opened
    (show ofSource RefSeq.format () recalled = .ok _ from rfl))⟩

/-- A track whose free run ends reads all of it, if nothing limits it. -/
theorem Follows.own_of_final {own : List Visit}
    (follows : sequence.Follows pass stopTime own track) {n owner : Nat} {last : Position}
    (owned : ∀ visit ∈ own, visit.track = owner)
    (reached : track.opening.after sequence.source sequence.options.maxDepth n = some last)
    (final : last.next? sequence.source sequence.options.maxDepth = none)
    (budget : n < sequence.options.maxSteps) (early : stopTime = 0 ∨ last.tick < stopTime)
    (apart : sequence.header.tickSync = false) :
    own = (track.opening.freeRun sequence.source sequence.options.maxDepth (n + 1)).map
      fun (offset, tick) => ⟨owner, offset, tick⟩ := by
  have atStart : track.opening.tick ≤ Tick.last := Nat.zero_le _
  have length : own.length = n + 1 := by
    have ending := follows.ending
    generalize own.length = count at ending
    generalize track.totalTicks = total at ending
    cases ending with
    | finished found stops within =>
      have before := Position.le_of_final reached final found
      have behind := Position.le_of_final found stops reached
      rw [Nat.le_antisymm before behind]
    | cut further within counted again stale =>
      exact absurd (follows.endless counted) (Position.not_endless_of_final reached final)
    | stopped found within why =>
      have before := Position.le_of_final reached final found
      rcases why with spent | ⟨limited, passed⟩ | ⟨together, _⟩
      · exact absurd (Nat.lt_of_le_of_lt before budget) (Nat.not_lt.mpr spent)
      · have ticks := Position.tick_mono atStart before found reached
        have passed : stopTime ≤ last.tick := Nat.le_trans passed ticks
        rcases early with unlimited | early
        · exact absurd unlimited limited
        · exact absurd early (Nat.not_lt.mpr passed)
      · cases apart.symm.trans together
  rw [← length, ← follows.decoded, List.map_map]
  refine ((List.map_congr_left fun visit member => ?_).trans (List.map_id _)).symm
  rw [Function.comp_apply, ← owned visit member]
  rfl

/-- The only track of a file reads all of it, if its free run ends and nothing limits it. -/
theorem Passes.single (passes : sequence.Passes pass stopTime stage transposes)
    (intact : sequence.Intact source) {index offset : Nat} {channel : UInt8}
    (only : sequence.tracks.map origin = [(index, offset, channel)]) {n : Nat} {last : Position}
    (reached : Position.after source sequence.options.maxDepth ⟨⟨offset, [], []⟩, 0⟩ n = some last)
    (final : last.next? source sequence.options.maxDepth = none)
    (budget : n < sequence.options.maxSteps) (early : stopTime = 0 ∨ last.tick < stopTime)
    (apart : sequence.header.tickSync = false) :
    ∃ before track start solo, stage.tracks = [track] ∧ track.index = index ∧
      sequence.Ended pass stopTime stage before track start solo ∧
      visitsOf stage.memory.2 index = stage.memory.2 ∧
      stage.memory.2 = (Position.freeRun source sequence.options.maxDepth ⟨⟨offset, [], []⟩, 0⟩
        (n + 1)).map fun (offset, tick) => ⟨index, offset, tick⟩ := by
  obtain ⟨track, tracks, same⟩ := List.map_eq_singleton_iff.mp ((passes.origins intact).trans only)
  have index_eq : track.index = index := congrArg Prod.fst same
  have offset_eq : track.startOffset = offset := congrArg (fun origin => origin.2.1) same
  have found : stage.tracks[0]? = some track := by rw [tracks]; rfl
  obtain ⟨before, start, solo, _, ended⟩ := passes.ended intact found
  have opening : track.opening = ⟨⟨offset, [], []⟩, 0⟩ := by rw [Track.opening, offset_eq]
  rw [← intact.reads] at reached final
  have own := ended.follows.own_of_final
    (fun visit member => of_decide_eq_true (List.mem_filter.mp member).2)
    (opening ▸ reached) final budget early apart
  rw [opening, index_eq, intact.reads] at own
  have all : visitsOf stage.memory.2 index = stage.memory.2 := by
    refine List.filter_eq_self.mpr fun visit member => decide_eq_true ?_
    obtain ⟨_, _, other, _, _, there, owner, _⟩ := passes.ended_of_visits intact member
    have known := List.mem_of_getElem? there
    rw [tracks, List.mem_singleton] at known
    rw [← owner, known, index_eq]
  exact ⟨before, track, start, solo, tracks, index_eq, ended, all, all.symm.trans own⟩

/-- Loading a file with one track reads all of it, if the track ends at the first tick. -/
theorem Reachable.load_single (reachable : Reachable source sequence) {index offset : Nat}
    {channel : UInt8} (only : sequence.tracks.map origin = [(index, offset, channel)]) {n : Nat}
    {junction : Junction} (reached : Position.after source sequence.options.maxDepth
      ⟨⟨offset, [], []⟩, 0⟩ n = some ⟨junction, 0⟩)
    (final : Position.next? source sequence.options.maxDepth ⟨junction, 0⟩ = none)
    (budget : n < sequence.options.maxSteps) (apart : sequence.header.tickSync = false) :
    ∃ listed measured stage transposes track, Reachable source measured ∧
      sequence.runPass .listing 0 = .ok listed ∧ listed.runPass .length 0 = .ok measured ∧
      measured.Passes .midi measured.length stage transposes ∧
      sequence.load = .ok (measured.conclude .midi stage.unlogged transposes) ∧
      stage.tracks = [track] ∧ track.index = index ∧
      (midiOutput measured.header transposes stage.unlogged).tracks =
        [(track.midi.transpose transposes.allAt).finalize] ∧
      visitsOf stage.memory.2 index = stage.memory.2 ∧
      stage.memory.2 = (Position.freeRun source sequence.options.maxDepth ⟨⟨offset, [], []⟩, 0⟩
        (n + 1)).map fun (offset, tick) => ⟨index, offset, tick⟩ := by
  obtain ⟨listed, measured, stage, transposes, reachable, options, header, origins, lists,
    measures, passes, loads⟩ := reachable.load_runs
  rw [← options] at reached final budget
  obtain ⟨_, track, _, _, tracks, index, _, all, own⟩ := passes.single reachable.intact
    (origins.trans only) reached final budget (Nat.eq_zero_or_pos _) (by rw [header]; exact apart)
  refine ⟨listed, measured, stage, transposes, track, reachable, lists, measures, passes, loads,
    tracks, index, ?_, all, options ▸ own⟩
  rw [midiOutput, show stage.unlogged.tracks = [track] from tracks]
  rfl

/-- The transposes of all tracks are those that the tracks have decoded, by tick. -/
theorem Passes.changes_eq (passes : sequence.Passes pass stopTime stage transposes) :
    transposes.ofAll.toList = ((stage.memory.2.filterMap (Visit.tag? sequence.source)).mergeSort
      fun a b => a.1 ≤ b.1).filterMap fun (tick, place) =>
        (place.bind fun place => RefSeq.kindAt? sequence.source place.offset).bind
          (EventKind.changeAt? tick) := by
  have journal := passes.played.ensemble.journal
  have changes := passes.changes
  rw [Shared.changes_eq_rows passes.played.ensemble.faithful] at changes
  rw [Shared.tags_eq_rows] at journal
  change _ = stage.memory.2.filterMap (Visit.tag? sequence.source) at journal
  have sorted : (stage.shared.rows.map fun row => (row.start, row.place)).mergeSort
      (fun a b => a.1 ≤ b.1) = (stage.shared.rows.mergeSort fun a b => a.start ≤ b.start).map
        fun row => (row.start, row.place) := by
    symm
    exact List.map_mergeSort fun _ _ _ _ => rfl
  rw [changes, ← journal, sorted, List.filterMap_map]
  refine congrArg (List.filterMap · _) (funext fun row => ?_)
  simp only [Row.changeAt?, Function.comp_apply]
  cases row.place <;> rfl

/-- Without an instruction for it, all tracks are never transposed. -/
theorem Passes.allAt_eq_zero (passes : sequence.Passes pass stopTime stage transposes)
    (quiet : ∀ visit ∈ stage.memory.2,
      (RefSeq.kindAt? sequence.source visit.offset).bind (EventKind.changeAt? visit.tick) = none)
    (tick : Nat) : transposes.allAt tick = 0 := by
  have none : transposes.ofAll.toList = [] := by
    refine passes.changes_eq.trans (List.filterMap_eq_nil_iff.mpr ?_)
    rintro ⟨start, place⟩ member
    obtain ⟨visit, visited, tag⟩ := List.mem_filterMap.mp (List.mem_mergeSort.mp member)
    unfold Visit.tag? at tag
    split at tag
    · cases tag
      exact quiet visit visited
    · cases tag
  unfold Transposes.allAt
  rw [Array.toList_eq_nil_iff.mp none]
  simp [transposeAt, changesUntil]

/-- The second of two notes sounds in octave 5, and is listed by the name of the first one. -/
theorem not_named_recalled : ∃ sequence listed measured log loaded output transposes midi index note
    event, ofSource RefSeq.format () recalled = .ok sequence ∧
      sequence.runPass .listing 0 = .ok listed ∧ listed.runPass .length 0 = .ok measured ∧
      measured.visits .midi measured.length = .ok log ∧ sequence.load = .ok loaded ∧
      loaded.midi = some output ∧ loaded.transposes = some transposes ∧ output.tracks = [midi] ∧
      (loaded.stage.shared.notesOf 0)[1]? = some index ∧
      (RefSeq.notes recalled (visitsOf log 0))[1]? = some note ∧ midi.strikes[1]? = some event ∧
      note.struck? recalled = some (72, 100) ∧ note.registers = { octave := 5 } ∧
      transposes.allAt note.visit.tick = 0 ∧ event.message = .noteOn 72 100 ∧
      loaded.noteLabel index = .ok (some "C4") ∧ noteName 72 = "C5" := by
  have opened : ofSource RefSeq.format () recalled = .ok _ := rfl
  have reachable := Reachable.opened opened
  have reached : Position.after recalled 64 ⟨⟨14, [], []⟩, 0⟩ 7 = some ⟨⟨22, [], []⟩, 0⟩ := by
    decide +kernel
  -- The track goes through all of its eight instructions.
  obtain ⟨listing, measured, stage, transposes, track, reachable, lists, measures, passes, loads,
    tracks, index, midi, all, own⟩ := reachable.load_single (show _ = [(0, 14, 0)] from rfl)
      reached (by decide +kernel) (by decide) rfl
  obtain ⟨opening, descends⟩ := reachable.descends
  have found : stage.tracks[0]? = some track := by rw [tracks]; rfl
  have notes : RefSeq.notes recalled (visitsOf stage.memory.2 0) =
      [⟨⟨0, 23, 0⟩, {}⟩, ⟨⟨0, 23, 0⟩, { octave := 5 }⟩] := by
    rw [all, own]
    decide +kernel
  have first : ∀ reading ∈ (RefSeq.readings recalled {} (visitsOf stage.memory.2 0)).find?
      (fun reading => reading.visit.offset = 23), reading.struck? recalled = some (60, 100) := by
    rw [all, own]
    decide +kernel
  have quiet : ∀ visit ∈ stage.memory.2, (RefSeq.kindAt? measured.source visit.offset).bind
      (EventKind.changeAt? visit.tick) = none := by
    rw [own, descends.reads]
    decide +kernel
  have names := passes.namesNotes descends found
  rw [index] at names
  have entries := names.entries
  have messages := names.messages
  rw [notes] at entries messages
  have second {α : Type} {xs : List α} (length : xs.length = 2) : ∃ x, xs[1]? = some x :=
    ⟨_, List.getElem?_eq_getElem (Nat.lt_of_lt_of_eq Nat.one_lt_two length.symm)⟩
  obtain ⟨entry, listed⟩ := second entries
  obtain ⟨event, struck⟩ := second messages
  have read : (RefSeq.notes recalled (visitsOf stage.memory.2 0))[1]? =
      some ⟨⟨0, 23, 0⟩, { octave := 5 }⟩ := by rw [notes]; rfl
  have still := passes.allAt_eq_zero quiet 0
  obtain ⟨_, key, named, sounds⟩ := names.names 1 entry _ event listed read struck
  obtain ⟨reading, velocity, known, struck'⟩ := named.read
  cases (first reading known).symm.trans struck'
  obtain ⟨sounding, message, value, _⟩ := sounds 72 100 (by decide +kernel) rfl rfl (by decide)
    (by dsimp only; rw [still]; decide)
  have label := named.label
  dsimp only at value label
  rw [still] at value label
  have same : sounding = 72 := by
    apply UInt8.toNat_inj.mp
    apply Int.ofNat_inj.mp
    exact value.trans (by decide)
  subst same
  refine ⟨_, listing, measured, stage.memory.2, _, _, transposes, _, entry, _, event, opened, lists,
    measures, passes.visits, loads, rfl, conclude_transposes .., midi, listed, read, struck,
    by decide +kernel, rfl, still, message, ?_, by decide +kernel⟩
  rw [label]
  decide +kernel

end Sequence
end Sequencer
