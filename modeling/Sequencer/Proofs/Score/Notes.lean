import Sequencer.Proofs.Player.Notes
import Sequencer.Proofs.Score.Labels

/-! The score of a track: which message belongs to which note. A note that has ended has two
messages, at its start and at its end, and its entry lasts from one to the other. Revising
notes keeps the score. -/
namespace Sequencer

variable {channel : UInt8} {now tick : Nat} {sheet : Sheet} {known : List Nat}
  {opened : List OpenNote} {labelled : Labelled}

/-- The messages of an entry are a note from its start to its end. -/
def Labelled.Whole (labelled : Labelled) (channel : UInt8) (index : Nat) (entry : Entry) : Prop :=
  ∃ key velocity transposeTick, labelled.voice index =
    [⟨entry.start, channel, .noteOn key velocity, transposeTick⟩,
      ⟨entry.start + entry.duration, channel, .noteOff key, transposeTick⟩]

/-- An open note has its start in the messages, and no end. -/
def OpenNote.Begun (channel : UInt8) (timeline : Timeline) (labelled : Labelled)
    (note : OpenNote) : Prop :=
  ∃ index entry velocity, note.entry = some index ∧ timeline.entries[index]? = some entry ∧
    entry.start = note.start ∧ labelled.voice index =
      [⟨note.start, channel, .noteOn note.midiKey velocity, note.transposeTick⟩]

/-- A timed note knows its entry, and where its end is in the messages. -/
def TimedNote.Placed (timeline : Timeline) (labelled : Labelled) (note : TimedNote) : Prop :=
  ∃ index entry position event key, note.entry = some index ∧
    timeline.entries[index]? = some entry ∧ entry.start = note.start ∧
    note.noteOff = some position ∧ labelled[position]? = some (event, some index) ∧
    event.message = .noteOff key

/-- The messages of a track as the notes of the `known` entries. Those of `opened` are not ended. -/
structure Score (channel : UInt8) (now : Nat) (sheet : Sheet) (known : List Nat)
    (opened : List OpenNote) (labelled : Labelled) : Prop where
  messages : labelled.map Prod.fst = sheet.midi.events.toList
  notes : ∀ item ∈ labelled, item.2.isSome = item.1.message.isNote
  labels : ∀ item ∈ labelled, ∀ index ∈ item.2, index ∈ known
  voices : ∀ index ∈ known, (∃ note ∈ opened, note.entry = some index) ∨
    ∃ entry, sheet.timeline.entries[index]? = some entry ∧ labelled.Whole channel index entry
  begun : ∀ note ∈ opened, note.Begun channel sheet.timeline labelled ∧ note.start ≤ now
  apart : opened.Pairwise fun first second => first.entry ≠ second.entry

namespace Labelled

theorem mem_voice {position index : Nat} {event : MidiEvent}
    (found : labelled[position]? = some (event, some index)) : event ∈ labelled.voice index := by
  refine List.mem_map.mpr ⟨(event, some index), ?_, rfl⟩
  exact List.mem_filter.mpr ⟨List.mem_of_getElem? found, decide_eq_true rfl⟩

theorem mem_moveAt {position : Nat} {item : MidiEvent × Option Nat}
    (member : item ∈ labelled.moveAt position tick) :
    ∃ earlier ∈ labelled, item.2 = earlier.2 ∧ item.1.message = earlier.1.message := by
  obtain ⟨other, found⟩ := List.getElem?_of_mem member
  unfold moveAt at found
  rw [List.getElem?_modify] at found
  obtain ⟨earlier, there, same⟩ := Option.map_eq_some_iff.mp found
  refine ⟨earlier, List.mem_of_getElem? there, ?_⟩
  by_cases here : position = other
  · simp only [here, if_true] at same
    subst same
    exact ⟨rfl, rfl⟩
  · simp only [here, if_false] at same
    subst same
    exact ⟨rfl, rfl⟩

theorem Whole.congr {labelled' : Labelled} {index : Nat} {entry : Entry}
    (whole : labelled.Whole channel index entry)
    (same : labelled'.voice index = labelled.voice index) :
    labelled'.Whole channel index entry := by
  unfold Whole
  rw [same]
  exact whole

/-- A note from the start of an entry to a later tick is the whole of the entry that lasts so long. -/
theorem whole_lasting {index stop : Nat} {entry : Entry} {key velocity : UInt8}
    {transposeTick : Option Nat} (late : entry.start ≤ stop) (voice : labelled.voice index =
      [⟨entry.start, channel, .noteOn key velocity, transposeTick⟩,
        ⟨stop, channel, .noteOff key, transposeTick⟩]) :
    labelled.Whole channel index (entry.lasting (stop - entry.start)) := by
  have lasts : entry.start + (stop - entry.start) = stop := by omega
  refine ⟨key, velocity, transposeTick, ?_⟩
  change _ = [_, MidiEvent.mk (entry.start + (stop - entry.start)) _ _ _]
  rw [lasts]
  exact voice

end Labelled

theorem OpenNote.Begun.congr {timeline : Timeline} {labelled' : Labelled} {note : OpenNote}
    (begun : note.Begun channel timeline labelled)
    (same : ∀ index, note.entry = some index → labelled'.voice index = labelled.voice index) :
    note.Begun channel timeline labelled' := by
  obtain ⟨index, entry, velocity, own, found, start, voice⟩ := begun
  exact ⟨index, entry, velocity, own, found, start, (same index own).trans voice⟩

theorem Timeline.getElem_modified {before after : Timeline} {index duration : Nat}
    (entries : after.entries = before.entries.modify index (Entry.lasting duration))
    {other : Nat} {entry : Entry} (found : before.entries[other]? = some entry) :
    after.entries[other]? =
      some (if index = other then entry.lasting duration else entry) := by
  rw [entries, Array.getElem?_modify, found]
  split <;> rfl

theorem Timeline.getElem_add {timeline : Timeline} {index : Nat} {entry : Entry}
    (found : timeline.entries[index]? = some entry) (new : Entry) :
    (timeline.add new).entries[index]? = some entry := by
  have inside := (Array.getElem?_eq_some_iff.mp found).1
  exact (Array.getElem?_push_lt inside).trans ((Array.getElem?_eq_getElem _).symm.trans found)

namespace Score

theorem inside (score : Score channel now sheet known opened labelled) {index : Nat}
    (member : index ∈ known) : index < sheet.timeline.size := by
  rcases score.voices index member with ⟨note, there, own⟩ | ⟨entry, found, _⟩
  · obtain ⟨⟨other, entry, _, own', found, _⟩, _⟩ := score.begun note there
    cases own.symm.trans own'
    exact (Array.getElem?_eq_some_iff.mp found).1
  · exact (Array.getElem?_eq_some_iff.mp found).1

theorem voice_of_unknown (score : Score channel now sheet known opened labelled) {index : Nat}
    (unknown : index ∉ known) : labelled.voice index = [] := by
  refine Labelled.voice_nil_of_fresh fun item member label labelled => ?_
  rintro rfl
  exact unknown (score.labels item member label labelled)

theorem known_of_begun (score : Score channel now sheet known opened labelled) {note : OpenNote}
    (member : note ∈ opened) : ∃ index ∈ known, note.entry = some index := by
  obtain ⟨⟨index, entry, velocity, own, found, start, voice⟩, _⟩ := score.begun note member
  refine ⟨index, Decidable.byContradiction fun unknown => ?_, own⟩
  rw [score.voice_of_unknown unknown] at voice
  cases voice

theorem not_opened (score : Score channel now sheet known opened labelled) {position index : Nat}
    {event : MidiEvent} {key : UInt8} (found : labelled[position]? = some (event, some index))
    (ends : event.message = .noteOff key) : ∀ note ∈ opened, note.entry ≠ some index := by
  intro note member same
  obtain ⟨⟨index', entry, velocity, known, _, _, voice⟩, _⟩ := score.begun note member
  cases known.symm.trans same
  have sounding := Labelled.mem_voice found
  rw [voice, List.mem_singleton] at sounding
  rw [sounding] at ends
  cases ends

theorem begun_modified {timeline : Timeline} {index duration : Nat} {labelled' : Labelled}
    {note : OpenNote} (begun : note.Begun channel sheet.timeline labelled)
    (entries : timeline.entries = sheet.timeline.entries.modify index (Entry.lasting duration))
    (apart : note.entry ≠ some index)
    (voices : ∀ other, other ≠ index → labelled'.voice other = labelled.voice other) :
    note.Begun channel timeline labelled' := by
  obtain ⟨other, entry, velocity, known, found, start, voice⟩ := begun
  have different : index ≠ other := by
    intro same
    rw [known, same] at apart
    exact apart rfl
  refine ⟨other, entry, velocity, known, ?_, start, ?_⟩
  · rw [Timeline.getElem_modified entries found, if_neg different]
  · rw [voices other different.symm]
    exact voice

theorem whole_modified {timeline : Timeline} {index duration other : Nat} {labelled' : Labelled}
    {entry : Entry} (found : sheet.timeline.entries[other]? = some entry)
    (whole : labelled.Whole channel other entry)
    (entries : timeline.entries = sheet.timeline.entries.modify index (Entry.lasting duration))
    (apart : other ≠ index)
    (voices : ∀ other, other ≠ index → labelled'.voice other = labelled.voice other) :
    ∃ entry, timeline.entries[other]? = some entry ∧ labelled'.Whole channel other entry := by
  refine ⟨entry, ?_, whole.congr (voices other apart)⟩
  rw [Timeline.getElem_modified entries found, if_neg apart.symm]

/-- The entry of a note that has a message at its end lasts to there. -/
theorem whole_ended {timeline : Timeline} {index start stop : Nat} {labelled' : Labelled}
    {entry : Entry} {key velocity : UInt8} {transposeTick : Option Nat}
    (found : sheet.timeline.entries[index]? = some entry) (begins : entry.start = start)
    (entries : timeline.entries =
      sheet.timeline.entries.modify index (Entry.lasting (stop - start)))
    (late : start ≤ stop) (voice : labelled'.voice index =
      [⟨start, channel, .noteOn key velocity, transposeTick⟩,
        ⟨stop, channel, .noteOff key, transposeTick⟩]) :
    ∃ entry, timeline.entries[index]? = some entry ∧ labelled'.Whole channel index entry := by
  subst begins
  refine ⟨_, Timeline.getElem_modified entries found, ?_⟩
  rw [if_pos rfl]
  exact Labelled.whole_lasting late voice

end Score

theorem TimedNote.Placed.keep {before after : Timeline} {labelled' : Labelled} {note : TimedNote}
    (placed : note.Placed before labelled) (keeps : labelled.Keeps labelled')
    (starts : ∀ (index : Nat) (entry : Entry), before.entries[index]? = some entry →
      ∃ entry' : Entry, after.entries[index]? = some entry' ∧ entry'.start = entry.start) :
    note.Placed after labelled' := by
  obtain ⟨index, entry, position, event, key, known, found, start, noteOff, there, ends⟩ := placed
  obtain ⟨entry', found', start'⟩ := starts index entry found
  obtain ⟨event', there', same⟩ := keeps position event (some index) there
  exact ⟨index, entry', position, event', key, known, found', start'.trans start, noteOff, there',
    same.trans ends⟩

theorem TimedNote.Placed.append {timeline : Timeline} {note : TimedNote}
    (placed : note.Placed timeline labelled) (new : Labelled) :
    note.Placed timeline (labelled ++ new) :=
  placed.keep (Labelled.keeps_append labelled new) fun _ entry found => ⟨entry, found, rfl⟩

theorem TimedNote.Placed.congr {timeline : Timeline} {note other : TimedNote}
    (placed : note.Placed timeline labelled) (start : note.start = other.start)
    (own : note.entry = other.entry) (noteOff : note.noteOff = other.noteOff) :
    other.Placed timeline labelled := by
  unfold Placed at placed ⊢
  rwa [← start, ← own, ← noteOff]

/-- What a revision of the notes of `known` entries keeps of a timeline and of the labels. -/
structure Score.Revised (known : List Nat) (before : Sheet) (labelled : Labelled) (after : Sheet)
    (labelled' : Labelled) : Prop where
  keeps : labelled.Keeps labelled'
  spares : ∀ index, index ∉ known →
    after.timeline.entries[index]? = before.timeline.entries[index]?
  starts : ∀ (index : Nat) (entry : Entry), before.timeline.entries[index]? = some entry →
    ∃ entry' : Entry, after.timeline.entries[index]? = some entry' ∧ entry'.start = entry.start

namespace Score

theorem Revised.refl (known : List Nat) (sheet : Sheet) (labelled : Labelled) :
    Revised known sheet labelled sheet labelled :=
  ⟨.refl labelled, fun _ _ => rfl, fun _ entry found => ⟨entry, found, rfl⟩⟩

theorem Revised.trans {first second third : Sheet} {one two three : Labelled}
    (left : Revised known first one second two) (right : Revised known second two third three) :
    Revised known first one third three where
  keeps := left.keeps.trans right.keeps
  spares := fun index unknown =>
    (right.spares index unknown).trans (left.spares index unknown)
  starts := fun index entry found => by
    obtain ⟨middle, found, same⟩ := left.starts index entry found
    obtain ⟨last, found, same'⟩ := right.starts index middle found
    exact ⟨last, found, same'.trans same⟩

theorem revised_starts {before after : Timeline} {index duration : Nat}
    (entries : after.entries = before.entries.modify index (Entry.lasting duration)) :
    ∀ (other : Nat) (entry : Entry), before.entries[other]? = some entry →
      ∃ entry' : Entry, after.entries[other]? = some entry' ∧ entry'.start = entry.start := by
  intro other entry found
  refine ⟨_, Timeline.getElem_modified entries found, ?_⟩
  split <;> rfl

theorem spares_modified {before after : Timeline} {index duration : Nat}
    (entries : after.entries = before.entries.modify index (Entry.lasting duration))
    (member : index ∈ known) :
    ∀ other, other ∉ known → after.entries[other]? = before.entries[other]? := by
  intro other unknown
  have apart : index ≠ other := fun same => unknown (same ▸ member)
  rw [entries, Array.getElem?_modify, if_neg apart]

theorem endAt_moves {timeline : Timeline} {midi : MidiTrack} {note : TimedNote}
    {index position : Nat} (own : note.entry = some index) (noteOff : note.noteOff = some position)
    (inside : index < timeline.size) (bound : position < midi.events.size) (tick : Nat) :
    ∃ timeline' : Timeline, timeline'.entries = timeline.entries.modify index
        (Entry.lasting (max tick note.start - note.start)) ∧
      note.endAt tick ⟨timeline, midi⟩ = .ok ({ note with stop := max tick note.start },
        ⟨timeline', ⟨midi.events.modify position (MidiEvent.moveTo (max tick note.start))⟩⟩) := by
  obtain ⟨timeline', timed, entries⟩ :=
    Timeline.setDuration_entries inside (max tick note.start - note.start)
  refine ⟨timeline', entries, ?_⟩
  have durations : Sheet.setDuration ⟨timeline, midi⟩ (some index)
      (max tick note.start - note.start) = .ok ⟨timeline', midi⟩ :=
    Except.bind_eq_ok.mpr ⟨_, timed, rfl⟩
  have moved : midi.setTick position (max tick note.start) =
      .ok ⟨midi.events.modify position (MidiEvent.moveTo (max tick note.start))⟩ := if_pos bound
  have ticks : Sheet.setTick ⟨timeline', midi⟩ (some position) (max tick note.start) =
      .ok ⟨timeline', ⟨midi.events.modify position (MidiEvent.moveTo (max tick note.start))⟩⟩ :=
    Except.bind_eq_ok.mpr ⟨_, moved, rfl⟩
  unfold TimedNote.endAt
  rw [own, noteOff]
  exact Except.bind_eq_ok.mpr ⟨_, durations, Except.bind_eq_ok.mpr ⟨_, ticks, rfl⟩⟩

/-- The end of a note is moved. -/
theorem endAt (score : Score channel now sheet known opened labelled) {note : TimedNote}
    (placed : note.Placed sheet.timeline labelled) (tick : Nat) :
    (note.endAt tick sheet).Yields fun (note', sheet') => ∃ labelled',
      Score channel now sheet' known opened labelled' ∧
      Revised known sheet labelled sheet' labelled' ∧ note'.Placed sheet'.timeline labelled' := by
  have kept := placed
  obtain ⟨index, entry, position, event, key, own, found, start, noteOff, there, ends⟩ := placed
  obtain ⟨timeline, midi⟩ := sheet
  have inside : index < timeline.size := (Array.getElem?_eq_some_iff.mp found).1
  have length : labelled.length = midi.events.size := by
    rw [← Array.length_toList, ← score.messages, List.length_map]
  have bound : position < midi.events.size := length ▸ (List.getElem?_eq_some_iff.mp there).1
  obtain ⟨timeline', entries, done⟩ := endAt_moves own noteOff inside bound tick
  have member : index ∈ known :=
    score.labels _ (List.mem_of_getElem? there) index rfl
  have revised : Revised known ⟨timeline, midi⟩ labelled
      ⟨timeline', ⟨midi.events.modify position (MidiEvent.moveTo (max tick note.start))⟩⟩
      (labelled.moveAt position (max tick note.start)) :=
    ⟨Labelled.keeps_moveAt labelled position _, spares_modified entries member,
      revised_starts entries⟩
  have others : ∀ other, other ≠ index →
      (labelled.moveAt position (max tick note.start)).voice other = labelled.voice other :=
    fun other apart => Labelled.voice_moveAt_other there apart.symm _
  refine ⟨_, done, labelled.moveAt position (max tick note.start), ?_, revised,
    kept.keep revised.keeps revised.starts⟩
  constructor
  · rw [Labelled.map_fst_moveAt, score.messages, Array.toList_modify]
  · intro item member
    obtain ⟨earlier, known, label, message⟩ := Labelled.mem_moveAt member
    rw [label, message]
    exact score.notes earlier known
  · intro item member other labelled
    obtain ⟨earlier, known, label, _⟩ := Labelled.mem_moveAt member
    exact score.labels earlier known other (label ▸ labelled)
  · intro other member
    rcases score.voices other member with opened | ⟨entry', found', whole⟩
    · exact .inl opened
    · by_cases same : other = index
      · subst same
        cases found.symm.trans found'
        obtain ⟨key', velocity, transposeTick, voice⟩ := whole
        have apart : event.message ≠ .noteOn key' velocity := by
          rw [ends]
          exact fun same => by cases same
        have moved := Labelled.voice_moveAt_own there voice apart (max tick note.start)
        rw [start] at moved
        exact .inr (whole_ended found start entries (Nat.le_max_right ..) moved)
      · exact .inr (whole_modified found' whole entries same others)
  · intro other member
    obtain ⟨begun, early⟩ := score.begun other member
    exact ⟨begun_modified begun entries (score.not_opened there ends other member) others, early⟩
  · exact score.apart

theorem endIf (score : Score channel now sheet known opened labelled) {note : TimedNote}
    (placed : note.Placed sheet.timeline labelled) (chosen : TimedNote → Bool) (tick : Nat) :
    (note.endIf chosen tick sheet).Yields fun (note', sheet') => ∃ labelled',
      Score channel now sheet' known opened labelled' ∧
      Revised known sheet labelled sheet' labelled' ∧ note'.Placed sheet'.timeline labelled' := by
  unfold TimedNote.endIf
  split
  · exact score.endAt placed tick
  · exact Except.yields_ok ⟨labelled, score, .refl known sheet labelled, placed⟩

theorem endAll (score : Score channel now sheet known opened labelled) {notes : List TimedNote}
    (placed : ∀ note ∈ notes, note.Placed sheet.timeline labelled) (chosen : TimedNote → Bool)
    (tick : Nat) : (TimedNote.endAll chosen tick sheet notes).Yields fun (notes', sheet') =>
      ∃ labelled', Score channel now sheet' known opened labelled' ∧
        Revised known sheet labelled sheet' labelled' ∧
        ∀ note ∈ notes', note.Placed sheet'.timeline labelled' := by
  induction notes generalizing sheet labelled with
  | nil =>
    exact Except.yields_ok ⟨labelled, score, .refl known sheet labelled,
      fun _ member => absurd member List.not_mem_nil⟩
  | cons note rest ih =>
    rw [TimedNote.endAll_cons]
    apply (score.endIf (placed note List.mem_cons_self) chosen tick).bind
    rintro ⟨note', middle⟩ ⟨labelled', score', revised, here⟩
    have others := ih score' fun other member =>
      (placed other (List.mem_cons_of_mem _ member)).keep revised.keeps revised.starts
    apply others.map
    rintro ⟨rest', last⟩ ⟨labelled'', score'', revised', there⟩
    refine ⟨labelled'', score'', revised.trans revised', ?_⟩
    intro other member
    rcases List.mem_cons.mp member with rfl | member
    · exact here.keep revised'.keeps revised'.starts
    · exact there other member

theorem close_writes {timeline : Timeline} {note : OpenNote} {index : Nat}
    (own : note.entry = some index) (inside : index < timeline.size) (midi : MidiTrack) :
    ∃ timeline' : Timeline, timeline'.entries = timeline.entries.modify index
        (Entry.lasting (tick - note.start)) ∧
      note.close true channel tick ⟨timeline, midi⟩ = .ok ⟨timeline',
        midi.push ⟨tick, channel, .noteOff note.midiKey, note.transposeTick⟩⟩ := by
  obtain ⟨timeline', timed, entries⟩ :=
    Timeline.setDuration_entries inside (tick - note.start)
  refine ⟨timeline', entries, ?_⟩
  have durations : Sheet.setDuration ⟨timeline, midi⟩ (some index) (tick - note.start) =
      .ok ⟨timeline', midi⟩ := Except.bind_eq_ok.mpr ⟨_, timed, rfl⟩
  unfold OpenNote.close
  rw [own]
  exact Except.bind_eq_ok.mpr ⟨_, durations, rfl⟩

theorem close {note : OpenNote}
    (score : Score channel now sheet known (note :: opened) labelled)
    (late : note.start ≤ tick) : (note.close true channel tick sheet).Yields fun sheet' => ∃ labelled',
      Score channel now sheet' known opened labelled' ∧
      Revised known sheet labelled sheet' labelled' := by
  obtain ⟨⟨index, entry, velocity, own, found, start, voice⟩, early⟩ :=
    score.begun note List.mem_cons_self
  obtain ⟨timeline, midi⟩ := sheet
  have inside : index < timeline.size := (Array.getElem?_eq_some_iff.mp found).1
  obtain ⟨timeline', entries, done⟩ := close_writes own inside midi
  generalize off : (⟨tick, channel, .noteOff note.midiKey, note.transposeTick⟩ : MidiEvent) = event
    at done
  have others : ∀ other, other ≠ index →
      Labelled.voice (labelled ++ [(event, some index)]) other = labelled.voice other :=
    fun other apart => Labelled.voice_push_other fun same => apart (Option.some.inj same).symm
  obtain ⟨alone, apart⟩ := List.pairwise_cons.mp score.apart
  obtain ⟨index', member, own'⟩ := score.known_of_begun List.mem_cons_self
  cases own.symm.trans own'
  refine ⟨_, done, labelled ++ [(event, some index)], ?_,
    Labelled.keeps_append _ _, spares_modified entries member, revised_starts entries⟩
  constructor
  · simp [MidiTrack.push, score.messages]
  · refine List.forall_mem_append.mpr ⟨score.notes, List.forall_mem_singleton.mpr ?_⟩
    rw [← off]
    rfl
  · refine List.forall_mem_append.mpr ⟨score.labels, List.forall_mem_singleton.mpr ?_⟩
    rintro _ ⟨⟩
    exact member
  · intro other member
    by_cases same : other = index
    · subst same
      have voice : Labelled.voice (labelled ++ [(event, some other)]) other =
          [⟨note.start, channel, .noteOn note.midiKey velocity, note.transposeTick⟩,
            ⟨tick, channel, .noteOff note.midiKey, note.transposeTick⟩] := by
        rw [Labelled.voice_push_own, voice, ← off]
        rfl
      exact .inr (whole_ended found start entries late voice)
    · rcases score.voices other member with ⟨note', sounding, label⟩ | ⟨entry', found', whole⟩
      · refine .inl ⟨note', ?_, label⟩
        refine (List.mem_cons.mp sounding).resolve_left fun this => same ?_
        rw [this, own] at label
        exact (Option.some.inj label).symm
      · exact .inr (whole_modified found' whole entries same others)
  · intro other member
    obtain ⟨begun, early⟩ := score.begun other (List.mem_cons_of_mem _ member)
    have different : other.entry ≠ some index := fun same => alone other member (own.trans same.symm)
    exact ⟨begun_modified begun entries different others, early⟩
  · exact apart

theorem closeAll {closing : List OpenNote}
    (score : Score channel now sheet known (closing ++ opened) labelled)
    (late : ∀ note ∈ closing, note.start ≤ tick) :
    (OpenNote.closeAll true channel tick sheet closing).Yields fun sheet' => ∃ labelled',
      Score channel now sheet' known opened labelled' ∧
      Revised known sheet labelled sheet' labelled' := by
  induction closing generalizing sheet labelled with
  | nil => exact Except.yields_ok ⟨labelled, score, .refl known sheet labelled⟩
  | cons note rest ih =>
    refine (close score (late note List.mem_cons_self)).bind ?_
    rintro middle ⟨labelled', score', revised⟩
    refine (ih score' fun other member => late other (List.mem_cons_of_mem _ member)).mono ?_
    rintro last ⟨labelled'', score'', revised'⟩
    exact ⟨labelled'', score'', revised.trans revised'⟩

theorem push_other (score : Score channel now sheet known opened labelled) {event : MidiEvent}
    (other : event.message.isNote = false) : Score channel now
      ⟨sheet.timeline, sheet.midi.push event⟩ known opened (labelled ++ [(event, none)]) := by
  have voices (index : Nat) :
      Labelled.voice (labelled ++ [(event, none)]) index = labelled.voice index :=
    Labelled.voice_push_other fun same => by cases same
  constructor
  · simp [MidiTrack.push, score.messages]
  · refine List.forall_mem_append.mpr ⟨score.notes, List.forall_mem_singleton.mpr ?_⟩
    rw [other]
    rfl
  · refine List.forall_mem_append.mpr ⟨score.labels, List.forall_mem_singleton.mpr ?_⟩
    rintro _ ⟨⟩
  · intro index member
    refine (score.voices index member).imp_right ?_
    rintro ⟨entry, found, whole⟩
    exact ⟨entry, found, whole.congr (voices index)⟩
  · intro note member
    obtain ⟨begun, early⟩ := score.begun note member
    exact ⟨begun.congr fun index _ => voices index, early⟩
  · exact score.apart

theorem toList_push_all (midi : MidiTrack) (events : List MidiEvent) :
    (events.foldl MidiTrack.push midi).events.toList = midi.events.toList ++ events := by
  induction events generalizing midi with
  | nil => exact (List.append_nil _).symm
  | cons event rest ih =>
    rw [List.foldl_cons, ih]
    simp [MidiTrack.push]

/-- The messages of one more entry are added. -/
theorem push_notes (score : Score channel now sheet known opened labelled) {index : Nat}
    (unknown : index ∉ known) (events : List MidiEvent)
    (notes : ∀ event ∈ events, event.message.isNote = true) (last : List OpenNote)
    (voices : (∃ note ∈ opened ++ last, note.entry = some index) ∨
      ∃ entry, sheet.timeline.entries[index]? = some entry ∧
        Labelled.Whole (events.map fun event => (event, some index)) channel index entry)
    (begun : ∀ note ∈ last, note.entry = some index ∧ note.Begun channel sheet.timeline
      (events.map fun event => (event, some index)) ∧ note.start ≤ now)
    (single : last.length ≤ 1) : Score channel now
      ⟨sheet.timeline, events.foldl MidiTrack.push sheet.midi⟩ (known ++ [index]) (opened ++ last)
      (labelled ++ events.map fun event => (event, some index)) := by
  have own : Labelled.voice (labelled ++ events.map fun event => (event, some index)) index =
      Labelled.voice (events.map fun event => (event, some index)) index := by
    rw [Labelled.voice_append, score.voice_of_unknown unknown, List.nil_append]
  have others (other : Nat) (member : other ∈ known) :
      Labelled.voice (labelled ++ events.map fun event => (event, some index)) other =
        labelled.voice other := by
    refine Labelled.voice_append_other ?_ labelled events
    rintro rfl
    exact unknown member
  constructor
  · rw [toList_push_all, ← score.messages]
    simp [Function.comp_def]
  · refine List.forall_mem_append.mpr ⟨score.notes, List.forall_mem_map.mpr ?_⟩
    intro event there
    rw [notes event there]
    rfl
  · intro item member other label
    rcases List.mem_append.mp member with member | member
    · exact List.mem_append_left _ (score.labels item member other label)
    · obtain ⟨event, there, rfl⟩ := List.mem_map.mp member
      cases label
      exact List.mem_append_right _ List.mem_cons_self
  · intro other member
    rcases List.mem_append.mp member with member | member
    · rcases score.voices other member with ⟨note, there, label⟩ | ⟨entry, found, whole⟩
      · exact .inl ⟨note, List.mem_append_left _ there, label⟩
      · exact .inr ⟨entry, found, whole.congr (others other member)⟩
    · cases List.mem_singleton.mp member
      apply voices.imp_right
      rintro ⟨entry, found, whole⟩
      exact ⟨entry, found, whole.congr own⟩
  · intro note member
    rcases List.mem_append.mp member with member | member
    · obtain ⟨other, there, label⟩ := score.known_of_begun member
      obtain ⟨begun, early⟩ := score.begun note member
      refine ⟨begun.congr fun index' known => ?_, early⟩
      cases label.symm.trans known
      exact others other there
    · obtain ⟨label, begun, early⟩ := begun note member
      refine ⟨begun.congr fun index' known => ?_, early⟩
      cases label.symm.trans known
      exact own
  · refine List.pairwise_append.mpr ⟨score.apart, ?_, ?_⟩
    · match last with
      | [] => exact .nil
      | [note] => exact List.pairwise_singleton ..
    · intro first member second new same
      obtain ⟨other, there, label⟩ := score.known_of_begun member
      have own := (begun second new).1
      rw [label, own] at same
      exact unknown (Option.some.inj same ▸ there)

end Score
end Sequencer
