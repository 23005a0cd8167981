import Sequencer.Proofs.Score.Pairing

/-! Couples of messages. Each note of a finished track has two messages, its start and later its end,
and each message of a note is one of such a couple. Whether both are on one channel is left open
here: it depends on what happens to the channel while the note sounds. -/
namespace Sequencer

variable {alike : UInt8 → UInt8 → Prop} {first last : MidiEvent}

/-- The first message starts a note that the last one ends, at the same tick at the earliest, with the
same key and transpose, and on a channel that is `alike`. -/
structure MidiEvent.Couples (alike : UInt8 → UInt8 → Prop) (first last : MidiEvent) : Prop where
  messages : ∃ key velocity, first.message = .noteOn key velocity ∧ last.message = .noteOff key
  ordered : first.tick ≤ last.tick
  transposeTick : last.transposeTick = first.transposeTick
  channels : alike first.channel last.channel

namespace MidiEvent

theorem Couples.notes (couples : first.Couples alike last) :
    ∀ event ∈ [first, last], MidiTrack.isEnd event = false := by
  obtain ⟨key, velocity, starts, ends⟩ := couples.messages
  simp [MidiTrack.isEnd, starts, ends]

theorem transpose_eq (transposeAt : Nat → Int) (event : MidiEvent) :
    event.transpose transposeAt = event ∨ ∃ tick, event.transposeTick = some tick ∧
      event.transpose transposeAt =
        { event with message := event.message.shift (transposeAt tick) } := by
  unfold transpose
  split
  · exact .inl rfl
  · rename_i tick known
    dsimp only
    split
    · exact .inl rfl
    · exact .inr ⟨tick, known, rfl⟩

theorem tick_transpose (event : MidiEvent) (transposeAt : Nat → Int) :
    (event.transpose transposeAt).tick = event.tick := by
  rcases event.transpose_eq transposeAt with same | ⟨_, _, same⟩ <;> rw [same]

theorem channel_transpose (event : MidiEvent) (transposeAt : Nat → Int) :
    (event.transpose transposeAt).channel = event.channel := by
  rcases event.transpose_eq transposeAt with same | ⟨_, _, same⟩ <;> rw [same]

theorem Couples.transpose (couples : first.Couples alike last) (transposeAt : Nat → Int) :
    (first.transpose transposeAt).Couples alike (last.transpose transposeAt) := by
  obtain ⟨⟨key, velocity, starts, ends⟩, ordered, same, channels⟩ := couples
  unfold MidiEvent.transpose
  rw [same]
  cases first.transposeTick with
  | none => exact ⟨⟨key, velocity, starts, ends⟩, ordered, same, channels⟩
  | some tick =>
    by_cases unshifted : transposeAt tick = 0
    · simp only [unshifted, if_true]
      exact ⟨⟨key, velocity, starts, ends⟩, ordered, same, channels⟩
    · simp only [unshifted, if_false]
      refine ⟨⟨clampKey (key.toNat + transposeAt tick), velocity, ?_, ?_⟩, ordered, rfl, channels⟩
      · simp [starts, MidiMessage.shift]
      · simp [ends, MidiMessage.shift]

end MidiEvent

theorem MidiTrack.isEnd_of_isNote {event : MidiEvent} (note : event.message.isNote = true) :
    isEnd event = false := by
  refine decide_eq_false fun ends => ?_
  rw [ends] at note
  cases note

/-- Finishing a track neither adds messages nor takes any away, its end aside. -/
theorem MidiTrack.mem_finalize {midi : MidiTrack} {event : MidiEvent}
    (other : isEnd event = false) :
    event ∈ midi.finalize.events.toList ↔ event ∈ midi.events.toList := by
  unfold finalize
  simp only [List.mem_append, List.mem_mergeSort, List.mem_filter, List.mem_singleton, other,
    Bool.not_false, and_true]
  refine or_iff_left fun last => ?_
  rw [last] at other
  cases other

namespace Labelled

variable {labelled : Labelled} {events : List MidiEvent} {id : Nat}

/-- What is labelled with `id` is a note. -/
def Couple (alike : UInt8 → UInt8 → Prop) (labelled : Labelled) (id : Nat) : Prop :=
  ∃ first last, labelled.voice id = [first, last] ∧ first.Couples alike last

/-- The labels join the messages of notes among `events` in couples, and label no others. -/
structure Couples (alike : UInt8 → UInt8 → Prop) (labelled : Labelled) (events : List MidiEvent) :
    Prop where
  messages : labelled.map Prod.fst = events
  notes : ∀ item ∈ labelled, item.2.isSome = item.1.message.isNote
  couples : ∀ item ∈ labelled, ∀ id ∈ item.2, labelled.Couple alike id

/-- Among couples a start has its end. -/
theorem Couples.exists_end (couples : labelled.Couples alike events) {first : MidiEvent}
    (member : first ∈ events) {key velocity : UInt8}
    (starts : first.message = .noteOn key velocity) :
    ∃ last ∈ events, last.message = .noteOff key ∧ alike first.channel last.channel := by
  obtain ⟨messages, notes, couples⟩ := couples
  subst messages
  obtain ⟨⟨event, label⟩, there, rfl⟩ := List.mem_map.mp member
  obtain ⟨id, rfl⟩ : ∃ id, label = some id := by
    refine Option.isSome_iff_exists.mp ((notes _ there).trans ?_)
    rw [starts]
    rfl
  obtain ⟨start, last, voice, ⟨key', velocity', on, off⟩, _, _, channels⟩ :=
    couples _ there id rfl
  have sounding : event ∈ labelled.voice id :=
    List.mem_map.mpr ⟨_, List.mem_filter.mpr ⟨there, decide_eq_true rfl⟩, rfl⟩
  have whole : last ∈ labelled.voice id := by simp [voice]
  rw [voice] at sounding
  rcases List.mem_cons.mp sounding with rfl | ending
  · cases on.symm.trans starts
    exact ⟨last, mem_of_mem_voice whole, off, channels⟩
  · cases List.mem_singleton.mp ending
    cases off.symm.trans starts

theorem Couple.transpose (couple : labelled.Couple alike id) (transposeAt : Nat → Int) :
    (labelled.transpose transposeAt).Couple alike id := by
  obtain ⟨first, last, voice, couples⟩ := couple
  refine ⟨_, _, ?_, couples.transpose transposeAt⟩
  rw [voice_transpose, voice]
  rfl

theorem Couples.transpose (couples : labelled.Couples alike events) (transposeAt : Nat → Int) :
    (labelled.transpose transposeAt).Couples alike
      (events.map (MidiEvent.transpose transposeAt)) where
  messages := by
    rw [← couples.messages, Labelled.transpose, List.map_map, List.map_map]
    rfl
  notes := fun item member => by
    obtain ⟨earlier, there, rfl⟩ := List.mem_map.mp member
    exact (couples.notes earlier there).trans (MidiEvent.isNote_transpose ..).symm
  couples := fun item member id label => by
    obtain ⟨earlier, there, rfl⟩ := List.mem_map.mp member
    exact (couples.couples earlier there id label).transpose transposeAt

theorem Couple.sort (couple : labelled.Couple alike id) {last : MidiEvent} :
    Couple alike (labelled.sort ++ [(last, none)]) id := by
  obtain ⟨start, stop, voice, couples⟩ := couple
  refine ⟨start, stop, ?_, couples⟩
  rw [voice_push_other (fun same => by cases same), voice_sort_of_ordered, voice]
  · rw [voice]
    exact couples.notes
  · rw [voice]
    simpa using couples.ordered

theorem Couples.sort (couples : labelled.Couples alike events) {last : MidiEvent}
    (ends : last.message = .endOfTrack) : Couples alike (labelled.sort ++ [(last, none)])
      (((events.filter fun event => !MidiTrack.isEnd event).mergeSort
        fun a b => a.tick ≤ b.tick) ++ [last]) := by
  have earlier {item : MidiEvent × Option Nat} (member : item ∈ labelled.sort) :
      item ∈ labelled := (List.mem_filter.mp (List.mem_mergeSort.mp member)).1
  constructor
  · rw [List.map_append, map_fst_sort, couples.messages]
    rfl
  · refine List.forall_mem_append.mpr ⟨fun item member => couples.notes item (earlier member),
      List.forall_mem_singleton.mpr ?_⟩
    rw [ends]
    rfl
  · refine List.forall_mem_append.mpr ⟨fun item member id label =>
      (couples.couples item (earlier member) id label).sort, List.forall_mem_singleton.mpr ?_⟩
    rintro _ ⟨⟩

theorem Couples.finalize (midi : MidiTrack) (couples : labelled.Couples alike midi.events.toList) :
    ∃ labelled' : Labelled, labelled'.Couples alike midi.finalize.events.toList :=
  ⟨_, couples.sort rfl⟩

end Labelled
end Sequencer
