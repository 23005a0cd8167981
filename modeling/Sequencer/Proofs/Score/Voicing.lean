import Sequencer.Proofs.Player.Sound
import Sequencer.Proofs.Score.Couples
import Sequencer.Proofs.Score.Notes

/-! Notes of a track while it is played. A note that is open has its start among the messages, and a
note that has ended is a couple of them, whatever is still to become of its end. A note is labelled
with the place at which it was written. -/
namespace Sequencer

variable {alike : UInt8 → UInt8 → Prop} {channel : UInt8} {now tick id : Nat} {midi : MidiTrack}
  {note : OpenNote} {sounding : List (OpenNote × Nat)} {labelled : Labelled} {event : MidiEvent}

namespace Labelled

variable {labelled' labelled'' : Labelled}

/-- Nothing is taken back, and of a note that has ended no more than its end is moved. -/
structure Grows (labelled labelled' : Labelled) : Prop where
  keeps : labelled.Keeps labelled'
  pairs : ∀ id first last, labelled.voice id = [first, last] →
    ∃ last', labelled'.voice id = [first, last']

theorem Grows.refl (labelled : Labelled) : labelled.Grows labelled :=
  ⟨.refl labelled, fun _ _ last voice => ⟨last, voice⟩⟩

theorem Grows.trans (left : labelled.Grows labelled') (right : labelled'.Grows labelled'') :
    labelled.Grows labelled'' := by
  refine ⟨left.keeps.trans right.keeps, fun id first last voice => ?_⟩
  obtain ⟨last', voice⟩ := left.pairs id first last voice
  exact right.pairs id first last' voice

theorem grows_append {new : Labelled}
    (apart : ∀ item ∈ new, ∀ id ∈ item.2, (labelled.voice id).length < 2) :
    labelled.Grows (labelled ++ new) := by
  refine ⟨keeps_append _ _, fun id first last voice => ⟨last, ?_⟩⟩
  have none : Labelled.voice new id = [] := by
    refine voice_nil_of_fresh fun item member label own same => ?_
    have short := apart item member label own
    rw [same, voice] at short
    exact absurd short (Nat.lt_irrefl _)
  rw [voice_append, voice, none]
  rfl

theorem Couple.congr (couple : labelled.Couple alike id)
    (voice : labelled'.voice id = labelled.voice id) : labelled'.Couple alike id := by
  obtain ⟨first, last, pair, couples⟩ := couple
  exact ⟨first, last, voice.trans pair, couples⟩

end Labelled

/-- The note has its start among the messages, and no end. The channel is alike since. -/
def OpenNote.Sounds (alike : UInt8 → UInt8 → Prop) (channel : UInt8) (labelled : Labelled)
    (note : OpenNote) (id : Nat) : Prop :=
  ∃ first velocity, labelled.voice id = [first] ∧ first.message = .noteOn note.midiKey velocity ∧
    first.tick = note.start ∧ first.transposeTick = note.transposeTick ∧
    alike first.channel channel

theorem OpenNote.Sounds.congr {labelled' : Labelled} (sounds : note.Sounds alike channel labelled id)
    (voice : labelled'.voice id = labelled.voice id) : note.Sounds alike channel labelled' id := by
  obtain ⟨first, velocity, single, rest⟩ := sounds
  exact ⟨first, velocity, voice.trans single, rest⟩

/-- The end of the note is the second of its two messages. -/
def TimedNote.Ends (labelled : Labelled) (note : TimedNote) : Prop :=
  ∀ position ∈ note.noteOff, ∃ event id key first last,
    labelled[position]? = some (event, some id) ∧ event.message = .noteOff key ∧
      labelled.voice id = [first, last] ∧ first.tick = note.start

theorem TimedNote.Ends.grow {labelled' : Labelled} {note : TimedNote} (ends : note.Ends labelled)
    (grows : labelled.Grows labelled') : note.Ends labelled' := by
  intro position known
  obtain ⟨event, id, key, first, last, there, message, voice, start⟩ := ends position known
  obtain ⟨event', there', same⟩ := grows.keeps position event (some id) there
  obtain ⟨last', voice'⟩ := grows.pairs id first last voice
  exact ⟨event', id, key, first, last', there', same.trans message, voice', start⟩

/-- The messages of a track: each one of a note belongs to a couple, or to one of the notes that
sound. -/
structure Voicing (alike : UInt8 → UInt8 → Prop) (channel : UInt8) (now : Nat) (midi : MidiTrack)
    (sounding : List (OpenNote × Nat)) (labelled : Labelled) : Prop where
  messages : labelled.map Prod.fst = midi.events.toList
  notes : ∀ item ∈ labelled, item.2.isSome = item.1.message.isNote
  placed : ∀ item ∈ labelled, ∀ id ∈ item.2, id < labelled.length
  labels : ∀ item ∈ labelled, ∀ id ∈ item.2,
    id ∈ sounding.map Prod.snd ∨ labelled.Couple alike id
  sounds : ∀ note ∈ sounding, note.1.Sounds alike channel labelled note.2 ∧ note.1.start ≤ now
  apart : (sounding.map Prod.snd).Nodup

namespace Voicing

theorem perm {sounding' : List (OpenNote × Nat)}
    (voicing : Voicing alike channel now midi sounding labelled) (perm : sounding'.Perm sounding) :
    Voicing alike channel now midi sounding' labelled where
  messages := voicing.messages
  notes := voicing.notes
  placed := voicing.placed
  labels := fun item member id label =>
    (voicing.labels item member id label).imp_left (perm.map Prod.snd).mem_iff.mpr
  sounds := fun note member => voicing.sounds note (perm.mem_iff.mp member)
  apart := (perm.map Prod.snd).nodup_iff.mpr voicing.apart

theorem length_eq (voicing : Voicing alike channel now midi sounding labelled) :
    labelled.length = midi.size := by
  have same := congrArg List.length voicing.messages
  rw [List.length_map, Array.length_toList] at same
  exact same

theorem voice_of_placed (voicing : Voicing alike channel now midi sounding labelled) :
    labelled.voice labelled.length = [] := by
  refine Labelled.voice_nil_of_fresh fun item member label own same => ?_
  exact absurd (voicing.placed item member label own) (same ▸ Nat.lt_irrefl _)

theorem push_other (voicing : Voicing alike channel now midi sounding labelled)
    (other : event.message.isNote = false) :
    Voicing alike channel now (midi.push event) sounding (labelled ++ [(event, none)]) := by
  have voices (id : Nat) : Labelled.voice (labelled ++ [(event, none)]) id = labelled.voice id :=
    Labelled.voice_push_other fun same => by cases same
  constructor
  · simp [MidiTrack.push, voicing.messages]
  · refine List.forall_mem_append.mpr ⟨voicing.notes, List.forall_mem_singleton.mpr ?_⟩
    rw [other]
    rfl
  · refine List.forall_mem_append.mpr ⟨fun item member id label => ?_,
      List.forall_mem_singleton.mpr fun _ none => by cases none⟩
    rw [List.length_append]
    exact Nat.lt_add_right _ (voicing.placed item member id label)
  · refine List.forall_mem_append.mpr ⟨fun item member id label => ?_,
      List.forall_mem_singleton.mpr fun _ none => by cases none⟩
    exact (voicing.labels item member id label).imp_right fun couple => couple.congr (voices id)
  · intro note member
    exact (voicing.sounds note member).imp_left fun sounds => sounds.congr (voices _)
  · exact voicing.apart

theorem lt_length (voicing : Voicing alike channel now midi sounding labelled)
    {note : OpenNote × Nat} (member : note ∈ sounding) : note.2 < labelled.length := by
  obtain ⟨⟨first, velocity, voice, _⟩, _⟩ := voicing.sounds note member
  have sounding : first ∈ labelled.voice note.2 := by simp [voice]
  obtain ⟨item, there, _⟩ := List.mem_map.mp sounding
  obtain ⟨there, own⟩ := List.mem_filter.mp there
  exact voicing.placed item there note.2 (of_decide_eq_true own)

/-- A note starts. -/
theorem push_start (voicing : Voicing alike channel now midi sounding labelled) {velocity : UInt8}
    (starts : event.message = .noteOn note.midiKey velocity) (start : event.tick = note.start)
    (early : note.start ≤ now) (transposeTick : event.transposeTick = note.transposeTick)
    (here : alike event.channel channel) :
    Voicing alike channel now (midi.push event) (sounding ++ [(note, labelled.length)])
      (labelled ++ [(event, some labelled.length)]) := by
  have others {id : Nat} (earlier : id < labelled.length) :
      Labelled.voice (labelled ++ [(event, some labelled.length)]) id = labelled.voice id :=
    Labelled.voice_push_other fun same => Nat.ne_of_gt earlier (Option.some.inj same)
  constructor
  · simp [MidiTrack.push, voicing.messages]
  · refine List.forall_mem_append.mpr ⟨voicing.notes, List.forall_mem_singleton.mpr ?_⟩
    rw [starts]
    rfl
  · rw [List.length_append]
    refine List.forall_mem_append.mpr ⟨fun item member id label => ?_,
      List.forall_mem_singleton.mpr ?_⟩
    · exact Nat.lt_add_right _ (voicing.placed item member id label)
    · rintro _ ⟨⟩
      exact Nat.lt_succ_self _
  · rw [List.map_append]
    refine List.forall_mem_append.mpr ⟨fun item member id label => ?_,
      List.forall_mem_singleton.mpr ?_⟩
    · exact (voicing.labels item member id label).imp (List.mem_append_left _)
        fun couple => couple.congr (others (voicing.placed item member id label))
    · rintro _ ⟨⟩
      exact .inl (List.mem_append_right _ List.mem_cons_self)
  · refine List.forall_mem_append.mpr ⟨fun other member => ?_, List.forall_mem_singleton.mpr ?_⟩
    · exact (voicing.sounds other member).imp_left
        fun sounds => sounds.congr (others (voicing.lt_length member))
    · refine ⟨⟨event, velocity, ?_, starts, start, transposeTick, here⟩, early⟩
      rw [Labelled.voice_push_own, voicing.voice_of_placed]
      rfl
  · rw [List.map_append]
    refine List.nodup_append.mpr ⟨voicing.apart, by simp, ?_⟩
    intro id member last new same
    obtain ⟨other, there, rfl⟩ := List.mem_map.mp member
    cases List.mem_singleton.mp new
    exact Nat.ne_of_lt (voicing.lt_length there) same

/-- A note that sounds is ended. -/
theorem close (voicing : Voicing alike channel now midi ((note, id) :: sounding) labelled)
    (late : note.start ≤ tick) :
    Voicing alike channel now
      (midi.push ⟨tick, channel, .noteOff note.midiKey, note.transposeTick⟩) sounding
      (labelled ++ [(⟨tick, channel, .noteOff note.midiKey, note.transposeTick⟩, some id)]) := by
  generalize off : (⟨tick, channel, .noteOff note.midiKey, note.transposeTick⟩ : MidiEvent) = event
  obtain ⟨⟨first, velocity, voice, starts, start, transposeTick, here⟩, early⟩ :=
    voicing.sounds _ List.mem_cons_self
  obtain ⟨alone, apart⟩ := List.nodup_cons.mp voicing.apart
  have others {other : Nat} (different : other ≠ id) :
      Labelled.voice (labelled ++ [(event, some id)]) other = labelled.voice other :=
    Labelled.voice_push_other fun same => different (Option.some.inj same).symm
  have ended : Labelled.Couple alike (labelled ++ [(event, some id)]) id := by
    refine ⟨first, event, ?_, ?_⟩
    · rw [Labelled.voice_push_own, voice]
      rfl
    · rw [← off]
      exact ⟨⟨note.midiKey, velocity, starts, rfl⟩, start ▸ late, transposeTick.symm, here⟩
  constructor
  · simp [MidiTrack.push, voicing.messages]
  · refine List.forall_mem_append.mpr ⟨voicing.notes, List.forall_mem_singleton.mpr ?_⟩
    rw [← off]
    rfl
  · rw [List.length_append]
    refine List.forall_mem_append.mpr ⟨fun item member id label => ?_,
      List.forall_mem_singleton.mpr ?_⟩
    · exact Nat.lt_add_right _ (voicing.placed item member id label)
    · rintro _ ⟨⟩
      exact Nat.lt_add_right _ (voicing.lt_length List.mem_cons_self)
  · refine List.forall_mem_append.mpr ⟨fun item member other label => ?_,
      List.forall_mem_singleton.mpr ?_⟩
    · by_cases same : other = id
      · exact .inr (same ▸ ended)
      · exact (voicing.labels item member other label).imp
          (fun member => (List.mem_cons.mp member).resolve_left same)
          fun couple => couple.congr (others same)
    · rintro _ ⟨⟩
      exact .inr ended
  · intro other member
    exact (voicing.sounds other (List.mem_cons_of_mem _ member)).imp_left fun sounds =>
      sounds.congr (others fun same => alone (List.mem_map.mpr ⟨other, member, same⟩))
  · exact apart

theorem grows_close (voicing : Voicing alike channel now midi ((note, id) :: sounding) labelled)
    (event : MidiEvent) : labelled.Grows (labelled ++ [(event, some id)]) := by
  refine Labelled.grows_append (List.forall_mem_singleton.mpr ?_)
  rintro _ ⟨⟩
  obtain ⟨⟨first, velocity, voice, _⟩, _⟩ := voicing.sounds _ List.mem_cons_self
  rw [voice]
  exact Nat.lt_succ_self _

theorem grows_start (voicing : Voicing alike channel now midi sounding labelled)
    (event : MidiEvent) : labelled.Grows (labelled ++ [(event, some labelled.length)]) := by
  refine Labelled.grows_append (List.forall_mem_singleton.mpr ?_)
  rintro _ ⟨⟩
  rw [voicing.voice_of_placed]
  exact Nat.zero_lt_succ _

/-- A note that sounds has one message, so that two messages of a note are a couple. -/
theorem couples_of_pair (voicing : Voicing alike channel now midi sounding labelled)
    {position id : Nat} {event first last : MidiEvent}
    (there : labelled[position]? = some (event, some id))
    (voice : labelled.voice id = [first, last]) : first.Couples alike last := by
  rcases voicing.labels _ (List.mem_of_getElem? there) id rfl with sounding | couple
  · obtain ⟨note, member, rfl⟩ := List.mem_map.mp sounding
    obtain ⟨⟨single, _, alone, _⟩, _⟩ := voicing.sounds note member
    rw [voice] at alone
    cases alone
  · obtain ⟨first', last', pair, couples⟩ := couple
    rw [voice] at pair
    cases pair
    exact couples

/-- The end of a note is moved, to its start at the earliest. -/
theorem moveEnd (voicing : Voicing alike channel now midi sounding labelled) {note : TimedNote}
    {position : Nat} (ends : note.Ends labelled) (known : note.noteOff = some position)
    (late : note.start ≤ tick) :
    Voicing alike channel now ⟨midi.events.modify position (MidiEvent.moveTo tick)⟩ sounding
        (labelled.moveAt position tick) ∧ labelled.Grows (labelled.moveAt position tick) := by
  obtain ⟨event, id, key, first, last, there, message, voice, start⟩ := ends position known
  have others {other : Nat} (different : other ≠ id) :
      (labelled.moveAt position tick).voice other = labelled.voice other :=
    Labelled.voice_moveAt_other there different.symm tick
  have couple := voicing.couples_of_pair there voice
  have moved : (labelled.moveAt position tick).voice id = [first, last.moveTo tick] := by
    refine Labelled.voice_moveAt_own there voice ?_ tick
    obtain ⟨key', velocity, starts, _⟩ := couple.messages
    rw [message, starts]
    exact fun same => by cases same
  have ended : (labelled.moveAt position tick).Couple alike id :=
    ⟨first, last.moveTo tick, moved, couple.messages, start ▸ late, couple.transposeTick,
      couple.channels⟩
  refine ⟨?_, Labelled.keeps_moveAt _ _ _, ?_⟩
  · constructor
    · rw [Labelled.map_fst_moveAt, voicing.messages, Array.toList_modify]
    · intro item member
      obtain ⟨earlier, known, label, message⟩ := Labelled.mem_moveAt member
      rw [label, message]
      exact voicing.notes earlier known
    · intro item member other own
      obtain ⟨earlier, known, label, _⟩ := Labelled.mem_moveAt member
      rw [Labelled.moveAt, List.length_modify]
      exact voicing.placed earlier known other (label ▸ own)
    · intro item member other own
      obtain ⟨earlier, known, label, _⟩ := Labelled.mem_moveAt member
      by_cases same : other = id
      · exact .inr (same ▸ ended)
      · exact (voicing.labels earlier known other (label ▸ own)).imp_right
          fun couple => couple.congr (others same)
    · intro other member
      refine (voicing.sounds other member).imp_left fun sounds => sounds.congr (others ?_)
      rintro rfl
      obtain ⟨single, _, alone, _⟩ := sounds
      rw [voice] at alone
      cases alone
    · exact voicing.apart
  · intro other first' last' pair
    by_cases same : other = id
    · subst same
      rw [voice] at pair
      cases pair
      exact ⟨_, moved⟩
    · exact ⟨last', (others same).trans pair⟩

variable {sheet : Sheet}

theorem endAt (voicing : Voicing alike channel now sheet.midi sounding labelled)
    {note : TimedNote} (ends : note.Ends labelled) (tick : Nat) :
    (note.endAt tick sheet).Ensures fun (note', sheet') => ∃ labelled',
      Voicing alike channel now sheet'.midi sounding labelled' ∧ labelled.Grows labelled' ∧
        note'.Ends labelled' := by
  obtain ⟨key, start, stop, entry, noteOff, tracked⟩ := note
  unfold TimedNote.endAt
  refine (Sheet.setDuration_midi sheet entry _).bind ?_
  rintro ⟨timeline, midi⟩ rfl
  cases noteOff with
  | none => exact Except.ensures_ok ⟨labelled, voicing, .refl labelled, fun _ none => by cases none⟩
  | some position =>
    obtain ⟨moved, grows⟩ := voicing.moveEnd ends rfl (Nat.le_max_right tick start)
    have ticks : (Sheet.setTick ⟨timeline, sheet.midi⟩ (some position) (max tick start)).Ensures
        fun next => next.midi =
          ⟨sheet.midi.events.modify position (MidiEvent.moveTo (max tick start))⟩ := by
      rintro next done
      obtain ⟨midi, set, same⟩ := Except.bind_eq_ok.mp done
      cases same
      unfold MidiTrack.setTick at set
      split at set
      · cases set
        rfl
      · cases set
    refine ticks.bind ?_
    rintro ⟨timeline, midi⟩ rfl
    exact Except.ensures_ok ⟨_, moved, grows, ends.grow grows⟩

theorem endAll (voicing : Voicing alike channel now sheet.midi sounding labelled)
    {notes : List TimedNote} (ends : ∀ note ∈ notes, note.Ends labelled)
    (chosen : TimedNote → Bool) (tick : Nat) :
    (TimedNote.endAll chosen tick sheet notes).Ensures fun (notes', sheet') => ∃ labelled',
      Voicing alike channel now sheet'.midi sounding labelled' ∧ labelled.Grows labelled' ∧
        ∀ note ∈ notes', note.Ends labelled' := by
  induction notes generalizing sheet labelled with
  | nil =>
    exact Except.ensures_ok ⟨labelled, voicing, .refl labelled,
      fun _ member => absurd member List.not_mem_nil⟩
  | cons note rest ih =>
    rw [TimedNote.endAll_cons]
    have first : (note.endIf chosen tick sheet).Ensures fun (note', sheet') => ∃ labelled',
        Voicing alike channel now sheet'.midi sounding labelled' ∧ labelled.Grows labelled' ∧
          note'.Ends labelled' := by
      unfold TimedNote.endIf
      split
      · exact voicing.endAt (ends note List.mem_cons_self) tick
      · exact Except.ensures_ok ⟨labelled, voicing, .refl labelled, ends note List.mem_cons_self⟩
    refine first.bind ?_
    rintro ⟨note', middle⟩ ⟨labelled', voicing', grows, here⟩
    have others := ih voicing' fun other member =>
      (ends other (List.mem_cons_of_mem _ member)).grow grows
    rintro ⟨_, _⟩ done
    obtain ⟨⟨rest', last⟩, ended, same⟩ := Except.map_eq_ok.mp done
    cases same
    obtain ⟨labelled'', voicing'', grows', there⟩ := others _ ended
    exact ⟨labelled'', voicing'', grows.trans grows',
      List.forall_mem_cons.mpr ⟨here.grow grows', there⟩⟩

theorem closeAll {closing : List (OpenNote × Nat)}
    (voicing : Voicing alike channel now sheet.midi (closing ++ sounding) labelled)
    (late : ∀ note ∈ closing, note.1.start ≤ tick) :
    (OpenNote.closeAll true channel tick sheet (closing.map Prod.fst)).Ensures fun sheet' =>
      ∃ labelled', Voicing alike channel now sheet'.midi sounding labelled' ∧
        labelled.Grows labelled' := by
  induction closing generalizing sheet labelled with
  | nil => exact Except.ensures_ok ⟨labelled, voicing, .refl labelled⟩
  | cons note rest ih =>
    obtain ⟨note, id⟩ := note
    have first : (note.close true channel tick sheet).Ensures fun sheet' => ∃ labelled',
        Voicing alike channel now sheet'.midi (rest ++ sounding) labelled' ∧
          labelled.Grows labelled' := by
      unfold OpenNote.close
      refine (Sheet.setDuration_midi sheet note.entry _).bind ?_
      rintro ⟨timeline, midi⟩ rfl
      exact Except.ensures_ok ⟨_, voicing.close (late _ List.mem_cons_self),
        voicing.grows_close _⟩
    refine first.bind ?_
    rintro middle ⟨labelled', voicing', grows⟩
    refine (ih voicing' fun other member => late other (List.mem_cons_of_mem _ member)).mono ?_
    rintro last ⟨labelled'', voicing'', grows'⟩
    exact ⟨labelled'', voicing'', grows.trans grows'⟩

end Voicing
end Sequencer
