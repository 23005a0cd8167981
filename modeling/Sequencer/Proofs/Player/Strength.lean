import Sequencer.Proofs.Bytes
import Sequencer.Proofs.Midi.Range
import Sequencer.Proofs.Player.Aside
import Sequencer.Proofs.Player.Sound

/-! How strong the messages of a player are. All numbers of a message are put into the range that MIDI
has room for before the message is written, except for one: the strength that an instruction itself
gives. A track is loud once an instruction has given it one that is too high. -/
namespace Sequencer

/-- The velocity or the level that an instruction gives. -/
def EventKind.strength : EventKind → UInt8
  | .noteOn _ velocity | .note _ velocity _ => velocity
  | .level _ value => value
  | _ => 0

theorem Dial.controller_le (dial : Dial) : dial.controller ≤ 127 := by cases dial <;> decide

/-- An instruction without notes writes messages that MIDI has room for, unless it is a level that
itself is too high. -/
theorem EventKind.writesOnly_representable (kind : EventKind) (fits : kind.strength ≤ 127) :
    kind.WritesOnly MidiMessage.Representable := by
  have masked (n : UInt8) : n &&& 0x7F ≤ 127 := UInt8.and_le_right
  cases kind with
  | level dial value => exact ⟨dial.controller_le, fits⟩
  | slide dial target duration => exact fun value small => ⟨dial.controller_le, UInt8.ofNat_le small⟩
  | program number => exact List.forall_mem_singleton.mpr (masked number)
  | bank number =>
    refine List.forall_mem_cons.mpr ⟨⟨by decide, UInt16.and_seven_bits_le _⟩, ?_⟩
    exact List.forall_mem_singleton.mpr ⟨by decide, UInt16.and_seven_bits_le _⟩
  | pitchBend bend =>
    refine List.forall_mem_singleton.mpr ⟨Int.le_max_left .., ?_⟩
    exact Int.max_le.mpr ⟨by decide, Int.min_le_left ..⟩
  | bendRange semitones cents =>
    refine List.forall_mem_cons.mpr ⟨⟨by decide, by decide⟩, ?_⟩
    refine List.forall_mem_cons.mpr ⟨⟨by decide, by decide⟩, ?_⟩
    refine List.forall_mem_cons.mpr ⟨⟨by decide, masked _⟩, ?_⟩
    exact List.forall_mem_singleton.mpr ⟨by decide, masked _⟩
  | modulation | breath | portamentoTime | reverb | chorus =>
    exact List.forall_mem_singleton.mpr ⟨by decide, masked _⟩
  | sustain on | portamento on =>
    refine List.forall_mem_singleton.mpr ⟨by decide, ?_⟩
    cases on <;> decide
  | controller number value => exact List.forall_mem_singleton.mpr ⟨masked _, masked _⟩
  | marker text => exact List.forall_mem_singleton.mpr trivial
  | _ => exact fun _ member => absurd member List.not_mem_nil

variable {loud loud' : Prop} {sheet : Sheet} {channel : UInt8}

namespace MidiTrack.Carries

variable {midi : MidiTrack}

theorem of_iff (carries : midi.Carries loud) (same : loud ↔ loud') : midi.Carries loud' :=
  ⟨carries.shaped, carries.strength.trans same⟩

/-- A message that MIDI has room for makes no track loud. -/
theorem pushQuiet (carries : midi.Carries loud) {event : MidiEvent} (fits : event.Representable) :
    (midi.push event).Carries loud := by
  obtain ⟨shaped, quiet⟩ := MidiEvent.representable_iff.mp fits
  exact (carries.push shaped).of_iff (or_iff_left (UInt8.not_lt.mpr quiet))

end MidiTrack.Carries

theorem OpenNote.closeAll_carries (small : channel ≤ 15) {notes : List OpenNote}
    (keys : ∀ note ∈ notes, note.midiKey ≤ 127) (tick : Nat) (carries : sheet.midi.Carries loud) :
    (closeAll true channel tick sheet notes).Ensures fun next => next.midi.Carries loud := by
  induction notes generalizing sheet with
  | nil => exact Except.ensures_ok carries
  | cons note rest ih =>
    obtain ⟨first, others⟩ := List.forall_mem_cons.mp keys
    have closed : (note.close true channel tick sheet).Ensures fun next =>
        next.midi.Carries loud := by
      unfold close
      refine (Sheet.setDuration_midi sheet note.entry _).bind ?_
      rintro ⟨timeline, midi⟩ rfl
      exact Except.ensures_ok (carries.pushQuiet ⟨small, first⟩)
    exact closed.bind fun next carries => ih others carries

theorem Sheet.setTick_carries (carries : sheet.midi.Carries loud) (position : Option Nat)
    (tick : Nat) : (sheet.setTick position tick).Ensures fun next => next.midi.Carries loud := by
  cases position with
  | none => exact Except.ensures_ok carries
  | some index =>
    rintro next done
    obtain ⟨midi, moved, same⟩ := Except.bind_eq_ok.mp done
    cases same
    exact carries.setTick index tick midi moved

theorem TimedNote.endAll_carries (chosen : TimedNote → Bool) (tick : Nat)
    (carries : sheet.midi.Carries loud) (notes : List TimedNote) :
    (endAll chosen tick sheet notes).Ensures fun written => written.2.midi.Carries loud := by
  induction notes generalizing sheet with
  | nil => exact Except.ensures_ok carries
  | cons note rest ih =>
    have first : (note.endIf chosen tick sheet).Ensures fun written =>
        written.2.midi.Carries loud := by
      unfold endIf
      split
      · unfold endAt
        refine (Sheet.setDuration_midi sheet note.entry _).bind fun timed same => ?_
        refine (Sheet.setTick_carries (same ▸ carries) note.noteOff _).bind fun next carries => ?_
        exact Except.ensures_ok carries
      · exact Except.ensures_ok carries
    rw [endAll_cons]
    refine first.bind fun middle carries => ?_
    rintro ⟨notes, last⟩ done
    obtain ⟨ended, others, same⟩ := Except.map_eq_ok.mp done
    cases same
    exact ih carries ended others

namespace Player

/-- The messages of a player that writes any, and the keys of the notes that it has still to end. -/
structure Carries (loud : Prop) (player : Player) : Prop where
  writing : player.setting.pass = .midi
  channel : player.track.channel ≤ 15
  keys : ∀ note ∈ player.track.openNotes, note.midiKey ≤ 127
  midi : player.track.midi.Carries loud

variable {player next : Player}

namespace Carries

theorem writes (carries : player.Carries loud) : player.writing = true :=
  decide_eq_true carries.writing

theorem of_iff (carries : player.Carries loud) (same : loud ↔ loud') : player.Carries loud' :=
  ⟨carries.writing, carries.channel, carries.keys, carries.midi.of_iff same⟩

theorem emit (carries : player.Carries loud) (message : MidiMessage) (shaped : message.Shaped)
    (tick : Nat) (transposeTick : Option Nat) :
    (player.emit tick message transposeTick).Carries (loud ∨ 127 < message.strength) := by
  rw [emit_of_writing _ carries.writes]
  let event : MidiEvent := ⟨tick, player.track.channel, message, transposeTick⟩
  have shaped : event.Shaped := ⟨carries.channel, shaped⟩
  exact ⟨carries.writing, carries.channel, carries.keys, carries.midi.push shaped⟩

theorem emitQuiet (carries : player.Carries loud) (message : MidiMessage)
    (fits : message.Representable) (tick : Nat) (transposeTick : Option Nat) :
    (player.emit tick message transposeTick).Carries loud := by
  obtain ⟨shaped, quiet⟩ := MidiMessage.representable_iff.mp fits
  exact (carries.emit message shaped tick transposeTick).of_iff (or_iff_left (UInt8.not_lt.mpr quiet))

theorem aboutSound (loud : Prop) : AboutSound MidiMessage.Representable (Carries loud) where
  same := by
    intro player next carries sound
    have midi : next.track.midi = player.track.midi := congrArg Sheet.midi sound.sheet
    exact ⟨sound.setting ▸ carries.writing, sound.channel ▸ carries.channel,
      sound.openNotes ▸ carries.keys, midi ▸ carries.midi⟩
  emit := fun carries tick message fits => carries.emitQuiet message fits tick none

theorem withOpen (carries : player.Carries loud) {notes : List OpenNote}
    (keys : ∀ note ∈ notes, note.midiKey ≤ 127) : (player.withOpen notes).Carries loud :=
  ⟨carries.writing, carries.channel, keys, carries.midi⟩

theorem withTimed (carries : player.Carries loud) (notes : List TimedNote) :
    (player.withTimed notes).Carries loud :=
  ⟨carries.writing, carries.channel, carries.keys, carries.midi⟩

theorem endNotes (carries : player.Carries loud) {closing : List OpenNote}
    (keys : ∀ note ∈ closing, note.midiKey ≤ 127) (chosen : TimedNote → Bool) (tick : Nat) :
    (player.endNotes closing chosen tick).Ensures (Carries loud) := by
  unfold Player.endNotes
  dsimp only
  rw [carries.writes]
  refine (OpenNote.closeAll_carries carries.channel keys tick carries.midi).bind fun sheet midi => ?_
  refine (TimedNote.endAll_carries chosen tick midi _).bind fun (notes, sheet) midi => ?_
  exact Except.ensures_ok ⟨carries.writing, carries.channel, carries.keys, midi⟩

theorem cutKey (carries : player.Carries loud) (key : UInt8) :
    (player.cutKey key).Ensures (Carries loud) := by
  rw [cutKey_eq]
  have kept (keeps : OpenNote → Bool) :
      ∀ note ∈ player.track.openNotes.filter keeps, note.midiKey ≤ 127 :=
    fun note member => carries.keys note (List.mem_filter.mp member).1
  exact (carries.withOpen (kept _)).endNotes (kept _) _ _

theorem soundingKey_le (player : Player) (key : UInt8) :
    (player.track.soundingKey key).1 ≤ 127 := by
  unfold Track.soundingKey
  split
  · rename_i drum _
    change (if drum ≤ 127 then drum else 127) ≤ 127
    split
    · assumption
    · exact UInt8.le_refl _
  · exact clampKey_le _

theorem sounding (carries : player.Carries loud) (key velocity : UInt8) (entry : Option Nat) :
    (player.sounding key velocity entry).Carries (loud ∨ 127 < velocity) := by
  have small := soundingKey_le player key
  unfold Player.sounding
  dsimp only
  generalize (player.track.soundingKey key).1 = midiKey at small ⊢
  generalize (player.track.soundingKey key).2 = transposeTick
  have started := carries.emit (.noteOn midiKey velocity) small player.track.time
    transposeTick
  refine started.withOpen (List.forall_mem_append.mpr ⟨started.keys, ?_⟩)
  exact List.forall_mem_singleton.mpr small

theorem soundingFor (carries : player.Carries loud) (key velocity : UInt8) (duration : Nat)
    (entry : Option Nat) :
    (player.soundingFor key velocity duration entry).Carries (loud ∨ 127 < velocity) := by
  have small := soundingKey_le player key
  unfold Player.soundingFor
  dsimp only
  generalize (player.track.soundingKey key).1 = midiKey at small ⊢
  generalize (player.track.soundingKey key).2 = transposeTick
  have started := carries.emit (.noteOn midiKey velocity) small player.track.time
    transposeTick
  exact (started.emitQuiet (.noteOff midiKey) small _ transposeTick).withTimed _

theorem startNote (carries : player.Carries loud) (key velocity : UInt8) (entry : Option Nat) :
    (player.startNote key velocity entry).Ensures (Carries (loud ∨ 127 < velocity)) := by
  rw [startNote_eq]
  rintro last done
  obtain ⟨cut, ended, rfl⟩ := Except.map_eq_ok.mp done
  exact (carries.cutKey key cut ended).sounding key velocity entry

theorem startTimedNote (carries : player.Carries loud) (key velocity : UInt8) (duration : Nat)
    (entry : Option Nat) : (player.startTimedNote key velocity duration entry).Ensures
      (Carries (loud ∨ 127 < velocity)) := by
  rw [startTimedNote_eq]
  rintro last done
  obtain ⟨cut, ended, rfl⟩ := Except.map_eq_ok.mp done
  exact (carries.cutKey key cut ended).soundingFor key velocity duration entry

theorem endNote (carries : player.Carries loud) (key : UInt8) :
    (player.endNote key).Ensures (Carries loud) := by
  unfold Player.endNote
  split
  · exact Except.ensures_ok carries
  · rename_i note found
    have kept : ∀ note ∈ player.track.openNotes.eraseP (fun note => note.key = key),
        note.midiKey ≤ 127 := fun note member => carries.keys note (List.mem_of_mem_eraseP member)
    refine (carries.withOpen kept).endNotes ?_ _ _
    exact List.forall_mem_singleton.mpr (carries.keys note (List.mem_of_find?_eq_some found))

theorem endTimed (carries : player.Carries loud) (chosen : TimedNote → Bool) (tick : Nat) :
    (player.endNotes [] chosen tick).Ensures (Carries loud) :=
  carries.endNotes (fun _ member => absurd member List.not_mem_nil) chosen tick

theorem limitNotes (carries : player.Carries loud) (tick : Nat) :
    (player.limitNotes tick).Ensures (Carries loud) := by
  rw [limitNotes_eq]
  rintro last done
  obtain ⟨ended, limited, rfl⟩ := Except.map_eq_ok.mp done
  exact (carries.endTimed _ tick ended limited).withTimed _

theorem finish (carries : player.Carries loud) : player.finish.Ensures (Carries loud) := by
  have none : ∀ note ∈ ([] : List OpenNote), note.midiKey ≤ 127 :=
    fun _ member => absurd member List.not_mem_nil
  refine Except.Ensures.bind ((carries.withOpen none).endNotes carries.keys (fun _ => false)
    player.track.time) fun closed carries => ?_
  have ended := carries.emitQuiet .endOfTrack trivial player.track.time Option.none
  exact Except.ensures_ok ⟨ended.writing, ended.channel, ended.keys, ended.midi⟩

/-- Ramps that move levels make no track loud. -/
theorem moveDials (carries : player.Carries loud)
    (levels : ∀ dial, ∀ ramp ∈ (player.track.dials.get dial).ramp, ramp.scale = .level)
    (tick : Nat) : (player.moveDials tick).Carries loud := by
  refine (aboutSound loud).messages.moveDials carries tick fun dial ramp moves => ?_
  exact EventKind.writesOnly_representable (.slide dial 0 0) UInt8.zero_le _
    (Ramp.valueAt_le (levels dial ramp moves) tick)

theorem wait (carries : player.Carries loud) (ticks : Nat) : (player.wait ticks).Carries loud :=
  ⟨carries.writing, carries.channel, carries.keys, carries.midi⟩

theorem setLevel (carries : player.Carries loud) (dial : Dial) (value : UInt8) :
    (player.setLevel dial value).Carries (loud ∨ 127 < value) := by
  have set := (aboutSound loud).messages.setDial carries dial ⟨value, none⟩
  exact set.emit (.control dial.controller value) dial.controller_le player.now none

/-- A track is loud once it performs an instruction whose strength is too high. -/
theorem perform (carries : player.Carries loud) (kind : EventKind) (entry : Option Nat) :
    (player.perform kind entry).Ensures fun (_, next) =>
      next.Carries (loud ∨ 127 < kind.strength) := by
  have goes {loud : Prop} {x : Except Fault Player} (ensures : x.Ensures (Carries loud)) :
      (x >>= goOn).Ensures fun (_, next) => next.Carries loud :=
    ensures.bind fun _ carries => Except.ensures_ok carries
  have quiet {kind : EventKind} (silent : kind.strength = 0) {x : Except Fault (Bool × Player)}
      (ensures : x.Ensures fun (_, next) => next.Carries loud) :
      x.Ensures fun (_, next) => next.Carries (loud ∨ 127 < kind.strength) := by
    refine ensures.mono fun _ carries => carries.of_iff ?_
    rw [silent]
    exact (or_iff_left (by decide)).symm
  cases kind with
  | noteOn key velocity => exact goes (carries.startNote key velocity entry)
  | note key velocity duration => exact goes (carries.startTimedNote key velocity duration entry)
  | level dial value => exact Except.ensures_ok (carries.setLevel dial value)
  | noteOff key => exact quiet rfl (goes (carries.endNote key))
  | rest ticks => exact quiet rfl (Except.ensures_ok (carries.wait ticks))
  | hold ticks =>
    refine quiet rfl (Except.Ensures.bind (carries.endTimed TimedNote.tracked _) ?_)
    exact fun held carries => Except.ensures_ok (carries.wait ticks)
  | _ =>
    refine quiet rfl ?_
    rintro ⟨more, next⟩ done
    exact (aboutSound loud).messages.perform carries rfl
      (EventKind.writesOnly_representable _ UInt8.zero_le) (EventKind.conductsOnly_any _) done

end Carries
end Player
end Sequencer
