import Mathlib.Logic.Basic
import Sequencer.Player.Perform
import Sequencer.Proofs.Score.Couples

/-! The numbers that MIDI has room for. A message holds one number that may come from an instruction
as it is: how strong a note starts, or how far a controller is moved. This strength is kept apart from
the other numbers here. -/
namespace Sequencer

namespace MidiMessage

/-- MIDI has room for all numbers of the message. -/
def Representable : MidiMessage → Prop
  | .noteOn key velocity => key ≤ 127 ∧ velocity ≤ 127
  | .noteOff key => key ≤ 127
  | .control controller value => controller ≤ 127 ∧ value ≤ 127
  | .program number => number ≤ 127
  | .pitchBend bend => -8192 ≤ bend ∧ bend ≤ 8191
  | .masterVolume volume => volume ≤ 0x3FFF
  | .tempo micros => 1 ≤ micros ∧ micros ≤ 0xFFFFFF
  | .timeSignature .. | .marker _ | .endOfTrack => True

/-- The velocity of a note that starts, or the value of a controller. -/
def strength : MidiMessage → UInt8
  | .noteOn _ velocity => velocity
  | .control _ value => value
  | _ => 0

/-- MIDI has room for all numbers of the message beside its strength. -/
def Shaped : MidiMessage → Prop
  | .noteOn key _ => key ≤ 127
  | .control controller _ => controller ≤ 127
  | message => message.Representable

theorem representable_iff {message : MidiMessage} :
    message.Representable ↔ message.Shaped ∧ message.strength ≤ 127 := by
  cases message <;> simp [Representable, Shaped, strength]

end MidiMessage

/-- A message that MIDI has room for, to one of sixteen channels. -/
structure MidiEvent.Representable (event : MidiEvent) : Prop where
  channel : event.channel ≤ 15
  message : event.message.Representable

structure MidiEvent.Shaped (event : MidiEvent) : Prop where
  channel : event.channel ≤ 15
  message : event.message.Shaped

/-- A message with its channel. -/
def MidiEvent.said (event : MidiEvent) : UInt8 × MidiMessage := (event.channel, event.message)

theorem MidiEvent.shaped_of_said {event earlier : MidiEvent} (same : event.said = earlier.said)
    (shaped : earlier.Shaped) : event.Shaped := by
  have channel : event.channel = earlier.channel := congrArg Prod.fst same
  have message : event.message = earlier.message := congrArg Prod.snd same
  exact ⟨channel ▸ shaped.channel, message ▸ shaped.message⟩

theorem MidiEvent.representable_iff {event : MidiEvent} :
    event.Representable ↔ event.Shaped ∧ event.message.strength ≤ 127 := by
  constructor
  · rintro ⟨channel, message⟩
    obtain ⟨shaped, fits⟩ := MidiMessage.representable_iff.mp message
    exact ⟨⟨channel, shaped⟩, fits⟩
  · rintro ⟨⟨channel, shaped⟩, fits⟩
    exact ⟨channel, MidiMessage.representable_iff.mpr ⟨shaped, fits⟩⟩

theorem toNat_clampKey (key : Int) : (clampKey key).toNat = min key.toNat 127 := by
  rw [clampKey, UInt8.toNat_ofNat_of_lt' (show _ < 256 by omega)]

theorem clampKey_le (key : Int) : clampKey key ≤ 127 := by
  rw [UInt8.le_iff_toNat_le, toNat_clampKey]
  exact Nat.min_le_right ..

theorem masterVolume14_le (volume : UInt8) : masterVolume14 volume ≤ 0x3FFF := by
  have bound : min volume.toNat 127 ≤ 127 := Nat.min_le_right ..
  unfold masterVolume14
  omega

theorem microsOfBpm_pos (bpm : Float) : 1 ≤ microsOfBpm bpm := by
  unfold microsOfBpm
  split
  · decide
  · exact Nat.le_max_left ..

theorem microsOfBpm_le (bpm : Float) : microsOfBpm bpm ≤ 0xFFFFFF := by
  unfold microsOfBpm
  split
  · exact Nat.le_refl _
  · exact Nat.max_le.mpr ⟨by decide, Number.Binary64.nearest_le ..⟩

namespace MidiMessage

theorem strength_shift (message : MidiMessage) (semitones : Int) :
    (message.shift semitones).strength = message.strength := by
  cases message <;> rfl

theorem Shaped.shift {message : MidiMessage} (shaped : message.Shaped) (semitones : Int) :
    (message.shift semitones).Shaped := by
  cases message with
  | noteOn | noteOff => exact clampKey_le _
  | _ => exact shaped

end MidiMessage

theorem MidiEvent.Shaped.transpose {event : MidiEvent} (shaped : event.Shaped)
    (transposeAt : Nat → Int) : (event.transpose transposeAt).Shaped := by
  rcases event.transpose_eq transposeAt with same | ⟨tick, _, same⟩
  · rw [same]
    exact shaped
  · rw [same]
    exact ⟨shaped.channel, shaped.message.shift _⟩

theorem MidiEvent.strength_transpose (event : MidiEvent) (transposeAt : Nat → Int) :
    (event.transpose transposeAt).message.strength = event.message.strength := by
  rcases event.transpose_eq transposeAt with same | ⟨tick, _, same⟩
  · rw [same]
  · rw [same]
    exact event.message.strength_shift _

/-- The messages of the track are shaped, and one of them is too strong if it is `loud`. -/
structure MidiTrack.Carries (loud : Prop) (midi : MidiTrack) : Prop where
  shaped : ∀ event ∈ midi.events.toList, event.Shaped
  strength : (∃ event ∈ midi.events.toList, 127 < event.message.strength) ↔ loud

/-- The end of a finished track is on the channel of an end that was written, or on the first. -/
theorem MidiTrack.channel_of_isEnd {midi : MidiTrack} {event : MidiEvent} {bound : UInt8}
    (within : ∀ event ∈ midi.events.toList, event.channel ≤ bound)
    (member : event ∈ midi.finalize.events.toList) (last : isEnd event = true) :
    event.channel ≤ bound := by
  unfold finalize at member
  rcases List.mem_append.mp member with kept | final
  · have other := (List.mem_filter.mp (List.mem_mergeSort.mp kept)).2
    rw [last] at other
    cases other
  · cases List.mem_singleton.mp final
    cases found : midi.events.toList.find? isEnd with
    | none => exact UInt8.zero_le
    | some written => exact within written (List.mem_of_find?_eq_some found)

namespace MidiTrack.Carries

variable {loud : Prop} {midi : MidiTrack}

theorem push (carries : midi.Carries loud) {event : MidiEvent} (shaped : event.Shaped) :
    (midi.push event).Carries (loud ∨ 127 < event.message.strength) := by
  have events : (midi.push event).events.toList = midi.events.toList ++ [event] :=
    Array.toList_push ..
  constructor
  · rw [events]
    exact List.forall_mem_append.mpr ⟨carries.shaped, List.forall_mem_singleton.mpr shaped⟩
  · rw [events, ← carries.strength]
    simp [or_and_right, exists_or]

theorem of_said (carries : midi.Carries loud) {next : MidiTrack}
    (same : next.events.toList.map MidiEvent.said = midi.events.toList.map MidiEvent.said) :
    next.Carries loud := by
  have every (holds : UInt8 × MidiMessage → Prop) :
      (∃ event ∈ next.events.toList, holds event.said) ↔
        ∃ event ∈ midi.events.toList, holds event.said := by
    have words (events : List MidiEvent) : (∃ event ∈ events, holds event.said) ↔
        ∃ said ∈ events.map MidiEvent.said, holds said := by
      simp only [List.mem_map, exists_exists_and_eq_and]
    rw [words, words, same]
  constructor
  · intro event member
    obtain ⟨earlier, there, said⟩ := (every (event.said = ·)).mp ⟨event, member, rfl⟩
    exact MidiEvent.shaped_of_said said (carries.shaped earlier there)
  · exact (every fun said => 127 < said.2.strength).trans carries.strength

theorem setTick (carries : midi.Carries loud) (index tick : Nat) :
    (midi.setTick index tick).Ensures (Carries loud) := by
  intro moved done
  unfold MidiTrack.setTick at done
  split at done
  · cases done
    refine carries.of_said (List.ext_getElem? fun i => ?_)
    rw [Array.toList_modify, List.getElem?_map, List.getElem?_map, List.getElem?_modify]
    cases midi.events.toList[i]? with
    | none => rfl
    | some event => exact congrArg some (by dsimp only; split <;> rfl)
  · cases done

theorem transpose (carries : midi.Carries loud) (transposeAt : Nat → Int) :
    (midi.transpose transposeAt).Carries loud := by
  have events : (midi.transpose transposeAt).events.toList =
      midi.events.toList.map (MidiEvent.transpose transposeAt) := Array.toList_map ..
  constructor
  · rw [events]
    intro event member
    obtain ⟨earlier, there, rfl⟩ := List.mem_map.mp member
    exact (carries.shaped earlier there).transpose transposeAt
  · rw [events]
    simp only [List.mem_map, exists_exists_and_eq_and, MidiEvent.strength_transpose]
    exact carries.strength

theorem finalize (carries : midi.Carries loud) : midi.finalize.Carries loud := by
  have ends {event : MidiEvent} (last : isEnd event = true) :
      event.message = .endOfTrack := of_decide_eq_true last
  constructor
  · intro event member
    by_cases last : isEnd event = true
    · refine ⟨channel_of_isEnd (fun event there => (carries.shaped event there).channel) member last,
        ?_⟩
      rw [ends last]
      trivial
    · exact carries.shaped event ((mem_finalize (Bool.eq_false_iff.mpr last)).mp member)
  · rw [← carries.strength]
    have strong {event : MidiEvent} (strong : 127 < event.message.strength) :
        isEnd event = false := by
      refine Bool.eq_false_iff.mpr fun last => ?_
      rw [ends last] at strong
      cases strong
    constructor
    · rintro ⟨event, member, loud⟩
      exact ⟨event, (mem_finalize (strong loud)).mp member, loud⟩
    · rintro ⟨event, member, loud⟩
      exact ⟨event, (mem_finalize (strong loud)).mpr member, loud⟩

theorem representable_iff (carries : midi.Carries loud) :
    (∀ event ∈ midi.events.toList, event.Representable) ↔ ¬ loud := by
  rw [← carries.strength]
  constructor
  · rintro all ⟨event, member, loud⟩
    exact absurd (MidiEvent.representable_iff.mp (all event member)).2 (UInt8.not_le.mpr loud)
  · intro quiet event member
    refine MidiEvent.representable_iff.mpr ⟨carries.shaped event member, ?_⟩
    exact UInt8.not_lt.mp fun loud => quiet ⟨event, member, loud⟩

end MidiTrack.Carries
end Sequencer
