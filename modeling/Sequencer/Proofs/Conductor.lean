import Sequencer.Proofs.Midi.Range
import Sequencer.Proofs.NoteCouples
import Sequencer.Proofs.Player.Sound

/-! What the conductor has: tempo, metre and master volume. Whatever a decoder orders, MIDI has room
for it. -/
namespace Sequencer

variable {setting : Setting} {player next : Player}

/-- All that instructions have for the conductor is put into the range of MIDI. -/
theorem EventKind.conductsOnly_representable (kind : EventKind) :
    kind.ConductsOnly MidiMessage.Representable := by
  cases kind with
  | masterLevel value => exact masterVolume14_le value
  | masterSlide target duration => exact masterVolume14_le
  | tempo bpm => exact ⟨microsOfBpm_pos bpm, microsOfBpm_le bpm⟩
  | tempoSlide target duration => exact fun bpm => ⟨microsOfBpm_pos bpm, microsOfBpm_le bpm⟩
  | _ => trivial

/-- MIDI has room for what the conductor has. -/
def Shared.InRange (shared : Shared) : Prop :=
  ∀ event ∈ shared.conductor.events.toList, event.Representable

theorem Shared.InRange.push {shared : Shared} (inRange : shared.InRange) (tick : Nat)
    (message : MidiMessage) (fits : message.Representable) :
    Shared.InRange { shared with
      conductor := shared.conductor.push ⟨tick, 0, message, none⟩ } := by
  intro event member
  change event ∈ (shared.conductor.events.push _).toList at member
  rw [Array.toList_push] at member
  rcases List.mem_append.mp member with earlier | new
  · exact inRange event earlier
  · cases List.mem_singleton.mp new
    exact ⟨UInt8.zero_le, fits⟩

namespace Player

/-- A player of the setting that plays on, and that has told the conductor nothing wrong. -/
structure InRange (setting : Setting) (player : Player) : Prop where
  same : player.setting = setting
  active : player.track.active = true
  shared : player.shared.InRange

namespace InRange

theorem of_same (inRange : player.InRange setting) (same : next.setting = player.setting)
    (active : next.track.active = player.track.active)
    (conductor : next.shared.conductor = player.shared.conductor) : next.InRange setting where
  same := same.trans inRange.same
  active := active.trans inRange.active
  shared := by
    unfold Shared.InRange
    rw [conductor]
    exact inRange.shared

theorem emit (inRange : player.InRange setting) (tick : Nat) (message : MidiMessage)
    (transposeTick : Option Nat) : (player.emit tick message transposeTick).InRange setting := by
  unfold Player.emit
  split
  · exact inRange.of_same rfl rfl rfl
  · exact inRange

theorem aboutMessages (setting : Setting) :
    AboutMessages (fun _ => True) MidiMessage.Representable (InRange setting) where
  same := fun inRange sound conductor => inRange.of_same sound.setting sound.active conductor
  emit := fun inRange tick message _ => inRange.emit tick message none
  conduct := fun inRange tick message fits => by
    unfold Player.conduct
    split
    · exact ⟨inRange.same, inRange.active, inRange.shared.push tick message fits⟩
    · exact inRange

theorem endNotes (inRange : player.InRange setting) (closing : List OpenNote)
    (chosen : TimedNote → Bool) (tick : Nat) :
    (player.endNotes closing chosen tick).Ensures (InRange setting) := by
  intro next done
  obtain ⟨sheet, _, done⟩ := Except.bind_eq_ok.mp done
  obtain ⟨⟨notes, sheet⟩, _, same⟩ := Except.bind_eq_ok.mp done
  cases same
  exact inRange.of_same rfl rfl rfl

theorem withOpen (inRange : player.InRange setting) (notes : List OpenNote) :
    (player.withOpen notes).InRange setting := inRange.of_same rfl rfl rfl

theorem withTimed (inRange : player.InRange setting) (notes : List TimedNote) :
    (player.withTimed notes).InRange setting := inRange.of_same rfl rfl rfl

theorem cutKey (inRange : player.InRange setting) (key : UInt8) :
    (player.cutKey key).Ensures (InRange setting) := by
  rw [cutKey_eq]
  exact (inRange.withOpen _).endNotes _ _ _

theorem startNote (inRange : player.InRange setting) (key velocity : UInt8)
    (entry : Option Nat) : (player.startNote key velocity entry).Ensures (InRange setting) := by
  rw [startNote_eq]
  rintro last done
  obtain ⟨cut, ended, rfl⟩ := Except.map_eq_ok.mp done
  exact ((inRange.cutKey key cut ended).emit ..).withOpen _

theorem startTimedNote (inRange : player.InRange setting) (key velocity : UInt8)
    (duration : Nat) (entry : Option Nat) :
    (player.startTimedNote key velocity duration entry).Ensures (InRange setting) := by
  rw [startTimedNote_eq]
  rintro last done
  obtain ⟨cut, ended, rfl⟩ := Except.map_eq_ok.mp done
  exact (((inRange.cutKey key cut ended).emit ..).emit ..).withTimed _

theorem endNote (inRange : player.InRange setting) (key : UInt8) :
    (player.endNote key).Ensures (InRange setting) := by
  unfold Player.endNote
  split
  · exact Except.ensures_ok inRange
  · exact (inRange.withOpen _).endNotes _ _ _

theorem limitNotes (inRange : player.InRange setting) (tick : Nat) :
    (player.limitNotes tick).Ensures (InRange setting) := by
  rw [limitNotes_eq]
  rintro last done
  obtain ⟨ended, limited, rfl⟩ := Except.map_eq_ok.mp done
  exact (inRange.endNotes _ _ tick ended limited).withTimed _

theorem perform (inRange : player.InRange setting) (kind : EventKind) (entry : Option Nat) :
    (player.perform kind entry).Ensures fun (_, next) => next.InRange setting := by
  have goes {x : Except Fault Player} (ensures : x.Ensures (InRange setting)) :
      (x >>= goOn).Ensures fun (_, next) => next.InRange setting :=
    ensures.bind fun _ inRange => Except.ensures_ok inRange
  cases kind with
  | noteOn key velocity => exact goes (inRange.startNote key velocity entry)
  | noteOff key => exact goes (inRange.endNote key)
  | note key velocity duration => exact goes (inRange.startTimedNote key velocity duration entry)
  | rest ticks => exact Except.ensures_ok (inRange.of_same rfl rfl rfl)
  | hold ticks =>
    refine Except.Ensures.bind (inRange.endNotes [] TimedNote.tracked _) fun held inRange => ?_
    exact Except.ensures_ok (inRange.of_same rfl rfl rfl)
  | _ =>
    rintro ⟨more, next⟩ done
    refine (aboutMessages setting).perform inRange rfl ?_
      (EventKind.conductsOnly_representable _) done
    simp [EventKind.WritesOnly]

theorem apply (inRange : player.InRange setting) (operation : Operation) :
    (player.apply operation).Ensures fun (_, next) => next.InRange setting := by
  have goes {x : Except Fault Player} (ensures : x.Ensures (InRange setting)) :
      (x >>= goOn).Ensures fun (_, next) => next.InRange setting :=
    ensures.bind fun _ inRange => Except.ensures_ok inRange
  cases operation with
  | moveTo offset => exact Except.ensures_ok (inRange.of_same rfl rfl rfl)
  | useChannel channel => exact Except.ensures_ok (inRange.of_same rfl rfl rfl)
  | record span kind =>
    have recorded : (player.record span kind).2.InRange setting := inRange.of_same rfl rfl rfl
    exact recorded.perform kind _
  | play kind => exact inRange.perform kind none
  | extendNotes tick => exact goes (inRange.endNotes [] TimedNote.tracked tick)
  | limitNotes tick => exact goes (inRange.limitNotes tick)

theorem finish (inRange : player.InRange setting) :
    player.finish.Ensures fun last => last.track.active = false ∧ last.shared.InRange := by
  refine Except.Ensures.bind ((inRange.withOpen []).endNotes player.track.openNotes
    (fun _ => false) player.track.time) fun closed inRange => ?_
  exact Except.ensures_ok ⟨rfl, (inRange.emit player.track.time .endOfTrack none).shared⟩

end InRange
end Player

theorem Shared.InRange.moveMaster {shared : Shared} (inRange : shared.InRange)
    (writing : Bool) (tick : Nat) : (Stage.moveMaster writing tick shared).InRange := by
  unfold Stage.moveMaster
  split
  · exact inRange
  · rename_i ramp _
    have moved : (if ramp.changesAt tick then
        let value := UInt8.ofNat (ramp.valueAt tick)
        let shared := { shared with masterVolume := value }
        if writing then
          { shared with
            conductor := shared.conductor.push
              ⟨tick, 0, .masterVolume (masterVolume14 value), none⟩ }
        else shared
      else shared).InRange := by
      split
      · dsimp only
        split
        · exact inRange.push tick (.masterVolume _) (masterVolume14_le _)
        · exact inRange
      · exact inRange
    dsimp only
    split
    · exact moved
    · exact moved

/-- A decoder may order what it likes. -/
theorem Player.upkeep_inRange (setting : Setting) : Upkeep setting (fun _ _ => True)
    (fun track => track.active = true) (fun track => track.active = false) Shared.InRange where
  live := id
  rests := id
  paced := fun _ _ active => active
  applies := by
    intro track shared operation active inRange _
    refine (InRange.apply ⟨rfl, active, inRange⟩ operation).mono ?_
    exact fun _ inRange => ⟨inRange.same, inRange.active, inRange.shared⟩
  glides := by
    intro track shared tick active inRange
    have moved : (Player.moveDials ⟨setting, track, shared⟩ tick).InRange setting :=
      (InRange.aboutMessages setting).moveDials ⟨rfl, active, inRange⟩ tick fun _ _ _ => trivial
    exact ⟨moved.active, moved.shared⟩
  finishes := fun active inRange => InRange.finish ⟨rfl, active, inRange⟩
  master := fun writing tick inRange => inRange.moveMaster writing tick

end Sequencer
