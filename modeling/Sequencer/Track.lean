import Sequencer.Ramp
import Sequencer.Track.Guard
import Sequencer.Track.Notes

/-! A track while it is played: its registers, its place in the data, and its MIDI. -/
namespace Sequencer

structure DialState where
  level : UInt8
  ramp : Option Ramp := none

structure Dials where
  volume : DialState
  expression : DialState
  pan : DialState

namespace Dials

def get (dials : Dials) : Dial → DialState
  | .volume => dials.volume
  | .expression => dials.expression
  | .pan => dials.pan

def set (dials : Dials) (dial : Dial) (state : DialState) : Dials :=
  match dial with
  | .volume => { dials with volume := state }
  | .expression => { dials with expression := state }
  | .pan => { dials with pan := state }

def rest (dials : Dials) : Dials :=
  ⟨⟨dials.volume.level, none⟩, ⟨dials.expression.level, none⟩, ⟨dials.pan.level, none⟩⟩

def nextChange (dials : Dials) (tick : Nat) : Option Nat :=
  [dials.volume, dials.expression, dials.pan].filterMap
    (fun state => state.ramp.bind fun ramp => ramp.nextChange tick) |>.min?

end Dials

def Dial.controller : Dial → UInt8
  | .volume => Controller.volume
  | .expression => Controller.expression
  | .pan => Controller.pan

structure Header where
  ticksPerQuarter : UInt16 := 48
  tempo : Float := 120.0
  /-- Whether the tracks keep time together, tick by tick. -/
  tickSync : Bool := false
  volume : UInt8 := 100
  expression : UInt8 := 127
  pan : UInt8 := 64
  program : Option UInt8 := none
  name : String := ""

structure Track where
  index : Nat
  startOffset : Nat
  startChannel : UInt8
  channel : UInt8
  cursor : Cursor
  time : Nat := 0
  active : Bool := true
  steps : Nat := 0
  totalTicks : Nat := 0
  /-- Trips and length of the last pass that measured the length. -/
  measuredTrips : Nat := 0
  measuredTicks : Nat := 0
  guard : Guard := {}
  dials : Dials := ⟨⟨100, none⟩, ⟨127, none⟩, ⟨64, none⟩⟩
  octave : UInt8 := 4
  transpose : Int8 := 0
  keyCorrection : Int8 := 0
  /-- The key that all notes sound as, if one is set. -/
  drum : Option UInt8 := none
  timedNotes : List TimedNote := []
  openNotes : List OpenNote := []
  midi : MidiTrack := {}

namespace Track

/-- A track that starts at an offset. MIDI has sixteen channels. -/
def starting (index offset : Nat) (channel : UInt8) : Track :=
  { index, startOffset := offset, startChannel := channel &&& 0x0F, channel := channel &&& 0x0F,
    cursor := ⟨offset, 0, [], []⟩ }

/-- The track at its start again. Only what the file says and what was measured stay. -/
def reset (header : Header) (track : Track) : Track :=
  { index := track.index, startOffset := track.startOffset
    startChannel := track.startChannel, channel := track.startChannel
    cursor := ⟨track.startOffset, 0, [], []⟩
    measuredTrips := track.measuredTrips, measuredTicks := track.measuredTicks
    dials := ⟨⟨header.volume, none⟩, ⟨header.expression, none⟩, ⟨header.pan, none⟩⟩ }

/-- The key of a semitone in the track's octave. Octave 4 begins at key 60. -/
def octaveKey (track : Track) (semitone : UInt8) : UInt8 :=
  clampKey ((track.octave.toNat + 1) * 12 + semitone.toNat)

/-- The key that a note sounds as, and the tick whose transpose of all tracks applies to it.
A drum key is not transposed. -/
def soundingKey (track : Track) (key : UInt8) : UInt8 × Option Nat :=
  match track.drum with
  | some drum => (min drum 127, none)
  | none =>
    (clampKey (key.toNat + track.transpose.toInt + track.keyCorrection.toInt), some track.time)

end Track
end Sequencer
