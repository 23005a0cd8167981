import Sequencer.Fault
import Sequencer.Tick

/-! MIDI messages with their ticks, in tracks. A track is written in the order in which a
pass produces its messages, and sorted at the end. -/
namespace Sequencer

/-- A message without its channel. -/
inductive MidiMessage
  | noteOn (key velocity : UInt8)
  | noteOff (key : UInt8)
  | control (controller value : UInt8)
  | program (number : UInt8)
  | pitchBend (bend : Int)
  | masterVolume (volume : Nat)
  | tempo (micros : Nat)
  | timeSignature (numerator denominatorPower clocksPerClick thirtySecondsPerQuarter : UInt8)
  | marker (text : String)
  | endOfTrack
deriving DecidableEq, Repr

def MidiMessage.text : MidiMessage → String
  | .noteOn key velocity => s!"NoteOn {key} vel {velocity}"
  | .noteOff key => s!"NoteOff {key}"
  | .control controller value => s!"CC{controller} {value}"
  | .program number => s!"Program {number}"
  | .pitchBend bend => s!"PitchBend {bend}"
  | .masterVolume volume => s!"MasterVolume {volume}"
  | .tempo micros => s!"Tempo {micros}us"
  | .timeSignature numerator denominatorPower _ _ =>
    s!"TimeSignature {numerator}/{Nat.pow 2 denominatorPower.toNat}"
  | .marker text => "Marker " ++ Text.quoted text
  | .endOfTrack => "EndOfTrack"

/-- A key that an instrument has: the nearest of 0 to 127. -/
def clampKey (key : Int) : UInt8 := UInt8.ofNat (min key.toNat 127)

/-- A master volume of 0 to 127 as 14 bits. -/
def masterVolume14 (volume : UInt8) : Nat := min volume.toNat 127 * 0x3FFF / 127

/-- A message with its tick and channel. A note that follows the transpose of all tracks
carries the tick whose transpose applies, the same for its start and its end. -/
structure MidiEvent where
  tick : Nat
  channel : UInt8
  message : MidiMessage
  transposeTick : Option Nat := none
deriving DecidableEq, Repr

def MidiMessage.shift (message : MidiMessage) (semitones : Int) : MidiMessage :=
  match message with
  | .noteOn key velocity => .noteOn (clampKey (key.toNat + semitones)) velocity
  | .noteOff key => .noteOff (clampKey (key.toNat + semitones))
  | other => other

def MidiEvent.transpose (transposeAt : Nat → Int) (event : MidiEvent) : MidiEvent :=
  match event.transposeTick with
  | none => event
  | some tick =>
    let semitones := transposeAt tick
    if semitones = 0 then event
    else { event with message := event.message.shift semitones }

structure MidiTrack where
  events : Array MidiEvent := #[]
deriving DecidableEq, Repr

namespace MidiTrack

def size (track : MidiTrack) : Nat := track.events.size

def push (track : MidiTrack) (event : MidiEvent) : MidiTrack := ⟨track.events.push event⟩

def setTick (track : MidiTrack) (index : Nat) (tick : Nat) : Except Fault MidiTrack :=
  if index < track.events.size then
    .ok ⟨track.events.modify index fun (event : MidiEvent) => { event with tick }⟩
  else .error .outOfBounds

def transpose (transposeAt : Nat → Int) (track : MidiTrack) : MidiTrack :=
  ⟨track.events.map (MidiEvent.transpose transposeAt)⟩

def isEnd (event : MidiEvent) : Bool := event.message = .endOfTrack

def length (track : MidiTrack) : Nat :=
  track.events.foldl (fun tick event => max tick event.tick) 0

/-- Sorts by tick, events of one tick keeping their order, and puts a single end after all:
at the tick and channel of the first end that was written, or later if there are later
events. -/
def finalize (track : MidiTrack) : MidiTrack :=
  let written := track.events.toList.find? isEnd
  let kept := (track.events.toList.filter fun event => !isEnd event).mergeSort
    fun a b => a.tick ≤ b.tick
  let lastTick := (kept.getLast?).elim 0 MidiEvent.tick
  let (tick, channel) := written.elim (lastTick, 0) fun event => (event.tick, event.channel)
  let last : MidiEvent := ⟨max tick lastTick, channel, .endOfTrack, none⟩
  ⟨(kept ++ [last]).toArray⟩

end MidiTrack

/-- What a pass plays: one track for tempo, metre and master volume, and one for each track
of the sequence. -/
structure MidiOutput where
  ticksPerQuarter : UInt16
  conductor : MidiTrack
  tracks : List MidiTrack

def MidiOutput.eventCount (output : MidiOutput) : Nat :=
  output.tracks.foldl (fun count track => count + track.size) output.conductor.size

namespace Controller

def bankHigh : UInt8 := 0
def modulation : UInt8 := 1
def breath : UInt8 := 2
def portamentoTime : UInt8 := 5
def dataEntryHigh : UInt8 := 6
def volume : UInt8 := 7
def pan : UInt8 := 10
def expression : UInt8 := 11
def bankLow : UInt8 := 32
def dataEntryLow : UInt8 := 38
def sustain : UInt8 := 64
def portamento : UInt8 := 65
def reverb : UInt8 := 91
def chorus : UInt8 := 93
def parameterLow : UInt8 := 100
def parameterHigh : UInt8 := 101

end Controller
end Sequencer
