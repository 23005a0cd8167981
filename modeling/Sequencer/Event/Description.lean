import Sequencer.Event
import Sequencer.Number.Decimal
import Sequencer.Number.Digits

/-! Events in words. Middle C, key 60, is called `C4`. -/
namespace Sequencer

def pitchNames : List String :=
  ["C", "C#", "D", "D#", "E", "F", "F#", "G", "G#", "A", "A#", "B"]

/-- The name of a key. Keys below 0 and above 127 are named by the same rule. -/
def noteName (key : Int) : String :=
  let pitch := pitchNames.getD (key.emod 12).toNat ""
  let octave := key.ediv 12 - 1
  s!"{pitch}{octave}"

/-- How far a pan value lies to the left or right of its middle, 64. -/
def panName (pan : UInt8) : String :=
  if pan = 64 then "center"
  else if pan < 64 then s!"L{64 - pan.toNat}"
  else s!"R{pan.toNat - 64}"

def onOff (on : Bool) : String := if on then "on" else "off"

def bpmText (bpm : Float) : String := Number.fixed 2 bpm ++ " BPM"

namespace EventKind

def keyText (key : UInt8) : String := s!"{noteName key.toNat} ({key})"

def description : EventKind → String
  | .noteOn key velocity => s!"{keyText key}, velocity {velocity}"
  | .noteOff key => keyText key
  | .note key velocity duration => s!"{keyText key}, velocity {velocity}, duration {duration}"
  | .rest ticks | .hold ticks => s!"{ticks} ticks"
  | .level .pan value => s!"{panName value} ({value})"
  | .level _ value | .masterLevel value => toString value
  | .slide .pan target duration => s!"to {panName target} over {duration} ticks"
  | .slide _ target duration | .masterSlide target duration =>
    s!"to {target} over {duration} ticks"
  | .tempo bpm => bpmText bpm
  | .tempoSlide target duration => s!"to {bpmText target} over {duration} ticks"
  | .timeSignature numerator denominator ticksPerQuarter =>
    s!"{numerator}/{denominator} ({ticksPerQuarter} ticks per quarter)"
  | .program number => s!"program {number}"
  | .bank number => s!"bank {number}"
  | .pitchBend bend => Number.signed bend.toInt
  | .bendRange semitones cents => s!"{semitones} semitones, {cents} cents"
  | .modulation value | .breath value | .portamentoTime value | .reverb value
  | .chorus value => toString value
  | .sustain on | .portamento on => onOff on
  | .controller number value => s!"CC{number} = {value}"
  | .transpose _ semitones | .keyCorrection semitones =>
    s!"{Number.signed semitones.toInt} semitones"
  | .octave number => s!"octave {number}"
  | .drum (some key) => s!"all notes as {noteName key.toNat}"
  | .drum none => "off"
  | .marker text => text
  | .jump destination | .loopForever destination => s!"to {Number.hex 1 destination}"
  | .call destination returnTo =>
    s!"to {Number.hex 1 destination}, return to {Number.hex 1 returnTo}"
  | .ret | .loopEnd | .trackEnd => ""
  | .loopStart count => if count = 0 then "forever" else s!"{count} times"
  | .unknown label => label

def title (kind : EventKind) : String :=
  let text := kind.description
  if text = "" then kind.name else s!"{kind.name}: {text}"

end EventKind
end Sequencer
