/-! What an instruction does, and the event that records it. The kinds are also the
instruction set of the track player: to perform an instruction is to carry out the effect
of its kind. -/
namespace Sequencer

inductive Scope
  | all
  | own
deriving DecidableEq, Repr

inductive Dial
  | volume
  | expression
  | pan
deriving DecidableEq, Repr

/-- What an instruction does, with its operands. Durations are in ticks. -/
inductive EventKind
  | noteOn (key velocity : UInt8)
  | noteOff (key : UInt8)
  | note (key velocity : UInt8) (duration : Nat)
  | rest (ticks : Nat)
  /-- A tie: the latest notes go on for `ticks` more. -/
  | hold (ticks : Nat)
  | level (dial : Dial) (value : UInt8)
  | slide (dial : Dial) (target : UInt8) (duration : Nat)
  | masterLevel (value : UInt8)
  | masterSlide (target : UInt8) (duration : Nat)
  | tempo (bpm : Float)
  | tempoSlide (target : Float) (duration : Nat)
  | timeSignature (numerator denominator : UInt8) (ticksPerQuarter : UInt16)
  | program (number : UInt8)
  | bank (number : UInt16)
  | pitchBend (bend : Int16)
  | bendRange (semitones cents : UInt8)
  | modulation (depth : UInt8)
  | breath (value : UInt8)
  | sustain (on : Bool)
  | portamento (on : Bool)
  | portamentoTime (time : UInt8)
  | reverb (amount : UInt8)
  | chorus (amount : UInt8)
  | controller (number value : UInt8)
  | transpose (scope : Scope) (semitones : Int8)
  | octave (number : UInt8)
  | keyCorrection (semitones : Int8)
  /-- All notes sound as `key`, or as written again. -/
  | drum (key : Option UInt8)
  | marker (text : String)
  | jump (destination : Nat)
  | call (destination returnTo : Nat)
  | ret
  /-- A loop of `count` rounds; none means that it never ends. -/
  | loopStart (count : Nat)
  | loopEnd
  | loopForever (destination : Nat)
  | trackEnd
  | unknown (label : String)
deriving DecidableEq, Repr

/-- A decoded instruction, with the bytes that it was decoded from. -/
structure Event where
  kind : EventKind
  track : Nat
  offset : Nat
  length : Nat
deriving DecidableEq, Repr

namespace EventKind

def isControlFlow : EventKind → Bool
  | .jump _ | .call .. | .ret | .loopStart _ | .loopEnd | .loopForever _ | .trackEnd => true
  | _ => false

/-- The key of a note, before any transpose. -/
def key? : EventKind → Option UInt8
  | .noteOn key _ | .noteOff key | .note key .. => some key
  | _ => none

/-- How long the instruction's timeline entry lasts when it is placed. -/
def duration : EventKind → Nat
  | .note _ _ ticks | .rest ticks | .hold ticks => ticks
  | .slide _ _ ticks | .masterSlide _ ticks | .tempoSlide _ ticks => ticks
  | _ => 0

def name : EventKind → String
  | .noteOn .. => "Note On"
  | .noteOff _ => "Note Off"
  | .note .. => "Note"
  | .rest _ => "Rest"
  | .hold _ => "Hold"
  | .level .volume _ => "Volume"
  | .slide .volume .. => "Volume Slide"
  | .masterLevel _ => "Master Volume"
  | .masterSlide .. => "Master Volume Slide"
  | .level .expression _ => "Expression"
  | .slide .expression .. => "Expression Slide"
  | .level .pan _ => "Pan"
  | .slide .pan .. => "Pan Slide"
  | .tempo _ => "Tempo"
  | .tempoSlide .. => "Tempo Slide"
  | .timeSignature .. => "Time Signature"
  | .program _ => "Program Change"
  | .bank _ => "Bank Select"
  | .pitchBend _ => "Pitch Bend"
  | .bendRange .. => "Pitch Bend Range"
  | .modulation _ => "Modulation"
  | .breath _ => "Breath"
  | .sustain _ => "Sustain"
  | .portamento _ => "Portamento"
  | .portamentoTime _ => "Portamento Time"
  | .reverb _ => "Reverb"
  | .chorus _ => "Chorus"
  | .controller .. => "Controller"
  | .transpose .all _ => "Global Transpose"
  | .transpose .own _ => "Transpose"
  | .octave _ => "Octave"
  | .keyCorrection _ => "Key Correction"
  | .drum _ => "Drum Note"
  | .marker _ => "Marker"
  | .jump _ => "Jump"
  | .call .. => "Call"
  | .ret => "Return"
  | .loopStart _ => "Loop Start"
  | .loopEnd => "Loop End"
  | .loopForever _ => "Loop Forever"
  | .trackEnd => "Track End"
  | .unknown _ => "Unknown"

end EventKind
end Sequencer
