import Sequencer.RefSeq.Opcode
import Sequencer.Event
import Sequencer.Source
import Sequencer.Text.Utf8

/-! Reading RefSeq instructions. Reading is a function of the bytes and the offset alone; what
an instruction does with the track that reads it is decided later. -/
namespace Sequencer.RefSeq

inductive Instruction
  | event (kind : EventKind)
  /-- A note in the octave that the track has set. -/
  | octaveNote (semitone velocity : UInt8) (duration : Nat)
  /-- The latest notes end now. -/
  | cut
  | unknown (opcode : UInt8)
deriving DecidableEq, Repr

/-- Reads from the bytes at an offset and returns the offset after what it has read. If the
bytes end too early, that is where the missing ones would have been. -/
def Reader (α : Type) : Type := Source → Nat → Except ReadError α × Nat

namespace Reader

variable {α β : Type}

def pure (value : α) : Reader α := fun _ offset => (.ok value, offset)

def bind (reader : Reader α) (next : α → Reader β) : Reader β := fun source offset =>
  match reader source offset with
  | (.ok value, offset) => next value source offset
  | (.error error, offset) => (.error error, offset)

instance : Monad Reader where
  pure := pure
  bind := bind

def ofWidth (width : Nat) (read : Source → Nat → Except ReadError α) : Reader α :=
  fun source offset =>
    match read source offset with
    | .ok value => (.ok value, offset + width)
    | .error error => (.error error, offset)

def byte : Reader UInt8 := ofWidth 1 Source.byteAt

def short : Reader Nat := ofWidth 2 fun source offset => source.littleEndianAt offset 2

def position : Reader Nat := fun _ offset => (.ok offset, offset)

/-- A number of two bytes at a fixed offset. The reader does not move. -/
def shortAt (place : Nat) : Reader Nat := fun source offset =>
  (source.littleEndianAt place 2, offset)

def text (size : Nat) : Reader String :=
  ofWidth size fun source offset => (source.stretch offset size).map Text.Utf8.decode

end Reader

open Reader

def signedByte (b : UInt8) : Int8 := b.toInt8

/-- A duration of two bytes, then a target of one. -/
def slideOperands : Reader (Nat × UInt8) := do
  let duration ← short
  let target ← byte
  return (duration, target)

def operands (opcode : UInt8) : Reader Instruction :=
  if opcode = Opcode.trackEnd then return .event .trackEnd
  else if opcode = Opcode.rest then return .event (.rest (← short))
  else if opcode = Opcode.hold then return .event (.hold (← short))
  else if opcode = Opcode.noteOn then return .event (.noteOn (← byte) (← byte))
  else if opcode = Opcode.noteOff then return .event (.noteOff (← byte))
  else if opcode = Opcode.note then return .event (.note (← byte) (← byte) (← short))
  else if opcode = Opcode.octaveNote then return .octaveNote (← byte) (← byte) (← short)
  else if opcode = Opcode.octave then return .event (.octave (← byte))
  else if opcode = Opcode.keyCorrection then
    return .event (.keyCorrection (signedByte (← byte)))
  else if opcode = Opcode.drum then do
    let key ← byte
    return .event (.drum (if key = 0xFF then none else some key))
  else if opcode = Opcode.cut then return .cut
  else if opcode = Opcode.volume then return .event (.level .volume (← byte))
  else if opcode = Opcode.volumeSlide then do
    let (duration, target) ← slideOperands
    return .event (.slide .volume target duration)
  else if opcode = Opcode.pan then return .event (.level .pan (← byte))
  else if opcode = Opcode.panSlide then do
    let (duration, target) ← slideOperands
    return .event (.slide .pan target duration)
  else if opcode = Opcode.expression then return .event (.level .expression (← byte))
  else if opcode = Opcode.expressionSlide then do
    let (duration, target) ← slideOperands
    return .event (.slide .expression target duration)
  else if opcode = Opcode.masterLevel then return .event (.masterLevel (← byte))
  else if opcode = Opcode.masterSlide then do
    let (duration, target) ← slideOperands
    return .event (.masterSlide target duration)
  else if opcode = Opcode.program then return .event (.program (← byte))
  else if opcode = Opcode.bank then return .event (.bank (UInt16.ofNat (← short)))
  else if opcode = Opcode.pitchBend then
    return .event (.pitchBend (UInt16.ofNat (← short)).toInt16)
  else if opcode = Opcode.transpose then
    return .event (.transpose .own (signedByte (← byte)))
  else if opcode = Opcode.transposeAll then
    return .event (.transpose .all (signedByte (← byte)))
  else if opcode = Opcode.controller then return .event (.controller (← byte) (← byte))
  else if opcode = Opcode.bendRange then return .event (.bendRange (← byte) 0)
  else if opcode = Opcode.sustain then return .event (.sustain ((← byte) != 0))
  else if opcode = Opcode.tempo then return .event (.tempo (Float.ofNat (← short)))
  else if opcode = Opcode.tempoSlide then do
    let duration ← short
    let bpm ← short
    return .event (.tempoSlide (Float.ofNat bpm) duration)
  else if opcode = Opcode.timeSignature then do
    let numerator ← byte
    let denominator ← byte
    let ticksPerQuarter ← shortAt 6
    return .event (.timeSignature numerator denominator (UInt16.ofNat ticksPerQuarter))
  else if opcode = Opcode.marker then do
    let size ← byte
    return .event (.marker (← text size.toNat))
  else if opcode = Opcode.jump then return .event (.jump (← short))
  else if opcode = Opcode.call then do
    let destination ← short
    return .event (.call destination (← position))
  else if opcode = Opcode.ret then return .event .ret
  else if opcode = Opcode.loopStart then do
    let count ← byte
    return .event (.loopStart count.toNat)
  else if opcode = Opcode.loopEnd then return .event .loopEnd
  else if opcode = Opcode.loopForever then return .event (.loopForever (← short))
  else return .unknown opcode

def instruction : Reader Instruction := do
  let opcode ← byte
  operands opcode

end Sequencer.RefSeq
