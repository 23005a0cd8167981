import Sequencer.Fault
import Sequencer.RefSeq.Instruction

/-! An assembler for RefSeq files. A program is a list of statements; labels name places in
any track and stand for their offsets in the file. -/
namespace Sequencer.RefSeq

/-- Statements that neither end a track nor send it elsewhere. -/
inductive Plain
  | rest (ticks : UInt16)
  | hold (ticks : UInt16)
  | noteOn (key velocity : UInt8)
  | noteOff (key : UInt8)
  | note (key velocity : UInt8) (duration : UInt16)
  | octaveNote (semitone velocity : UInt8) (duration : UInt16)
  | octave (number : UInt8)
  | keyCorrection (semitones : Int8)
  | drum (key : Option UInt8)
  | cut
  | level (dial : Dial) (value : UInt8)
  | slide (dial : Dial) (duration : UInt16) (target : UInt8)
  | masterLevel (value : UInt8)
  | masterSlide (duration : UInt16) (target : UInt8)
  | program (number : UInt8)
  | bank (number : UInt16)
  | pitchBend (bend : Int16)
  | transpose (scope : Scope) (semitones : Int8)
  | controller (number value : UInt8)
  | bendRange (semitones : UInt8)
  | sustain (on : Bool)
  | tempo (bpm : UInt16)
  | tempoSlide (duration bpm : UInt16)
  | timeSignature (numerator denominator : UInt8)
  | marker (text : String)
deriving DecidableEq, Repr

inductive Branch
  | jump
  | call
  | loopForever
deriving DecidableEq, Repr

inductive Statement
  | ticksPerQuarter (ticks : UInt16)
  | headerTempo (bpm : UInt16)
  | tickSync (on : Bool)
  /-- The statements that follow belong to a new track. -/
  | track (channel : UInt8)
  | label (name : String)
  | bytes (code : List UInt8)
  | plain (statement : Plain)
  | trackEnd
  | jump (destination : UInt16)
  | branch (how : Branch) (label : String)
  | ret
  | loopStart (count : UInt8)
  | loopEnd
deriving DecidableEq, Repr

def shortBytes (n : UInt16) : List UInt8 := toLittleEndian 2 n.toNat

def levelOpcode : Dial → UInt8
  | .volume => Opcode.volume
  | .expression => Opcode.expression
  | .pan => Opcode.pan

def slideOpcode : Dial → UInt8
  | .volume => Opcode.volumeSlide
  | .expression => Opcode.expressionSlide
  | .pan => Opcode.panSlide

def Plain.encode : Plain → List UInt8
  | .rest ticks => Opcode.rest :: shortBytes ticks
  | .hold ticks => Opcode.hold :: shortBytes ticks
  | .noteOn key velocity => [Opcode.noteOn, key, velocity]
  | .noteOff key => [Opcode.noteOff, key]
  | .note key velocity duration => Opcode.note :: key :: velocity :: shortBytes duration
  | .octaveNote semitone velocity duration =>
    Opcode.octaveNote :: semitone :: velocity :: shortBytes duration
  | .octave number => [Opcode.octave, number]
  | .keyCorrection semitones => [Opcode.keyCorrection, semitones.toUInt8]
  | .drum key => [Opcode.drum, key.getD 0xFF]
  | .cut => [Opcode.cut]
  | .level dial value => [levelOpcode dial, value]
  | .slide dial duration target => slideOpcode dial :: shortBytes duration ++ [target]
  | .masterLevel value => [Opcode.masterLevel, value]
  | .masterSlide duration target => Opcode.masterSlide :: shortBytes duration ++ [target]
  | .program number => [Opcode.program, number]
  | .bank number => Opcode.bank :: shortBytes number
  | .pitchBend bend => Opcode.pitchBend :: shortBytes bend.toUInt16
  | .transpose .own semitones => [Opcode.transpose, semitones.toUInt8]
  | .transpose .all semitones => [Opcode.transposeAll, semitones.toUInt8]
  | .controller number value => [Opcode.controller, number, value]
  | .bendRange semitones => [Opcode.bendRange, semitones]
  | .sustain on => [Opcode.sustain, if on then 1 else 0]
  | .tempo bpm => Opcode.tempo :: shortBytes bpm
  | .tempoSlide duration bpm => Opcode.tempoSlide :: shortBytes duration ++ shortBytes bpm
  | .timeSignature numerator denominator => [Opcode.timeSignature, numerator, denominator]
  | .marker text =>
    let bytes := Text.Utf8.encode text
    Opcode.marker :: UInt8.ofNat bytes.length :: bytes

def Branch.opcode : Branch → UInt8
  | .jump => Opcode.jump
  | .call => Opcode.call
  | .loopForever => Opcode.loopForever

structure TrackBody where
  channel : UInt8
  code : Array UInt8 := #[]
deriving DecidableEq, Repr

structure CodePosition where
  track : Nat
  position : Nat
deriving DecidableEq, Repr

structure Assembly where
  tickSync : Bool := false
  ticksPerQuarter : UInt16 := 48
  tempo : UInt16 := 120
  tracks : Array TrackBody := #[]
  labels : List (String × CodePosition) := []
  /-- Operands of two bytes that await the offset of a label, the latest first. -/
  references : List (CodePosition × String) := []

namespace Assembly

/-- A statement that needs a track begins one on channel 0 if there is none. -/
def withTrack (assembly : Assembly) : Assembly :=
  if assembly.tracks.isEmpty then { assembly with tracks := #[{ channel := 0 }] } else assembly

def position (assembly : Assembly) : CodePosition :=
  let track := assembly.tracks.size - 1
  ⟨track, (assembly.tracks[track]?).elim 0 fun body => body.code.size⟩

def append (assembly : Assembly) (code : List UInt8) : Assembly :=
  let assembly := assembly.withTrack
  { assembly with
    tracks := assembly.tracks.modify (assembly.tracks.size - 1) fun body =>
      { body with code := body.code ++ code } }

def define (assembly : Assembly) (name : String) : Except Fault Assembly :=
  let assembly := assembly.withTrack
  match assembly.labels.lookup name with
  | some _ => .error (.labelTwice name)
  | none =>
    .ok { assembly with labels := assembly.labels ++ [(name, assembly.position)] }

/-- An opcode whose operand is the offset of a label. -/
def refer (assembly : Assembly) (opcode : UInt8) (label : String) : Assembly :=
  let assembly := assembly.withTrack
  let ⟨track, position⟩ := assembly.position
  { assembly.append [opcode, 0, 0] with
    references := (⟨track, position + 1⟩, label) :: assembly.references }

def read (assembly : Assembly) : Statement → Except Fault Assembly
  | .ticksPerQuarter ticks => .ok { assembly with ticksPerQuarter := ticks }
  | .headerTempo bpm => .ok { assembly with tempo := bpm }
  | .tickSync on => .ok { assembly with tickSync := on }
  | .track channel => .ok { assembly with tracks := assembly.tracks.push { channel } }
  | .label name => assembly.define name
  | .bytes code => .ok (assembly.append code)
  | .plain (.marker text) =>
    let size := (Text.Utf8.encode text).length
    if size ≤ 255 then .ok (assembly.append (Plain.marker text).encode)
    else .error (.markerLength size)
  | .plain statement => .ok (assembly.append statement.encode)
  | .trackEnd => .ok (assembly.append [Opcode.trackEnd])
  | .jump destination => .ok (assembly.append (Opcode.jump :: shortBytes destination))
  | .branch how label => .ok (assembly.refer how.opcode label)
  | .ret => .ok (assembly.append [Opcode.ret])
  | .loopStart count => .ok (assembly.append [Opcode.loopStart, count])
  | .loopEnd => .ok (assembly.append [Opcode.loopEnd])

def readAll (assembly : Assembly) : List Statement → Except Fault Assembly
  | [] => .ok assembly
  | statement :: rest => do
    let assembly ← assembly.read statement
    assembly.readAll rest

/-- The offset in the file of a track's code: the codes stand one after another behind the
table of tracks. -/
def base (assembly : Assembly) (track : Nat) : Nat :=
  headerSize + assembly.tracks.size * pointerSize +
    (assembly.tracks.toList.take track).foldl (fun size body => size + body.code.size) 0

def size (assembly : Assembly) : Nat := assembly.base assembly.tracks.size

def offset (assembly : Assembly) (place : CodePosition) : Nat :=
  assembly.base place.track + place.position

def headerBytes (assembly : Assembly) : List UInt8 :=
  ident ++ [version, if assembly.tickSync then 1 else 0] ++
    shortBytes assembly.ticksPerQuarter ++ shortBytes assembly.tempo ++
    [UInt8.ofNat assembly.tracks.size]

def tableBytes (assembly : Assembly) : List UInt8 :=
  (assembly.tracks.toList.mapIdx fun track body =>
    body.channel :: toLittleEndian 2 (assembly.base track)).flatten

/-- The file before the operands of labels are filled in. -/
def draft (assembly : Assembly) : Array UInt8 :=
  assembly.tracks.foldl (fun bytes body => bytes ++ body.code)
    (assembly.headerBytes ++ assembly.tableBytes).toArray

def patchShort (bytes : Array UInt8) (offset value : Nat) : Array UInt8 :=
  (bytes.setIfInBounds offset (UInt8.ofNat value)).setIfInBounds (offset + 1)
    (UInt8.ofNat (value / 256))

def resolve (assembly : Assembly) (bytes : Array UInt8) :
    List (CodePosition × String) → Except Fault (Array UInt8)
  | [] => .ok bytes
  | (place, label) :: rest =>
    match assembly.labels.lookup label with
    | none => .error (.labelUndefined label)
    | some target =>
      assembly.resolve (patchShort bytes (assembly.offset place) (assembly.offset target)) rest

end Assembly

structure Assembled where
  bytes : Array UInt8
  labels : List (String × Nat)
deriving DecidableEq, Repr

/-- Lays out what has been read. A file may not be larger than 64 KiB. -/
def Assembly.build (assembly : Assembly) : Except Fault Assembled :=
  if assembly.size > 65536 then .error .sequenceSize
  else do
    let bytes ← assembly.resolve assembly.draft assembly.references.reverse
    return ⟨bytes, assembly.labels.map fun (name, place) => (name, assembly.offset place)⟩

def assemble (program : List Statement) : Except Fault Assembled := do
  let assembly ← Assembly.readAll {} program
  assembly.build

end Sequencer.RefSeq
