import Sequencer.Format

/-! Scripted sequences: a format whose instructions are given as lists of calls instead of
being read from bytes. It reaches every operation of a player in any order, and logs what the
player answers. -/
namespace Sequencer.Script

structure NumberShape where
  width : Nat
  bigEndian : Bool := false
  signed : Bool := false
deriving DecidableEq, Repr

inductive Query
  | byteCount
  | offset
  | time
  | channel
  | volume
  | pan
  | expression
  | octave
  | transpose
  | trips
  | isUsed (offset : Nat)
  | octaveKey (semitone : UInt8)
deriving DecidableEq, Repr

inductive Call
  /-- The bytes that the following events are recorded for. -/
  | span (span : Span)
  /-- Whether the track goes on after the instruction. -/
  | verdict (more : Bool)
  | fail (error : ReadError)
  | read (shape : NumberShape)
  | peek (offset : Nat)
  | ask (query : Query)
  | order (operation : Operation)
  | event (kind : EventKind)
  | octaveUp
  | octaveDown

inductive Reply
  | number (value : Int)
  | truth (value : Bool)
  | failure (error : ReadError)

/-- A call that had an answer, with its place: the pass, the track and the instruction. -/
structure LogEntry where
  pass : Pass
  track : Nat
  instruction : Nat
  call : Call
  reply : Reply

abbrev Log := Array LogEntry

/-- Reads a number. Two's complement if it is signed. -/
def NumberShape.read (shape : NumberShape) (source : Source) (offset : Nat) :
    Except ReadError Int := do
  let value ←
    if shape.bigEndian then source.bigEndianAt offset shape.width
    else source.littleEndianAt offset shape.width
  let bound := Nat.pow 2 (8 * shape.width)
  return if shape.signed && bound ≤ 2 * value then (value : Int) - bound else value

def Query.reply (player : Player) : Query → Reply
  | .byteCount => .number player.setting.source.size
  | .offset => .number player.track.cursor.offset
  | .time => .number player.track.time
  | .channel => .number player.track.channel.toNat
  | .volume => .number player.track.dials.volume.level.toNat
  | .pan => .number player.track.dials.pan.level.toNat
  | .expression => .number player.track.dials.expression.level.toNat
  | .octave => .number player.track.octave.toNat
  | .transpose => .number player.track.transpose.toInt
  | .trips => .number player.track.guard.trips
  | .isUsed spot => .truth (player.shared.arena.isUsed ⟨player.track.index, spot⟩)
  | .octaveKey semitone => .number (player.track.octaveKey semitone).toNat

def tempoOfMicros (micros : Nat) : EventKind :=
  .tempo (bpmOfMicros (min (max micros 1) maxMicros))

def nextOctave (octave : UInt8) : UInt8 := if octave = 255 then 255 else octave + 1

def previousOctave (octave : UInt8) : UInt8 := if octave = 0 then 0 else octave - 1

structure Progress where
  span : Span
  more : Bool
  log : Log

abbrev Step := Routine (Except ReadError Bool × Log)

def lastOffset : Nat := 4294967295

def perform (here : Nat) : List Call → Progress → Player → Step
  | [], progress, _ => .done (.ok progress.more, progress.log)
  | call :: rest, ⟨span, more, log⟩, player =>
    let entry (reply : Reply) : LogEntry :=
      ⟨player.setting.pass, player.track.index, here, call, reply⟩
    match call with
    | .span span => perform here rest ⟨span, more, log⟩ player
    | .verdict more => perform here rest ⟨span, more, log⟩ player
    | .fail error => .done (.error error, log)
    | .read shape =>
      let offset := player.track.cursor.offset
      match shape.read player.setting.source offset with
      | .error error => .done (.error error, log.push (entry (.failure error)))
      | .ok value =>
        let log := log.push (entry (.number value))
        .order (.moveTo (min (offset + shape.width) lastOffset)) fun _ player =>
          perform here rest ⟨span, more, log⟩ player
    | .peek offset =>
      let reply := match player.setting.source.byteAt offset with
        | .ok b => .number b.toNat
        | .error error => .failure error
      perform here rest ⟨span, more, log.push (entry reply)⟩ player
    | .ask query => perform here rest ⟨span, more, log.push (entry (query.reply player))⟩ player
    | .order operation => .order operation fun _ player =>
      perform here rest ⟨span, more, log⟩ player
    | .event kind =>
      if kind.isControlFlow then
        let pass := player.setting.pass
        let track := player.track.index
        .order (.record span kind) fun more player =>
          perform here rest ⟨span, more, log.push ⟨pass, track, here, call, .truth more⟩⟩ player
      else .order (.record span kind) fun _ player => perform here rest ⟨span, more, log⟩ player
    | .octaveUp =>
      .order (.record span (.octave (nextOctave player.track.octave))) fun _ player =>
        perform here rest ⟨span, more, log⟩ player
    | .octaveDown =>
      .order (.record span (.octave (previousOctave player.track.octave))) fun _ player =>
        perform here rest ⟨span, more, log⟩ player

def decode (code : Array (Option (List Call))) (log : Log) (player : Player) : Step :=
  let here := player.track.cursor.offset
  match code[here]?.join with
  | none => .done (.error (.other s!"no instruction at {here}"), log)
  | some calls => .order (.moveTo (here + 1)) fun _ player =>
    perform here calls ⟨⟨here, 1⟩, true, log⟩ player

/-- A format with the given header, tracks and code. -/
def format (name : String) (header : Except ReadError Header)
    (pointers : Except ReadError (List TrackPointer)) (code : Array (Option (List Call))) :
    Format Log :=
  { name
    header := fun _ => header
    pointers := fun _ => pointers
    decode := fun log player => (decode code log player).map fun (result, log) => (result, log) }

end Sequencer.Script
