import Sequencer.Format
import Sequencer.RefSeq.Instruction

/-! RefSeq as a sequence format: its header, its table of tracks, and what its instructions
make a player do. -/
namespace Sequencer.RefSeq

/-- The header of a file. Zero for ticks per quarter or tempo means the usual setting. -/
def header (source : Source) : Except ReadError Header := do
  if source.size < headerSize then
    throw (.shortHeader s!"{source.size} bytes, need {headerSize}")
  let found ← source.stretch 0 4
  if found ≠ ident then throw (.badIdent found)
  let fileVersion ← source.byteAt 4
  if fileVersion ≠ version then throw (.badVersion fileVersion)
  let flags ← source.byteAt 5
  let ticksPerQuarter ← source.littleEndianAt 6 2
  let bpm ← source.littleEndianAt 8 2
  let usual : Header := {}
  return { usual with
    tickSync := flags &&& 1 ≠ 0
    ticksPerQuarter :=
      if ticksPerQuarter = 0 then usual.ticksPerQuarter else UInt16.ofNat ticksPerQuarter
    tempo := if bpm = 0 then usual.tempo else Float.ofNat bpm }

def pointer (source : Source) (offset : Nat) : Except ReadError TrackPointer := do
  let channel ← (source.byteAt offset).mapError (ReadError.withContext "track_pointer")
  let start ←
    (source.littleEndianAt (offset + 1) 2).mapError (ReadError.withContext "track_pointer")
  return ⟨start, channel⟩

def pointersFrom (source : Source) : (count : Nat) → (offset : Nat) →
    Except ReadError (List TrackPointer)
  | 0, _ => .ok []
  | count + 1, offset => do
    let first ← pointer source offset
    let rest ← pointersFrom source count (offset + pointerSize)
    return first :: rest

def pointers (source : Source) : Except ReadError (List TrackPointer) := do
  let count ← source.byteAt 10
  pointersFrom source count.toNat headerSize

/-- What an instruction makes the player do whose cursor stands after it, and whether the
instruction makes sense. Cutting notes leaves no event. -/
def operation (span : Span) (player : Player) : Instruction → Operation × Option ReadError
  | .event kind => (.record span kind, none)
  | .octaveNote semitone velocity duration =>
    (.record span (.note (player.track.octaveKey semitone) velocity duration), none)
  | .cut => (.limitNotes player.track.time, none)
  | .unknown opcode =>
    (.record span (.unknown ("opcode " ++ Number.hex 2 opcode.toNat)),
      some (.unknownOpcode opcode span.offset))

/-- Reads the instruction at the player's cursor and has the player carry it out. An event
covers the bytes that were read for it. -/
def decode (player : Player) : Routine (Except ReadError Bool) :=
  let start := player.track.cursor.offset
  let (result, stop) := instruction player.setting.source start
  .order (.moveTo stop) fun _ player =>
    match result with
    | .error error => .done (.error error)
    | .ok instruction =>
      let (operation, problem) := operation ⟨start, stop - start⟩ player instruction
      .order operation fun more _ =>
        match problem with
        | none => .done (.ok more)
        | some error => .done (.error error)

def format : Format Unit :=
  { name := "RefSeq"
    header
    pointers
    decode := fun memory player => (decode player).map (·, memory) }

end Sequencer.RefSeq
