import Sequencer.Midi
import Sequencer.Timeline

/-! Notes that sound in a track. Ending a note writes to two places: its timeline entry gets
its duration, and its note-off its tick. Both are kept in a sheet while notes are revised. -/
namespace Sequencer

/-- A note that ends by itself, unless a tie, a cut or a note of its key moves the end. -/
structure TimedNote where
  key : UInt8
  start : Nat
  stop : Nat
  entry : Option Nat
  /-- Where the track's MIDI has the note-off, if it is written. -/
  noteOff : Option Nat
  /-- Whether ties and cuts act on the note. -/
  tracked : Bool
deriving DecidableEq, Repr

/-- A note that sounds until it is ended. -/
structure OpenNote where
  key : UInt8
  midiKey : UInt8
  start : Nat
  entry : Option Nat
  transposeTick : Option Nat
deriving DecidableEq, Repr

structure Sheet where
  timeline : Timeline
  midi : MidiTrack

namespace Sheet

def setDuration (sheet : Sheet) (entry : Option Nat) (duration : Nat) : Except Fault Sheet :=
  match entry with
  | none => .ok sheet
  | some index => do
    let ⟨timeline, midi⟩ := sheet
    return ⟨← timeline.setDuration index duration, midi⟩

def setTick (sheet : Sheet) (position : Option Nat) (tick : Nat) : Except Fault Sheet :=
  match position with
  | none => .ok sheet
  | some index => do
    let ⟨timeline, midi⟩ := sheet
    return ⟨timeline, ← midi.setTick index tick⟩

end Sheet

namespace TimedNote

/-- Moves the note's end, to its start at the earliest. -/
def endAt (note : TimedNote) (tick : Nat) (sheet : Sheet) : Except Fault (TimedNote × Sheet) := do
  let stop := max tick note.start
  let sheet ← sheet.setDuration note.entry (stop - note.start)
  let sheet ← sheet.setTick note.noteOff stop
  return ({ note with stop }, sheet)

def endAll (chosen : TimedNote → Bool) (tick : Nat) (sheet : Sheet) :
    List TimedNote → Except Fault (List TimedNote × Sheet)
  | [] => .ok ([], sheet)
  | note :: rest => do
    let (note, sheet) ← if chosen note then note.endAt tick sheet else .ok (note, sheet)
    let (rest, sheet) ← endAll chosen tick sheet rest
    return (note :: rest, sheet)

def untrack (note : TimedNote) : TimedNote := { note with tracked := false }

/-- The notes that a new one starting at `now` leaves. Notes of an earlier start are no
longer tracked, and those that are neither tracked nor sounding are dropped. -/
def beforeNote (now : Nat) (notes : List TimedNote) : List TimedNote :=
  let notes :=
    if notes.any fun note => note.tracked && note.start ≠ now then notes.map untrack else notes
  notes.filter fun note => note.tracked || now < note.stop

end TimedNote

namespace OpenNote

/-- Ends the note: its entry lasts until `tick`, and its note-off is written if MIDI is. -/
def close (note : OpenNote) (writing : Bool) (channel : UInt8) (tick : Nat) (sheet : Sheet) :
    Except Fault Sheet := do
  let ⟨timeline, midi⟩ ← sheet.setDuration note.entry (tick - note.start)
  if writing then
    return ⟨timeline, midi.push ⟨tick, channel, .noteOff note.midiKey, note.transposeTick⟩⟩
  else return ⟨timeline, midi⟩

def closeAll (writing : Bool) (channel : UInt8) (tick : Nat) (sheet : Sheet) :
    List OpenNote → Except Fault Sheet
  | [] => .ok sheet
  | note :: rest => do
    let sheet ← note.close writing channel tick sheet
    closeAll writing channel tick sheet rest

end OpenNote
end Sequencer
