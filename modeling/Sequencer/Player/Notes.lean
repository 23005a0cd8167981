import Sequencer.Player

/-! How a player starts and ends notes. A note that starts ends an earlier note of the same
key that still sounds. -/
namespace Sequencer.Player

/-- Closes the open notes of the list and ends the chosen timed notes, all at `tick`. -/
def endNotes (player : Player) (closing : List OpenNote) (chosen : TimedNote → Bool)
    (tick : Nat) : Except Fault Player := do
  let writing := player.writing
  let channel := player.track.channel
  let sheet ← OpenNote.closeAll writing channel tick player.sheet closing
  let (timedNotes, sheet) ← TimedNote.endAll chosen tick sheet player.track.timedNotes
  let player := player.withSheet sheet
  return { player with track := { player.track with timedNotes } }

def cutKey (player : Player) (key : UInt8) : Except Fault Player := do
  let now := player.track.time
  let (same, others) := player.track.openNotes.partition fun note => note.key = key
  let player := { player with track := { player.track with openNotes := others } }
  player.endNotes same (fun note => note.key = key && note.start < now && now < note.stop) now

def startNote (player : Player) (key velocity : UInt8) (entry : Option Nat) :
    Except Fault Player := do
  let player ← player.cutKey key
  let now := player.track.time
  let (midiKey, transposeTick) := player.track.soundingKey key
  let player := player.emit now (.noteOn midiKey velocity) transposeTick
  let note : OpenNote := ⟨key, midiKey, now, entry, transposeTick⟩
  return { player with
    track := { player.track with openNotes := player.track.openNotes ++ [note] } }

/-- Ends the oldest open note of a key, if there is one. -/
def endNote (player : Player) (key : UInt8) : Except Fault Player :=
  match player.track.openNotes.find? fun note => note.key = key with
  | none => .ok player
  | some note =>
    let openNotes := player.track.openNotes.eraseP fun note => note.key = key
    let player := { player with track := { player.track with openNotes } }
    player.endNotes [note] (fun _ => false) player.track.time

/-- Starts a note that ends by itself. Its note-off is written at once and moved when the end
of the note is. -/
def startTimedNote (player : Player) (key velocity : UInt8) (duration : Nat)
    (entry : Option Nat) : Except Fault Player := do
  let player ← player.cutKey key
  let now := player.track.time
  let stop := Tick.later now duration
  let (midiKey, transposeTick) := player.track.soundingKey key
  let player := player.emit now (.noteOn midiKey velocity) transposeTick
  let noteOff := if player.writing then some player.track.midi.size else none
  let player := player.emit stop (.noteOff midiKey) transposeTick
  let note : TimedNote := ⟨key, now, stop, entry, noteOff, true⟩
  let timedNotes := TimedNote.beforeNote now player.track.timedNotes ++ [note]
  return { player with track := { player.track with timedNotes } }

/-- Moves the end of all tracked notes. They stay tracked, so that ties add up. -/
def extendNotes (player : Player) (tick : Nat) : Except Fault Player :=
  player.endNotes [] TimedNote.tracked tick

/-- Shortens the tracked notes that sound past `tick`. No note is tracked any more. -/
def limitNotes (player : Player) (tick : Nat) : Except Fault Player := do
  let player ← player.endNotes [] (fun note => note.tracked && tick < note.stop) tick
  let timedNotes := player.track.timedNotes.map TimedNote.untrack
  return { player with track := { player.track with timedNotes } }

/-- Stops the track: ends its open notes, writes the end of its MIDI, and lets its dials
rest. -/
def finish (player : Player) : Except Fault Player := do
  let now := player.track.time
  let closing := player.track.openNotes
  let player := { player with track := { player.track with openNotes := [] } }
  let player ← player.endNotes closing (fun _ => false) now
  let player := player.emit now .endOfTrack none
  return { player with
    track := { player.track with
      active := false
      totalTicks := now
      dials := player.track.dials.rest } }

end Sequencer.Player
