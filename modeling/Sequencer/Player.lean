import Sequencer.Source
import Sequencer.Track

/-! A player carries out the operations of one track. It has the track's own state and the
state that all tracks share, and writes what it does to both: events to the arena and the
timeline, and in the MIDI pass messages to the track and to the conductor. -/
namespace Sequencer

inductive Pass
  /-- Lists the events, each instruction once. -/
  | listing
  /-- Measures the length, loops included. -/
  | length
  /-- Writes the MIDI messages. -/
  | midi
deriving DecidableEq, Repr

structure Setting where
  source : Source
  pass : Pass
  tickSync : Bool
  /-- Trips around a cycle that the length pass plays. -/
  loopCount : Nat
  /-- How many calls, or loops, may be open at once. -/
  maxDepth : Nat

def Setting.loopRule (setting : Setting) : LoopRule :=
  match setting.pass with
  | .listing => .once
  | .length => .trips setting.loopCount
  | .midi => .progress

structure Shared where
  arena : Arena := {}
  timeline : Timeline := {}
  /-- Messages that belong to no track: tempo, metre and master volume. -/
  conductor : MidiTrack := {}
  tempo : Float := 0.0
  masterVolume : UInt8 := 0
  masterRamp : Option Ramp := none

/-- The state before a pass. Only the events of earlier passes stay. -/
def Shared.reset (header : Header) (shared : Shared) : Shared :=
  { arena := shared.arena, tempo := header.tempo, masterVolume := 127 }

structure Player where
  setting : Setting
  track : Track
  shared : Shared

structure Span where
  offset : Nat
  length : Nat
deriving DecidableEq, Repr

namespace Player

def now (player : Player) : Nat := player.track.time

def writing (player : Player) : Bool := player.setting.pass = .midi

@[inline]
def withTrack (player : Player) (track : Track) : Player := { player with track }

@[inline]
def sheet (player : Player) : Sheet := ⟨player.shared.timeline, player.track.midi⟩

@[inline]
def withSheet (player : Player) (sheet : Sheet) : Player :=
  { player with
    track := { player.track with midi := sheet.midi }
    shared := { player.shared with timeline := sheet.timeline } }

/-- Writes a message of the track, if the pass writes any. -/
def emit (player : Player) (tick : Nat) (message : MidiMessage)
    (transposeTick : Option Nat) : Player :=
  if player.writing then
    { player with
      track := { player.track with
        midi := player.track.midi.push ⟨tick, player.track.channel, message, transposeTick⟩ } }
  else player

def emitAll (player : Player) (messages : List MidiMessage) : Player :=
  messages.foldl (fun player message => player.emit player.now message none) player

def conduct (player : Player) (tick : Nat) (message : MidiMessage) : Player :=
  if player.writing then
    { player with
      shared := { player.shared with
        conductor := player.shared.conductor.push ⟨tick, 0, message, none⟩ } }
  else player

/-- Records the event of an instruction, once for its bytes, and enters it in the timeline at
the current tick. Returns the index of the entry. -/
def record (player : Player) (span : Span) (kind : EventKind) : Nat × Player :=
  let event : Event := ⟨kind, player.track.index, span.offset, span.length⟩
  let ((id, _), arena) := player.shared.arena.insert event
  let entry := player.shared.timeline.nextIndex
  let timeline := player.shared.timeline.add ⟨player.track.time, kind.duration, id⟩
  (entry, { player with shared := { player.shared with arena, timeline } })

def wait (player : Player) (ticks : Nat) : Player :=
  { player with
    track := { player.track with
      time := Tick.later player.track.time ticks
      cursor := { player.track.cursor with
        delay := Tick.later player.track.cursor.delay ticks } } }

end Player
end Sequencer
