import Sequencer.Stage
import Sequencer.Timeline.Sweep
import Sequencer.Transpose

/-! A sequence: a file that a format has accepted, and what the passes over it produce. -/
namespace Sequencer

inductive OpenError
  | unreadable (error : ReadError)
  | noTracks
  | tooManyTracks (count : Nat)
  | trackOutside (track offset size : Nat)
deriving DecidableEq, Repr

def OpenError.message : OpenError → String
  | .unreadable error => error.message
  | .noTracks => "sequence has no tracks"
  | .tooManyTracks count => s!"too many tracks: {count}"
  | .trackOutside track offset size =>
    s!"track {track} starts at {Number.hex 1 offset}, outside of {size} bytes"

structure Options where
  loopCount : Nat := 1
  maxSteps : Nat := 1048576
  maxDepth : Nat := 64
  /-- Whether the MIDI output begins with the header's tempo and levels. -/
  initialState : Bool := true
deriving DecidableEq, Repr

structure Sequence (σ : Type) where
  source : Source
  format : Format σ
  header : Header
  options : Options
  stage : Stage σ
  transposes : Option Transposes
  /-- The length of the longest track, from the latest pass that measured it. -/
  length : Nat
  midi : Option MidiOutput
  lastPass : Option Pass

namespace Sequence

variable {σ : Type}

def maxTracks : Nat := 256

def firstOutside (size : Nat) : (index : Nat) → List TrackPointer → Option OpenError
  | _, [] => none
  | index, pointer :: rest =>
    if pointer.offset < size then firstOutside size (index + 1) rest
    else some (.trackOutside index pointer.offset size)

/-- Reads the header and the table of tracks. No pass has run yet. -/
def ofSource (format : Format σ) (memory : σ) (source : Source) :
    Except OpenError (Sequence σ) := do
  let header ← (format.header source).mapError .unreadable
  let pointers ← (format.pointers source).mapError .unreadable
  if pointers.isEmpty then throw .noTracks
  if pointers.length > maxTracks then throw (.tooManyTracks pointers.length)
  match firstOutside source.size 0 pointers with
  | some error => throw error
  | none =>
    let tracks := pointers.mapIdx fun index pointer =>
      Track.starting index pointer.offset pointer.channel
    return {
      source, format, header
      options := {}
      stage := ⟨tracks, {}, memory⟩
      transposes := none
      length := 0
      midi := none
      lastPass := none }

def initialMessages (header : Header) : List MidiMessage :=
  (header.program.map fun number => .program (number &&& 0x7F)).toList ++
    [.control Controller.volume (header.volume &&& 0x7F),
      .control Controller.expression (header.expression &&& 0x7F),
      .control Controller.pan (header.pan &&& 0x7F)]

def writeInitialState (header : Header) (stage : Stage σ) : Stage σ :=
  { stage with
    shared := { stage.shared with
      conductor := stage.shared.conductor.push
        ⟨0, 0, .tempo (microsOfBpm header.tempo), none⟩ }
    tracks := stage.tracks.map fun track =>
      { track with
        midi := (initialMessages header).foldl
          (fun midi message => midi.push ⟨0, track.channel, message, none⟩) track.midi } }

def openStage (sequence : Sequence σ) (pass : Pass) : Stage σ :=
  let stage : Stage σ :=
    { sequence.stage with
      tracks := sequence.stage.tracks.map (Track.reset sequence.header)
      shared := sequence.stage.shared.reset sequence.header }
  if pass = .midi && sequence.options.initialState then writeInitialState sequence.header stage
  else stage

def setting (sequence : Sequence σ) (pass : Pass) : Setting :=
  { source := sequence.source
    pass
    tickSync := sequence.header.tickSync
    loopCount := sequence.options.loopCount
    maxDepth := sequence.options.maxDepth }

def measure (stage : Stage σ) : Stage σ :=
  { stage with
    tracks := stage.tracks.map fun track =>
      { track with measuredTrips := track.guard.trips, measuredTicks := track.totalTicks } }

/-- The finished MIDI of a stage: notes are transposed and messages sorted. -/
def midiOutput (header : Header) (transposes : Transposes) (stage : Stage σ) : MidiOutput :=
  { ticksPerQuarter := header.ticksPerQuarter
    conductor := stage.shared.conductor.finalize
    tracks := stage.tracks.map fun track =>
      (track.midi.transpose transposes.allAt).finalize }

def withoutMidi (stage : Stage σ) : Stage σ :=
  { stage with
    shared := { stage.shared with conductor := {} }
    tracks := stage.tracks.map fun track => { track with midi := {} } }

def closePass (sequence : Sequence σ) (pass : Pass) (stage : Stage σ) :
    Except Fault (Sequence σ) := do
  let stage :=
    { stage with shared := { stage.shared with timeline := stage.shared.timeline.settle } }
  let transposes ← Transposes.ofTimeline stage.shared.timeline stage.shared.arena
  let sequence := { sequence with transposes := some transposes, lastPass := some pass }
  match pass with
  | .listing => return { sequence with stage }
  | .length =>
    let stage := measure stage
    return { sequence with
      stage
      length := (stage.tracks.map Track.totalTicks).foldl max 0 }
  | .midi =>
    return { sequence with
      stage := withoutMidi stage
      midi := some (midiOutput sequence.header transposes stage) }

/-- Runs one pass over all tracks. At `stopTime` every track is stopped; 0 sets no limit. -/
def runPass (sequence : Sequence σ) (pass : Pass) (stopTime : Nat) :
    Except Fault (Sequence σ) := do
  let setting := sequence.setting pass
  let limits : Limits := ⟨sequence.options.maxSteps, stopTime⟩
  let stage ← (sequence.openStage pass).play sequence.format setting limits
  sequence.closePass pass stage

def runMidi (sequence : Sequence σ) : Except Fault (Sequence σ) :=
  sequence.runPass .midi sequence.length

def load (sequence : Sequence σ) : Except Fault (Sequence σ) := do
  let sequence ← sequence.runPass .listing 0
  let sequence ← sequence.runPass .length 0
  sequence.runMidi

def withOptions (sequence : Sequence σ) (options : Options) : Sequence σ :=
  { sequence with options }

def withLoopCount (sequence : Sequence σ) (loopCount : Nat) : Sequence σ :=
  { sequence with options := { sequence.options with loopCount } }

def timeline (sequence : Sequence σ) : Timeline := sequence.stage.shared.timeline

def arena (sequence : Sequence σ) : Arena := sequence.stage.shared.arena

def tracks (sequence : Sequence σ) : List Track := sequence.stage.tracks

def currentTransposes (sequence : Sequence σ) : Except Fault Transposes :=
  match sequence.transposes with
  | some transposes => .ok transposes
  | none => .error .noTranspose

end Sequence
end Sequencer
