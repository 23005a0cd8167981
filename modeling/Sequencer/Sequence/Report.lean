import Sequencer.Event.Description
import Sequencer.Sequence

/-! What a sequence says about itself: the names of its notes, figures of its tracks, and a
one-line text. -/
namespace Sequencer

structure TrackSummary where
  index : Nat
  channel : UInt8
  startOffset : Nat
  eventCount : Nat
  totalTicks : Nat
  trips : Nat
  midiCount : Nat

structure Summary where
  format : String
  name : String
  ticksPerQuarter : UInt16
  tempo : Float
  tickSync : Bool
  length : Nat
  eventCount : Nat
  tracks : List TrackSummary

namespace Sequence

variable {σ : Type}

/-- The name of the key that a note's entry sounds as. Of the transposes for all tracks, every
one of the note's tick counts; of the track's own, those that it had decoded by then. Entries
that are no notes have no name. -/
def noteLabel (sequence : Sequence σ) (index : Nat) : Except Fault (Option String) := do
  let entry ← sequence.timeline.get index
  match sequence.arena.get? entry.event with
  | none => throw .outOfBounds
  | some event =>
    match event.kind.key? with
    | none => return none
    | some key =>
      let transposes ← sequence.currentTransposes
      let own ← transposes.entryTranspose index
      return some (noteName (key.toNat + (transposes.allAt entry.start + own)))

def trackSummary (sequence : Sequence σ) (track : Track) : TrackSummary :=
  { index := track.index
    channel := track.channel
    startOffset := track.startOffset
    eventCount := (sequence.arena.ofTrack track.index).length
    totalTicks := track.measuredTicks
    trips := track.measuredTrips
    midiCount := ((sequence.midi.bind fun midi => midi.tracks[track.index]?).map
      MidiTrack.size).getD 0 }

/-- Lengths and trips are those that were measured last. -/
def summary (sequence : Sequence σ) : Summary :=
  { format := sequence.format.name
    name := sequence.header.name
    ticksPerQuarter := sequence.header.ticksPerQuarter
    tempo := sequence.header.tempo
    tickSync := sequence.header.tickSync
    length := sequence.length
    eventCount := sequence.arena.size
    tracks := sequence.tracks.map sequence.trackSummary }

def recordText (name : String) (fields : List (String × String)) : String :=
  name ++ " \x7b " ++ ", ".intercalate (fields.map fun (label, text) => label ++ ": " ++ text) ++
    " \x7d"

def optionText (text : Option String) : String :=
  text.elim "None" fun text => "Some(" ++ text ++ ")"

def passText : Pass → String
  | .listing => "AddToUi"
  | .length => "FindDeltaLength"
  | .midi => "ConvertToMidi"

def headerText (header : Header) : String :=
  recordText "SeqHeader"
    [("ppqn", toString header.ticksPerQuarter),
      ("initial_tempo_bpm", Number.shortest header.tempo),
      ("tick_sync", toString header.tickSync),
      ("initial_volume", toString header.volume),
      ("initial_expression", toString header.expression),
      ("initial_pan", toString header.pan),
      ("initial_program", optionText (header.program.map toString)),
      ("name", Text.quoted header.name)]

def text (sequence : Sequence σ) : String :=
  recordText "Sequence"
    [("format", Text.quoted sequence.format.name),
      ("header", headerText sequence.header),
      ("tracks", toString sequence.tracks.length),
      ("events", toString sequence.arena.size),
      ("delta_length", toString sequence.length),
      ("last_pass", optionText (sequence.lastPass.map passText))]

end Sequence
end Sequencer
