import Sequencer.Sequence.Report
import Sequencer.Text.Columns

/-! What the tool prints about a sequence: its header and figures, its events, and what sounds
when. -/
namespace Sequencer.Tool

inductive ListingError
  | noTrack (track count : Nat)
  | backwards (first last : Nat)
  | fault (fault : Fault)
deriving DecidableEq, Repr

def linesText (lines : List String) : String := String.join (lines.map (· ++ "\n"))

variable {σ : Type}

def eventRow (offset length name description : String) : String :=
  offset ++ " " ++ Number.alignLeft 6 length ++ " " ++ Text.padTo 20 name ++ " " ++ description

def eventLine (event : Event) : String :=
  eventRow (Number.hex 6 event.offset) (toString event.length) event.kind.name
    event.kind.description

def trackLines (sequence : Sequence σ) (track : Track) : List String :=
  [s!"Track {track.index} (channel {track.channel}, start {Number.hex 4 track.startOffset})",
    eventRow (Number.alignLeft 8 "Offset") "Length" "Event" "Description",
    String.ofList (List.replicate 72 '-')] ++
  (sequence.arena.ofTrack track.index).map (fun entry => eventLine entry.2) ++ [""]

def eventsText (sequence : Sequence σ) (chosen : Option Nat) : Except ListingError String :=
  match chosen with
  | none => .ok (linesText (sequence.tracks.flatMap (trackLines sequence)))
  | some index =>
    match sequence.tracks[index]? with
    | none => .error (.noTrack index sequence.tracks.length)
    | some track => .ok (linesText (trackLines sequence track))

/-- An entry with its note's name, or with its operands. -/
def entryLine (sequence : Sequence σ) (index : Nat) : Except Fault String := do
  let entry ← sequence.timeline.get index
  match sequence.arena.get? entry.event with
  | none => throw .outOfBounds
  | some event =>
    let label ← sequence.noteLabel index
    let place := Number.alignLeft 2 (toString event.track)
    let start := Number.alignRight 6 (toString entry.start)
    let duration := Number.alignLeft 6 (toString entry.duration)
    return s!"  trk {place} {start}+{duration} {Text.padTo 16 event.kind.name} " ++
      label.getD event.kind.description

def tickText (sequence : Sequence σ) (tick : Nat) (sounding : List Nat) :
    Except Fault String := do
  let lines ← sounding.mapM (entryLine sequence)
  return linesText (s!"Tick {tick}: {sounding.length} active" :: lines)

/-- Of `count` ticks from `tick` on, those at which other entries sound than at the tick
before. -/
def sweepText (sequence : Sequence σ) : (count : Nat) → (tick : Nat) → Sweep →
    (previous : Option (List Nat)) → (text : String) → Except Fault String
  | 0, _, _, _, text => .ok text
  | count + 1, tick, sweep, previous, text => do
    let sweep := sweep.advance sequence.timeline tick
    let sounding := sweep.sounding
    if previous = some sounding then
      sweepText sequence count (tick + 1) sweep previous text
    else
      let change ← tickText sequence tick sounding
      sweepText sequence count (tick + 1) sweep (some sounding) (text ++ change)

/-- What sounds from the first tick to the last one; without a last one, at the first. -/
def timelineText (sequence : Sequence σ) (first : Nat) (last : Option Nat) :
    Except ListingError String := do
  let sweep ← sequence.timeline.sweep.mapError .fault
  let last := last.getD first
  if last < first then throw (.backwards first last)
  (sweepText sequence (last - first + 1) first sweep none "").mapError .fault

def cell (text : String) : Text.Cell := { text }

def numberCell (n : Nat) : Text.Cell := { text := toString n, toRight := true }

def headerRows (file : String) (options : Options) (summary : Summary) :
    List (List Text.Cell) :=
  [("File", file), ("Format", summary.format),
    ("Name", if summary.name = "" then "(none)" else summary.name),
    ("PPQN", toString summary.ticksPerQuarter), ("Tempo", bpmText summary.tempo),
    ("Scheduling", if summary.tickSync then "tick-synchronized" else "sequential"),
    ("Loops", toString options.loopCount), ("Length", s!"{summary.length} ticks"),
    ("Events", toString summary.eventCount)].map fun (label, value) => [cell label, cell value]

def trackRow (track : TrackSummary) : List Text.Cell :=
  [numberCell track.index, numberCell track.channel.toNat, cell (Number.hex 4 track.startOffset),
    numberCell track.eventCount, numberCell track.totalTicks, numberCell track.trips,
    numberCell track.midiCount]

def trackRows (summary : Summary) : List (List Text.Cell) :=
  ["Track", "Ch", "Start", "Events", "Ticks", "Loops", "MIDI"].map cell ::
    summary.tracks.map trackRow

def infoText (file : String) (sequence : Sequence σ) : String :=
  let summary := sequence.summary
  linesText (Text.tableLines (headerRows file sequence.options summary) ++ [""] ++
    Text.tableLines (trackRows summary))

end Sequencer.Tool
