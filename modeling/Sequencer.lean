import Sequencer.Event
import Sequencer.Event.Arena
import Sequencer.Event.Description
import Sequencer.Fault
import Sequencer.Format
import Sequencer.Gzip
import Sequencer.Gzip.Bits
import Sequencer.Gzip.Checksum
import Sequencer.Gzip.Inflate
import Sequencer.Gzip.Prefix
import Sequencer.Midi
import Sequencer.Midi.File
import Sequencer.Number.Binary64
import Sequencer.Number.Decimal
import Sequencer.Number.Digits
import Sequencer.Player
import Sequencer.Player.Notes
import Sequencer.Player.Perform
import Sequencer.Proofs.Among.Advance
import Sequencer.Proofs.Among.Home
import Sequencer.Proofs.Among.Player
import Sequencer.Proofs.Among.Rows
import Sequencer.Proofs.Among.Shared
import Sequencer.Proofs.Among.Sheet
import Sequencer.Proofs.Arena
import Sequencer.Proofs.Charts
import Sequencer.Proofs.Due
import Sequencer.Proofs.Ensemble
import Sequencer.Proofs.FreeRun
import Sequencer.Proofs.Guard
import Sequencer.Proofs.Histories
import Sequencer.Proofs.InTurn.Player
import Sequencer.Proofs.InTurn.Run
import Sequencer.Proofs.InTurn.Stage
import Sequencer.Proofs.Isolation
import Sequencer.Proofs.Junctions
import Sequencer.Proofs.Lines
import Sequencer.Proofs.Listing
import Sequencer.Proofs.Loading
import Sequencer.Proofs.Lockstep
import Sequencer.Proofs.LoopGuard
import Sequencer.Proofs.Measure
import Sequencer.Proofs.NotePairs
import Sequencer.Proofs.Outcome
import Sequencer.Proofs.Passes
import Sequencer.Proofs.Player.Alike
import Sequencer.Proofs.Player.Aside
import Sequencer.Proofs.Player.Guise
import Sequencer.Proofs.Player.Notes
import Sequencer.Proofs.Player.Perform
import Sequencer.Proofs.Player.Stance
import Sequencer.Proofs.Ramps
import Sequencer.Proofs.RefSeq.Advance
import Sequencer.Proofs.RefSeq.Control
import Sequencer.Proofs.RefSeq.Encoding
import Sequencer.Proofs.RefSeq.Extent
import Sequencer.Proofs.RefSeq.Layout
import Sequencer.Proofs.RefSeq.Operands
import Sequencer.Proofs.RefSeq.Quiet
import Sequencer.Proofs.Relates
import Sequencer.Proofs.Rounds
import Sequencer.Proofs.Schedule
import Sequencer.Proofs.Score.Labels
import Sequencer.Proofs.Score.Notes
import Sequencer.Proofs.Score.Pairing
import Sequencer.Proofs.Score.Perform
import Sequencer.Proofs.Score.Player
import Sequencer.Proofs.Score.Run
import Sequencer.Proofs.Settled
import Sequencer.Proofs.SingleTicks
import Sequencer.Proofs.Solo
import Sequencer.Proofs.Spent
import Sequencer.Proofs.Stable
import Sequencer.Proofs.Stints
import Sequencer.Proofs.Strides
import Sequencer.Proofs.Structured
import Sequencer.Proofs.StructuredPass
import Sequencer.Proofs.SoundingWithin
import Sequencer.Proofs.Sweep
import Sequencer.Proofs.TickSync
import Sequencer.Proofs.Unrolled
import Sequencer.Proofs.Visits
import Sequencer.Ramp
import Sequencer.RefSeq.Assembler
import Sequencer.RefSeq.Decoder
import Sequencer.RefSeq.Instruction
import Sequencer.RefSeq.Opcode
import Sequencer.Script
import Sequencer.Sequence
import Sequencer.Sequence.Report
import Sequencer.Source
import Sequencer.Stage
import Sequencer.Text.CharClass
import Sequencer.Text.Columns
import Sequencer.Text.EmojiClass
import Sequencer.Text.Quoted
import Sequencer.Text.Ranges
import Sequencer.Text.Utf8
import Sequencer.Text.Width
import Sequencer.Text.WidthClass
import Sequencer.Tick
import Sequencer.Timeline
import Sequencer.Timeline.Active
import Sequencer.Timeline.Sweep
import Sequencer.Tool
import Sequencer.Tool.Arguments
import Sequencer.Tool.Files
import Sequencer.Tool.Listing
import Sequencer.Track
import Sequencer.Track.Flow
import Sequencer.Track.Guard
import Sequencer.Track.Notes
import Sequencer.Transpose
import Sequencer.Main
import Sequencer.Proofs.RefSeq.Tracks
import Sequencer.Proofs.Text.Utf8
import Sequencer.Proofs.StraightLine
import Sequencer.Proofs.Bytes
import Sequencer.Proofs.Lists
import Sequencer.Proofs.Walk
import Sequencer.Proofs.Upkeep
import Sequencer.Proofs.Score.Couples
import Sequencer.Proofs.Score.Voicing
import Sequencer.Proofs.Score.Voiced
import Sequencer.Proofs.NoteCouples
import Sequencer.Proofs.Midi.Range
import Sequencer.Proofs.Midi.File
import Sequencer.Proofs.Midi.Delays
import Sequencer.Proofs.Player.Strength
import Sequencer.Proofs.RefSeq.Strength
import Sequencer.Proofs.Conductor
import Sequencer.Proofs.Representable
import Sequencer.Proofs.Player.Written
import Sequencer.Proofs.RefSeq.Readings
import Sequencer.Proofs.OwnTransposes
import Sequencer.Proofs.NoteNames
import Sequencer.Proofs.NoteReadings
import Sequencer.Proofs.Player.Spans
import Sequencer.Proofs.NoteSpans
import Sequencer.Proofs.Player.Levels
import Sequencer.Proofs.LevelChanges
import Sequencer.Proofs.TransposeChanges
import Sequencer.Proofs.Concert
import Sequencer.Proofs.Player.Registers
import Sequencer.Proofs.Moments
import Sequencer.Proofs.Cycle
import Sequencer.Proofs.LoopLength
import Sequencer.Proofs.NoteKeys
import Sequencer.Proofs.RampChanges
import Sequencer.Proofs.RefSeq.Opening
import Sequencer.Proofs.RefSeq.Truncation
import Sequencer.Proofs.Beats
import Sequencer.Proofs.Midi.Finished
import Sequencer.Proofs.EventBytes
import Sequencer.Proofs.Score.Revisions
import Sequencer.Proofs.Player.Revisions
import Sequencer.Proofs.Player.Places
import Sequencer.Proofs.Midway
import Sequencer.Proofs.NoteRevisions
import Sequencer.Proofs.ArenaContents
import Sequencer.Proofs.Score.Accounts
import Sequencer.Proofs.Player.Orderly
import Sequencer.Proofs.Coherence
