import Sequencer.Gzip
import Sequencer.Midi.File
import Sequencer.RefSeq.Decoder
import Sequencer.Tool.Arguments
import Sequencer.Tool.Files
import Sequencer.Tool.Listing

/-! A run of the tool: it reads a file, plays its sequence as far as the command needs, and
prints a listing or writes a MIDI file. What it does is the same for every place that it can
read files from and write them to. -/
namespace Sequencer.Tool

structure Place (m : Type → Type) where
  input : m (Array UInt8)
  read : (name : String) → m (Except FileError (Array UInt8))
  write : (name : String) → Array UInt8 → m (Except FileError Unit)

inductive ToolError
  | unreadable (file : String) (error : FileError)
  | notDecompressed (error : Gzip.GzipError)
  | refused (file : String) (error : OpenError)
  | notListed (error : ListingError)
  | unwritable (file : String) (error : FileError)
deriving DecidableEq, Repr

def ListingError.message : ListingError → String
  | .noTrack track count => s!"track {track} out of range ({count} tracks)"
  | .backwards first last => s!"--until {last} is before --tick {first}"
  | .fault cause => cause.message

def ToolError.message : ToolError → String
  | .unreadable file error => s!"failed to read file: {file}: {error.message}"
  | .notDecompressed error => s!"gzip decompression failed: {error.message}"
  | .refused file error => s!"failed to parse sequence: {file}: {error.message}"
  | .notListed error => error.message
  | .unwritable file error => s!"failed to create file: {file}: {error.message}"

def streamName : String := "-"

/-- Whether a file is to be decompressed: its name or its first bytes say so. -/
def isCompressed (name : String) (bytes : Array UInt8) : Bool :=
  (extension? name).any (fun text => text.toLower = "gz") || Gzip.isCompressed bytes

def openSequence (settings : Settings) (file : String) (bytes : Array UInt8) :
    Except ToolError (Sequence Unit) := do
  let source ←
    if isCompressed file bytes then (Gzip.decompress bytes).mapError .notDecompressed
    else pure bytes
  let sequence ← (Sequence.ofSource RefSeq.format () source).mapError (.refused file)
  let usual : Options := {}
  return sequence.withOptions
    { usual with
      loopCount := settings.loopCount
      maxSteps := settings.maxSteps.getD usual.maxSteps }

/-- Runs the passes in their order, the given one last. -/
def playThrough (sequence : Sequence Unit) (last : Pass) : Except Fault (Sequence Unit) := do
  let sequence ← sequence.runPass .listing 0
  if last = .listing then return sequence
  let sequence ← sequence.runPass .length 0
  if last = .length then return sequence
  sequence.runMidi

/-- What a command has to say: text to print, or the bytes of a file. -/
inductive Product
  | listing (text : String)
  | file (name : String) (bytes : Array UInt8)

def Command.input : Command → String
  | .info file | .events file _ | .timeline file .. | .midi file _ => file

def Command.lastPass : Command → Pass
  | .events .. => .listing
  | .timeline _ _ _ pass => pass
  | .info _ | .midi .. => .midi

def midiBytes (sequence : Sequence Unit) : Array UInt8 :=
  sequence.midi.elim #[] fun midi => midi.fileBytes sequence.header.name

def Command.product (sequence : Sequence Unit) : Command → Except ListingError Product
  | .info file => .ok (.listing (infoText file sequence))
  | .events _ track => (eventsText sequence track).map .listing
  | .timeline _ first last _ => (timelineText sequence first last).map .listing
  | .midi _ output => .ok (.file output (midiBytes sequence))

def Command.ofBytes (command : Command) (settings : Settings) (bytes : Array UInt8) :
    Except ToolError Product := do
  let sequence ← openSequence settings command.input bytes
  let sequence ← (playThrough sequence command.lastPass).mapError fun fault =>
    .notListed (.fault fault)
  (command.product sequence).mapError .notListed

/-- How a run ends. A run without a problem has the status 0. -/
structure Outcome where
  status : UInt8 := 0
  output : Array UInt8 := #[]
  problem : String := ""

def Outcome.ofText (text : String) : Outcome := { output := (Text.Utf8.encode text).toArray }

def Outcome.failed (error : ToolError) : Outcome :=
  { status := 1, problem := s!"vgmseq: {error.message}\n" }

def versionText : String := "vgmseq 0.3.0\n"

def helpText : String := "Usage: vgmseq [OPTIONS] <info|events|timeline|midi> FILE [OUTPUT]\n"

variable {m : Type → Type} [Monad m]

def Place.readFile (place : Place m) (name : String) :
    m (Except FileError (Array UInt8)) :=
  if name = streamName then return .ok (← place.input) else place.read name

def Place.deliver (place : Place m) : Product → m Outcome
  | .listing text => return .ofText text
  | .file name bytes =>
    if name = streamName then return { output := bytes }
    else do
      match ← place.write name bytes with
      | .ok () => return {}
      | .error error => return .failed (.unwritable name error)

def runCommand (place : Place m) (command : Command) (settings : Settings) : m Outcome := do
  match ← place.readFile command.input with
  | .error error => return .failed (.unreadable command.input error)
  | .ok bytes =>
    match command.ofBytes settings bytes with
    | .error error => return .failed error
    | .ok product => place.deliver product

def run (place : Place m) (arguments : List String) : m Outcome :=
  match Request.ofArguments arguments with
  | .run command settings => runCommand place command settings
  | .version => return .ofText versionText
  | .help => return .ofText helpText
  | .misuse => return { status := 2, problem := helpText }

/-- A folder, with `input` at the standard input. -/
def Place.ofFolder (input : Array UInt8) : Place (StateM Folder) where
  input := return input
  read name := return (← get).read name
  write name bytes := do
    match (← get).write name bytes with
    | .ok folder =>
      set folder
      return .ok ()
    | .error error => return .error error

end Sequencer.Tool
