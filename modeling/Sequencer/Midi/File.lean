import Sequencer.Midi
import Sequencer.Source
import Sequencer.Text.Utf8

/-! MIDI files. Each track of a finished output becomes a list of delayed events, and the
lists become the chunks of a file of format 1, the conductor's track first. -/
namespace Sequencer

inductive FileEvent
  /-- A message to a channel, by its status byte. -/
  | voice (status : UInt8) (data : List UInt8)
  /-- A message to a whole device, without its leading byte `F0`. -/
  | exclusive (data : List UInt8)
  | info (type : UInt8) (data : List UInt8)
deriving DecidableEq, Repr

structure DelayedEvent where
  delay : Nat
  event : FileEvent
deriving DecidableEq, Repr

namespace FileEvent

def toChannel (status channel : UInt8) (data : List UInt8) : FileEvent :=
  .voice (status ||| channel &&& 0x0F) (data.map (· &&& 0x7F))

def sevenBits (n : Nat) : UInt8 := UInt8.ofNat (n % 128)

/-- A bend as 14 bits, with its middle at `0x2000`. -/
def bendNumber (bend : Int) : Nat := (min (max bend (-0x2000)) 0x1FFF + 0x2000).toNat

def trackName (name : String) : FileEvent := .info 0x03 (Text.Utf8.encode name)

def endOfTrack : FileEvent := .info 0x2F []

def masterVolumeBody (volume : Nat) : List UInt8 :=
  [0x7F, 0x7F, 0x04, 0x01, sevenBits volume, sevenBits (volume / 128), 0xF7]

def masterVolume (volume : Nat) : FileEvent := .exclusive (masterVolumeBody volume)

def ofMessage (channel : UInt8) : MidiMessage → FileEvent
  | .noteOn key velocity => toChannel 0x90 channel [key, velocity]
  | .noteOff key => toChannel 0x80 channel [key, 0]
  | .control controller value => toChannel 0xB0 channel [controller, value]
  | .program number => toChannel 0xC0 channel [number]
  | .pitchBend bend =>
    toChannel 0xE0 channel [sevenBits (bendNumber bend), sevenBits (bendNumber bend / 128)]
  | .masterVolume volume => masterVolume volume
  | .tempo micros => .info 0x51 (toBigEndian 3 micros)
  | .timeSignature numerator denominatorPower clocksPerClick thirtySecondsPerQuarter =>
    .info 0x58 [numerator, denominatorPower, clocksPerClick, thirtySecondsPerQuarter]
  | .marker text => .info 0x06 (Text.Utf8.encode text)
  | .endOfTrack => endOfTrack

end FileEvent

def MidiMessage.exclusiveBody? : MidiMessage → Option (List UInt8)
  | .masterVolume volume => some (FileEvent.masterVolumeBody volume)
  | _ => none

def MidiMessage.markerText? : MidiMessage → Option (List UInt8)
  | .marker text => some (Text.Utf8.encode text)
  | _ => none

/-- The data of the events of a track that have no fixed size, each kind in the order of its
events. -/
structure Payload where
  exclusives : List (List UInt8) := []
  markers : List (List UInt8) := []

def Payload.ofEvents (events : List MidiEvent) : Payload :=
  { exclusives := events.filterMap fun event => event.message.exclusiveBody?
    markers := events.filterMap fun event => event.message.markerText? }

/-- The next event of a file, and what is left of the payload. There is none if the payload
has no data for it. -/
def Payload.take? (payload : Payload) (event : MidiEvent) : Option (FileEvent × Payload) :=
  match event.message with
  | .masterVolume _ =>
    match payload.exclusives with
    | [] => none
    | body :: exclusives => some (.exclusive body, { payload with exclusives })
  | .marker _ =>
    match payload.markers with
    | [] => none
    | text :: markers => some (.info 0x06 text, { payload with markers })
  | message => some (.ofMessage event.channel message, payload)

def delayBound : Nat := Nat.pow 2 28

structure Delays where
  events : Array DelayedEvent := #[]
  tick : Nat := 0
  payload : Payload := {}

/-- Appends an event. One before the latest tick has no delay, and one without its data is
left out. -/
def Delays.push (delays : Delays) (event : MidiEvent) : Delays :=
  match delays.payload.take? event with
  | none => delays
  | some (written, payload) =>
    { events := delays.events.push ⟨(event.tick - delays.tick) % delayBound, written⟩
      tick := max delays.tick event.tick
      payload }

def MidiTrack.fileEvents (name : String) (track : MidiTrack) : Array DelayedEvent :=
  let named : Delays :=
    { events := #[⟨0, .trackName name⟩], payload := .ofEvents track.events.toList }
  let events := (track.events.foldl Delays.push named).events
  if track.events.any isEnd then events else events.push ⟨0, .endOfTrack⟩

def continuedBytes (n : Nat) : List UInt8 :=
  if n = 0 then [] else continuedBytes (n / 128) ++ [UInt8.ofNat (128 + n % 128)]
termination_by n

/-- Seven bits a byte, the most significant first. All bytes but the last have bit 7 set. -/
def variableLength (n : Nat) : List UInt8 :=
  continuedBytes (n / 128) ++ [UInt8.ofNat (n % 128)]

/-- The bytes of a track so far, and the status byte that the next message to a channel need
not repeat. -/
structure TrackWriter where
  bytes : Array UInt8 := #[]
  running : Option UInt8 := none

def TrackWriter.write (writer : TrackWriter) (delayed : DelayedEvent) : TrackWriter :=
  let bytes := writer.bytes ++ variableLength delayed.delay
  match delayed.event with
  | .voice status data =>
    if writer.running = some status then ⟨bytes ++ data, some status⟩
    else ⟨bytes ++ status :: data, some status⟩
  | .exclusive data => ⟨bytes ++ 0xF0 :: variableLength data.length ++ data, none⟩
  | .info type data => ⟨bytes ++ [0xFF, type] ++ variableLength data.length ++ data, none⟩

def chunk (kind : String) (body : Array UInt8) : Array UInt8 :=
  (Text.Utf8.encode kind ++ toBigEndian 4 body.size).toArray ++ body

def trackChunk (events : Array DelayedEvent) : Array UInt8 :=
  chunk "MTrk" (events.foldl TrackWriter.write {}).bytes

/-- Format 1, the number of tracks, and 15 bits of ticks per quarter note. -/
def headerChunk (trackCount : Nat) (ticksPerQuarter : UInt16) : Array UInt8 :=
  chunk "MThd" (toBigEndian 2 1 ++ toBigEndian 2 trackCount ++
    toBigEndian 2 (ticksPerQuarter &&& 0x7FFF).toNat).toArray

def MidiOutput.fileTracks (name : String) (output : MidiOutput) :
    List (Array DelayedEvent) :=
  output.conductor.fileEvents (if name = "" then "Conductor" else name) ::
    output.tracks.mapIdx fun index track => track.fileEvents s!"Track {index}"

def MidiOutput.fileBytes (name : String) (output : MidiOutput) : Array UInt8 :=
  let tracks := output.fileTracks name
  tracks.foldl (fun bytes events => bytes ++ trackChunk events)
    (headerChunk tracks.length output.ticksPerQuarter)

end Sequencer
