import Mathlib.Data.List.Forall2
import Sequencer.Midi.File
import Sequencer.Proofs.Bytes
import Sequencer.Proofs.Midi.Range
import Sequencer.Proofs.Text.Utf8

/-! Reading MIDI files back. A file has room for the low bits of each number. A message that has more
of them comes back as another one, and no other message does. -/
namespace Sequencer

namespace FileEvent

/-- The number whose low and high seven bits two bytes are. -/
def fourteenBits (low high : UInt8) : Nat := low.toNat + 128 * high.toNat

/-- The message to a channel that has a status byte of this kind. -/
def voice? (kind : UInt8) : List UInt8 → Option MidiMessage
  | [number] => if kind = 0xC0 then some (.program number) else none
  | [first, second] =>
    if kind = 0x80 then some (.noteOff first)
    else if kind = 0x90 then some (.noteOn first second)
    else if kind = 0xB0 then some (.control first second)
    else if kind = 0xE0 then some (.pitchBend ((fourteenBits first second : Int) - 0x2000))
    else none
  | _ => none

def exclusive? : List UInt8 → Option MidiMessage
  | [area, device, part, item, low, high, stop] =>
    if [area, device, part, item, stop] = [0x7F, 0x7F, 0x04, 0x01, 0xF7] then
      some (.masterVolume (fourteenBits low high))
    else none
  | _ => none

def info? (type : UInt8) (data : List UInt8) : Option MidiMessage :=
  if type = 0x51 then some (.tempo (bigEndian data))
  else if type = 0x58 then
    match data with
    | [numerator, denominatorPower, clocksPerClick, thirtySecondsPerQuarter] =>
      some (.timeSignature numerator denominatorPower clocksPerClick thirtySecondsPerQuarter)
    | _ => none
  else if type = 0x06 then some (.marker (Text.Utf8.decode data))
  else if type = 0x2F then some .endOfTrack
  else none

def message? : FileEvent → Option MidiMessage
  | .voice status data => voice? (status &&& 0xF0) data
  | .exclusive data => exclusive? data
  | .info type data => info? type data

def channel? : FileEvent → Option UInt8
  | .voice status _ => some (status &&& 0x0F)
  | _ => none

theorem toNat_sevenBits (n : Nat) : (sevenBits n).toNat = n % 128 := by
  have small : n % 128 < 128 := Nat.mod_lt n (by decide)
  exact UInt8.toNat_ofNat_of_lt' (show _ < 256 by omega)

theorem fourteenBits_sevenBits {n : Nat} (bound : n < 0x4000) :
    fourteenBits (sevenBits n) (sevenBits (n / 128)) = n := by
  rw [fourteenBits, toNat_sevenBits, toNat_sevenBits]
  omega

theorem sevenBits_and (n : Nat) : sevenBits n &&& 0x7F = sevenBits n := by
  rw [UInt8.and_seven_bits_iff, UInt8.le_iff_toNat_le, toNat_sevenBits]
  change n % 128 ≤ 127
  omega

theorem bigEndian_toBigEndian {n : Nat} (bound : n ≤ 0xFFFFFF) :
    bigEndian (toBigEndian 3 n) = n := by
  simp only [bigEndian, toBigEndian, List.reverse_reverse, toLittleEndian, littleEndian,
    UInt8.toNat_ofNat']
  omega

end FileEvent

/-- The message with as much of its strength as a file has room for. -/
def MidiMessage.masked : MidiMessage → MidiMessage
  | .noteOn key velocity => .noteOn key (velocity &&& 0x7F)
  | .control controller value => .control controller (value &&& 0x7F)
  | other => other

theorem MidiMessage.masked_eq_iff (message : MidiMessage) :
    message.masked = message ↔ message.strength ≤ 127 := by
  cases message <;> simp [masked, strength, UInt8.and_seven_bits_iff]

namespace FileEvent

theorem message_toChannel (status channel : UInt8) (data : List UInt8) :
    (toChannel status channel data).message? =
      voice? (status &&& 0xF0) (data.map (· &&& 0x7F)) := by
  have kind : (status ||| channel &&& 0x0F) &&& 0xF0 = status &&& 0xF0 := by
    rw [UInt8.or_and, UInt8.and_assoc, show (0x0F : UInt8) &&& 0xF0 = 0 from rfl, UInt8.and_zero,
      UInt8.or_zero]
  rw [toChannel, message?, kind]

/-- What comes back is the message, up to its strength. -/
theorem message_ofMessage {message : MidiMessage} (shaped : message.Shaped) (channel : UInt8) :
    (ofMessage channel message).message? = some message.masked := by
  have fits {n : UInt8} (small : n ≤ 127) : n &&& 0x7F = n := (UInt8.and_seven_bits_iff n).mpr small
  cases message with
  | noteOn key velocity =>
    rw [ofMessage, message_toChannel, List.map_cons, fits shaped]
    rfl
  | noteOff key =>
    rw [ofMessage, message_toChannel, List.map_cons, fits shaped]
    rfl
  | control controller value =>
    rw [ofMessage, message_toChannel, List.map_cons, fits shaped]
    rfl
  | program number =>
    rw [ofMessage, message_toChannel, List.map_cons, fits shaped]
    rfl
  | pitchBend bend =>
    obtain ⟨low, high⟩ := shaped
    have number : (bendNumber bend : Int) = bend + 0x2000 := by
      unfold bendNumber
      omega
    have back : (fourteenBits (sevenBits (bendNumber bend)) (sevenBits (bendNumber bend / 128)) : Int)
        - 0x2000 = bend := by
      rw [fourteenBits_sevenBits (by omega)]
      omega
    rw [ofMessage, message_toChannel, List.map_cons, List.map_cons, sevenBits_and, sevenBits_and]
    exact congrArg (some ∘ MidiMessage.pitchBend) back
  | masterVolume volume =>
    exact congrArg (some ∘ MidiMessage.masterVolume)
      (fourteenBits_sevenBits (Nat.lt_succ_of_le shaped))
  | tempo micros => exact congrArg (some ∘ MidiMessage.tempo) (bigEndian_toBigEndian shaped.2)
  | timeSignature => rfl
  | marker text => exact congrArg (some ∘ MidiMessage.marker) (Text.Utf8.decode_encode text)
  | endOfTrack => rfl

theorem channel_ofMessage {channel : UInt8} (small : channel ≤ 15) (message : MidiMessage) :
    ∀ found ∈ (ofMessage channel message).channel?, found = channel := by
  have kept {status : UInt8} (kind : status &&& 0x0F = 0) :
      (status ||| channel &&& 0x0F) &&& 0x0F = channel := by
    rw [UInt8.or_and, UInt8.and_assoc, kind, UInt8.and_self, UInt8.zero_or,
      UInt8.and_four_bits small]
  intro found member
  cases message with
  | noteOn | noteOff | control | program | pitchBend =>
    cases member
    exact kept rfl
  | masterVolume | tempo | timeSignature | marker | endOfTrack => cases member

end FileEvent

/-- The message with its channel as an event of a file. -/
def MidiEvent.written (event : MidiEvent) : FileEvent := .ofMessage event.channel event.message

/-- A reader of the file finds the message, and its channel if the file has one. -/
structure MidiEvent.ReadFrom (event : MidiEvent) (written : FileEvent) : Prop where
  message : written.message? = some event.message
  channel : ∀ channel ∈ written.channel?, channel = event.channel

theorem MidiEvent.Shaped.readFrom_iff {event : MidiEvent} (shaped : event.Shaped) :
    event.ReadFrom event.written ↔ event.message.strength ≤ 127 := by
  have found : event.written.message? = some event.message.masked :=
    FileEvent.message_ofMessage shaped.message event.channel
  rw [← event.message.masked_eq_iff]
  constructor
  · intro reads
    exact Option.some.inj (found.symm.trans reads.message)
  · intro same
    exact ⟨found.trans (congrArg some same), FileEvent.channel_ofMessage shaped.channel _⟩

/-- A file has the messages of the track, behind its name. -/
def MidiTrack.Survives (midi : MidiTrack) : Prop :=
  ∀ name, ∃ written,
    (midi.fileEvents name).toList.map DelayedEvent.event = .trackName name :: written ∧
      List.Forall₂ MidiEvent.ReadFrom midi.events.toList written

namespace MidiTrack

variable {midi : MidiTrack}

/-- The payload of a track is for its events, one after the other. -/
theorem take_ofEvents (event : MidiEvent) (rest : List MidiEvent) :
    (Payload.ofEvents (event :: rest)).take? event = some (event.written, .ofEvents rest) := by
  obtain ⟨tick, channel, message, transposeTick⟩ := event
  cases message <;> rfl

theorem push_ofEvents {delays : Delays} {event : MidiEvent} {rest : List MidiEvent}
    (all : delays.payload = .ofEvents (event :: rest)) :
    delays.push event =
      { events := delays.events.push ⟨(event.tick - delays.tick) % delayBound, event.written⟩
        tick := max delays.tick event.tick
        payload := .ofEvents rest } := by
  rw [Delays.push, all, take_ofEvents]

theorem events_push (events : List MidiEvent) (delays : Delays)
    (all : delays.payload = .ofEvents events) :
    (events.foldl Delays.push delays).events.toList.map DelayedEvent.event =
      delays.events.toList.map DelayedEvent.event ++ events.map MidiEvent.written := by
  induction events generalizing delays with
  | nil => simp
  | cons event rest ih =>
    rw [List.foldl_cons, push_ofEvents all, ih _ rfl]
    simp

/-- A track that has its end is written as it is. -/
theorem fileEvents_eq (name : String) (ends : ∃ event ∈ midi.events.toList, isEnd event = true) :
    (midi.fileEvents name).toList.map DelayedEvent.event =
      .trackName name :: midi.events.toList.map MidiEvent.written := by
  have ended : midi.events.any isEnd = true := by
    rw [← Array.any_toList]
    exact List.any_eq_true.mpr ends
  rw [fileEvents, ended, if_pos rfl, ← Array.foldl_toList, events_push _ _ rfl]
  rfl

theorem survives_iff (ends : ∃ event ∈ midi.events.toList, isEnd event = true)
    (shaped : ∀ event ∈ midi.events.toList, event.Shaped) :
    midi.Survives ↔ ∀ event ∈ midi.events.toList, event.Representable := by
  have each : List.Forall₂ MidiEvent.ReadFrom midi.events.toList
      (midi.events.toList.map MidiEvent.written) ↔
        ∀ event ∈ midi.events.toList, event.Representable := by
    rw [List.forall₂_map_right_iff, List.forall₂_same]
    refine forall₂_congr fun event member => ?_
    rw [(shaped event member).readFrom_iff, MidiEvent.representable_iff]
    exact (and_iff_right (shaped event member)).symm
  rw [← each]
  constructor
  · intro survives
    obtain ⟨written, found, reads⟩ := survives ""
    rw [fileEvents_eq "" ends] at found
    cases found
    exact reads
  · exact fun reads name => ⟨_, fileEvents_eq name ends, reads⟩

theorem exists_isEnd_finalize (midi : MidiTrack) :
    ∃ event ∈ midi.finalize.events.toList, isEnd event = true := by
  unfold finalize
  exact ⟨_, List.mem_append_right _ (List.mem_singleton.mpr rfl), decide_eq_true rfl⟩

end MidiTrack
end Sequencer
