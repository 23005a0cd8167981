import Sequencer.Player.Notes

/-! What a player does for each kind of instruction. -/
namespace Sequencer

namespace EventKind

/-- The power of two that a metre's denominator is, or of a quarter if it is none. -/
def denominatorPower (denominator : UInt8) : Nat :=
  ((List.range 8).find? fun power => Nat.pow 2 power = denominator.toNat).getD 2

/-- The messages of instructions that act on nothing but the MIDI track. -/
def messages : EventKind → List MidiMessage
  | .program number => [.program (number &&& 0x7F)]
  | .bank number =>
    [.control Controller.bankHigh ((number >>> 7) &&& 0x7F).toUInt8,
      .control Controller.bankLow (number &&& 0x7F).toUInt8]
  | .pitchBend bend => [.pitchBend (max (-8192) (min 8191 bend.toInt))]
  | .bendRange semitones cents =>
    [.control Controller.parameterHigh 0, .control Controller.parameterLow 0,
      .control Controller.dataEntryHigh (semitones &&& 0x7F),
      .control Controller.dataEntryLow (cents &&& 0x7F)]
  | .modulation depth => [.control Controller.modulation (depth &&& 0x7F)]
  | .breath value => [.control Controller.breath (value &&& 0x7F)]
  | .sustain on => [.control Controller.sustain (if on then 127 else 0)]
  | .portamento on => [.control Controller.portamento (if on then 127 else 0)]
  | .portamentoTime time => [.control Controller.portamentoTime (time &&& 0x7F)]
  | .reverb amount => [.control Controller.reverb (amount &&& 0x7F)]
  | .chorus amount => [.control Controller.chorus (amount &&& 0x7F)]
  | .controller number value => [.control (number &&& 0x7F) (value &&& 0x7F)]
  | .marker text => [.marker text]
  | _ => []

end EventKind

/-- The metre message: a metronome click every 96 / denominator clocks. -/
def metreMessage (numerator denominator : UInt8) : MidiMessage :=
  let power := EventKind.denominatorPower denominator
  .timeSignature numerator (UInt8.ofNat power) (UInt8.ofNat (max (96 / Nat.pow 2 power) 1)) 8

namespace Player

/-- Sets a level at once. A ramp that moves it is given up. -/
def setLevel (player : Player) (dial : Dial) (value : UInt8) : Player :=
  let player := { player with
    track := { player.track with dials := player.track.dials.set dial ⟨value, none⟩ } }
  player.emit player.now (.control dial.controller value) none

/-- Lets a level glide to a target. Tracks that keep time together move it tick by tick;
otherwise its messages are written ahead and the level is the target at once. -/
def slideLevel (player : Player) (dial : Dial) (target : UInt8) (duration : Nat) : Player :=
  let state := player.track.dials.get dial
  let ramp := Ramp.between .level player.now duration state.level.toNat target.toNat
  if player.setting.tickSync then
    { player with
      track := { player.track with
        dials := player.track.dials.set dial { state with ramp := some ramp } } }
  else
    let player :=
      if player.writing then
        ramp.changes.foldl (fun player (tick, value) =>
          player.emit tick (.control dial.controller (UInt8.ofNat value)) none) player
      else player
    { player with
      track := { player.track with
        dials := player.track.dials.set dial { state with level := target } } }

def moveDial (player : Player) (tick : Nat) (dial : Dial) : Player :=
  let state := player.track.dials.get dial
  match state.ramp with
  | none => player
  | some ramp =>
    let ramp' := if ramp.stop ≤ tick then none else some ramp
    if ramp.changesAt tick then
      let value := UInt8.ofNat (ramp.valueAt tick)
      let player := player.emit tick (.control dial.controller value) none
      { player with
        track := { player.track with dials := player.track.dials.set dial ⟨value, ramp'⟩ } }
    else
      { player with
        track := { player.track with dials := player.track.dials.set dial ⟨state.level, ramp'⟩ } }

def moveDials (player : Player) (tick : Nat) : Player :=
  ((player.moveDial tick .volume).moveDial tick .expression).moveDial tick .pan

def setMasterLevel (player : Player) (value : UInt8) : Player :=
  let player := { player with
    shared := { player.shared with masterVolume := value, masterRamp := none } }
  player.conduct player.now (.masterVolume (masterVolume14 value))

def slideMasterLevel (player : Player) (target : UInt8) (duration : Nat) : Player :=
  let ramp := Ramp.between .level player.now duration player.shared.masterVolume.toNat
    target.toNat
  if player.setting.tickSync then
    { player with shared := { player.shared with masterRamp := some ramp } }
  else
    let player :=
      if player.writing then
        ramp.changes.foldl (fun player (tick, value) =>
          player.conduct tick (.masterVolume (masterVolume14 (UInt8.ofNat value)))) player
      else player
    { player with shared := { player.shared with masterVolume := target } }

def setTempo (player : Player) (bpm : Float) : Player :=
  let player := { player with shared := { player.shared with tempo := bpm } }
  player.conduct player.now (.tempo (microsOfBpm bpm))

def slideTempo (player : Player) (target : Float) (duration : Nat) : Player :=
  let ramp : Ramp := ⟨.tempo, player.now, duration, player.shared.tempo, target⟩
  let player :=
    if player.writing then
      ramp.changes.foldl (fun player (tick, micros) => player.conduct tick (.tempo micros)) player
    else player
  { player with shared := { player.shared with tempo := target } }

/-- Takes a turn if the loop guard lets it pass, and says whether the track goes on. A
refused transfer leaves the stacks as the turn left them. -/
def take (player : Player) : Turn → Except Fault (Bool × Player)
  | .halt => .ok (false, player)
  | .onward cursor => .ok (true, { player with track := { player.track with cursor } })
  | .transfer cursor destination => do
    let rule := player.setting.loopRule
    let (allowed, guard) ←
      player.track.guard.arrive rule (cursor.junction destination) player.track.time
    let cursor := if allowed then { cursor with offset := destination } else cursor
    return (allowed, { player with track := { player.track with cursor, guard } })

def goOn (player : Player) : Except Fault (Bool × Player) := .ok (true, player)

/-- Carries out an instruction whose timeline entry, if it has one, is `entry`. Says whether
the track goes on. -/
def perform (player : Player) (kind : EventKind) (entry : Option Nat) :
    Except Fault (Bool × Player) :=
  match kind with
  | .noteOn key velocity => do (← player.startNote key velocity entry).goOn
  | .noteOff key => do (← player.endNote key).goOn
  | .note key velocity duration => do
    (← player.startTimedNote key velocity duration entry).goOn
  | .rest ticks => (player.wait ticks).goOn
  | .hold ticks => do
    let player ← player.extendNotes (Tick.later player.track.time ticks)
    (player.wait ticks).goOn
  | .level dial value => (player.setLevel dial value).goOn
  | .slide dial target duration => (player.slideLevel dial target duration).goOn
  | .masterLevel value => (player.setMasterLevel value).goOn
  | .masterSlide target duration => (player.slideMasterLevel target duration).goOn
  | .tempo bpm => (player.setTempo bpm).goOn
  | .tempoSlide target duration => (player.slideTempo target duration).goOn
  | .timeSignature numerator denominator _ =>
    (player.conduct player.now (metreMessage numerator denominator)).goOn
  | .transpose .own semitones =>
    goOn { player with track := { player.track with transpose := semitones } }
  | .octave number => goOn { player with track := { player.track with octave := number } }
  | .keyCorrection semitones =>
    goOn { player with track := { player.track with keyCorrection := semitones } }
  | .drum key => goOn { player with track := { player.track with drum := key } }
  | .jump _ | .call .. | .ret | .loopStart _ | .loopEnd | .loopForever _ | .trackEnd =>
    player.take (player.track.cursor.turn player.setting.maxDepth kind)
  | kind => (player.emitAll kind.messages).goOn

end Player

inductive Operation
  | moveTo (offset : Nat)
  | useChannel (channel : UInt8)
  | record (span : Span) (kind : EventKind)
  | play (kind : EventKind)
  | extendNotes (tick : Nat)
  | limitNotes (tick : Nat)

namespace Player

def apply (player : Player) : Operation → Except Fault (Bool × Player)
  | .moveTo offset =>
    goOn { player with
      track := { player.track with cursor := { player.track.cursor with offset } } }
  | .useChannel channel =>
    goOn { player with track := { player.track with channel := channel &&& 0x0F } }
  | .record span kind =>
    let (entry, player) := player.record span kind
    player.perform kind (some entry)
  | .play kind => player.perform kind none
  | .extendNotes tick => do (← player.extendNotes tick).goOn
  | .limitNotes tick => do (← player.limitNotes tick).goOn

end Player
end Sequencer
