import Sequencer.Format

/-! How the tracks of a sequence are played through a pass: one after another, or together,
tick by tick. Both end, because a track decodes a limited number of instructions and the
clock has a last tick. -/
namespace Sequencer

/-- What ends a track beside its own instructions. -/
structure Limits where
  maxSteps : Nat
  /-- The tick at which a track is stopped; 0 sets no limit. -/
  stopTime : Nat
deriving DecidableEq, Repr

structure Stage (σ : Type) where
  tracks : List Track
  shared : Shared
  memory : σ

structure Performer (σ : Type) where
  player : Player
  memory : σ

variable {σ : Type}

def Performer.finish (performer : Performer σ) : Except Fault (Performer σ) := do
  return ⟨← performer.player.finish, performer.memory⟩

def Track.timeIsUp (track : Track) (stopTime : Nat) : Bool :=
  stopTime ≠ 0 && stopTime ≤ track.time

def Track.isDue (track : Track) : Bool := track.active && track.cursor.delay = 0

namespace Format

/-- Decodes one instruction and says whether the track goes on. Data that make no sense end
it. -/
def step (format : Format σ) (performer : Performer σ) : Except Fault (Bool × Performer σ) := do
  let ⟨player, memory⟩ := performer
  let player := player.withTrack { player.track with steps := player.track.steps + 1 }
  let ((result, memory), player) ← (format.decode memory player).run player
  let more := match result with
    | .ok more => more
    | .error _ => false
  return (more, ⟨player, memory⟩)

/-- Plays a track to its end. `budget` is the number of instructions it may still decode. -/
def playThrough (format : Format σ) (stopTime : Nat) :
    (budget : Nat) → Performer σ → Except Fault (Performer σ)
  | 0, performer => performer.finish
  | budget + 1, performer =>
    if performer.player.track.timeIsUp stopTime then performer.finish
    else do
      let (more, ⟨player, memory⟩) ← format.step performer
      if more then
        let player := player.withTrack
          { player.track with cursor := { player.track.cursor with delay := 0 } }
        playThrough format stopTime budget ⟨player, memory⟩
      else Performer.finish ⟨player, memory⟩

def playDue (format : Format σ) (stopTime : Nat) :
    (budget : Nat) → Performer σ → Except Fault (Performer σ)
  | 0, performer =>
    if performer.player.track.isDue then performer.finish else .ok performer
  | budget + 1, performer =>
    if performer.player.track.isDue then
      if performer.player.track.timeIsUp stopTime then performer.finish
      else do
        let (more, performer) ← format.step performer
        if more then playDue format stopTime budget performer else performer.finish
    else .ok performer

end Format

namespace Stage

def eachTrack (play : Performer σ → Except Fault (Performer σ)) (setting : Setting) :
    List Track → Shared → σ → Except Fault (Stage σ)
  | [], shared, memory => .ok ⟨[], shared, memory⟩
  | track :: rest, shared, memory => do
    let ⟨⟨_, track, shared⟩, memory⟩ ← play ⟨⟨setting, track, shared⟩, memory⟩
    let ⟨rest, shared, memory⟩ ← eachTrack play setting rest shared memory
    return ⟨track :: rest, shared, memory⟩

def forTracks (stage : Stage σ) (setting : Setting)
    (play : Performer σ → Except Fault (Performer σ)) : Except Fault (Stage σ) :=
  let ⟨tracks, shared, memory⟩ := stage
  eachTrack play setting tracks shared memory

def playInTurn (format : Format σ) (setting : Setting) (limits : Limits) (stage : Stage σ) :
    Except Fault (Stage σ) :=
  stage.forTracks setting fun performer =>
    format.playThrough limits.stopTime (limits.maxSteps - performer.player.track.steps) performer

def isActive (stage : Stage σ) : Bool := stage.tracks.any Track.active

def moveMaster (writing : Bool) (tick : Nat) (shared : Shared) : Shared :=
  match shared.masterRamp with
  | none => shared
  | some ramp =>
    let shared :=
      if ramp.changesAt tick then
        let value := UInt8.ofNat (ramp.valueAt tick)
        let shared := { shared with masterVolume := value }
        if writing then
          { shared with
            conductor := shared.conductor.push
              ⟨tick, 0, .masterVolume (masterVolume14 value), none⟩ }
        else shared
      else shared
    if ramp.stop ≤ tick then { shared with masterRamp := none } else shared

/-- What happens at one tick: first the instructions that are due, track by track, then the
ramps. -/
def playTick (format : Format σ) (setting : Setting) (limits : Limits) (tick : Nat)
    (stage : Stage σ) : Except Fault (Stage σ) := do
  let stage ← stage.forTracks setting fun performer =>
    format.playDue limits.stopTime (limits.maxSteps - performer.player.track.steps) performer
  let stage ← stage.forTracks setting fun ⟨player, memory⟩ =>
    .ok ⟨if player.track.active then player.moveDials tick else player, memory⟩
  return { stage with shared := moveMaster (setting.pass = .midi) tick stage.shared }

def finishAll (setting : Setting) (stage : Stage σ) : Except Fault (Stage σ) :=
  stage.forTracks setting fun performer =>
    if performer.player.track.active then performer.finish else .ok performer

def nextRamp (stage : Stage σ) (tick : Nat) : Option Nat :=
  let ofTracks := stage.tracks.filterMap fun track =>
    if track.active then track.dials.nextChange tick else none
  let ofMaster := stage.shared.masterRamp.bind fun ramp => ramp.nextChange tick
  (ofTracks ++ ofMaster.toList).min?

/-- How far the clock can go without missing an instruction or a message of a ramp. -/
def idleTicks (tick : Nat) (stage : Stage σ) : Nat :=
  let delays := stage.tracks.filterMap fun track =>
    if track.active then some track.cursor.delay else none
  let nextStep := max (delays.min?.getD 1) 1
  match stage.nextRamp tick with
  | none => nextStep
  | some next => min nextStep (max (next - tick) 1)

def pass (ticks : Nat) (stage : Stage σ) : Stage σ :=
  { stage with
    tracks := stage.tracks.map fun track =>
      if track.active then
        { track with cursor := { track.cursor with delay := track.cursor.delay - ticks } }
      else track }

/-- Plays all tracks against one clock, from `tick` on. `stride` says how far the clock goes
after each tick that is played. -/
def playTogether (format : Format σ) (setting : Setting) (limits : Limits)
    (stride : Nat → Stage σ → Nat) (tick : Nat) (stage : Stage σ) : Except Fault (Stage σ) := do
  let stage ← stage.playTick format setting limits tick
  if stage.isActive then
    let ticks := max (stride tick stage) 1
    if tick + ticks ≤ Tick.last then
      playTogether format setting limits stride (tick + ticks) (stage.pass ticks)
    else stage.finishAll setting
  else return stage
termination_by Tick.last - tick

def play (format : Format σ) (setting : Setting) (limits : Limits) (stage : Stage σ) :
    Except Fault (Stage σ) :=
  if setting.tickSync then stage.playTogether format setting limits idleTicks 0
  else stage.playInTurn format setting limits

end Stage
end Sequencer
