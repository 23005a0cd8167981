import Sequencer.Proofs.Player.Aside
import Sequencer.Proofs.RefSeq.Quiet

/-! What of a player no instruction asks for: which file it plays, whether it keeps time, whether it
plays on, how long it waits, and which ramps move its levels. Instructions are carried out the same
way with any of it, and say themselves what becomes of it. -/
namespace Sequencer

structure Stance where
  source : Source
  tickSync : Bool
  active : Bool
  delay : Nat
  ramps : Dial → Option Ramp
  master : Option Ramp

namespace Stance

def setRamp (stance : Stance) (dial : Dial) (ramp : Option Ramp) : Stance :=
  { stance with ramps := fun other => if other = dial then ramp else stance.ramps other }

/-- What is left when the track has stopped. -/
def ended (stance : Stance) : Stance := { stance with active := false, ramps := fun _ => none }

end Stance

def Dials.withRamps (dials : Dials) (ramps : Dial → Option Ramp) : Dials :=
  ⟨⟨dials.volume.level, ramps .volume⟩, ⟨dials.expression.level, ramps .expression⟩,
    ⟨dials.pan.level, ramps .pan⟩⟩

def Track.ramps (track : Track) (dial : Dial) : Option Ramp := (track.dials.get dial).ramp

namespace Player

def stance (player : Player) : Stance :=
  ⟨player.setting.source, player.setting.tickSync, player.track.active, player.track.cursor.delay,
    player.track.ramps, player.shared.masterRamp⟩

def withStance (player : Player) (stance : Stance) : Player where
  setting := { player.setting with source := stance.source, tickSync := stance.tickSync }
  track := { player.track with
    active := stance.active
    cursor := { player.track.cursor with delay := stance.delay }
    dials := player.track.dials.withRamps stance.ramps }
  shared := { player.shared with masterRamp := stance.master }

/-- The ramp on which a slide moves a level of the player. -/
def levelRamp (player : Player) (dial : Dial) (target : UInt8) (duration : Nat) : Ramp :=
  .between .level player.now duration (player.track.dials.get dial).level.toNat target.toNat

def masterRamp (player : Player) (target : UInt8) (duration : Nat) : Ramp :=
  .between .level player.now duration player.shared.masterVolume.toNat target.toNat

/-- What an instruction makes of the stance. -/
def steer (player : Player) (stance : Stance) : EventKind → Stance
  | .rest ticks | .hold ticks => { stance with delay := Tick.later stance.delay ticks }
  | .level dial _ => stance.setRamp dial none
  | .slide dial target duration =>
    if stance.tickSync then stance.setRamp dial (some (player.levelRamp dial target duration))
    else stance
  | .masterLevel _ => { stance with master := none }
  | .masterSlide target duration =>
    if stance.tickSync then { stance with master := some (player.masterRamp target duration) }
    else stance
  | _ => stance

def withDial (player : Player) (dial : Dial) (state : DialState) : Player :=
  { player with track := { player.track with dials := player.track.dials.set dial state } }

variable (player : Player) (stance : Stance)

@[simp] theorem withStance_stance : player.withStance player.stance = player := rfl

@[simp] theorem stance_withStance : (player.withStance stance).stance = stance := by
  obtain ⟨source, tickSync, active, delay, ramps, master⟩ := stance
  have same : (player.withStance ⟨source, tickSync, active, delay, ramps, master⟩).track.ramps =
      ramps :=
    funext fun dial => by cases dial <;> rfl
  simp only [Player.stance, same]
  rfl

theorem withStance_withStance (stance' : Stance) :
    (player.withStance stance).withStance stance' = player.withStance stance' := rfl

theorem emit_withStance (tick : Nat) (message : MidiMessage) (transposeTick : Option Nat) :
    (player.withStance stance).emit tick message transposeTick =
      (player.emit tick message transposeTick).withStance stance := by
  unfold emit writing
  change (if decide (player.setting.pass = .midi) = true then _ else _) = _
  split <;> rfl

theorem conduct_withStance (tick : Nat) (message : MidiMessage) :
    (player.withStance stance).conduct tick message =
      (player.conduct tick message).withStance stance := by
  unfold conduct writing
  change (if decide (player.setting.pass = .midi) = true then _ else _) = _
  split <;> rfl

/-- Notes have no part in the stance. -/
theorem aside_withStance (stance : Stance) : Aside (withStance · stance) where
  writing _ := rfl
  time _ := rfl
  midi _ := rfl
  openNotes _ := rfl
  timedNotes _ := rfl
  soundingKey _ _ := rfl
  withOpen _ _ := rfl
  withTimed _ _ := rfl
  emit player tick message transposeTick := emit_withStance player stance tick message transposeTick
  conduct player tick message := conduct_withStance player stance tick message
  endNotes player closing chosen tick := by
    unfold endNotes
    change OpenNote.closeAll player.writing player.track.channel tick player.sheet closing >>= _ =
      (OpenNote.closeAll player.writing player.track.channel tick player.sheet closing >>= _).map _
    cases OpenNote.closeAll player.writing player.track.channel tick player.sheet closing with
    | error fault => rfl
    | ok sheet =>
      change TimedNote.endAll chosen tick sheet player.track.timedNotes >>= _ =
        (TimedNote.endAll chosen tick sheet player.track.timedNotes >>= _).map _
      cases TimedNote.endAll chosen tick sheet player.track.timedNotes <;> rfl

theorem finish_withStance :
    (player.withStance stance).finish = player.finish.map (withStance · stance.ended) := by
  unfold finish
  change ((player.withOpen []).withStance stance).endNotes player.track.openNotes (fun _ => false)
    player.track.time >>= _ = ((player.withOpen []).endNotes player.track.openNotes (fun _ => false)
      player.track.time >>= _).map _
  rw [(aside_withStance stance).endNotes]
  cases (player.withOpen []).endNotes player.track.openNotes (fun _ => false) player.track.time with
  | error fault => rfl
  | ok next =>
    have silent := emit_withStance next stance player.track.time .endOfTrack none
    exact congrArg (fun ended : Player => Except.ok { ended with
      track := { ended.track with
        active := false
        totalTicks := player.track.time
        dials := ended.track.dials.rest } }) silent

theorem withDial_withStance (dial : Dial) (level : UInt8) (ramp other : Option Ramp) :
    (player.withStance stance).withDial dial ⟨level, ramp⟩ =
      (player.withDial dial ⟨level, other⟩).withStance (stance.setRamp dial ramp) := by
  cases dial <;> rfl

theorem setLevel_withStance (dial : Dial) (value : UInt8) :
    (player.withStance stance).setLevel dial value =
      (player.setLevel dial value).withStance (stance.setRamp dial none) := by
  unfold setLevel
  have set := withDial_withStance player stance dial value none none
  unfold withDial at set
  dsimp only
  rw [set]
  exact emit_withStance ..

theorem setRamp_own (dial : Dial) : stance.setRamp dial (stance.ramps dial) = stance := by
  obtain ⟨source, tickSync, active, delay, ramps, master⟩ := stance
  simp only [Stance.setRamp, Stance.mk.injEq, true_and, and_true]
  funext other
  split
  · rename_i same
    rw [same]
  · rfl

theorem get_withStance (dial : Dial) : (player.withStance stance).track.dials.get dial =
    ⟨(player.track.dials.get dial).level, stance.ramps dial⟩ := by
  cases dial <;> rfl

theorem slideLevel_withStance (same : stance.tickSync = player.setting.tickSync) (dial : Dial)
    (target : UInt8) (duration : Nat) :
    (player.withStance stance).slideLevel dial target duration =
      (player.slideLevel dial target duration).withStance
        (player.steer stance (.slide dial target duration)) := by
  have kept : (player.withStance stance).setting.tickSync = player.setting.tickSync := same
  unfold slideLevel steer
  rw [get_withStance, kept]
  dsimp only
  split
  · rename_i together
    rw [if_pos (same.trans together)]
    exact withDial_withStance ..
  · rename_i alone
    rw [if_neg fun together => alone (same.symm.trans together)]
    have ahead := (aside_withStance stance).ahead player
      (fun player (change : Nat × Nat) =>
        player.emit change.1 (.control dial.controller (UInt8.ofNat change.2)) none)
      (fun player change => emit_withStance player stance change.1 _ none)
      (player.levelRamp dial target duration).changes
    have set (sounding : Player) := withDial_withStance sounding stance dial target
      (stance.ramps dial) (player.track.dials.get dial).ramp
    simp only [setRamp_own] at set
    refine Eq.trans ?_ (set _)
    exact congrArg (fun sounding : Player => sounding.withDial dial ⟨target, stance.ramps dial⟩)
      ahead

theorem setMasterLevel_withStance (value : UInt8) :
    (player.withStance stance).setMasterLevel value =
      (player.setMasterLevel value).withStance { stance with master := none } :=
  conduct_withStance { player with
    shared := { player.shared with masterVolume := value, masterRamp := none } }
    { stance with master := none } _ _

theorem slideMasterLevel_withStance (same : stance.tickSync = player.setting.tickSync)
    (target : UInt8) (duration : Nat) :
    (player.withStance stance).slideMasterLevel target duration =
      (player.slideMasterLevel target duration).withStance
        (player.steer stance (.masterSlide target duration)) := by
  have kept : (player.withStance stance).setting.tickSync = player.setting.tickSync := same
  unfold slideMasterLevel steer
  rw [kept]
  dsimp only
  split
  · rename_i together
    rw [if_pos (same.trans together)]
    rfl
  · rename_i alone
    rw [if_neg fun together => alone (same.symm.trans together)]
    have ahead := (aside_withStance stance).ahead player
      (fun player (change : Nat × Nat) =>
        player.conduct change.1 (.masterVolume (masterVolume14 (UInt8.ofNat change.2))))
      (fun player change => conduct_withStance player stance change.1 _)
      (player.masterRamp target duration).changes
    exact congrArg (fun sounding : Player =>
      { sounding with shared := { sounding.shared with masterVolume := target } }) ahead

theorem slideTempo_withStance (target : Float) (duration : Nat) :
    (player.withStance stance).slideTempo target duration =
      (player.slideTempo target duration).withStance stance := by
  have ahead := (aside_withStance stance).ahead player
    (fun player (change : Nat × Nat) => player.conduct change.1 (.tempo change.2))
    (fun player change => conduct_withStance player stance change.1 _)
    (Ramp.changes ⟨.tempo, player.now, duration, player.shared.tempo, target⟩)
  exact congrArg (fun sounding : Player =>
    { sounding with shared := { sounding.shared with tempo := target } }) ahead

/-- What an instruction leads to for a player with another stance. -/
def outcomeWith (stance : Stance) (outcome : Bool × Player) : Bool × Player :=
  (outcome.1, outcome.2.withStance stance)

theorem take_withStance (turn : Turn) :
    (player.withStance stance).take (turn.delayed stance.delay) =
      (player.take turn).map (outcomeWith stance) := by
  cases turn with
  | halt => rfl
  | onward cursor => rfl
  | transfer cursor destination =>
    unfold take Turn.delayed
    change player.track.guard.arrive player.setting.loopRule (cursor.junction destination)
      player.track.time >>= _ = (player.track.guard.arrive player.setting.loopRule
        (cursor.junction destination) player.track.time >>= _).map _
    cases player.track.guard.arrive player.setting.loopRule (cursor.junction destination)
      player.track.time with
    | error fault => rfl
    | ok outcome =>
      obtain ⟨allowed, guard⟩ := outcome
      cases allowed <;> rfl

theorem goOn_withStance {x : Except Fault Player} :
    (x.map (withStance · stance) >>= goOn) = (x >>= goOn).map (outcomeWith stance) := by
  cases x <;> rfl

theorem perform_withStance {kind : EventKind}
    (same : kind.isSlide = true → stance.tickSync = player.setting.tickSync) (entry : Option Nat) :
    (player.withStance stance).perform kind entry =
      (player.perform kind entry).map (outcomeWith (player.steer stance kind)) := by
  have goes {next last : Player} {stance : Stance} (equal : next = last.withStance stance) :
      next.goOn = last.goOn.map (outcomeWith stance) := by
    rw [equal]
    rfl
  cases kind with
  | noteOn key velocity =>
    change (player.withStance stance).startNote key velocity entry >>= goOn = _
    rw [(aside_withStance stance).startNote]
    exact goOn_withStance stance
  | noteOff key =>
    change (player.withStance stance).endNote key >>= goOn = _
    rw [(aside_withStance stance).endNote]
    exact goOn_withStance stance
  | note key velocity duration =>
    change (player.withStance stance).startTimedNote key velocity duration entry >>= goOn = _
    rw [(aside_withStance stance).startTimedNote]
    exact goOn_withStance stance
  | rest ticks => rfl
  | hold ticks =>
    change (player.withStance stance).extendNotes (Tick.later player.track.time ticks) >>= _ =
      (player.extendNotes (Tick.later player.track.time ticks) >>= _).map _
    rw [(aside_withStance stance).extendNotes]
    cases player.extendNotes (Tick.later player.track.time ticks) <;> rfl
  | level dial value => exact goes (setLevel_withStance ..)
  | slide dial target duration => exact goes (slideLevel_withStance player stance (same rfl) ..)
  | masterLevel value => exact goes (setMasterLevel_withStance ..)
  | masterSlide target duration =>
    exact goes (slideMasterLevel_withStance player stance (same rfl) ..)
  | tempo bpm =>
    exact goes (conduct_withStance { player with shared := { player.shared with tempo := bpm } } ..)
  | tempoSlide target duration => exact goes (slideTempo_withStance ..)
  | timeSignature numerator denominator ticksPerQuarter => exact goes (conduct_withStance ..)
  | transpose scope semitones =>
    cases scope with
    | all => exact goes ((aside_withStance stance).emitAll ..)
    | own => rfl
  | octave | keyCorrection | drum => rfl
  | jump | call | ret | loopStart | loopEnd | loopForever | trackEnd =>
    rw [perform_of_isControlFlow rfl, perform_of_isControlFlow rfl]
    change (player.withStance stance).take (Cursor.turn player.setting.maxDepth
      { player.track.cursor with delay := stance.delay } _) = _
    rw [Cursor.turn_delay]
    exact take_withStance ..
  | _ => exact goes ((aside_withStance stance).emitAll ..)

/-- What the next step makes of the stance. -/
def steered (player : Player) (stance : Stance) : Stance :=
  match player.reads with
  | (.error _, _) => stance
  | (.ok instruction, stop) =>
    (instruction.kind? player.track).elim stance fun kind =>
      (player.noted stop kind).steer stance kind

theorem apply_withStance (reading : Player) {stance stance' : Stance} (operation : Operation)
    (applied : (reading.withStance stance).apply operation =
      (reading.apply operation).map (outcomeWith stance')) (known : Bool) :
    (((reading.withStance stance).apply operation).map fun (more, next) => (more && known, next)) =
      ((reading.apply operation).map fun (more, next) => (more && known, next)).map
        (outcomeWith stance') := by
  rw [applied]
  cases reading.apply operation <;> rfl

/-- A step in the same file is the same with any stance, and says itself what becomes of it. -/
theorem advance_withStance (reads : stance.source = player.setting.source)
    (same : player.track.visit.isSlide player.setting.source = true →
      stance.tickSync = player.setting.tickSync) :
    (player.withStance stance).advance =
      player.advance.map (outcomeWith (player.steered stance)) := by
  rcases read : player.reads with ⟨result, stop⟩
  have read' : (player.withStance stance).reads = (result, stop) := by
    rw [← read, Player.reads, show (player.withStance stance).setting.source =
      player.setting.source from reads]
    rfl
  unfold Visit.isSlide at same
  rw [show player.track.visit.offset = player.track.cursor.offset from rfl, kindAt_of_read read]
    at same
  have records (kind : EventKind)
      (same : kind.isSlide = true → stance.tickSync = player.setting.tickSync) (known : Bool) :=
    apply_withStance (player.readTo stop) (.record
      ⟨player.track.cursor.offset, stop - player.track.cursor.offset⟩ kind)
      (perform_withStance (player.noted stop kind) stance same _) known
  unfold steered
  rw [read]
  cases result with
  | error error =>
    simp only [advance, read, read']
    rfl
  | ok instruction =>
    simp only [advance, read, read']
    cases instruction with
    | event kind => exact records kind same true
    | octaveNote semitone velocity duration =>
      exact records (.note (player.track.octaveKey semitone) velocity duration)
        (fun slides => by cases slides) true
    | cut =>
      refine apply_withStance (player.readTo stop) (.limitNotes player.track.time) ?_ true
      change (withStance _ stance).limitNotes _ >>= goOn = _
      rw [(aside_withStance stance).limitNotes]
      exact goOn_withStance stance
    | unknown opcode =>
      exact records (.unknown ("opcode " ++ Number.hex 2 opcode.toNat))
        (fun slides => by cases slides) false

variable {player stance} {next : Player} {more : Bool}

theorem finish_stance (finished : player.finish = .ok next) :
    next.stance = player.stance.ended := by
  have own := finish_withStance player player.stance
  rw [withStance_stance, finished] at own
  rw [Except.ok.inj own, stance_withStance]

theorem advance_stance (advanced : player.advance = .ok (more, next)) :
    next.stance = player.steered player.stance := by
  have own := advance_withStance player player.stance rfl fun _ => rfl
  rw [withStance_stance, advanced] at own
  have same : next = next.withStance (player.steered player.stance) :=
    congrArg Prod.snd (Except.ok.inj own)
  rw [same, stance_withStance]

end Player
end Sequencer
