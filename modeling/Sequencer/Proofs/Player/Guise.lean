import Sequencer.Proofs.Spent

/-! The guise of a player: which of the tracks it plays, what was measured of it before, in which
octave it reads notes, and which events are in the store and how the timeline names them. Whatever
the guise, instructions are carried out the same way. -/
namespace Sequencer

/-- The timeline with other names for its events. -/
def Timeline.rename (naming : Nat → Nat) (timeline : Timeline) : Timeline :=
  { timeline with
    entries := timeline.entries.map fun entry => { entry with event := naming entry.event } }

def Sheet.rename (naming : Nat → Nat) (sheet : Sheet) : Sheet :=
  ⟨sheet.timeline.rename naming, sheet.midi⟩

variable (naming : Nat → Nat)

theorem Timeline.setDuration_rename (timeline : Timeline) (index duration : Nat) :
    (timeline.rename naming).setDuration index duration =
      (timeline.setDuration index duration).map (rename naming) := by
  by_cases inside : index < timeline.entries.size
  · have inside' : index < (timeline.rename naming).entries.size := by
      simpa [rename] using inside
    have lasts : (timeline.rename naming).entries[index].duration =
        timeline.entries[index].duration := by simp [rename]
    unfold setDuration
    rw [dif_pos inside, dif_pos inside', lasts]
    split
    · rfl
    · refine congrArg Except.ok ?_
      unfold rename
      simp only [Timeline.mk.injEq, and_true]
      apply Array.ext
      · simp
      · intro k _ _
        simp only [Array.getElem_modify, Array.getElem_map]
        split <;> rfl
  · have outside : ¬ index < (timeline.rename naming).entries.size := by
      simpa [rename] using inside
    unfold setDuration
    rw [dif_neg inside, dif_neg outside]
    simp [Except.map, Timeline.size, rename]

theorem Sheet.setDuration_rename (sheet : Sheet) (entry : Option Nat) (duration : Nat) :
    (sheet.rename naming).setDuration entry duration =
      (sheet.setDuration entry duration).map (rename naming) := by
  cases entry with
  | none => rfl
  | some index =>
    change (sheet.timeline.rename naming).setDuration index duration >>= _ =
      (sheet.timeline.setDuration index duration >>= _).map _
    rw [Timeline.setDuration_rename]
    cases sheet.timeline.setDuration index duration <;> rfl

theorem Sheet.setTick_rename (sheet : Sheet) (position : Option Nat) (tick : Nat) :
    (sheet.rename naming).setTick position tick =
      (sheet.setTick position tick).map (rename naming) := by
  cases position with
  | none => rfl
  | some index =>
    change sheet.midi.setTick index tick >>= _ = (sheet.midi.setTick index tick >>= _).map _
    cases sheet.midi.setTick index tick <;> rfl

theorem TimedNote.endIf_rename (note : TimedNote) (chosen : TimedNote → Bool) (tick : Nat)
    (sheet : Sheet) : note.endIf chosen tick (sheet.rename naming) =
      (note.endIf chosen tick sheet).map fun ended => (ended.1, ended.2.rename naming) := by
  unfold endIf
  split
  · unfold endAt
    dsimp only
    rw [Sheet.setDuration_rename]
    cases sheet.setDuration note.entry (max tick note.start - note.start) with
    | error fault => rfl
    | ok revised =>
      simp only [Except.map, bind, Except.bind]
      rw [Sheet.setTick_rename]
      cases revised.setTick note.noteOff (max tick note.start) <;> rfl
  · rfl

theorem TimedNote.endAll_rename (chosen : TimedNote → Bool) (tick : Nat) (sheet : Sheet)
    (notes : List TimedNote) : endAll chosen tick (sheet.rename naming) notes =
      (endAll chosen tick sheet notes).map fun ended => (ended.1, ended.2.rename naming) := by
  induction notes generalizing sheet with
  | nil => rfl
  | cons note rest ih =>
    rw [endAll_cons, endAll_cons, endIf_rename]
    cases note.endIf chosen tick sheet with
    | error fault => rfl
    | ok ended =>
      simp only [Except.map, bind, Except.bind]
      rw [ih]
      cases endAll chosen tick ended.2 rest <;> rfl

theorem OpenNote.closeAll_rename (writing : Bool) (channel : UInt8) (tick : Nat) (sheet : Sheet)
    (notes : List OpenNote) : closeAll writing channel tick (sheet.rename naming) notes =
      (closeAll writing channel tick sheet notes).map (Sheet.rename naming) := by
  induction notes generalizing sheet with
  | nil => rfl
  | cons note rest ih =>
    have closed : note.close writing channel tick (sheet.rename naming) =
        (note.close writing channel tick sheet).map (Sheet.rename naming) := by
      unfold close
      rw [Sheet.setDuration_rename]
      cases sheet.setDuration note.entry (tick - note.start) with
      | error fault => rfl
      | ok revised => cases writing <;> rfl
    unfold closeAll
    rw [closed]
    cases note.close writing channel tick sheet with
    | error fault => rfl
    | ok revised => exact ih revised

structure Guise where
  index : Nat
  octave : UInt8
  measuredTrips : Nat
  measuredTicks : Nat
  arena : Arena
  naming : Nat → Nat

/-- The octave that a track is in after an instruction. -/
def EventKind.octaveAfter (octave : UInt8) : EventKind → UInt8
  | .octave number => number
  | _ => octave

/-- The octave that a track is in after the instruction at an offset. -/
def RefSeq.octaveAfter (source : Source) (offset : Nat) (octave : UInt8) : UInt8 :=
  (RefSeq.kindAt? source offset).elim octave (EventKind.octaveAfter octave)

/-- What an instruction makes of the guise. -/
def Guise.after (guise : Guise) (kind : EventKind) : Guise :=
  { guise with octave := kind.octaveAfter guise.octave }

def Track.withGuise (track : Track) (guise : Guise) : Track :=
  { track with
    index := guise.index
    octave := guise.octave
    measuredTrips := guise.measuredTrips
    measuredTicks := guise.measuredTicks }

def Shared.withGuise (shared : Shared) (guise : Guise) : Shared :=
  { shared with arena := guise.arena, timeline := shared.timeline.rename guise.naming }

namespace Player

def guise (player : Player) : Guise where
  index := player.track.index
  octave := player.track.octave
  measuredTrips := player.track.measuredTrips
  measuredTicks := player.track.measuredTicks
  arena := player.shared.arena
  naming := id

def withGuise (player : Player) (guise : Guise) : Player :=
  ⟨player.setting, player.track.withGuise guise, player.shared.withGuise guise⟩

variable (player : Player) (guise : Guise)

@[simp] theorem withGuise_guise : player.withGuise player.guise = player := by
  have entries : player.shared.timeline.rename id = player.shared.timeline := by
    simp [Timeline.rename]
  change Player.mk player.setting player.track
    { player.shared with timeline := player.shared.timeline.rename id } = player
  rw [entries]

theorem emit_withGuise (tick : Nat) (message : MidiMessage) (transposeTick : Option Nat) :
    (player.withGuise guise).emit tick message transposeTick =
      (player.emit tick message transposeTick).withGuise guise := by
  unfold emit writing
  change (if decide (player.setting.pass = .midi) = true then _ else _) = _
  split <;> rfl

theorem conduct_withGuise (tick : Nat) (message : MidiMessage) :
    (player.withGuise guise).conduct tick message =
      (player.conduct tick message).withGuise guise := by
  unfold conduct writing
  change (if decide (player.setting.pass = .midi) = true then _ else _) = _
  split <;> rfl

theorem aside_withGuise (guise : Guise) : Aside (withGuise · guise) where
  writing _ := rfl
  time _ := rfl
  midi _ := rfl
  openNotes _ := rfl
  timedNotes _ := rfl
  soundingKey _ _ := rfl
  withOpen _ _ := rfl
  withTimed _ _ := rfl
  emit player tick message transposeTick := emit_withGuise player guise tick message transposeTick
  conduct player tick message := conduct_withGuise player guise tick message
  endNotes player closing chosen tick := by
    unfold endNotes
    change OpenNote.closeAll player.writing player.track.channel tick
        (player.sheet.rename guise.naming) closing >>= _ =
      (OpenNote.closeAll player.writing player.track.channel tick player.sheet closing >>= _).map _
    rw [OpenNote.closeAll_rename]
    cases OpenNote.closeAll player.writing player.track.channel tick player.sheet closing with
    | error fault => rfl
    | ok sheet =>
      change TimedNote.endAll chosen tick (sheet.rename guise.naming) player.track.timedNotes >>= _ =
        (TimedNote.endAll chosen tick sheet player.track.timedNotes >>= _).map _
      rw [TimedNote.endAll_rename]
      cases TimedNote.endAll chosen tick sheet player.track.timedNotes <;> rfl

theorem finish_withGuise :
    (player.withGuise guise).finish = player.finish.map (withGuise · guise) := by
  unfold finish
  change ((player.withOpen []).withGuise guise).endNotes player.track.openNotes (fun _ => false)
    player.track.time >>= _ = ((player.withOpen []).endNotes player.track.openNotes (fun _ => false)
      player.track.time >>= _).map _
  rw [(aside_withGuise guise).endNotes]
  cases (player.withOpen []).endNotes player.track.openNotes (fun _ => false) player.track.time with
  | error fault => rfl
  | ok next =>
    have silent := emit_withGuise next guise player.track.time .endOfTrack none
    exact congrArg (fun ended : Player => Except.ok { ended with
      track := { ended.track with
        active := false
        totalTicks := player.track.time
        dials := ended.track.dials.rest } }) silent

theorem slideLevel_withGuise (dial : Dial) (target : UInt8) (duration : Nat) :
    (player.withGuise guise).slideLevel dial target duration =
      (player.slideLevel dial target duration).withGuise guise := by
  unfold slideLevel
  dsimp only
  change (if player.setting.tickSync = true then _ else _) = _
  split
  · rfl
  · have ahead := (aside_withGuise guise).ahead player
      (fun player (change : Nat × Nat) =>
        player.emit change.1 (.control dial.controller (UInt8.ofNat change.2)) none)
      (fun player change => emit_withGuise player guise change.1 _ none)
      (Ramp.between .level player.now duration (player.track.dials.get dial).level.toNat
        target.toNat).changes
    exact congrArg (fun sounding : Player => sounding.withDial dial
      { player.track.dials.get dial with level := target }) ahead

theorem moveDial_withGuise (tick : Nat) (dial : Dial) :
    (player.withGuise guise).moveDial tick dial = (player.moveDial tick dial).withGuise guise := by
  cases moves : player.track.ramps dial with
  | none =>
    have moves' : (player.withGuise guise).track.ramps dial = none := moves
    rw [moveDial_of_none moves, moveDial_of_none moves']
  | some ramp =>
    have moves' : (player.withGuise guise).track.ramps dial = some ramp := moves
    rw [moveDial_of_some moves, moveDial_of_some moves', emit_withGuise]
    split <;> rfl

theorem moveDials_withGuise (tick : Nat) :
    (player.withGuise guise).moveDials tick = (player.moveDials tick).withGuise guise := by
  rw [moveDials, moveDial_withGuise, moveDial_withGuise, moveDial_withGuise]
  rfl

theorem slideMasterLevel_withGuise (target : UInt8) (duration : Nat) :
    (player.withGuise guise).slideMasterLevel target duration =
      (player.slideMasterLevel target duration).withGuise guise := by
  unfold slideMasterLevel
  dsimp only
  change (if player.setting.tickSync = true then _ else _) = _
  split
  · rfl
  · have ahead := (aside_withGuise guise).ahead player
      (fun player (change : Nat × Nat) =>
        player.conduct change.1 (.masterVolume (masterVolume14 (UInt8.ofNat change.2))))
      (fun player change => conduct_withGuise player guise change.1 _)
      (Ramp.between .level player.now duration player.shared.masterVolume.toNat
        target.toNat).changes
    exact congrArg (fun sounding : Player =>
      { sounding with shared := { sounding.shared with masterVolume := target } }) ahead

theorem slideTempo_withGuise (target : Float) (duration : Nat) :
    (player.withGuise guise).slideTempo target duration =
      (player.slideTempo target duration).withGuise guise := by
  have ahead := (aside_withGuise guise).ahead player
    (fun player (change : Nat × Nat) => player.conduct change.1 (.tempo change.2))
    (fun player change => conduct_withGuise player guise change.1 _)
    (Ramp.changes ⟨.tempo, player.now, duration, player.shared.tempo, target⟩)
  exact congrArg (fun sounding : Player =>
    { sounding with shared := { sounding.shared with tempo := target } }) ahead

/-- What an instruction leads to in another guise. -/
def disguised (guise : Guise) (outcome : Bool × Player) : Bool × Player :=
  (outcome.1, outcome.2.withGuise guise)

theorem take_withGuise (turn : Turn) :
    (player.withGuise guise).take turn = (player.take turn).map (disguised guise) := by
  cases turn with
  | halt => rfl
  | onward cursor => rfl
  | transfer cursor destination =>
    unfold take
    change player.track.guard.arrive player.setting.loopRule (cursor.junction destination)
      player.track.time >>= _ = (player.track.guard.arrive player.setting.loopRule
        (cursor.junction destination) player.track.time >>= _).map _
    cases player.track.guard.arrive player.setting.loopRule (cursor.junction destination)
      player.track.time <;> rfl

theorem goOn_withGuise {x : Except Fault Player} :
    (x.map (withGuise · guise) >>= goOn) = (x >>= goOn).map (disguised guise) := by
  cases x <;> rfl

theorem perform_withGuise (kind : EventKind) (entry : Option Nat) :
    (player.withGuise guise).perform kind entry =
      (player.perform kind entry).map (disguised (guise.after kind)) := by
  have aside := aside_withGuise guise
  have goes {next last : Player} (equal : next = last.withGuise guise) :
      next.goOn = last.goOn.map (disguised guise) := by
    rw [equal]
    rfl
  cases kind with
  | noteOn key velocity =>
    change (player.withGuise guise).startNote key velocity entry >>= goOn = _
    rw [aside.startNote]
    exact goOn_withGuise guise
  | noteOff key =>
    change (player.withGuise guise).endNote key >>= goOn = _
    rw [aside.endNote]
    exact goOn_withGuise guise
  | note key velocity duration =>
    change (player.withGuise guise).startTimedNote key velocity duration entry >>= goOn = _
    rw [aside.startTimedNote]
    exact goOn_withGuise guise
  | rest ticks => rfl
  | hold ticks =>
    change (player.withGuise guise).extendNotes (Tick.later player.track.time ticks) >>= _ =
      (player.extendNotes (Tick.later player.track.time ticks) >>= _).map _
    rw [aside.extendNotes]
    cases player.extendNotes (Tick.later player.track.time ticks) <;> rfl
  | level dial value =>
    exact goes (emit_withGuise { player with
      track := { player.track with dials := player.track.dials.set dial ⟨value, none⟩ } } ..)
  | slide dial target duration => exact goes (slideLevel_withGuise ..)
  | masterLevel value =>
    exact goes (conduct_withGuise { player with
      shared := { player.shared with masterVolume := value, masterRamp := none } } ..)
  | masterSlide target duration => exact goes (slideMasterLevel_withGuise ..)
  | tempo bpm =>
    exact goes (conduct_withGuise { player with shared := { player.shared with tempo := bpm } } ..)
  | tempoSlide target duration => exact goes (slideTempo_withGuise ..)
  | timeSignature numerator denominator ticksPerQuarter => exact goes (conduct_withGuise ..)
  | transpose scope semitones =>
    cases scope with
    | all => exact goes (aside.emitAll ..)
    | own => rfl
  | octave | keyCorrection | drum => rfl
  | jump | call | ret | loopStart | loopEnd | loopForever | trackEnd =>
    rw [perform_of_isControlFlow rfl, perform_of_isControlFlow rfl]
    exact take_withGuise ..
  | _ => exact goes (aside.emitAll ..)

/-- The player has another name than before at most in the timeline. -/
structure SameGuise (player next : Player) : Prop where
  index : next.track.index = player.track.index
  octave : next.track.octave = player.track.octave
  arena : next.shared.arena = player.shared.arena

/-- What a step makes of the guise. -/
structure GuiseAfter (player next : Player) : Prop where
  index : next.track.index = player.track.index
  octave : next.track.octave =
    RefSeq.octaveAfter player.setting.source player.track.cursor.offset player.track.octave
  arena : next.shared.arena = player.entered.arena

variable {player guise} {next : Player} {more : Bool}

theorem fields_of_withGuise (same : next = next.withGuise guise) :
    next.track.index = guise.index ∧ next.track.octave = guise.octave ∧
      next.shared.arena = guise.arena := by
  rw [same]
  exact ⟨rfl, rfl, rfl⟩

theorem sameGuise_of_eq (same : next = next.withGuise player.guise) : player.SameGuise next := by
  obtain ⟨index, octave, arena⟩ := fields_of_withGuise same
  exact ⟨index, octave, arena⟩

theorem perform_guise {kind : EventKind} {entry : Option Nat}
    (performed : player.perform kind entry = .ok (more, next)) :
    next.track.index = player.track.index ∧
      next.track.octave = kind.octaveAfter player.track.octave ∧
      next.shared.arena = player.shared.arena := by
  have own := perform_withGuise player player.guise kind entry
  rw [withGuise_guise, performed] at own
  exact fields_of_withGuise (congrArg Prod.snd (Except.ok.inj own))

theorem limitNotes_guise {tick : Nat} (limited : player.limitNotes tick = .ok next) :
    player.SameGuise next := by
  have own := (aside_withGuise player.guise).limitNotes player tick
  rw [withGuise_guise, limited] at own
  exact sameGuise_of_eq (Except.ok.inj own)

theorem finish_guise (finished : player.finish = .ok next) : player.SameGuise next := by
  have own := finish_withGuise player player.guise
  rw [withGuise_guise, finished] at own
  exact sameGuise_of_eq (Except.ok.inj own)

theorem moveDials_guise (player : Player) (tick : Nat) :
    player.SameGuise (player.moveDials tick) := by
  have own := moveDials_withGuise player player.guise tick
  rw [withGuise_guise] at own
  exact sameGuise_of_eq own

theorem octaveAfter_of_read {result : Except ReadError RefSeq.Instruction} {stop : Nat}
    (read : player.reads = (result, stop)) (silent : ∀ kind, result ≠ .ok (.event kind))
    (octave : UInt8) :
    RefSeq.octaveAfter player.setting.source player.track.cursor.offset octave = octave := by
  unfold RefSeq.octaveAfter
  rw [kindAt_of_read read]
  split
  · exact absurd rfl (silent _)
  · rfl

theorem advance_guise (advanced : player.advance = .ok (more, next)) : player.GuiseAfter next := by
  cases step_of_advance advanced with
  | unreadable read =>
    refine ⟨rfl, (octaveAfter_of_read read (by simp) _).symm, ?_⟩
    rw [entered, recording?, read]
    rfl
  | unknown read =>
    refine ⟨rfl, (octaveAfter_of_read read (by simp) _).symm, ?_⟩
    rw [noted_shared read rfl]
  | cut read limited =>
    obtain ⟨index, octave, arena⟩ := limitNotes_guise limited
    refine ⟨index, octave.trans (octaveAfter_of_read read (by simp) _).symm, arena.trans ?_⟩
    rw [entered, recording?, read]
    rfl
  | @event instruction stop kind _ _ read known performed =>
    obtain ⟨index, octave, arena⟩ := perform_guise performed
    have recorded : instruction.recorded? player.track = some kind := by
      cases instruction <;> first | exact known | cases known
    refine ⟨index, octave.trans ?_, arena.trans ?_⟩
    · have kept := kindAt_of_read read
      unfold RefSeq.octaveAfter
      cases instruction with
      | event =>
        cases known
        rw [kept]
        rfl
      | octaveNote =>
        cases known
        rw [kept]
        rfl
      | cut | unknown => cases known
    · rw [noted_shared read recorded]

end Player
end Sequencer
