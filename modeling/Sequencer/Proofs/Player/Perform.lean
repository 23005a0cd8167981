import Sequencer.Player.Perform
import Sequencer.Proofs.FreeRun
import Sequencer.Proofs.Player.Notes

/-! What instructions leave alone that do not direct the flow of control: the track goes on, its
place in the data stays, and no entry of the timeline moves. -/
namespace Sequencer

/-- The track without its sound, and without the ticks that it waits. -/
def Track.outline (track : Track) : Track :=
  { track.noteless with
    cursor := { track.cursor with delay := 0 }
    dials := ⟨⟨0, none⟩, ⟨0, none⟩, ⟨0, none⟩⟩
    octave := 0, transpose := 0, keyCorrection := 0, drum := none }

namespace Player

/-- Only the sound of the player's track has changed, and by how much it has `passed` its time
and its delay. -/
structure Retains (player : Player) (passed : Nat → Nat) (next : Player) : Prop where
  setting : next.setting = player.setting
  outline : next.track.outline =
    { player.track.outline with time := passed player.track.time }
  arena : next.shared.arena = player.shared.arena
  skeleton : next.shared.timeline.skeleton = player.shared.timeline.skeleton
  delay : next.track.cursor.delay = passed player.track.cursor.delay

/-- What a player may still do after an operation that it carries out safely. -/
structure Sounds (player : Player) (passed : Nat → Nat) (next : Player) : Prop where
  retains : player.Retains passed next
  safe : next.Safe

variable {player next : Player} {passed : Nat → Nat}

theorem Retains.refl (player : Player) : player.Retains id player :=
  ⟨rfl, rfl, rfl, rfl, rfl⟩

theorem Retains.time (retains : player.Retains passed next) :
    next.track.time = passed player.track.time := congrArg Track.time retains.outline

theorem Retains.guard (retains : player.Retains passed next) :
    next.track.guard = player.track.guard := by
  have same := congrArg Track.guard retains.outline
  exact same

theorem Retains.trans {last : Player} (first : player.Retains id next)
    (second : next.Retains passed last) : player.Retains passed last where
  setting := second.setting.trans first.setting
  outline := by
    rw [second.outline, first.outline, first.time]
    rfl
  arena := second.arena.trans first.arena
  skeleton := second.skeleton.trans first.skeleton
  delay := second.delay.trans (congrArg passed first.delay)

theorem Rescores.retains (rescores : player.Rescores next) : player.Retains id next where
  setting := rescores.setting
  outline := by
    have noteless (track : Track) : track.outline = track.noteless.outline := rfl
    rw [noteless next.track, rescores.track]
    rfl
  arena := by
    have same := congrArg Shared.arena rescores.shared
    exact same
  skeleton := rescores.sheet.skeleton
  delay := by
    have cursor := congrArg Track.cursor rescores.track
    exact congrArg Cursor.delay cursor

theorem Sounds.trans {last : Player} (first : player.Sounds id next)
    (second : next.Sounds passed last) : player.Sounds passed last :=
  ⟨first.retains.trans second.retains, second.safe⟩

theorem Safe.sounds (safe : player.Safe) : player.Sounds id player :=
  ⟨.refl player, safe⟩

theorem Safe.withRegisters (safe : player.Safe) (next : Player)
    (retains : player.Retains passed next)
    (timed : next.track.timedNotes = player.track.timedNotes)
    (opened : next.track.openNotes = player.track.openNotes)
    (sheet : next.sheet = player.sheet) : player.Sounds passed next where
  retains := retains
  safe := ⟨by rw [timed, sheet]; exact safe.timed, by rw [opened, sheet]; exact safe.opened⟩

theorem Safe.emit_sounds (safe : player.Safe) (tick : Nat) (message : MidiMessage)
    (transposeTick : Option Nat) :
    player.Sounds id (player.emit tick message transposeTick) :=
  ⟨(emit_rescores player tick message transposeTick).retains, safe.emit ..⟩

theorem Safe.conduct_sounds (safe : player.Safe) (tick : Nat) (message : MidiMessage) :
    player.Sounds id (player.conduct tick message) := by
  unfold conduct
  split
  · exact safe.withRegisters _ ⟨rfl, rfl, rfl, rfl, rfl⟩ rfl rfl rfl
  · exact safe.sounds

theorem Safe.foldl_sounds {α : Type} {act : Player → α → Player}
    (each : ∀ (player : Player) (item : α), player.Safe →
      player.Sounds id (act player item))
    (safe : player.Safe) (items : List α) :
    player.Sounds id (items.foldl act player) := by
  induction items generalizing player with
  | nil => exact safe.sounds
  | cons item rest ih =>
    have first := each player item safe
    exact first.trans (ih first.safe)

theorem Safe.setDial_sounds (safe : player.Safe) (dial : Dial) (state : DialState) :
    player.Sounds id { player with
      track := { player.track with dials := player.track.dials.set dial state } } :=
  safe.withRegisters _ ⟨rfl, rfl, rfl, rfl, rfl⟩ rfl rfl rfl

theorem Safe.setLevel_sounds (safe : player.Safe) (dial : Dial) (value : UInt8) :
    player.Sounds id (player.setLevel dial value) :=
  have set := safe.setDial_sounds dial ⟨value, none⟩
  set.trans (set.safe.emit_sounds ..)

theorem Safe.slideLevel_sounds (safe : player.Safe) (dial : Dial) (target : UInt8)
    (duration : Nat) :
    player.Sounds id (player.slideLevel dial target duration) := by
  unfold slideLevel
  split
  · exact safe.setDial_sounds ..
  · dsimp only
    generalize Ramp.between .level player.now duration _ target.toNat = ramp
    have ahead : player.Sounds id (if player.writing then
        ramp.changes.foldl (fun player (change : Nat × Nat) =>
          player.emit change.1 (.control dial.controller (UInt8.ofNat change.2)) none) player
        else player) := by
      split
      · exact safe.foldl_sounds (fun _ _ safe => safe.emit_sounds ..) _
      · exact safe.sounds
    exact ahead.trans (ahead.safe.setDial_sounds ..)

theorem Safe.moveDial_sounds (safe : player.Safe) (tick : Nat) (dial : Dial) :
    player.Sounds id (player.moveDial tick dial) := by
  unfold moveDial
  dsimp only
  split
  · exact safe.sounds
  · rename_i ramp _
    split
    · have moved := safe.emit_sounds tick
        (.control dial.controller (UInt8.ofNat (ramp.valueAt tick))) none
      exact moved.trans (moved.safe.setDial_sounds ..)
    · exact safe.setDial_sounds ..

theorem Safe.moveDials_sounds (safe : player.Safe) (tick : Nat) :
    player.Sounds id (player.moveDials tick) := by
  have volume := safe.moveDial_sounds tick .volume
  have expression := volume.safe.moveDial_sounds tick .expression
  have pan := expression.safe.moveDial_sounds tick .pan
  exact (volume.trans expression).trans pan

theorem moveDial_cursor (player : Player) (tick : Nat) (dial : Dial) :
    (player.moveDial tick dial).track.cursor = player.track.cursor := by
  unfold moveDial
  dsimp only
  split
  · rfl
  · rename_i ramp _
    split
    · have emitted := congrArg Track.cursor (emit_rescores player tick
        (.control dial.controller (UInt8.ofNat (ramp.valueAt tick))) none).track
      exact emitted
    · rfl

theorem moveDials_cursor (player : Player) (tick : Nat) :
    (player.moveDials tick).track.cursor = player.track.cursor := by
  rw [moveDials, moveDial_cursor, moveDial_cursor, moveDial_cursor]

theorem Safe.setShared_sounds (safe : player.Safe) (shared : Shared)
    (arena : shared.arena = player.shared.arena)
    (timeline : shared.timeline = player.shared.timeline) :
    player.Sounds id { player with shared } :=
  safe.withRegisters _ ⟨rfl, rfl, arena, by rw [timeline], rfl⟩ rfl rfl (by rw [sheet, timeline]; rfl)

theorem Safe.setMasterLevel_sounds (safe : player.Safe) (value : UInt8) :
    player.Sounds id (player.setMasterLevel value) :=
  have set := safe.setShared_sounds
    { player.shared with masterVolume := value, masterRamp := none } rfl rfl
  set.trans (set.safe.conduct_sounds ..)

theorem Safe.conductAll_sounds (safe : player.Safe) (message : Nat → MidiMessage)
    (changes : List (Nat × Nat)) :
    player.Sounds id (if player.writing then
      changes.foldl (fun player (change : Nat × Nat) =>
        player.conduct change.1 (message change.2)) player
      else player) := by
  split
  · exact safe.foldl_sounds (fun _ _ safe => safe.conduct_sounds ..) _
  · exact safe.sounds

theorem Safe.slideMasterLevel_sounds (safe : player.Safe) (target : UInt8) (duration : Nat) :
    player.Sounds id (player.slideMasterLevel target duration) := by
  unfold slideMasterLevel
  split
  · exact safe.setShared_sounds _ rfl rfl
  · have ahead := safe.conductAll_sounds
      (fun value => .masterVolume (masterVolume14 (UInt8.ofNat value)))
      (Ramp.between .level player.now duration player.shared.masterVolume.toNat
        target.toNat).changes
    exact ahead.trans (ahead.safe.setShared_sounds _ rfl rfl)

theorem Safe.setTempo_sounds (safe : player.Safe) (bpm : Float) :
    player.Sounds id (player.setTempo bpm) :=
  have set := safe.setShared_sounds { player.shared with tempo := bpm } rfl rfl
  set.trans (set.safe.conduct_sounds ..)

theorem Safe.slideTempo_sounds (safe : player.Safe) (target : Float) (duration : Nat) :
    player.Sounds id (player.slideTempo target duration) := by
  have ahead := safe.conductAll_sounds (fun micros => .tempo micros)
    (Ramp.changes ⟨.tempo, player.now, duration, player.shared.tempo, target⟩)
  exact ahead.trans (ahead.safe.setShared_sounds _ rfl rfl)

theorem Safe.wait_sounds (safe : player.Safe) (ticks : Nat) :
    player.Sounds (Tick.later · ticks) (player.wait ticks) :=
  safe.withRegisters _ ⟨rfl, rfl, rfl, rfl, rfl⟩ rfl rfl rfl

theorem Safe.emitAll_sounds (safe : player.Safe) (messages : List MidiMessage) :
    player.Sounds id (player.emitAll messages) :=
  safe.foldl_sounds (fun _ _ safe => safe.emit_sounds ..) messages

theorem Safe.extendNotes_sounds (safe : player.Safe) (ticks : Nat) :
    (player.extendNotes (Tick.later player.track.time ticks)).Yields fun next =>
      player.Sounds (Tick.later · ticks) (next.wait ticks) := by
  refine (extendNotes_safe safe _).mono ?_
  rintro next ⟨rescores, kept⟩
  have waited := kept.wait_sounds ticks
  exact ⟨rescores.retains.trans waited.retains, waited.safe⟩

/-- An instruction that does not direct the flow of control succeeds, and its track goes on. -/
theorem Safe.perform_sounds (safe : player.Safe) {kind : EventKind}
    (plain : kind.isControlFlow = false) {entry : Option Nat}
    (inside : ∀ index ∈ entry, index < player.shared.timeline.size) :
    (player.perform kind entry).Yields fun (more, next) =>
      more = true ∧ player.Sounds kind.tickAfter next := by
  have sound {x : Except Fault Player}
      (yields : x.Yields fun next => player.Rescores next ∧ next.Safe) :
      (x >>= goOn).Yields fun (more, next) =>
        more = true ∧ player.Sounds id next := by
    apply yields.bind
    rintro next ⟨rescores, kept⟩
    exact Except.yields_ok ⟨rfl, rescores.retains, kept⟩
  have quiet {passed : Nat → Nat} {next : Player} (sounds : player.Sounds passed next) :
      next.goOn.Yields fun (more, next) => more = true ∧ player.Sounds passed next :=
    Except.yields_ok ⟨rfl, sounds⟩
  cases kind with
  | noteOn key velocity => exact sound (startNote_safe safe key velocity inside)
  | noteOff key => exact sound (endNote_safe safe key)
  | note key velocity duration => exact sound (startTimedNote_safe safe key velocity duration inside)
  | rest ticks => exact quiet (safe.wait_sounds ticks)
  | hold ticks =>
    refine (safe.extendNotes_sounds ticks).bind ?_
    intro next sounds
    exact quiet sounds
  | level dial value => exact quiet (safe.setLevel_sounds ..)
  | slide dial target duration => exact quiet (safe.slideLevel_sounds ..)
  | masterLevel value => exact quiet (safe.setMasterLevel_sounds ..)
  | masterSlide target duration => exact quiet (safe.slideMasterLevel_sounds ..)
  | tempo bpm => exact quiet (safe.setTempo_sounds ..)
  | tempoSlide target duration => exact quiet (safe.slideTempo_sounds ..)
  | timeSignature numerator denominator ticksPerQuarter => exact quiet (safe.conduct_sounds ..)
  | transpose scope semitones =>
    cases scope with
    | all => exact quiet (safe.emitAll_sounds _)
    | own => exact quiet (safe.withRegisters _ ⟨rfl, rfl, rfl, rfl, rfl⟩ rfl rfl rfl)
  | octave number => exact quiet (safe.withRegisters _ ⟨rfl, rfl, rfl, rfl, rfl⟩ rfl rfl rfl)
  | keyCorrection semitones => exact quiet (safe.withRegisters _ ⟨rfl, rfl, rfl, rfl, rfl⟩ rfl rfl rfl)
  | drum key => exact quiet (safe.withRegisters _ ⟨rfl, rfl, rfl, rfl, rfl⟩ rfl rfl rfl)
  | jump | call | ret | loopStart | loopEnd | loopForever | trackEnd => cases plain
  | _ => exact quiet (safe.emitAll_sounds _)

theorem Safe.finish_yields (safe : player.Safe) : player.finish.Yields fun next =>
    next.setting = player.setting ∧
    next.track.outline =
      { player.track.outline with active := false, totalTicks := player.track.time } ∧
    next.shared.untimed = player.shared.untimed ∧
    next.shared.timeline.skeleton = player.shared.timeline.skeleton ∧
    next.track.openNotes = [] ∧ next.Safe := by
  have silent : Safe { player with track := { player.track with openNotes := [] } } :=
    safe.revise (.refl _) (fun _ member => member) fun _ member => absurd member List.not_mem_nil
  refine (endNotes_safe silent player.track.openNotes safe.opened _ player.track.time).bind ?_
  rintro next ⟨rescores, kept, opened⟩
  have ended := emit_rescores next player.track.time .endOfTrack none
  have both := rescores.trans ended
  have final := kept.emit player.track.time .endOfTrack none
  refine Except.yields_ok ⟨both.setting, ?_, both.shared, both.sheet.skeleton, ?_, ?_⟩
  · have same := both.retains.outline
    exact congrArg (fun track : Track =>
      { track with active := false, totalTicks := player.track.time }) same
  · exact (emit_openNotes ..).trans opened
  · exact ⟨final.timed, final.opened⟩

theorem perform_of_isControlFlow {kind : EventKind} (directs : kind.isControlFlow = true)
    (player : Player) (entry : Option Nat) : player.perform kind entry =
      player.take (player.track.cursor.turn player.setting.maxDepth kind) := by
  cases kind with
  | jump | call | ret | loopStart | loopEnd | loopForever | trackEnd => rfl
  | _ => cases directs

end Player
end Sequencer
