import Sequencer.Sequence
import Sequencer.Proofs.Outcome

/-! Visits: which instruction a track decodes when. A format is logged by a decoder that
writes down every visit before it decodes. Nothing reads the log, so that a logged run is the
run itself with a list beside it. -/
namespace Sequencer

/-- A track decodes the instruction at an offset when its clock shows a tick. -/
structure Visit where
  track : Nat
  offset : Nat
  tick : Nat
deriving DecidableEq, Repr

def Track.visit (track : Track) : Visit := ⟨track.index, track.cursor.offset, track.time⟩

variable {σ τ : Type}

/-- The same format with a decoder that logs its visits. -/
def Format.logged (format : Format σ) : Format (σ × List Visit) where
  name := format.name
  header := format.header
  pointers := format.pointers
  decode := fun (memory, log) player =>
    (format.decode memory player).map fun (result, memory) =>
      (result, (memory, log ++ [player.track.visit]))

def Stage.logged (log : List Visit) (stage : Stage σ) : Stage (σ × List Visit) :=
  ⟨stage.tracks, stage.shared, (stage.memory, log)⟩

def Stage.withMemory (g : σ → τ) (stage : Stage σ) : Stage τ :=
  ⟨stage.tracks, stage.shared, g stage.memory⟩

abbrev Stage.unlogged (stage : Stage (σ × List Visit)) : Stage σ := stage.withMemory Prod.fst

def Performer.withMemory (g : σ → τ) (performer : Performer σ) : Performer τ :=
  ⟨performer.player, g performer.memory⟩

/-- Visits that were written down earlier come first. -/
def putBefore (log : List Visit) (memory : σ × List Visit) : σ × List Visit :=
  (memory.1, log ++ memory.2)

namespace Sequence

/-- The sequence with a logged format and an empty log. -/
def logged (sequence : Sequence σ) : Sequence (σ × List Visit) :=
  { sequence with format := sequence.format.logged, stage := sequence.stage.logged [] }

def withMemory (g : σ → τ) (image : Format τ) (sequence : Sequence σ) : Sequence τ :=
  { sequence with format := image, stage := sequence.stage.withMemory g }

/-- What the tracks decode in a pass, in the order in which they do. -/
def visits (sequence : Sequence σ) (pass : Pass) (stopTime : Nat) :
    Except Fault (List Visit) :=
  (sequence.logged.runPass pass stopTime).map fun played => played.stage.memory.2

/-- What the tracks decode in the three passes of loading. -/
def visitsOfLoad (sequence : Sequence σ) : Except Fault (List Visit) :=
  sequence.logged.load.map fun loaded => loaded.stage.memory.2

end Sequence

/-- What one format decodes, another one decodes with an image of its memory. -/
def Format.Maps (g : σ → τ) (format : Format σ) (image : Format τ) : Prop :=
  ∀ memory player, ((format.decode memory player).run player).map
    (fun ((result, memory), player) => ((result, g memory), player)) =
      (image.decode (g memory) player).run player

theorem Routine.run_map {α β : Type} (f : α → β) (routine : Routine α) (player : Player) :
    (routine.map f).run player = (routine.run player).map fun (result, player) =>
      (f result, player) := by
  induction routine generalizing player with
  | done result => rfl
  | order operation next ih =>
    simp only [Routine.map, Routine.run]
    cases player.apply operation with
    | error fault => rfl
    | ok outcome => exact ih _ _ _

/-- Nothing reads the log. -/
theorem Format.maps_unlogged (format : Format σ) : format.logged.Maps Prod.fst format := by
  rintro ⟨memory, log⟩ player
  simp only [Format.logged, Routine.run_map]
  cases (format.decode memory player).run player <;> rfl

theorem Format.maps_putBefore (format : Format σ) (log : List Visit) :
    format.logged.Maps (putBefore log) format.logged := by
  rintro ⟨memory, later⟩ player
  simp only [Format.logged, putBefore, Routine.run_map]
  cases (format.decode memory player).run player with
  | error fault => rfl
  | ok outcome => simp [Except.map]

variable {g : σ → τ} {format : Format σ} {image : Format τ}

namespace Format

theorem Maps.step (maps : format.Maps g image) (performer : Performer σ) :
    (format.step performer).map (fun (more, performer) => (more, performer.withMemory g)) =
      image.step (performer.withMemory g) := by
  obtain ⟨player, memory⟩ := performer
  simp only [Format.step, Performer.withMemory, ← maps memory]
  cases (format.decode memory _).run _ with
  | error fault => rfl
  | ok outcome => rfl

theorem withMemory_finish (performer : Performer σ) :
    performer.finish.map (Performer.withMemory g) = (performer.withMemory g).finish := by
  simp only [Performer.finish, Performer.withMemory]
  cases performer.player.finish with
  | error fault => rfl
  | ok player => rfl

theorem Maps.playThrough (maps : format.Maps g image) (stopTime budget : Nat)
    (performer : Performer σ) :
    (format.playThrough stopTime budget performer).map (Performer.withMemory g) =
      image.playThrough stopTime budget (performer.withMemory g) := by
  induction budget generalizing performer with
  | zero => exact withMemory_finish performer
  | succ budget ih =>
    simp only [Format.playThrough]
    rw [show (performer.withMemory g).player = performer.player from rfl]
    split
    · exact withMemory_finish performer
    · refine Except.map_bind_of_map (maps.step performer) ?_
      rintro ⟨more, performer⟩
      cases more with
      | true => exact ih _
      | false => exact withMemory_finish performer

theorem Maps.playDue (maps : format.Maps g image) (stopTime budget : Nat)
    (performer : Performer σ) :
    (format.playDue stopTime budget performer).map (Performer.withMemory g) =
      image.playDue stopTime budget (performer.withMemory g) := by
  induction budget generalizing performer with
  | zero =>
    simp only [Format.playDue]
    rw [show (performer.withMemory g).player = performer.player from rfl]
    split
    · exact withMemory_finish performer
    · rfl
  | succ budget ih =>
    simp only [Format.playDue]
    rw [show (performer.withMemory g).player = performer.player from rfl]
    split
    · split
      · exact withMemory_finish performer
      · refine Except.map_bind_of_map (maps.step performer) ?_
        rintro ⟨more, performer⟩
        cases more with
        | true => exact ih _
        | false => exact withMemory_finish performer
    · rfl

end Format

namespace Stage

theorem withMemory_eachTrack {play : Performer σ → Except Fault (Performer σ)}
    (others : Performer τ → Except Fault (Performer τ)) (setting : Setting)
    (each : ∀ performer, (play performer).map (Performer.withMemory g) =
      others (performer.withMemory g))
    (tracks : List Track) (shared : Shared) (memory : σ) :
    (eachTrack play setting tracks shared memory).map (withMemory g) =
      eachTrack others setting tracks shared (g memory) := by
  induction tracks generalizing shared memory with
  | nil => rfl
  | cons track rest ih =>
    simp only [eachTrack]
    refine Except.map_bind_of_map (each ⟨⟨setting, track, shared⟩, memory⟩) ?_
    rintro ⟨⟨_, track, shared⟩, memory⟩
    refine Except.map_bind_of_map (ih shared memory) ?_
    intro stage
    rfl

variable (maps : format.Maps g image) (setting : Setting) (limits : Limits)
include maps

theorem withMemory_playInTurn (stage : Stage σ) :
    (stage.playInTurn format setting limits).map (withMemory g) =
      (stage.withMemory g).playInTurn image setting limits :=
  withMemory_eachTrack
    (fun performer => image.playThrough limits.stopTime
      (limits.maxSteps - performer.player.track.steps) performer) setting
    (fun performer => maps.playThrough _ _ performer) _ _ _

theorem withMemory_playTick (tick : Nat) (stage : Stage σ) :
    (stage.playTick format setting limits tick).map (withMemory g) =
      (stage.withMemory g).playTick image setting limits tick := by
  simp only [playTick]
  refine Except.map_bind_of_map (withMemory_eachTrack
    (fun performer => image.playDue limits.stopTime
      (limits.maxSteps - performer.player.track.steps) performer) setting
    (fun performer => maps.playDue _ _ performer) _ _ _) ?_
  intro stage
  refine Except.map_bind_of_map (withMemory_eachTrack
    (fun performer => .ok ⟨if performer.player.track.active then
      performer.player.moveDials tick else performer.player, performer.memory⟩) setting
    (fun _ => rfl) _ _ _) ?_
  intro stage
  rfl

omit maps in
theorem withMemory_finishAll (stage : Stage σ) :
    (stage.finishAll setting).map (withMemory g) = (stage.withMemory g).finishAll setting := by
  refine withMemory_eachTrack _ setting ?_ _ _ _
  intro performer
  rw [show (performer.withMemory g).player = performer.player from rfl]
  split
  · exact Format.withMemory_finish performer
  · rfl

theorem withMemory_playTogether {stride : Nat → Stage σ → Nat} (others : Nat → Stage τ → Nat)
    (same : ∀ tick stage, stride tick stage = others tick (stage.withMemory g))
    (tick : Nat) (stage : Stage σ) :
    (stage.playTogether format setting limits stride tick).map (withMemory g) =
      (stage.withMemory g).playTogether image setting limits others tick := by
  induction left : Tick.last - tick using Nat.strongRecOn generalizing tick stage with
  | ind left ih =>
    rw [playTogether, playTogether]
    refine Except.map_bind_of_map (withMemory_playTick maps setting limits tick stage) ?_
    intro stage
    rw [show (stage.withMemory g).isActive = stage.isActive from rfl, same]
    split
    · dsimp only
      split
      · rename_i within
        exact ih _ (by omega) _ (stage.pass _) rfl
      · exact withMemory_finishAll setting stage
    · rfl

theorem withMemory_play (stage : Stage σ) :
    (stage.play format setting limits).map (withMemory g) =
      (stage.withMemory g).play image setting limits := by
  simp only [play]
  split
  · exact withMemory_playTogether maps setting limits idleTicks (fun _ _ => rfl) 0 stage
  · exact withMemory_playInTurn maps setting limits stage

end Stage

namespace Sequence

theorem withMemory_closePass (sequence : Sequence σ) (pass : Pass) (stage : Stage σ) :
    (sequence.closePass pass stage).map (withMemory g image) =
      (sequence.withMemory g image).closePass pass (stage.withMemory g) := by
  simp only [closePass]
  refine Except.map_bind_of_map (f := id) ?_ ?_
  · exact congrFun Except.map_id _
  · intro transposes
    cases pass <;> rfl

theorem withMemory_openStage (sequence : Sequence σ) (pass : Pass) :
    (sequence.openStage pass).withMemory g = (sequence.withMemory g image).openStage pass := by
  unfold openStage
  split
  · rename_i initial
    exact (if_pos initial).symm
  · rename_i plain
    exact (if_neg plain).symm

/-- A pass with an image of the memory is the pass itself. -/
theorem withMemory_runPass {sequence : Sequence σ} (maps : sequence.format.Maps g image)
    (pass : Pass) (stopTime : Nat) :
    (sequence.runPass pass stopTime).map (withMemory g image) =
      (sequence.withMemory g image).runPass pass stopTime := by
  simp only [runPass]
  refine Except.map_bind_of_map (f := Stage.withMemory g) ?_ ?_
  · rw [Stage.withMemory_play maps]
    exact congrArg (fun stage : Stage τ => stage.play image (sequence.setting pass)
      ⟨sequence.options.maxSteps, stopTime⟩) (withMemory_openStage sequence pass)
  · intro stage
    exact withMemory_closePass sequence pass stage

theorem runPass_format {sequence played : Sequence σ} {pass : Pass} {stopTime : Nat}
    (run : sequence.runPass pass stopTime = .ok played) : played.format = sequence.format := by
  simp only [runPass, Except.bind_eq_ok] at run
  obtain ⟨stage, _, closed⟩ := run
  simp only [closePass, Except.bind_eq_ok] at closed
  obtain ⟨transposes, _, closed⟩ := closed
  cases pass <;> cases closed <;> rfl

def loggedAfter (log : List Visit) (sequence : Sequence σ) : Sequence (σ × List Visit) :=
  { sequence with format := sequence.format.logged, stage := sequence.stage.logged log }

variable {sequence next listed measured : Sequence σ} {pass : Pass} {stopTime : Nat}
  {log first second third : List Visit}

theorem withMemory_loggedAfter (sequence : Sequence σ) (first second : List Visit) :
    (sequence.loggedAfter second).withMemory (putBefore first) sequence.format.logged =
      sequence.loggedAfter (first ++ second) := rfl

theorem logged_runPass (run : sequence.runPass pass stopTime = .ok next)
    (visits : sequence.visits pass stopTime = .ok log) :
    sequence.logged.runPass pass stopTime = .ok (next.loggedAfter log) := by
  obtain ⟨played, done, rfl⟩ := Except.map_eq_ok.mp visits
  have maps : sequence.logged.format.Maps Prod.fst sequence.format :=
    sequence.format.maps_unlogged
  have plain := withMemory_runPass maps pass stopTime
  rw [done] at plain
  have same : Except.ok (played.withMemory Prod.fst sequence.format) =
      (Except.ok next : Except Fault _) := plain.trans run
  cases same
  have format : played.format = sequence.format.logged := runPass_format done
  obtain ⟨source, _, header, options, stage, transposes, length, midi, lastPass⟩ := played
  cases format
  exact done

theorem loggedAfter_runPass (run : sequence.runPass pass stopTime = .ok next)
    (visits : sequence.visits pass stopTime = .ok second) :
    (sequence.loggedAfter first).runPass pass stopTime =
      .ok (next.loggedAfter (first ++ second)) := by
  have maps : sequence.logged.format.Maps (putBefore first) sequence.format.logged :=
    sequence.format.maps_putBefore first
  have after := withMemory_runPass maps pass stopTime
  rw [logged_runPass run visits] at after
  have same : sequence.logged.withMemory (putBefore first) sequence.format.logged =
      sequence.loggedAfter first := by
    have own := withMemory_loggedAfter sequence first []
    rw [List.append_nil] at own
    exact own
  rw [same] at after
  rw [← after, ← runPass_format run]
  exact congrArg Except.ok (withMemory_loggedAfter next first second)

/-- Loading decodes what its passes do. -/
theorem visitsOfLoad_eq (listing : sequence.runPass .listing 0 = .ok listed)
    (measuring : listed.runPass .length 0 = .ok measured)
    (playing : measured.runMidi = .ok next) (ofListing : sequence.visits .listing 0 = .ok first)
    (ofMeasuring : listed.visits .length 0 = .ok second)
    (ofPlaying : measured.visits .midi measured.length = .ok third) :
    sequence.visitsOfLoad = .ok (first ++ second ++ third) := by
  have listing := logged_runPass listing ofListing
  have measuring : (listed.loggedAfter first).runPass .length 0 = _ :=
    loggedAfter_runPass measuring ofMeasuring
  have playing : (measured.loggedAfter (first ++ second)).runMidi = _ :=
    loggedAfter_runPass playing ofPlaying
  have loaded : sequence.logged.load = .ok (next.loggedAfter (first ++ second ++ third)) :=
    Except.bind_eq_ok.mpr ⟨_, listing, Except.bind_eq_ok.mpr ⟨_, measuring, playing⟩⟩
  rw [visitsOfLoad, loaded]
  rfl

end Sequence
end Sequencer
