import Sequencer.Proofs.Strides

/-! A pass with a clock that plays every tick comes to the same as the pass itself. The ramps that
have to be monotone for this are made by slides of the file. -/
namespace Sequencer

open RefSeq (format)
open Player

/-- The ramp that a slide of a level makes at a tick. -/
def EventKind.ramp? (tick : Nat) (level : UInt8) : EventKind → Option Ramp
  | .slide _ target duration | .masterSlide target duration =>
    some (.between .level tick duration level.toNat target.toNat)
  | _ => none

/-- A slide of the file makes the ramp at some tick, from some level. -/
def Ramp.IsOf (source : Source) (ramp : Ramp) : Prop :=
  ∃ offset tick level,
    (RefSeq.kindAt? source offset).bind (EventKind.ramp? tick level) = some ramp

/-- All ramps are made by slides of the file. -/
structure Stance.Owned (source : Source) (stance : Stance) : Prop where
  reads : stance.source = source
  ramps : ∀ dial, ∀ ramp ∈ stance.ramps dial, ramp.IsOf source
  master : ∀ ramp ∈ stance.master, ramp.IsOf source

variable {source : Source} {stance : Stance} {player next : Player} {ramp : Ramp}

theorem Stance.Owned.setRamp (owned : stance.Owned source) (dial : Dial) {new : Option Ramp}
    (made : ∀ ramp ∈ new, ramp.IsOf source) : (stance.setRamp dial new).Owned source where
  reads := owned.reads
  ramps := by
    intro other ramp moves
    change ramp ∈ (if other = dial then new else stance.ramps other) at moves
    split at moves
    · exact made ramp moves
    · exact owned.ramps other ramp moves
  master := owned.master

theorem Stance.Owned.ended (owned : stance.Owned source) : stance.ended.Owned source :=
  ⟨owned.reads, fun _ _ none => absurd none (Option.not_mem_none _), owned.master⟩

namespace Player

theorem steer_owned (player : Player) {kind : EventKind}
    (made : ∀ tick level, ∀ ramp ∈ kind.ramp? tick level, ramp.IsOf source)
    (owned : stance.Owned source) : (player.steer stance kind).Owned source := by
  cases kind with
  | rest ticks | hold ticks => exact ⟨owned.reads, owned.ramps, owned.master⟩
  | level dial value => exact owned.setRamp dial fun _ none => absurd none (Option.not_mem_none _)
  | slide dial target duration =>
    unfold steer
    dsimp only
    split
    · refine owned.setRamp dial fun ramp same => ?_
      cases same
      exact made _ _ _ rfl
    · exact owned
  | masterLevel value =>
    exact ⟨owned.reads, owned.ramps, fun _ none => absurd none (Option.not_mem_none _)⟩
  | masterSlide target duration =>
    unfold steer
    dsimp only
    split
    · refine ⟨owned.reads, owned.ramps, fun ramp same => ?_⟩
      cases same
      exact made _ _ _ rfl
    · exact owned
  | _ => exact owned

theorem steered_owned (owned : stance.Owned player.setting.source) :
    (player.steered stance).Owned player.setting.source := by
  unfold steered
  rcases read : player.reads with ⟨result, stop⟩
  have known := kindAt_of_read read
  cases result with
  | error error => exact owned
  | ok instruction =>
    cases instruction with
    | event kind =>
      refine steer_owned _ (fun tick level ramp made => ?_) owned
      refine ⟨player.track.cursor.offset, tick, level, ?_⟩
      rw [known]
      exact made
    | octaveNote semitone velocity duration => exact owned
    | cut => exact owned
    | unknown opcode => exact owned

theorem moveDials_owned (owned : player.stance.Owned source) (tick : Nat) :
    (player.moveDials tick).stance.Owned source := by
  rw [moveDials_stance]
  exact ⟨owned.reads, fun dial ramp moves => owned.ramps dial ramp (Ramp.mem_of_mem_after moves),
    owned.master⟩

end Player

namespace Stage

variable {tick : Nat} {setting : Setting} {limits : Limits} {stage played : Stage Unit}

theorem finish_owned {performer : Performer Unit}
    (owned : performer.player.stance.Owned source) :
    performer.finish.Ensures fun last => last.player.stance.Owned source := by
  refine Performer.finish_ensures (fun last => last.stance.Owned source) fun last finished => ?_
  dsimp only
  rw [finish_stance finished]
  exact owned.ended

theorem step_owned {performer : Performer Unit} (owned : performer.player.stance.Owned source) :
    (format.step performer).Ensures fun (_, next) => next.player.stance.Owned source := by
  rintro ⟨more, next⟩ stepped
  rw [RefSeq.step_eq] at stepped
  obtain ⟨⟨_, player⟩, advanced, same⟩ := Except.map_eq_ok.mp stepped
  cases same
  dsimp only
  rw [advance_stance advanced]
  cases owned.reads
  exact steered_owned owned

/-- All ramps on the stage are made by slides of the file. -/
def Owned (source : Source) (stage : Stage Unit) : Prop :=
  (∀ track ∈ stage.tracks, ∀ dial, ∀ ramp ∈ track.ramps dial, ramp.IsOf source) ∧
    ∀ ramp ∈ stage.shared.masterRamp, ramp.IsOf source

theorem moveMaster_ramp (writing : Bool) (tick : Nat) (shared : Shared) :
    (moveMaster writing tick shared).masterRamp = Ramp.after tick shared.masterRamp := by
  unfold moveMaster
  cases moves : shared.masterRamp with
  | none => exact moves
  | some ramp =>
    dsimp only
    rw [Ramp.after_some]
    split
    · rfl
    · split
      · split <;> rfl
      · exact moves

variable {earlier later : List Track} {performer next : Performer Unit}

theorem Owned.own (owned : (performer.amid earlier later).Owned source)
    (reads : performer.player.setting.source = source) : performer.player.stance.Owned source :=
  ⟨reads, owned.1 _ (List.mem_append_right _ List.mem_cons_self), owned.2⟩

theorem Owned.replace (owned : (performer.amid earlier later).Owned source)
    (own : next.player.stance.Owned source) : (next.amid earlier later).Owned source := by
  obtain ⟨before, _, after⟩ := Performer.forall_amid.mp owned.1
  exact ⟨Performer.forall_amid.mpr ⟨before, own.ramps, after⟩, own.master⟩

/-- No move of a track brings in a ramp from elsewhere. -/
theorem Owned.walk (reads : setting.source = source) :
    format.Keeps setting (fun own _ => own.source = source) (Owned source) where
  wakes := fun _ _ => reads
  steps := by
    rintro earlier later performer ⟨reads, owned⟩
    refine (step_owned (owned.own reads)).mono ?_
    rintro ⟨more, next⟩ own
    exact ⟨own.reads, owned.replace own⟩
  finishes := fun ⟨reads, owned⟩ => (finish_owned (owned.own reads)).mono
    fun _ own => owned.replace own
  glides := fun tick ⟨reads, owned⟩ =>
    owned.replace (moveDials_owned (owned.own reads) tick)
  waits := fun _ ⟨reads, owned⟩ =>
    ⟨reads, owned.replace ⟨reads, (owned.own reads).ramps, owned.2⟩⟩
  leads := by
    intro stage tick owned
    refine ⟨owned.1, fun ramp moves => ?_⟩
    dsimp only at moves
    rw [moveMaster_ramp] at moves
    exact owned.2 ramp (Ramp.mem_of_mem_after moves)

theorem Reaches.owned {stride : Nat → Stage Unit → Nat} {later : Nat}
    (reaches : stage.Reaches format setting limits stride tick later played)
    (reads : setting.source = source) (owned : stage.Owned source) : played.Owned source := by
  have walk := Owned.walk reads
  induction reaches with
  | now done => exact walk.playTick limits _ owned _ done
  | later done _ _ _ ih => exact ih (walk.pass _ (walk.playTick limits _ owned _ done))

end Stage

namespace Sequence

variable {σ : Type} {sequence : Sequence Unit} {pass : Pass} {stopTime : Nat}
  {stage stage' : Stage Unit}

/-- A ramp moves a level at a tick that the pass plays. -/
def Glides (sequence : Sequence σ) (pass : Pass) (stopTime : Nat) (ramp : Ramp) : Prop :=
  ∃ tick stage, (sequence.openStage pass).Reaches sequence.format (sequence.setting pass)
    (sequence.limits stopTime) Stage.idleTicks 0 tick stage ∧ stage.InPlay ramp

theorem openStage_owned (sequence : Sequence Unit) (pass : Pass) (source : Source) :
    (sequence.openStage pass).Owned source := by
  constructor
  · obtain ⟨change, tracks, opening⟩ := openStage_tracks sequence pass
    rw [tracks]
    intro track member dial ramp moves
    obtain ⟨before, _, rfl⟩ := List.mem_map.mp member
    rw [Track.ramps, (opening before).1.dials dial] at moves
    cases moves
  · intro ramp moves
    rw [(openStage_shared sequence pass).2.2] at moves
    cases moves

/-- Every ramp in play is made by a slide of the file. -/
theorem Glides.isOf (whole : sequence.Whole source) (glides : sequence.Glides pass stopTime ramp) :
    ramp.IsOf source := by
  obtain ⟨tick, stage, reaches, inPlay⟩ := glides
  rw [whole.format] at reaches
  have owned := reaches.owned whole.reads (openStage_owned sequence pass source)
  rcases inPlay with ⟨track, member, _, dial, moves⟩ | moves
  · exact owned.1 track member dial ramp moves
  · exact owned.2 ramp moves

/-- A pass with a clock that plays every tick. -/
def runPassTickByTick (sequence : Sequence σ) (pass : Pass) (stopTime : Nat) :
    Except Fault (Sequence σ) := do
  let stage ← (sequence.openStage pass).playTogether sequence.format (sequence.setting pass)
    (sequence.limits stopTime) (fun _ _ => 1) 0
  sequence.closePass pass stage

/-- Two sequences are the same but for ticks that their tracks still had to wait at the end of the
clock, and for a ramp that the master volume was still on. -/
structure EndsLike (first second : Sequence Unit) : Prop where
  timeline : first.timeline = second.timeline
  arena : first.arena = second.arena
  tracks : first.tracks.map Track.undelayed = second.tracks.map Track.undelayed
  masterVolume : first.stage.shared.masterVolume = second.stage.shared.masterVolume
  transposes : first.transposes = second.transposes
  length : first.length = second.length
  midi : first.midi = second.midi

/-- What does not ask how long a track waits is the same for both stages. -/
theorem map_tracks {α : Type} (f : Track → α) (blind : ∀ track, f track.undelayed = f track)
    (ends : stage.EndsLike stage') : stage.tracks.map f = stage'.tracks.map f := by
  have same := congrArg (List.map f) ends.tracks
  simp only [List.map_map, Function.comp_def, blind] at same
  exact same

theorem conclude_endsLike (ends : stage.EndsLike stage') (sequence : Sequence Unit) (pass : Pass)
    (transposes : Transposes) : (sequence.conclude pass stage transposes).EndsLike
      (sequence.conclude pass stage' transposes) := by
  have tracks := map_tracks (fun track => (track.conclude pass).undelayed)
    (fun track => by cases pass <;> rfl) ends
  have totals := map_tracks Track.totalTicks (fun _ => rfl) ends
  have messages := map_tracks (fun track => (track.midi.transpose transposes.allAt).finalize)
    (fun _ => rfl) ends
  obtain ⟨ramp, shared⟩ := ends.shared
  have timeline : stage.shared.timeline = stage'.shared.timeline := by rw [shared]
  have conductor : stage.shared.conductor = stage'.shared.conductor := by rw [shared]
  have volume : stage.shared.masterVolume = stage'.shared.masterVolume := by rw [shared]
  constructor
  · cases pass <;> exact congrArg Timeline.settle timeline
  · rw [conclude_arena, conclude_arena, shared]
  · rw [conclude_tracks, conclude_tracks, List.map_map, List.map_map]
    exact tracks
  · cases pass <;> exact volume
  · cases pass <;> rfl
  · cases pass with
    | length =>
      simp only [conclude, measure, List.map_map]
      exact congrArg (List.foldl max 0) totals
    | _ => rfl
  · cases pass with
    | midi =>
      simp only [conclude, midiOutput, conductor]
      rw [messages]
    | _ => rfl

/-- Skipping idle ticks is not observable. -/
theorem runPass_skipsIdleTicks (reachable : Reachable source sequence)
    (together : sequence.header.tickSync = true) (pass : Pass) (stopTime : Nat)
    (monotone : ∀ ramp, sequence.Glides pass stopTime ramp → ramp.IsMonotone) :
    ∃ skipping stepping, sequence.runPass pass stopTime = .ok skipping ∧
      sequence.runPassTickByTick pass stopTime = .ok stepping ∧ skipping.EndsLike stepping := by
  have intact := reachable.intact
  obtain ⟨_, _, passes⟩ := intact.passes pass stopTime
  obtain ⟨stage, played, closed⟩ := Except.bind_eq_ok.mp passes.run
  unfold Stage.play at played
  rw [if_pos (show (sequence.setting pass).tickSync = true from together), intact.format] at played
  have glides : ∀ later played, (sequence.openStage pass).Reaches RefSeq.format
      (sequence.setting pass) (sequence.limits stopTime) Stage.idleTicks 0 later played →
      ∀ ramp, played.InPlay ramp → ramp.IsMonotone := by
    intro later played reaches ramp inPlay
    refine monotone ramp ⟨later, played, ?_, inPlay⟩
    rw [intact.format]
    exact reaches
  obtain ⟨stage', played', ends⟩ := Stage.playTogether_strides (Nat.zero_le _) glides
    (.refl 0 (sequence.openStage pass)) stage played
  rw [closePass_eq] at closed
  obtain ⟨transposes, found, same⟩ := Except.map_eq_ok.mp closed
  obtain ⟨ramp, shared⟩ := ends.shared
  have closed' : sequence.closePass pass stage' =
      .ok (sequence.conclude pass stage' transposes) := by
    rw [closePass_eq, shared]
    exact Except.map_eq_ok.mpr ⟨transposes, found, rfl⟩
  refine ⟨_, _, passes.run, Except.bind_eq_ok.mpr ⟨stage', ?_, closed'⟩, ?_⟩
  · rw [intact.format]
    exact played'
  · rw [← same]
    exact conclude_endsLike ends sequence pass transposes

/-- Two tracks that keep time: one lets its volume glide, the other one the master volume. -/
def gliding : Source :=
  #[0x52, 0x53, 0x45, 0x51, 1, 1, 0, 0, 0, 0, 2, 0, 17, 0, 1, 30, 0,
    0x21, 1, 0, 96, 0x12, 60, 100, 4, 0, 0x01, 8, 0, 0x00,
    0x27, 1, 0, 64, 0x01, 5, 0, 0x00]

/-- Slides of the file take one tick. -/
theorem duration_gliding {ramp : Ramp} (made : ramp.IsOf gliding) : ramp.duration ≤ 1 := by
  have inside : ∀ offset < 38, ((RefSeq.kindAt? gliding offset).bind
      (EventKind.ramp? 0 0)).all (fun ramp => ramp.duration ≤ 1) = true := by
    decide +kernel
  obtain ⟨offset, tick, level, made⟩ := made
  rcases Nat.lt_or_ge offset 38 with within | outside
  · obtain ⟨kind, known, makes⟩ := Option.bind_eq_some_iff.mp made
    have short := inside offset within
    rw [known] at short
    cases kind with
    | slide | masterSlide =>
      cases makes
      exact of_decide_eq_true short
    | _ => cases makes
  · rw [RefSeq.kindAt_outside outside] at made
    cases made

/-- The master volume is on a ramp after the first tick. -/
theorem moves_gliding : ((ofSource RefSeq.format () gliding).toOption.bind fun sequence =>
    ((sequence.openStage .midi).playTick sequence.format (sequence.setting .midi)
      (sequence.limits 0) 0).toOption.bind fun stage => stage.shared.masterRamp).isSome = true := by
  decide +kernel

theorem runPass_skipsIdleTicks_gliding : ∃ sequence,
    ofSource RefSeq.format () gliding = .ok sequence ∧ sequence.header.tickSync = true ∧
    (∃ ramp, sequence.Glides .midi 0 ramp) ∧
    (∀ ramp, sequence.Glides .midi 0 ramp → ramp.IsMonotone) ∧
    ∃ skipping stepping, sequence.runPass .midi 0 = .ok skipping ∧
      sequence.runPassTickByTick .midi 0 = .ok stepping ∧ skipping.EndsLike stepping := by
  have opened : ∃ sequence, ofSource RefSeq.format () gliding = .ok sequence ∧
      sequence.header.tickSync = true := ⟨_, rfl, rfl⟩
  obtain ⟨sequence, accepted, together⟩ := opened
  have monotone : ∀ ramp, sequence.Glides .midi 0 ramp → ramp.IsMonotone := fun ramp glides =>
    Ramp.isMonotone_of_short (duration_gliding (glides.isOf (intact_ofSource accepted).toWhole))
  have moves : ∃ ramp, sequence.Glides .midi 0 ramp := by
    obtain ⟨ramp, found⟩ := Option.isSome_iff_exists.mp moves_gliding
    obtain ⟨other, same, found⟩ := Option.bind_eq_some_iff.mp found
    cases accepted.symm.trans (Except.eq_ok_of_toOption same)
    obtain ⟨stage, played, moves⟩ := Option.bind_eq_some_iff.mp found
    exact ⟨ramp, 0, stage, .now (Except.eq_ok_of_toOption played), .inr moves⟩
  exact ⟨sequence, accepted, together, moves, monotone,
    runPass_skipsIdleTicks (.opened accepted) together .midi 0 monotone⟩

end Sequence
end Sequencer
