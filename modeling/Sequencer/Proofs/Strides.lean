import Mathlib.Data.List.Forall2
import Sequencer.Proofs.Passes
import Sequencer.Proofs.Spent
import Sequencer.Proofs.Walk

/-! A clock that skips the ticks at which nothing happens. If the rounded values of every ramp only
rise or only fall, tracks that keep time together come to the same as with a clock that plays each
tick there is. -/
namespace Sequencer

open RefSeq (format)
open Player

/-- The other stage is the same, but for ramps that were over before the tick. -/
def Stage.Sheds (tick : Nat) (stage other : Stage Unit) : Prop :=
  List.Forall₂ (Track.Sheds tick) stage.tracks other.tracks ∧ stage.shared.Sheds tick other.shared

variable {σ : Type} {tick ticks : Nat} {setting : Setting} {limits : Limits}
  {track track' : Track} {shared shared' : Shared} {stage stage' : Stage Unit}

theorem Stage.Sheds.refl (tick : Nat) (stage : Stage Unit) : stage.Sheds tick stage :=
  ⟨List.forall₂_same.mpr fun track _ => .refl tick track, _, .refl _ _, rfl⟩

namespace Stage

/-- What two plays do to tracks that are related, they do to all tracks, one after another. -/
theorem eachTrack_follows {play others : Performer Unit → Except Fault (Performer Unit)}
    {before after : Track → Track → Prop} {common : Shared → Shared → Prop}
    (each : ∀ {track track' shared shared'}, before track track' → common shared shared' →
      (play ⟨⟨setting, track, shared⟩, ()⟩).Follows (fun performer performer' =>
        after performer.player.track performer'.player.track ∧
          common performer.player.shared performer'.player.shared)
        (others ⟨⟨setting, track', shared'⟩, ()⟩))
    {tracks tracks' : List Track} (related : List.Forall₂ before tracks tracks')
    (shares : common shared shared') :
    (eachTrack play setting tracks shared ()).Follows (fun stage stage' =>
      List.Forall₂ after stage.tracks stage'.tracks ∧ common stage.shared stage'.shared)
      (eachTrack others setting tracks' shared' ()) := by
  induction related generalizing shared shared' with
  | nil => exact Except.follows_ok ⟨.nil, shares⟩
  | cons first _ ih =>
    unfold eachTrack
    refine (each first shares).bind ?_
    rintro ⟨⟨_, track, shared⟩, ⟨⟩⟩ ⟨⟨_, track', shared'⟩, ⟨⟩⟩ ⟨played, shares⟩
    refine (ih shares).bind ?_
    rintro ⟨rest, shared, ⟨⟩⟩ ⟨rest', shared', ⟨⟩⟩ ⟨others, shares⟩
    exact Except.follows_ok ⟨.cons played others, shares⟩

/-- What a track does at a tick. -/
abbrev playsDue (limits : Limits) (performer : Performer Unit) : Except Fault (Performer Unit) :=
  format.playDue limits.stopTime (limits.maxSteps - performer.player.track.steps) performer

/-- What its ramps do then. -/
abbrev movesDials (tick : Nat) (performer : Performer Unit) : Except Fault (Performer Unit) :=
  .ok ⟨if performer.player.track.active then performer.player.moveDials tick
    else performer.player, performer.memory⟩

theorem playsDue_sheds (sheds : stage.Sheds tick stage') :
    (stage.forTracks setting (playsDue limits)).Follows (Sheds tick)
      (stage'.forTracks setting (playsDue limits)) := by
  refine eachTrack_follows ?_ sheds.1 sheds.2
  intro track track' shared shared' same shares
  have steps : track'.steps = track.steps := by
    obtain ⟨_, _, _, rfl⟩ := same
    rfl
  unfold playsDue
  dsimp only
  rw [steps]
  exact Except.Follows.mono ((sheds_relates tick).playDue _ _ (same.player shares setting))
    fun _ _ sheds => sheds.parts

theorem movesDials_sheds (sheds : stage.Sheds tick stage') :
    (stage.forTracks setting (movesDials tick)).Follows
      (fun moved moved' => List.Forall₂ Eq moved.tracks moved'.tracks ∧
        moved.shared.Sheds tick moved'.shared)
      (stage'.forTracks setting (movesDials tick)) := by
  refine eachTrack_follows ?_ sheds.1 sheds.2
  intro track track' shared shared' same shares
  refine Except.follows_ok ?_
  have active : track'.active = track.active := by
    obtain ⟨_, _, _, rfl⟩ := same
    rfl
  dsimp only
  rw [active]
  split
  · exact (same.player shares setting).moveDials.imp_left Eq.symm
  · rename_i inactive
    obtain ⟨_, _, still, rfl⟩ := same
    rw [still (Bool.eq_false_iff.mpr inactive)]
    exact ⟨rfl, shares⟩

/-- Tracks do the same at a tick whether ramps that were over before are still there or not. -/
theorem playTick_sheds (sheds : stage.Sheds tick stage') :
    (stage.playTick format setting limits tick).Follows (fun played played' => played' = played)
      (stage'.playTick format setting limits tick) := by
  unfold playTick
  refine (playsDue_sheds sheds).bind fun played played' sheds => ?_
  refine (movesDials_sheds sheds).bind ?_
  rintro ⟨tracks, shared, ⟨⟩⟩ ⟨tracks', _, ⟨⟩⟩ ⟨same, ramp, sheds, rfl⟩
  rw [List.forall₂_eq_eq_eq] at same
  cases same
  refine Except.follows_ok ?_
  dsimp only
  rw [moveMaster_sheds _ sheds]

theorem eachTrack_ok (tracks : List Track) (shared : Shared) (memory : σ) :
    eachTrack .ok setting tracks shared memory = .ok ⟨tracks, shared, memory⟩ := by
  induction tracks with
  | nil => rfl
  | cons track rest ih =>
    unfold eachTrack
    simp only [bind, Except.bind, ih]
    rfl

/-- What a play does to each track, it does to all tracks. -/
theorem eachTrack_yields {play : Performer Unit → Except Fault (Performer Unit)}
    {before after : Track → Track → Prop} {common : Shared → Shared → Prop}
    (each : ∀ {track track' shared shared'}, before track track' → common shared shared' →
      (play ⟨⟨setting, track', shared'⟩, ()⟩).Yields fun performer =>
        after track performer.player.track ∧ common shared performer.player.shared)
    {tracks tracks' : List Track} (related : List.Forall₂ before tracks tracks')
    (shares : common shared shared') :
    (eachTrack play setting tracks' shared' ()).Yields fun stage =>
      List.Forall₂ after tracks stage.tracks ∧ common shared stage.shared := by
  refine eachTrack_follows (fun same shares => ?_) related shares _ (eachTrack_ok tracks shared ())
  rintro _ ⟨⟩
  exact each same shares

/-- At the tick no instruction is due, and no message of a ramp. -/
structure IdleAt (tick : Nat) (stage : Stage Unit) : Prop where
  waits : ∀ track ∈ stage.tracks, track.active = true → track.cursor.delay ≠ 0
  dials : ∀ track ∈ stage.tracks, track.active = true →
    ∀ dial, ∀ ramp ∈ track.ramps dial, ramp.changesAt tick = false
  master : ∀ ramp ∈ stage.shared.masterRamp, ramp.changesAt tick = false

theorem playsDue_idle (limits : Limits) (idle : stage.IdleAt tick)
    (sheds : stage.Sheds tick stage') :
    (stage'.forTracks setting (playsDue limits)).Yields (Sheds tick stage) := by
  refine eachTrack_yields ?_ ((List.forall₂_and_left _ _).mpr ⟨idle.waits, sheds.1⟩) sheds.2
  rintro track _ shared shared' ⟨waits, ramps, same, still, rfl⟩ shares
  refine ⟨_, Format.playDue_of_waiting _ _ ?_, ⟨ramps, same, still, rfl⟩, shares⟩
  unfold Track.isDue
  cases active : track.active with
  | false => rfl
  | true => simp [waits active]

theorem movesDials_idle (idle : stage.IdleAt tick) (sheds : stage.Sheds tick stage') :
    (stage'.forTracks setting (movesDials tick)).Yields fun moved =>
      List.Forall₂ (Track.Sheds (tick + 1)) stage.tracks moved.tracks ∧
        stage.shared.Sheds tick moved.shared := by
  refine eachTrack_yields ?_ ((List.forall₂_and_left _ _).mpr ⟨idle.dials, sheds.1⟩) sheds.2
  rintro track track' shared shared' ⟨idle, same⟩ shares
  obtain ⟨moved, kept⟩ := same.idle setting shared' idle
  exact Except.yields_ok ⟨moved, by dsimp only; rw [kept]; exact shares⟩

/-- An idle tick takes no more than ramps away that are over. -/
theorem playTick_idle (setting : Setting) (limits : Limits) (idle : stage.IdleAt tick)
    (sheds : stage.Sheds tick stage') :
    (stage'.playTick format setting limits tick).Yields (Sheds (tick + 1) stage) := by
  unfold playTick
  refine (playsDue_idle limits idle sheds).bind fun due sheds => ?_
  refine (movesDials_idle idle sheds).bind ?_
  rintro ⟨tracks, shared, ⟨⟩⟩ ⟨same, ramp, sheds, rfl⟩
  refine Except.yields_ok ⟨same, ?_⟩
  dsimp only
  rw [moveMaster_idle _ (sheds.idle idle.master)]
  exact ⟨_, sheds.after_succ, rfl⟩

/-- A ramp that moves the level of a track that still plays, or the master volume. -/
def InPlay (stage : Stage σ) (ramp : Ramp) : Prop :=
  (∃ track ∈ stage.tracks, track.active = true ∧ ∃ dial, track.ramps dial = some ramp) ∨
    stage.shared.masterRamp = some ramp

theorem exists_nextRamp_le {stage : Stage σ} {ramp : Ramp} {next : Nat}
    (inPlay : stage.InPlay ramp) (announced : ramp.nextChange tick = some next) :
    ∃ least, stage.nextRamp tick = some least ∧ least ≤ next := by
  rcases inPlay with ⟨track, member, active, dial, moves⟩ | moves
  · have own : ∃ least, track.dials.nextChange tick = some least ∧ least ≤ next := by
      refine List.exists_min?_le (List.mem_filterMap.mpr ⟨track.dials.get dial, ?_, ?_⟩)
      · cases dial <;> simp [Dials.get]
      · rw [show (track.dials.get dial).ramp = some ramp from moves]
        exact announced
    obtain ⟨earlier, found, le⟩ := own
    have known : earlier ∈ stage.tracks.filterMap fun track =>
        if track.active then track.dials.nextChange tick else none :=
      List.mem_filterMap.mpr ⟨track, member, (if_pos active).trans found⟩
    obtain ⟨least, all, le'⟩ := List.exists_min?_le (List.mem_append_left _ known)
    exact ⟨least, all, Nat.le_trans le' le⟩
  · refine List.exists_min?_le (List.mem_append_right _ (Option.mem_toList.mpr ?_))
    rw [moves]
    exact announced

/-- The clock does not go past a change that a ramp announces. -/
theorem idleTicks_le_nextChange {stage : Stage σ} {ramp : Ramp} {next : Nat}
    (inPlay : stage.InPlay ramp) (announced : ramp.nextChange tick = some next) :
    idleTicks tick stage ≤ max (next - tick) 1 := by
  obtain ⟨least, found, le⟩ := exists_nextRamp_le inPlay announced
  unfold idleTicks
  dsimp only
  rw [found]
  dsimp only
  omega

theorem mem_pass {stage : Stage σ} (member : track ∈ (stage.pass ticks).tracks)
    (active : track.active = true) : ∃ before ∈ stage.tracks, before.active = true ∧
      track.cursor.delay = before.cursor.delay - ticks ∧ track.ramps = before.ramps := by
  obtain ⟨before, known, rfl⟩ := List.mem_map.mp member
  by_cases still : before.active = true
  · refine ⟨before, known, still, ?_⟩
    rw [if_pos still]
    exact ⟨rfl, rfl⟩
  · rw [if_neg still] at active
    exact absurd active still

/-- The ticks that the clock skips are idle. -/
theorem idleAt_of_lt {later : Nat} (waits : ∀ track ∈ stage.tracks, track.active = true →
      track.cursor.delay ≠ 0)
    (monotone : ∀ ramp, stage.InPlay ramp → ramp.IsMonotone) (after : tick < later)
    (before : later < tick + max (idleTicks tick stage) 1) (clock : later ≤ Tick.last) :
    (stage.pass (later - tick)).IdleAt later := by
  have idle {ramp : Ramp} (inPlay : stage.InPlay ramp) : ramp.changesAt later = false := by
    refine (monotone ramp inPlay).idle after clock fun next announced => ?_
    have bound := idleTicks_le_nextChange inPlay announced
    omega
  constructor
  · intro track member active
    obtain ⟨earlier, known, still, delay, _⟩ := mem_pass member active
    have bound : max (idleTicks tick stage) 1 ≤ earlier.cursor.delay :=
      idleTicks_le known still (waits earlier known still)
    omega
  · intro track member active dial ramp moves
    obtain ⟨earlier, known, still, _, same⟩ := mem_pass member active
    rw [same] at moves
    exact idle (.inl ⟨earlier, known, still, dial, moves⟩)
  · intro ramp moves
    exact idle (.inr moves)

theorem isDue_of_finish {performer next : Performer Unit}
    (finished : performer.finish = .ok next) : next.player.track.isDue = false := by
  unfold Track.isDue
  rw [performer.finish_inactive next finished]
  rfl

/-- No instruction of a track is left that is due. -/
theorem isDue_of_playDue {stopTime budget : Nat} {performer next : Performer Unit}
    (played : format.playDue stopTime budget performer = .ok next) :
    next.player.track.isDue = false :=
  Format.playDue_ensures (fun _ => True) (fun performer => performer.player.track.isDue = false)
    (fun _ _ _ => trivial) (fun _ _ finished => isDue_of_finish finished) (fun _ waits => waits)
    trivial _ played

theorem playTick_waits {played : Stage Unit}
    (done : stage.playTick format setting limits tick = .ok played) :
    ∀ track ∈ played.tracks, track.active = true → track.cursor.delay ≠ 0 := by
  obtain ⟨due, first, done⟩ := Except.bind_eq_ok.mp done
  obtain ⟨moved, second, done⟩ := Except.bind_eq_ok.mp done
  cases Except.ok.inj done
  have waits : ∀ track ∈ due.tracks, track.isDue = false := by
    refine (forTracks_ensures (fun _ => True) (fun track => track.isDue = false) (fun _ => True)
      (fun _ _ _ _ _ _ _ last played => ⟨?_, trivial⟩) (fun _ _ => trivial) trivial _ first).1
    exact isDue_of_playDue played
  have kept (player : Player) : (player.moveDials tick).track.isDue = player.track.isDue := by
    unfold Track.isDue
    rw [moveDials_cursor, show (player.moveDials tick).track.active = player.track.active from
      congrArg Stance.active (moveDials_stance player tick)]
  have still : ∀ track ∈ moved.tracks, track.isDue = false := by
    refine (forTracks_ensures (fun track => track.isDue = false) (fun track => track.isDue = false)
      (fun _ => True) (fun _ track _ shared memory waits _ last moved => ⟨?_, trivial⟩) waits
      trivial _ second).1
    cases moved
    dsimp only
    split
    · exact (kept _).trans waits
    · exact waits
  intro track member active none
  have waits := still track member
  unfold Track.isDue at waits
  rw [active, none] at waits
  cases waits

/-- A tick that is played, and the stage after it. -/
inductive Reaches (format : Format σ) (setting : Setting) (limits : Limits)
    (stride : Nat → Stage σ → Nat) : Nat → Stage σ → Nat → Stage σ → Prop
  | now {tick : Nat} {stage played : Stage σ}
      (done : stage.playTick format setting limits tick = .ok played) :
      Reaches format setting limits stride tick stage tick played
  | later {tick later : Nat} {stage played last : Stage σ}
      (done : stage.playTick format setting limits tick = .ok played)
      (active : played.isActive = true)
      (within : tick + max (stride tick played) 1 ≤ Tick.last)
      (reaches : Reaches format setting limits stride (tick + max (stride tick played) 1)
        (played.pass (max (stride tick played) 1)) later last) :
      Reaches format setting limits stride tick stage later last

end Stage

/-- The track without the ticks that it still had to wait. -/
def Track.undelayed (track : Track) : Track :=
  { track with cursor := { track.cursor with delay := 0 } }

/-- What tracks share is the same, but for a ramp that the master volume was still on. -/
def Shared.EndsLike (shared other : Shared) : Prop :=
  ∃ ramp, other = { shared with masterRamp := ramp }

namespace Stage

/-- Two stages have come to the same, but for ticks and a ramp that were left at the end of the
clock. -/
structure EndsLike (stage other : Stage Unit) : Prop where
  tracks : stage.tracks.map Track.undelayed = other.tracks.map Track.undelayed
  shared : stage.shared.EndsLike other.shared

theorem EndsLike.refl (stage : Stage Unit) : stage.EndsLike stage := ⟨rfl, _, rfl⟩

theorem Sheds.isActive (sheds : stage.Sheds tick stage') : stage'.isActive = stage.isActive := by
  obtain ⟨tracks, shared, _⟩ := stage
  obtain ⟨tracks', shared', _⟩ := stage'
  have related : List.Forall₂ (Track.Sheds tick) tracks tracks' := sheds.1
  clear sheds
  unfold Stage.isActive
  induction related with
  | nil => rfl
  | cons first _ ih =>
    obtain ⟨_, _, _, rfl⟩ := first
    rw [List.any_cons, List.any_cons, ih]

theorem Sheds.pass (sheds : stage.Sheds tick stage') (ticks : Nat) :
    (stage.pass ticks).Sheds tick (stage'.pass ticks) := by
  refine ⟨List.forall₂_map_left_iff.mpr (List.forall₂_map_right_iff.mpr (sheds.1.imp ?_)), sheds.2⟩
  rintro track _ ⟨ramps, sheds, still, rfl⟩
  dsimp only
  split
  · exact ⟨ramps, sheds, still, rfl⟩
  · exact ⟨ramps, sheds, still, rfl⟩

theorem pass_pass (stage : Stage σ) (first second : Nat) :
    (stage.pass first).pass second = stage.pass (first + second) := by
  unfold Stage.pass
  simp only [List.map_map, Stage.mk.injEq, and_true]
  refine List.map_congr_left fun track _ => ?_
  cases active : track.active <;> simp [active, Nat.sub_sub]

theorem isActive_pass (stage : Stage σ) (ticks : Nat) :
    (stage.pass ticks).isActive = stage.isActive := by
  unfold Stage.isActive Stage.pass
  rw [List.any_map]
  congr 1
  funext track
  simp only [Function.comp]
  split <;> rfl

/-- Stopping a track leaves neither what it has waited for nor its ramps. -/
theorem finish_endsLike (player : Player) (stance : Stance) :
    (Performer.finish ⟨player, ()⟩).Follows (fun ended ended' =>
      ended.player.track.undelayed = ended'.player.track.undelayed ∧
        ended.player.shared.EndsLike ended'.player.shared)
      (Performer.finish ⟨player.withStance stance, ()⟩) := by
  have finishes : player.finish.Follows (fun ended ended' =>
      ended.track.undelayed = ended'.track.undelayed ∧ ended.shared.EndsLike ended'.shared)
      (player.withStance stance).finish := by
    intro ended done
    rw [finish_withStance, done]
    have own := withStance_stance ended
    rw [finish_stance done] at own
    have same := congrArg (fun player : Player => player.track.undelayed) own.symm
    exact ⟨_, rfl, same, _, rfl⟩
  exact finishes.bind fun _ _ related => Except.follows_ok related

theorem finishAll_sheds (sheds : (stage.pass ticks).Sheds tick stage') :
    (stage.finishAll setting).Follows EndsLike (stage'.finishAll setting) := by
  have ended : (stage.finishAll setting).Follows (fun ended ended' =>
      List.Forall₂ (fun track track' => track.undelayed = track'.undelayed) ended.tracks
        ended'.tracks ∧ ended.shared.EndsLike ended'.shared) (stage'.finishAll setting) := by
    refine eachTrack_follows ?_ (List.forall₂_map_left_iff.mp sheds.1) ?_
    · intro track track' shared _ sheds ⟨master, same⟩
      cases same
      dsimp only
      by_cases active : track.active = true
      · rw [if_pos active] at sheds
        obtain ⟨ramps, _, _, rfl⟩ := sheds
        rw [if_pos active, if_pos active]
        exact finish_endsLike ⟨setting, track, shared⟩
          ⟨setting.source, setting.tickSync, track.active, track.cursor.delay - ticks, ramps,
            master⟩
      · rw [if_neg active] at sheds
        obtain ⟨ramps, _, still, rfl⟩ := sheds
        rw [if_neg active, if_neg active, still (Bool.eq_false_iff.mpr active)]
        exact Except.follows_ok ⟨rfl, master, rfl⟩
    · obtain ⟨master, _, same⟩ := sheds.2
      exact ⟨master, same⟩
  intro result done
  obtain ⟨result', done', tracks, shared⟩ := ended result done
  refine ⟨result', done', ?_, shared⟩
  rw [← List.forall₂_eq_eq_eq, List.forall₂_map_left_iff, List.forall₂_map_right_iff]
  exact tracks

/-- An idle tick of the clock that plays every tick. -/
theorem playTogether_idle (setting : Setting) (limits : Limits) (idle : stage.IdleAt tick)
    (sheds : stage.Sheds tick stage') (active : stage.isActive = true) :
    ∃ next, stage.Sheds (tick + 1) next ∧
      stage'.playTogether format setting limits (fun _ _ => 1) tick =
        if tick + 1 ≤ Tick.last then
          (next.pass 1).playTogether format setting limits (fun _ _ => 1) (tick + 1)
        else next.finishAll setting := by
  obtain ⟨next, played, sheds⟩ := playTick_idle setting limits idle sheds
  refine ⟨next, sheds, ?_⟩
  rw [playTogether, played]
  simp only [bind, Except.bind]
  rw [if_pos (sheds.isActive.trans active)]
  rfl

/-- The clock that plays every tick gets through idle ticks. -/
theorem playTogether_coasts (setting : Setting) (limits : Limits) {later : Nat}
    (after : tick + 1 ≤ later)
    (idle : ∀ between, tick < between → between < later →
      (stage.pass (between - tick)).IdleAt between)
    (active : stage.isActive = true) (within : later ≤ Tick.last) :
    ∃ stage', (stage.pass (later - tick)).Sheds later stage' ∧
      (stage.pass 1).playTogether format setting limits (fun _ _ => 1) (tick + 1) =
        stage'.playTogether format setting limits (fun _ _ => 1) later := by
  induction after with
  | refl =>
    rw [Nat.add_sub_cancel_left]
    exact ⟨stage.pass 1, .refl _ _, rfl⟩
  | @step later after ih =>
    have after : tick + 1 ≤ later := after
    obtain ⟨stage', sheds, same⟩ := ih
      (fun between after before => idle between after (Nat.lt_succ_of_lt before))
      (Nat.le_of_succ_le within)
    obtain ⟨next, sheds, goes⟩ := playTogether_idle setting limits
      (idle later after (Nat.lt_succ_self _)) sheds ((isActive_pass ..).trans active)
    rw [if_pos within] at goes
    have passed := sheds.pass 1
    rw [pass_pass, show later - tick + 1 = later + 1 - tick by omega] at passed
    exact ⟨next.pass 1, passed, same.trans goes⟩

/-- The clock that plays every tick runs out on a stage that is idle for the rest of it. -/
theorem playTogether_runsOut (setting : Setting) (limits : Limits)
    (idle : ∀ later, tick < later → later ≤ Tick.last → (stage.pass (later - tick)).IdleAt later)
    (active : stage.isActive = true) :
    (stage.finishAll setting).Follows EndsLike
      (if tick + 1 ≤ Tick.last then
        (stage.pass 1).playTogether format setting limits (fun _ _ => 1) (tick + 1)
      else stage.finishAll setting) := by
  split
  · rename_i going
    obtain ⟨_, sheds, goes⟩ := playTogether_coasts setting limits going
      (fun between after before => idle between after (Nat.le_of_lt before)) active
      (Nat.le_refl _)
    obtain ⟨_, sheds, ends⟩ := playTogether_idle setting limits (idle _ going (Nat.le_refl _))
      sheds ((isActive_pass ..).trans active)
    rw [if_neg (Nat.not_succ_le_self _)] at ends
    rw [goes, ends]
    exact finishAll_sheds sheds
  · exact fun ended done => ⟨ended, done, .refl _⟩

/-- The clock that skips idle ticks comes to the same as the one that plays every tick. -/
theorem playTogether_strides (within : tick ≤ Tick.last)
    (monotone : ∀ later played, stage.Reaches format setting limits idleTicks tick later played →
      ∀ ramp, played.InPlay ramp → ramp.IsMonotone)
    (sheds : stage.Sheds tick stage') :
    (stage.playTogether format setting limits idleTicks tick).Follows EndsLike
      (stage'.playTogether format setting limits (fun _ _ => 1) tick) := by
  induction left : Tick.last - tick using Nat.strongRecOn generalizing tick stage stage' with
  | ind left ih =>
    intro result done
    rw [playTogether] at done
    obtain ⟨played, first, done⟩ := Except.bind_eq_ok.mp done
    obtain ⟨played', first', same⟩ := playTick_sheds sheds _ first
    rw [same] at first'
    rw [playTogether, first']
    simp only [bind, Except.bind, Nat.max_self] at done ⊢
    have skipped {later : Nat} (after : tick < later)
        (before : later < tick + max (idleTicks tick played) 1) (clock : later ≤ Tick.last) :
        (played.pass (later - tick)).IdleAt later :=
      idleAt_of_lt (playTick_waits first) (monotone _ _ (.now first)) after before clock
    split at done
    · rename_i active
      rw [if_pos active]
      split at done
      · rename_i further
        obtain ⟨next, sheds, goes⟩ := playTogether_coasts setting limits
          (show tick + 1 ≤ tick + max (idleTicks tick played) 1 by omega)
          (fun between after before => skipped after before (by omega)) active further
        rw [if_pos (by omega), goes]
        rw [Nat.add_sub_cancel_left] at sheds
        exact ih _ (by omega) further
          (fun later last reaches => monotone later last (.later first active further reaches))
          sheds rfl _ done
      · rename_i beyond
        exact playTogether_runsOut setting limits
          (fun later after clock => skipped after (by omega) clock) active _ done
    · rename_i silent
      cases done
      rw [if_neg silent]
      exact ⟨_, rfl, .refl _⟩

end Stage
end Sequencer
