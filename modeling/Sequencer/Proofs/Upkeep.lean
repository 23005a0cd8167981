import Sequencer.Proofs.Walk

/-! What a pass keeps, in any format. What holds of a track and of what all tracks share, and is
kept by the operations that the decoder may order, by the ramps and by the end of a track, holds
throughout a pass. -/
namespace Sequencer

variable {σ : Type} {allowed : Player → Operation → Prop} {format : Format σ} {setting : Setting}

/-- What is kept of the tracks that play and of what they share. A track that has ended may be
known by something else. -/
structure Upkeep (setting : Setting) (allowed : Player → Operation → Prop)
    (going ended : Track → Prop) (common : Shared → Prop) : Prop where
  live : ∀ {track}, going track → track.active = true
  rests : ∀ {track}, ended track → track.active = false
  paced : ∀ {track} (steps delay : Nat), going track →
    going { track with steps, cursor := { track.cursor with delay } }
  applies : ∀ {track shared operation}, going track → common shared →
    allowed ⟨setting, track, shared⟩ operation →
    (Player.apply ⟨setting, track, shared⟩ operation).Ensures fun (_, next) =>
      next.setting = setting ∧ going next.track ∧ common next.shared
  glides : ∀ {track shared} (tick : Nat), going track → common shared →
    going (Player.moveDials ⟨setting, track, shared⟩ tick).track ∧
      common (Player.moveDials ⟨setting, track, shared⟩ tick).shared
  finishes : ∀ {track shared}, going track → common shared →
    (Player.finish ⟨setting, track, shared⟩).Ensures fun next =>
      ended next.track ∧ common next.shared
  master : ∀ {shared} (writing : Bool) (tick : Nat), common shared →
    common (Stage.moveMaster writing tick shared)

namespace Upkeep

/-- A player of the setting whose track plays. -/
structure Plays (setting : Setting) (going : Track → Prop) (common : Shared → Prop)
    (player : Player) : Prop where
  setting : player.setting = setting
  track : going player.track
  shared : common player.shared

/-- Tracks of which each one plays or has ended, and what they share. -/
def Holds (going ended : Track → Prop) (common : Shared → Prop) (stage : Stage σ) : Prop :=
  (∀ track ∈ stage.tracks, going track ∨ ended track) ∧ common stage.shared

def Ended (ended : Track → Prop) (common : Shared → Prop) (stage : Stage σ) : Prop :=
  (∀ track ∈ stage.tracks, ended track) ∧ common stage.shared

variable {going ended : Track → Prop} {common : Shared → Prop} {stage : Stage σ}
  {earlier later : List Track} {performer next : Performer σ}

theorem Holds.replace (holds : Holds going ended common (performer.amid earlier later))
    (own : going next.player.track ∨ ended next.player.track) (shares : common next.player.shared) :
    Holds going ended common (next.amid earlier later) := by
  obtain ⟨before, _, after⟩ := Performer.forall_amid.mp holds.1
  exact ⟨Performer.forall_amid.mpr ⟨before, own, after⟩, shares⟩

variable (upkeep : Upkeep setting allowed going ended common)
include upkeep

theorem step (orders : format.Orders allowed)
    (plays : Plays setting going common performer.player) :
    (format.step performer).Ensures fun (_, next) => Plays setting going common next.player := by
  refine Format.step_ensures (Plays setting going common) ?_ ?_ orders plays
  · exact fun plays => ⟨plays.setting, upkeep.paced _ _ plays.track, plays.shared⟩
  · rintro ⟨_, track, shared⟩ operation ⟨rfl, playing, shares⟩ allowed
    exact (upkeep.applies playing shares allowed).mono fun _ kept => ⟨kept.1, kept.2.1, kept.2.2⟩

theorem finish (plays : Plays setting going common performer.player) :
    performer.finish.Ensures fun last =>
      ended last.player.track ∧ common last.player.shared := by
  obtain ⟨⟨_, track, shared⟩, memory⟩ := performer
  obtain ⟨rfl, playing, shares⟩ := plays
  exact Performer.finish_ensures (fun last => ended last.track ∧ common last.shared)
    (upkeep.finishes playing shares)

/-- Each move of a track keeps what is kept of all of them. -/
theorem walk (orders : format.Orders allowed) :
    format.Keeps setting (fun own track => own = setting ∧ going track)
      (Holds going ended common) where
  wakes := by
    intro earlier later track shared memory holds active
    have either := holds.1 track (List.mem_append_right _ List.mem_cons_self)
    refine ⟨rfl, either.resolve_right fun ended => ?_⟩
    rw [upkeep.rests ended] at active
    cases active
  steps := by
    rintro earlier later performer ⟨⟨same, playing⟩, holds⟩
    refine (upkeep.step orders ⟨same, playing, holds.2⟩).mono ?_
    rintro ⟨more, next⟩ plays
    exact ⟨⟨plays.setting, plays.track⟩, holds.replace (.inl plays.track) plays.shared⟩
  finishes := by
    rintro earlier later performer ⟨⟨same, playing⟩, holds⟩
    refine (upkeep.finish ⟨same, playing, holds.2⟩).mono fun last kept => ?_
    exact holds.replace (.inr kept.1) kept.2
  glides := by
    rintro earlier later ⟨_, track, shared⟩ memory tick ⟨⟨rfl, playing⟩, holds⟩
    have kept := upkeep.glides tick playing holds.2
    exact holds.replace (.inl kept.1) kept.2
  waits := by
    rintro earlier later player memory delay ⟨⟨same, playing⟩, holds⟩
    have paced := upkeep.paced player.track.steps delay playing
    exact ⟨⟨same, paced⟩, holds.replace (.inl paced) holds.2⟩
  leads := fun tick holds => ⟨holds.1, upkeep.master _ tick holds.2⟩

/-- At the end of a pass all tracks have ended. -/
theorem play (orders : format.Orders allowed) (limits : Limits)
    (all : ∀ track ∈ stage.tracks, going track) (shares : common stage.shared) :
    (stage.play format setting limits).Ensures (Ended ended common) := by
  have holds : Holds going ended common stage :=
    ⟨fun track member => .inl (all track member), shares⟩
  refine ((upkeep.walk orders).play limits (fun track member => ⟨rfl, all track member⟩)
    holds).mono ?_
  intro last ⟨still, holds⟩
  refine ⟨fun track member => (holds.1 track member).resolve_left fun playing => ?_, holds.2⟩
  have active := upkeep.live playing
  rw [still track member] at active
  cases active

end Upkeep
end Sequencer
