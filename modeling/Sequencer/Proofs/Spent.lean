import Sequencer.Proofs.Player.Stance
import Sequencer.Proofs.Ramps
import Sequencer.Proofs.Relates

/-! Ramps that are over. A clock that skips ticks takes them off late, but nothing looks at them in
the meantime: at the next tick that is played, tracks do the same with them as without them. -/
namespace Sequencer

open RefSeq (format)

/-- What is left of a ramp when the clock has moved it. -/
def Ramp.after (tick : Nat) (ramp : Option Ramp) : Option Ramp :=
  ramp.filter fun ramp => tick < ramp.stop

/-- The ramp itself is left; or none, and then the ramp, if there was one, was over before. -/
def Ramp.Sheds (tick : Nat) (ramp left : Option Ramp) : Prop :=
  left = ramp ∨ left = none ∧ ∀ spent ∈ ramp, spent.stop < tick

variable {tick : Nat} {ramp left : Option Ramp}

theorem Ramp.after_some (tick : Nat) (ramp : Ramp) :
    after tick (some ramp) = if ramp.stop ≤ tick then none else some ramp := by
  unfold after
  rw [Option.filter_some]
  by_cases ended : ramp.stop ≤ tick
  · simp [ended, Nat.not_lt_of_le ended]
  · simp [ended, Nat.lt_of_not_le ended]

theorem Ramp.mem_of_mem_after {left : Ramp} (member : left ∈ after tick ramp) : left ∈ ramp :=
  (Option.mem_filter_iff.mp member).1

theorem Ramp.Sheds.refl (tick : Nat) (ramp : Option Ramp) : Ramp.Sheds tick ramp ramp := .inl rfl

theorem Ramp.Sheds.after_eq (sheds : Ramp.Sheds tick ramp left) :
    after tick left = after tick ramp := by
  rcases sheds with rfl | ⟨rfl, spent⟩
  · rfl
  · cases ramp with
    | none => rfl
    | some ramp => rw [after_some, if_pos (Nat.le_of_lt (spent ramp rfl))]; rfl

theorem Ramp.Sheds.idle (sheds : Ramp.Sheds tick ramp left)
    (idle : ∀ known ∈ ramp, known.changesAt tick = false) :
    ∀ known ∈ left, known.changesAt tick = false := by
  rcases sheds with rfl | ⟨rfl, _⟩
  · exact idle
  · exact fun _ known => by cases known

theorem Ramp.Sheds.after_succ (sheds : Ramp.Sheds tick ramp left) :
    Ramp.Sheds (tick + 1) ramp (after tick left) := by
  rw [sheds.after_eq]
  cases ramp with
  | none => exact .inl rfl
  | some ramp =>
    rw [after_some]
    split
    · rename_i ended
      refine .inr ⟨rfl, fun _ same => ?_⟩
      cases same
      exact Nat.lt_succ_of_le ended
    · exact .inl rfl

/-- A part of the ramps has been taken off that were over before. -/
structure Stance.Sheds (tick : Nat) (stance left : Stance) : Prop where
  source : left.source = stance.source
  tickSync : left.tickSync = stance.tickSync
  active : left.active = stance.active
  delay : left.delay = stance.delay
  ramps : ∀ dial, Ramp.Sheds tick (stance.ramps dial) (left.ramps dial)
  still : stance.active = false → left.ramps = stance.ramps
  master : Ramp.Sheds tick stance.master left.master

namespace Stance

variable {stance left : Stance}

theorem Sheds.ended (sheds : stance.Sheds tick left) : stance.ended.Sheds tick left.ended :=
  ⟨sheds.source, sheds.tickSync, rfl, sheds.delay, fun _ => .inl rfl, fun _ => rfl, sheds.master⟩

theorem Sheds.setRamp (sheds : stance.Sheds tick left) (dial : Dial) (ramp : Option Ramp) :
    (stance.setRamp dial ramp).Sheds tick (left.setRamp dial ramp) where
  source := sheds.source
  tickSync := sheds.tickSync
  active := sheds.active
  delay := sheds.delay
  ramps := by
    intro other
    unfold Stance.setRamp
    dsimp only
    split
    · exact .inl rfl
    · exact sheds.ramps other
  still := fun inactive => by
    unfold Stance.setRamp
    rw [sheds.still inactive]
  master := sheds.master

theorem Sheds.setMaster (sheds : stance.Sheds tick left) (master : Option Ramp) :
    Sheds tick { stance with master } { left with master } :=
  ⟨sheds.source, sheds.tickSync, sheds.active, sheds.delay, sheds.ramps, sheds.still, .inl rfl⟩

theorem Sheds.setDelay (sheds : stance.Sheds tick left) (delay : Nat) :
    Sheds tick { stance with delay } { left with delay } :=
  ⟨sheds.source, sheds.tickSync, sheds.active, rfl, sheds.ramps, sheds.still, sheds.master⟩

end Stance

namespace Player

variable {player next other : Player} {stance stance' : Stance} {more : Bool}

theorem steer_sheds (player : Player) (sheds : stance.Sheds tick stance') (kind : EventKind) :
    (player.steer stance kind).Sheds tick (player.steer stance' kind) := by
  cases kind with
  | rest ticks | hold ticks =>
    unfold steer
    rw [sheds.delay]
    exact sheds.setDelay _
  | level dial value => exact sheds.setRamp dial none
  | slide dial target duration =>
    unfold steer
    rw [sheds.tickSync]
    dsimp only
    split
    · exact sheds.setRamp dial _
    · exact sheds
  | masterLevel value => exact sheds.setMaster none
  | masterSlide target duration =>
    unfold steer
    dsimp only
    by_cases together : stance.tickSync = true
    · rw [if_pos together, if_pos (sheds.tickSync.trans together)]
      exact sheds.setMaster _
    · rw [if_neg together, if_neg fun same => together (sheds.tickSync.symm.trans same)]
      exact sheds
  | _ => exact sheds

theorem steered_sheds (player : Player) (sheds : stance.Sheds tick stance') :
    (player.steered stance).Sheds tick (player.steered stance') := by
  unfold steered
  split
  · exact sheds
  · rename_i instruction stop _
    cases instruction.kind? player.track with
    | none => exact sheds
    | some kind => exact steer_sheds _ sheds kind

/-- The other player is the same, but for ramps that were over before the tick. -/
def Sheds (tick : Nat) (player other : Player) : Prop :=
  ∃ stance, player.stance.Sheds tick stance ∧ other = player.withStance stance

theorem Sheds.advance (sheds : player.Sheds tick other) :
    player.advance.Follows (fun outcome outcome' => outcome'.1 = outcome.1 ∧
      outcome.2.Sheds tick outcome'.2) other.advance := by
  obtain ⟨stance, sheds, rfl⟩ := sheds
  rintro ⟨more, next⟩ advanced
  rw [advance_withStance _ _ sheds.source fun _ => sheds.tickSync, advanced]
  refine ⟨_, rfl, rfl, player.steered stance, ?_, rfl⟩
  rw [advance_stance advanced]
  exact player.steered_sheds sheds

theorem Sheds.finish (sheds : player.Sheds tick other) :
    player.finish.Follows (Sheds tick) other.finish := by
  obtain ⟨stance, sheds, rfl⟩ := sheds
  intro next finished
  rw [finish_withStance, finished]
  refine ⟨_, rfl, stance.ended, ?_, rfl⟩
  rw [finish_stance finished]
  exact sheds.ended

end Player

theorem RefSeq.step_eq (performer : Performer Unit) : format.step performer =
    performer.player.advance.map fun (more, next) => (more, ⟨next, ()⟩) := by
  have plain := (Format.maps_unlogged format).step ⟨performer.player, ((), [])⟩
  rw [RefSeq.logged_step] at plain
  refine plain.symm.trans ?_
  cases performer.player.advance <;> rfl

namespace Player

variable {player other : Player}

/-- Sheds of a tick stay so in all that is due then. -/
theorem sheds_relates (tick : Nat) : format.Relates format fun performer performer' =>
    performer.player.Sheds tick performer'.player where
  isDue := by
    rintro performer performer' ⟨stance, sheds, same⟩
    rw [same]
    unfold Track.isDue
    change (stance.active && decide (stance.delay = 0)) = _
    rw [sheds.active, sheds.delay]
    rfl
  timeIsUp := by
    rintro performer performer' stopTime ⟨stance, _, same⟩
    rw [same]
    rfl
  step := by
    intro performer performer' sheds
    rw [RefSeq.step_eq, RefSeq.step_eq]
    exact sheds.advance.map fun _ _ related => related
  finish := fun sheds => sheds.finish.bind fun _ _ sheds => Except.follows_ok sheds

theorem moveDial_of_none {dial : Dial} (still : player.track.ramps dial = none) (tick : Nat) :
    player.moveDial tick dial = player := by
  unfold moveDial
  dsimp only
  rw [show (player.track.dials.get dial).ramp = none from still]

theorem moveDial_of_some {dial : Dial} {ramp : Ramp} (moves : player.track.ramps dial = some ramp)
    (tick : Nat) : player.moveDial tick dial =
      if ramp.changesAt tick then
        (player.emit tick (.control dial.controller (UInt8.ofNat (ramp.valueAt tick)))
          none).withDial dial ⟨UInt8.ofNat (ramp.valueAt tick), Ramp.after tick (some ramp)⟩
      else
        player.withDial dial
          ⟨(player.track.dials.get dial).level, Ramp.after tick (some ramp)⟩ := by
  unfold moveDial
  dsimp only
  rw [show (player.track.dials.get dial).ramp = some ramp from moves, Ramp.after_some]
  rfl

theorem ramps_withStance (player : Player) (stance : Stance) :
    (player.withStance stance).track.ramps = stance.ramps :=
  congrArg Stance.ramps (stance_withStance player stance)

/-- A dial on which no message is due is moved by no more than its ramp coming to its end. -/
theorem moveDial_idle {dial : Dial}
    (idle : ∀ ramp ∈ player.track.ramps dial, ramp.changesAt tick = false) :
    player.moveDial tick dial = player.withStance
      (player.stance.setRamp dial (Ramp.after tick (player.track.ramps dial))) := by
  cases moves : player.track.ramps dial with
  | none =>
    rw [moveDial_of_none moves, show Ramp.after tick none = player.stance.ramps dial from
      moves.symm, setRamp_own, withStance_stance]
  | some ramp =>
    rw [moveDial_of_some moves, idle ramp moves]
    have set := withDial_withStance player player.stance dial (player.track.dials.get dial).level
      (Ramp.after tick (some ramp)) (player.track.ramps dial)
    rw [withStance_stance] at set
    refine set.trans (congrArg (withStance · _) ?_)
    cases dial <;> rfl

theorem moveDial_withStance (player : Player) (stance : Stance) {dial : Dial}
    (sheds : Ramp.Sheds tick (player.track.ramps dial) (stance.ramps dial)) :
    (player.withStance stance).moveDial tick dial = (player.moveDial tick dial).withStance
      (stance.setRamp dial (Ramp.after tick (stance.ramps dial))) := by
  have ramps := congrFun (ramps_withStance player stance) dial
  rcases sheds with same | ⟨gone, spent⟩
  · cases moves : player.track.ramps dial with
    | none =>
      rw [same, moves] at ramps
      rw [moveDial_of_none moves, moveDial_of_none ramps, same, moves,
        show Ramp.after tick none = stance.ramps dial from (same.trans moves).symm, setRamp_own]
    | some ramp =>
      rw [same, moves] at ramps
      rw [moveDial_of_some moves, moveDial_of_some ramps, same, moves, get_withStance,
        emit_withStance]
      split
      · exact withDial_withStance ..
      · exact withDial_withStance ..
  · have idle : ∀ ramp ∈ player.track.ramps dial, ramp.changesAt tick = false :=
      fun ramp moves => Ramp.changesAt_outside (.inr (spent ramp moves))
    rw [gone] at ramps
    rw [moveDial_of_none ramps, moveDial_idle idle, withStance_withStance, gone,
      show Ramp.after tick none = stance.ramps dial from gone.symm, setRamp_own]

theorem moveDial_stance (player : Player) (tick : Nat) (dial : Dial) :
    (player.moveDial tick dial).stance =
      player.stance.setRamp dial (Ramp.after tick (player.track.ramps dial)) := by
  have own := moveDial_withStance player player.stance (.refl tick (player.track.ramps dial))
  rw [withStance_stance] at own
  rw [own, stance_withStance]
  rfl

theorem moveDial_ramps (player : Player) (tick : Nat) (dial other : Dial) (apart : other ≠ dial) :
    (player.moveDial tick dial).track.ramps other = player.track.ramps other := by
  have ramps := congrFun (congrArg Stance.ramps (moveDial_stance player tick dial)) other
  exact ramps.trans (if_neg apart)

theorem setRamp_all (stance : Stance) (ramps : Dial → Option Ramp) :
    ((stance.setRamp .volume (ramps .volume)).setRamp .expression (ramps .expression)).setRamp .pan
      (ramps .pan) = { stance with ramps } := by
  simp only [Stance.setRamp, Stance.mk.injEq, true_and, and_true]
  funext dial
  cases dial <;> rfl

theorem moveDials_withStance (player : Player) (stance : Stance) (tick : Nat)
    (sheds : ∀ dial, Ramp.Sheds tick (player.track.ramps dial) (stance.ramps dial)) :
    (player.withStance stance).moveDials tick = (player.moveDials tick).withStance
      { stance with ramps := fun dial => Ramp.after tick (stance.ramps dial) } := by
  have expression := moveDial_ramps player tick .volume .expression (by decide)
  have pan := moveDial_ramps (player.moveDial tick .volume) tick .expression .pan (by decide)
  rw [moveDial_ramps player tick .volume .pan (by decide)] at pan
  unfold moveDials
  rw [moveDial_withStance player stance (sheds .volume),
    moveDial_withStance (player.moveDial tick .volume) _ (expression ▸ sheds .expression),
    moveDial_withStance _ _ (pan ▸ sheds .pan)]
  exact congrArg _ (setRamp_all stance fun dial => Ramp.after tick (stance.ramps dial))

theorem moveDials_stance (player : Player) (tick : Nat) : (player.moveDials tick).stance =
    { player.stance with ramps := fun dial => Ramp.after tick (player.track.ramps dial) } := by
  have own := moveDials_withStance player player.stance tick fun _ => .refl _ _
  rw [withStance_stance] at own
  rw [own, stance_withStance]
  rfl

theorem moveDials_idle
    (idle : ∀ dial, ∀ ramp ∈ player.track.ramps dial, ramp.changesAt tick = false) :
    player.moveDials tick = player.withStance
      { player.stance with ramps := fun dial => Ramp.after tick (player.track.ramps dial) } := by
  have moves (stance : Stance) (dial : Dial) (same : stance.ramps dial = player.track.ramps dial) :
      (player.withStance stance).moveDial tick dial = player.withStance
        (stance.setRamp dial (Ramp.after tick (player.track.ramps dial))) := by
    rw [moveDial_withStance player stance (.inl same), moveDial_idle (idle dial),
      withStance_withStance, same]
  have first := moves player.stance .volume rfl
  rw [withStance_stance] at first
  unfold moveDials
  rw [first, moves _ .expression rfl, moves _ .pan rfl]
  exact congrArg _ (setRamp_all player.stance fun dial =>
    Ramp.after tick (player.track.ramps dial))

end Player

/-- The other track is the same, but for ramps that were over before the tick. -/
def Track.Sheds (tick : Nat) (track other : Track) : Prop :=
  ∃ ramps, (∀ dial, Ramp.Sheds tick (track.ramps dial) (ramps dial)) ∧
    (track.active = false → ramps = track.ramps) ∧
    other = { track with dials := track.dials.withRamps ramps }

def Shared.Sheds (tick : Nat) (shared other : Shared) : Prop :=
  ∃ ramp, Ramp.Sheds tick shared.masterRamp ramp ∧ other = { shared with masterRamp := ramp }

variable {track track' : Track} {shared shared' : Shared}

theorem Track.Sheds.refl (tick : Nat) (track : Track) : track.Sheds tick track :=
  ⟨track.ramps, fun _ => .refl _ _, fun _ => rfl, rfl⟩

theorem Track.Sheds.player (sheds : track.Sheds tick track') (shares : shared.Sheds tick shared')
    (setting : Setting) :
    Player.Sheds tick ⟨setting, track, shared⟩ ⟨setting, track', shared'⟩ := by
  obtain ⟨ramps, sheds, still, rfl⟩ := sheds
  obtain ⟨master, shares, rfl⟩ := shares
  exact ⟨⟨setting.source, setting.tickSync, track.active, track.cursor.delay, ramps, master⟩,
    ⟨rfl, rfl, rfl, rfl, sheds, still, shares⟩, rfl⟩

theorem Player.Sheds.parts {player other : Player} (sheds : player.Sheds tick other) :
    player.track.Sheds tick other.track ∧ player.shared.Sheds tick other.shared := by
  obtain ⟨⟨source, tickSync, active, delay, ramps, master⟩, sheds, rfl⟩ := sheds
  cases sheds.active
  cases sheds.delay
  exact ⟨⟨ramps, sheds.ramps, sheds.still, rfl⟩, master, sheds.master, rfl⟩

/-- When the clock has moved the ramps, those that were over before are gone. -/
theorem Player.Sheds.moveDials {player other : Player} (sheds : player.Sheds tick other) :
    (other.moveDials tick).track = (player.moveDials tick).track ∧
      (player.moveDials tick).shared.Sheds tick (other.moveDials tick).shared := by
  obtain ⟨stance, sheds, rfl⟩ := sheds
  rw [moveDials_withStance player stance tick sheds.ramps]
  have moved := moveDials_stance player tick
  constructor
  · have own := withStance_stance (player.moveDials tick)
    rw [moved] at own
    refine Eq.trans ?_ (congrArg Player.track own)
    simp only [withStance, sheds.active, sheds.delay, (sheds.ramps _).after_eq]
    rfl
  · refine ⟨stance.master, ?_, rfl⟩
    rw [show (player.moveDials tick).shared.masterRamp = player.stance.master from
      congrArg Stance.master moved]
    exact sheds.master

/-- If no message is due, no more happens than that ramps come to their end. -/
theorem Track.Sheds.idle (sheds : track.Sheds tick track') (setting : Setting) (shared : Shared)
    (idle : track.active = true →
      ∀ dial, ∀ ramp ∈ track.ramps dial, ramp.changesAt tick = false) :
    let moved : Player := ⟨setting, track', shared⟩
    track.Sheds (tick + 1) (if track'.active then moved.moveDials tick else moved).track ∧
      (if track'.active then moved.moveDials tick else moved).shared = shared := by
  obtain ⟨ramps, sheds, still, rfl⟩ := sheds
  dsimp only
  split
  · rename_i active
    have same : Track.ramps { track with dials := track.dials.withRamps ramps } = ramps :=
      funext fun dial => by cases dial <;> rfl
    rw [Player.moveDials_idle fun dial => by rw [same]; exact (sheds dial).idle (idle active dial)]
    refine ⟨⟨fun dial => Ramp.after tick (ramps dial), fun dial => (sheds dial).after_succ,
      fun inactive => absurd (inactive.symm.trans active) (by decide), ?_⟩, rfl⟩
    rw [same]
    rfl
  · rename_i inactive
    rw [still (Bool.eq_false_iff.mpr inactive)]
    exact ⟨.refl _ _, rfl⟩

namespace Stage

theorem moveMaster_idle (writing : Bool)
    (idle : ∀ ramp ∈ shared.masterRamp, ramp.changesAt tick = false) :
    moveMaster writing tick shared =
      { shared with masterRamp := Ramp.after tick shared.masterRamp } := by
  unfold moveMaster
  cases moves : shared.masterRamp with
  | none =>
    rw [show Ramp.after tick none = shared.masterRamp from moves.symm]
  | some ramp =>
    simp only [idle ramp moves, Bool.false_eq_true, if_false, Ramp.after_some]
    split
    · rfl
    · rw [← moves]

/-- A ramp that was over before is taken off, whether it still is there or not. -/
theorem moveMaster_sheds (writing : Bool) {left : Option Ramp}
    (sheds : Ramp.Sheds tick shared.masterRamp left) :
    moveMaster writing tick { shared with masterRamp := left } =
      moveMaster writing tick shared := by
  rcases sheds with rfl | ⟨rfl, spent⟩
  · rfl
  · rw [moveMaster_idle writing fun ramp moves => Ramp.changesAt_outside (.inr (spent ramp moves)),
      ← Ramp.Sheds.after_eq (.inr ⟨rfl, spent⟩)]
    rfl

end Stage
end Sequencer
