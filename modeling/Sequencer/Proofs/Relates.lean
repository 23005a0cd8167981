import Sequencer.Stage
import Sequencer.Proofs.Outcome

/-! Two performers beside each other. If a relation between them survives a step and the end of the
track, it survives all that the track does, at a tick or in turn. -/
namespace Sequencer

variable {σ τ : Type}

/-- The track need not wait for its next instruction. -/
def Performer.hastened (performer : Performer σ) : Performer σ :=
  ⟨performer.player.withTrack { performer.player.track with
    cursor := { performer.player.track.cursor with delay := 0 } }, performer.memory⟩

/-- Performers that are related remain so in whatever their tracks do. -/
structure Format.Relates (format : Format σ) (other : Format τ)
    (related : Performer σ → Performer τ → Prop) : Prop where
  isDue {performer : Performer σ} {performer' : Performer τ} :
    related performer performer' → performer'.player.track.isDue = performer.player.track.isDue
  timeIsUp {performer : Performer σ} {performer' : Performer τ} (stopTime : Nat) :
    related performer performer' →
      performer'.player.track.timeIsUp stopTime = performer.player.track.timeIsUp stopTime
  step {performer : Performer σ} {performer' : Performer τ} : related performer performer' →
    (format.step performer).Follows (fun outcome outcome' => outcome'.1 = outcome.1 ∧
      related outcome.2 outcome'.2) (other.step performer')
  finish {performer : Performer σ} {performer' : Performer τ} : related performer performer' →
    performer.finish.Follows related performer'.finish

namespace Format.Relates

variable {format : Format σ} {other : Format τ}
  {related : Performer σ → Performer τ → Prop} {performer : Performer σ}
  {performer' : Performer τ}

theorem playDue (relates : format.Relates other related) (stopTime budget : Nat)
    (here : related performer performer') :
    (format.playDue stopTime budget performer).Follows related
      (other.playDue stopTime budget performer') := by
  induction budget generalizing performer performer' with
  | zero =>
    unfold Format.playDue
    rw [relates.isDue here]
    split
    · exact relates.finish here
    · exact Except.follows_ok here
  | succ budget ih =>
    unfold Format.playDue
    rw [relates.isDue here, relates.timeIsUp stopTime here]
    split
    · split
      · exact relates.finish here
      · refine (relates.step here).bind ?_
        rintro ⟨more, next⟩ ⟨_, next'⟩ ⟨rfl, there⟩
        dsimp only
        split
        · exact ih there
        · exact relates.finish there
    · exact Except.follows_ok here

theorem playThrough (relates : format.Relates other related)
    (hastens : ∀ {performer : Performer σ} {performer' : Performer τ},
      related performer performer' → related performer.hastened performer'.hastened)
    (stopTime budget : Nat) (here : related performer performer') :
    (format.playThrough stopTime budget performer).Follows related
      (other.playThrough stopTime budget performer') := by
  induction budget generalizing performer performer' with
  | zero => exact relates.finish here
  | succ budget ih =>
    unfold Format.playThrough
    rw [relates.timeIsUp stopTime here]
    split
    · exact relates.finish here
    · refine (relates.step here).bind ?_
      rintro ⟨more, next⟩ ⟨_, next'⟩ ⟨rfl, there⟩
      dsimp only
      split
      · exact ih (hastens there)
      · exact relates.finish there

end Format.Relates

end Sequencer
