import Sequencer.Proofs.Player.Stance

/-! A track that plays in turn, beside one that keeps time with others. Only slides ask which of
the two it is; any other instruction is carried out the same way. -/
namespace Sequencer.Player

/-- The player of a track that does not keep time with others. -/
def inTurn (player : Player) : Player :=
  { player with setting := { player.setting with tickSync := false } }

variable {player next : Player} {more : Bool}

theorem inTurn_eq (player : Player) :
    player.inTurn = player.withStance { player.stance with tickSync := false } := rfl

theorem finish_inTurn (player : Player) : player.inTurn.finish = player.finish.map inTurn := by
  rw [inTurn_eq, finish_withStance]
  cases finished : player.finish with
  | error fault => rfl
  | ok next =>
    simp only [Except.map, inTurn_eq, finish_stance finished]
    rfl

theorem steer_inTurn {kind : EventKind} (plain : kind.isSlide = false) (stance : Stance) :
    player.steer { stance with tickSync := false } kind =
      { player.steer stance kind with tickSync := false } := by
  cases kind with
  | slide | masterSlide | tempoSlide => cases plain
  | _ => rfl

theorem steered_inTurn (plain : player.track.visit.isSlide player.setting.source = false)
    (stance : Stance) : player.steered { stance with tickSync := false } =
      { player.steered stance with tickSync := false } := by
  unfold Visit.isSlide at plain
  rcases read : player.reads with ⟨result, stop⟩
  rw [show player.track.visit.offset = player.track.cursor.offset from rfl, kindAt_of_read read]
    at plain
  unfold steered
  rw [read]
  cases result with
  | error error => rfl
  | ok instruction =>
    cases instruction with
    | event kind => exact steer_inTurn plain stance
    | _ => rfl

/-- A step that starts no slide. -/
theorem advance_inTurn (plain : player.track.visit.isSlide player.setting.source = false)
    (advanced : player.advance = .ok (more, next)) :
    player.inTurn.advance = .ok (more, next.inTurn) := by
  rw [inTurn_eq, advance_withStance _ _ rfl fun slides => absurd (plain.symm.trans slides)
    Bool.false_ne_true, advanced, steered_inTurn plain, ← advance_stance advanced]
  rfl

end Sequencer.Player
