import Sequencer.Proofs.Player.Places
import Sequencer.Proofs.Score.Accounts

/-! How deep a player is in calls and loops, and how far its timeline has come. It opens a call or a
loop only while fewer are open than may be, and it adds entries to the timeline without a change to
where earlier ones begin. -/
namespace Sequencer

/-- No more calls are open than may be, and no more loops. -/
structure Cursor.Nested (depth : Nat) (cursor : Cursor) : Prop where
  calls : cursor.calls.length ≤ depth
  loops : cursor.loops.length ≤ depth

/-- The cursor that a turn goes on with is nested no deeper than it may be. -/
def Turn.Nested (depth : Nat) : Turn → Prop
  | .onward cursor | .transfer cursor _ => cursor.Nested depth
  | .halt => True

theorem Cursor.Nested.turn {depth : Nat} {cursor : Cursor} (nested : cursor.Nested depth)
    (kind : EventKind) : (cursor.turn depth kind).Nested depth := by
  obtain ⟨calls, loops⟩ := nested
  cases kind with
  | jump | loopForever => exact ⟨calls, loops⟩
  | trackEnd => trivial
  | call destination returnTo =>
    by_cases deep : cursor.calls.length ≥ depth
    · simp only [Cursor.turn, if_pos deep, Turn.Nested]
    · simp only [Cursor.turn, if_neg deep]
      exact ⟨Nat.lt_of_not_ge deep, loops⟩
  | ret =>
    cases inner : cursor.calls with
    | nil => simp only [Cursor.turn, inner, Turn.Nested]
    | cons returnTo outer =>
      rw [inner] at calls
      simp only [Cursor.turn, inner]
      exact ⟨Nat.le_of_succ_le calls, loops⟩
  | loopStart count =>
    by_cases deep : cursor.loops.length ≥ depth
    · simp only [Cursor.turn, if_pos deep, Turn.Nested]
    · simp only [Cursor.turn, if_neg deep]
      exact ⟨calls, Nat.lt_of_not_ge deep⟩
  | loopEnd =>
    dsimp only [Cursor.turn]
    split
    · exact ⟨calls, loops⟩
    · exact ⟨calls, loops⟩
    · rename_i inner
      rw [inner] at loops
      exact ⟨calls, Nat.le_of_succ_le loops⟩
    · rename_i inner
      rw [inner] at loops
      exact ⟨calls, loops⟩
  | _ => exact ⟨calls, loops⟩

namespace Player

def Nested (player : Player) : Prop := player.track.cursor.Nested player.setting.maxDepth

/-- The player has gone on no deeper than it may, in a timeline that has grown. -/
structure Proceeds (player next : Player) : Prop where
  setting : next.setting = player.setting
  entries : player.shared.timeline.skeleton <+: next.shared.timeline.skeleton
  nested : next.Nested

variable {player next : Player} {passed : Nat → Nat} {entry : Option Nat}

/-- What is open does not depend on the delay, nor on anything but the cursor. -/
theorem Nested.outlined (nested : player.Nested) (setting : next.setting = player.setting)
    (same : next.track.outline.cursor = player.track.outline.cursor) : next.Nested := by
  have calls := congrArg Cursor.calls same
  have loops := congrArg Cursor.loops same
  rw [Player.Nested, setting]
  constructor
  · exact calls.symm ▸ nested.calls
  · exact loops.symm ▸ nested.loops

theorem Nested.retains (nested : player.Nested) (retains : player.Retains passed next) :
    player.Proceeds next where
  setting := retains.setting
  entries := retains.skeleton ▸ List.prefix_rfl
  nested := by
    have same := congrArg Track.cursor retains.outline
    exact nested.outlined retains.setting same

theorem Nested.take (nested : player.Nested) {turn : Turn}
    (turns : turn.Nested player.setting.maxDepth) :
    (player.take turn).Ensures fun (_, next) => player.Proceeds next := by
  cases turn with
  | halt => exact Except.ensures_ok ⟨rfl, List.prefix_rfl, nested⟩
  | onward cursor => exact Except.ensures_ok ⟨rfl, List.prefix_rfl, turns⟩
  | transfer cursor destination =>
    rintro ⟨more, next⟩ taken
    obtain ⟨⟨allowed, guard⟩, _, done⟩ := Except.bind_eq_ok.mp taken
    cases done
    refine ⟨rfl, List.prefix_rfl, ?_⟩
    cases more with
    | false => exact turns
    | true => exact ⟨turns.calls, turns.loops⟩

theorem Nested.perform (nested : player.Nested) (safe : player.Safe) (kind : EventKind)
    (inside : ∀ index ∈ entry, index < player.shared.timeline.size) :
    (player.perform kind entry).Ensures fun (_, next) => player.Proceeds next := by
  cases directs : kind.isControlFlow with
  | true =>
    rw [perform_of_isControlFlow directs]
    exact nested.take (Cursor.Nested.turn nested kind)
  | false =>
    intro (more, next) performed
    have sounds := (safe.perform_sounds directs inside).ensures _ performed
    exact nested.retains sounds.2.retains

/-- Whatever a player is ordered to do. -/
theorem Nested.apply (nested : player.Nested) (tidy : player.Tidy) (operation : Operation) :
    (player.apply operation).Ensures fun (_, next) => player.Proceeds next := by
  have goes {x : Except Fault Player}
      (yields : x.Yields fun next => player.Rescores next ∧ next.Safe) :
      (x >>= goOn).Ensures fun (_, next) => player.Proceeds next :=
    yields.ensures.bind fun _ ⟨rescores, _⟩ =>
      Except.ensures_ok (nested.retains rescores.retains)
  cases operation with
  | moveTo offset | useChannel channel =>
    exact Except.ensures_ok ⟨rfl, List.prefix_rfl, nested.calls, nested.loops⟩
  | record span kind =>
    obtain ⟨tends, vacant⟩ := tidy.record span kind
    have entered : (player.record span kind).2.Nested := nested
    have added : player.shared.timeline.skeleton <+:
        (player.record span kind).2.shared.timeline.skeleton := Timeline.prefix_add ..
    intro (more, next) performed
    have proceeds := entered.perform tends.tidy.safe kind (fun index own => (vacant index own).1) _
      performed
    exact ⟨proceeds.setting, added.trans proceeds.entries, proceeds.nested⟩
  | play kind => exact nested.perform tidy.safe kind fun _ none => by cases none
  | extendNotes tick => exact goes (extendNotes_safe tidy.safe tick)
  | limitNotes tick => exact goes (limitNotes_safe tidy.safe tick)

theorem Nested.finish (nested : player.Nested) (tidy : player.Tidy) :
    player.finish.Ensures player.Proceeds := by
  intro next done
  obtain ⟨setting, outline, _, skeleton, _, _⟩ := tidy.safe.finish_yields.ensures next done
  have same := congrArg Track.cursor outline
  exact ⟨setting, skeleton ▸ List.prefix_rfl, nested.outlined setting same⟩

end Player
end Sequencer
