import Sequencer.Event

/-! The flow of control in a track: where it reads, the calls and loops it is in, and where
an instruction sends it next. -/
namespace Sequencer

/-- A counted loop in progress: where its body starts and how many rounds are left, the
current one included. A loop without end has no rounds left to count. -/
structure Frame where
  start : Nat
  remaining : Nat
deriving DecidableEq, Repr

/-- Where a track reads. The innermost call and loop stand first. -/
structure Cursor where
  offset : Nat
  /-- Ticks until the next instruction is due, when all tracks keep time together. -/
  delay : Nat := 0
  calls : List Nat := []
  loops : List Frame := []
deriving DecidableEq, Repr

/-- Where an instruction sends its track. -/
inductive Turn
  /-- On to the next instruction in the data, with the stacks of the cursor. -/
  | onward (cursor : Cursor)
  /-- To the destination, if the loop guard lets it pass. -/
  | transfer (cursor : Cursor) (destination : Nat)
  /-- Nowhere: the track ends. -/
  | halt
deriving DecidableEq, Repr

namespace Cursor

/-- The turn that an instruction takes when the cursor stands after it. `depth` limits how
many calls may be open at once, and how many loops. -/
def turn (depth : Nat) (cursor : Cursor) : EventKind → Turn
  | .jump destination => .transfer cursor destination
  | .call destination returnTo =>
    if cursor.calls.length ≥ depth then .halt
    else .transfer { cursor with calls := returnTo :: cursor.calls } destination
  | .ret =>
    match cursor.calls with
    | [] => .halt
    | returnTo :: outer => .transfer { cursor with calls := outer } returnTo
  | .loopStart count =>
    if cursor.loops.length ≥ depth then .halt
    else .onward { cursor with loops := ⟨cursor.offset, count⟩ :: cursor.loops }
  | .loopEnd =>
    match cursor.loops with
    | [] => .onward cursor
    | ⟨start, 0⟩ :: _ => .transfer cursor start
    | ⟨_, 1⟩ :: outer => .onward { cursor with loops := outer }
    | ⟨start, remaining + 2⟩ :: outer =>
      .transfer { cursor with loops := ⟨start, remaining + 1⟩ :: outer } start
  | .loopForever destination => .transfer cursor destination
  | .trackEnd => .halt
  | _ => .onward cursor

end Cursor
end Sequencer
