import Sequencer.RefSeq.Decoder
import Sequencer.Proofs.Visits

/-! One step of a RefSeq track. The instruction at the cursor is read and one operation is
carried out for it; the routine of the decoder amounts to just that. -/
namespace Sequencer

namespace Player

open RefSeq (instruction)

def seek (player : Player) (offset : Nat) : Player :=
  player.withTrack
    { player.track with cursor := { player.track.cursor with offset } }

def count (player : Player) : Player :=
  player.withTrack { player.track with steps := player.track.steps + 1 }

@[simp] theorem count_cursor (player : Player) :
    player.count.track.cursor = player.track.cursor := rfl

@[simp] theorem count_setting (player : Player) : player.count.setting = player.setting := rfl

/-- The player that has read on to `stop` for another step. -/
def readTo (player : Player) (stop : Nat) : Player := player.count.seek stop

/-- Decodes the instruction at the cursor and says whether the track goes on. -/
def advance (player : Player) : Except Fault (Bool × Player) :=
  let start := player.track.cursor.offset
  match instruction player.setting.source start with
  | (.error _, stop) => .ok (false, player.readTo stop)
  | (.ok instruction, stop) =>
    let reading := player.readTo stop
    let (operation, problem) := RefSeq.operation ⟨start, stop - start⟩ reading instruction
    (reading.apply operation).map fun (more, player) => (more && problem.isNone, player)

end Player

namespace RefSeq

theorem run_last_order (operation : Operation) (problem : Option ReadError) (player : Player) :
    (Routine.order operation fun more _ =>
      match problem with
      | none => .done (Except.ok more)
      | some error => .done (Except.error error)).run player =
      (player.apply operation).map fun (more, player) =>
        (problem.elim (Except.ok more) Except.error, player) := by
  simp only [Routine.run]
  cases player.apply operation with
  | error fault => rfl
  | ok outcome => cases problem <;> rfl

theorem decode_run (player : Player) :
    (decode player).run player =
      match instruction player.setting.source player.track.cursor.offset with
      | (.error error, stop) => Except.ok (Except.error error, player.seek stop)
      | (.ok instruction, stop) =>
        let span : Span := ⟨player.track.cursor.offset, stop - player.track.cursor.offset⟩
        ((player.seek stop).apply (operation span (player.seek stop) instruction).1).map
          fun (more, next) =>
            ((operation span (player.seek stop) instruction).2.elim (Except.ok more) Except.error,
              next) := by
  simp only [decode]
  cases instruction player.setting.source player.track.cursor.offset with
  | mk result stop =>
    cases result with
    | error error => rfl
    | ok instruction => exact run_last_order _ _ (player.seek stop)

/-- A step of the logged format is a step of the player with its visit written down. -/
theorem logged_step (player : Player) (log : List Visit) :
    format.logged.step ⟨player, ((), log)⟩ = player.advance.map fun (more, next) =>
      (more, ⟨next, ((), log ++ [player.track.visit])⟩) := by
  have started : format.logged.step ⟨player, ((), log)⟩ =
      ((decode player.count).run player.count).map fun (result, next) =>
        (result.toOption.getD false, ⟨next, ((), log ++ [player.track.visit])⟩) := by
    simp only [Format.step, Format.logged, format, Routine.run_map]
    change ((decode player.count).run player.count |>.map _ |>.map _) >>= _ = _
    cases (decode player.count).run player.count with
    | error fault => rfl
    | ok outcome =>
      obtain ⟨result, next⟩ := outcome
      cases result <;> rfl
  rw [started, decode_run, Player.advance]
  simp only [Player.count_cursor, Player.count_setting, Player.readTo]
  cases instruction player.setting.source player.track.cursor.offset with
  | mk result stop =>
    cases result with
    | error error => rfl
    | ok instruction =>
      dsimp only
      generalize operation _ (player.count.seek stop) instruction = order
      cases (player.count.seek stop).apply order.1 with
      | error fault => rfl
      | ok outcome =>
        obtain ⟨more, next⟩ := outcome
        obtain ⟨operation, problem⟩ := order
        cases more <;> cases problem <;> rfl

end RefSeq

/-- The kind that a track performs an instruction as. A cut and an unknown opcode perform
nothing of the kind. -/
def RefSeq.Instruction.kind? (track : Track) : RefSeq.Instruction → Option EventKind
  | .event kind => some kind
  | .octaveNote semitone velocity duration =>
    some (.note (track.octaveKey semitone) velocity duration)
  | .cut | .unknown _ => none

namespace Player

abbrev reads (player : Player) : Except ReadError RefSeq.Instruction × Nat :=
  RefSeq.instruction player.setting.source player.track.cursor.offset

/-- The player that has read an instruction up to `stop` and recorded it. -/
def noted (player : Player) (stop : Nat) (kind : EventKind) : Player :=
  ((player.readTo stop).record
    ⟨player.track.cursor.offset, stop - player.track.cursor.offset⟩ kind).2

/-- The outcomes of a step, one for each way that an instruction can be read. -/
inductive Step (player : Player) : Bool → Player → Prop
  | unreadable {error : ReadError} {stop : Nat} (read : player.reads = (.error error, stop)) :
      Step player false (player.readTo stop)
  | unknown {opcode : UInt8} {stop : Nat} (read : player.reads = (.ok (.unknown opcode), stop)) :
      Step player false
        (player.noted stop (.unknown ("opcode " ++ Number.hex 2 opcode.toNat)))
  | cut {stop : Nat} {next : Player} (read : player.reads = (.ok .cut, stop))
      (limited : (player.readTo stop).limitNotes player.track.time = .ok next) :
      Step player true next
  | event {instruction : RefSeq.Instruction} {stop : Nat} {kind : EventKind} {more : Bool}
      {next : Player} (read : player.reads = (.ok instruction, stop))
      (known : instruction.kind? player.track = some kind)
      (performed : (player.noted stop kind).perform kind
        (some player.shared.timeline.nextIndex) = .ok (more, next)) :
      Step player more next

theorem step_of_advance {player next : Player} {more : Bool}
    (advanced : player.advance = .ok (more, next)) : player.Step more next := by
  simp only [advance] at advanced
  split at advanced
  · rename_i read
    cases advanced
    exact .unreadable read
  · rename_i instruction stop read
    obtain ⟨⟨more', next'⟩, applied, outcome⟩ := Except.map_eq_ok.mp advanced
    cases instruction with
    | event kind =>
      simp only [RefSeq.operation, Option.isNone_none, Bool.and_true] at applied outcome
      cases outcome
      exact .event read rfl applied
    | octaveNote semitone velocity duration =>
      simp only [RefSeq.operation, Option.isNone_none, Bool.and_true] at applied outcome
      cases outcome
      exact .event read rfl applied
    | cut =>
      simp only [RefSeq.operation, Option.isNone_none, Bool.and_true] at applied outcome
      cases outcome
      obtain ⟨limited, done, outcome⟩ := Except.bind_eq_ok.mp applied
      cases outcome
      exact .cut read done
    | unknown opcode =>
      simp only [RefSeq.operation, Option.isNone_some, Bool.and_false] at applied outcome
      cases outcome
      cases applied
      exact .unknown read

theorem advance_of_step {player next : Player} {more : Bool} (step : player.Step more next) :
    player.advance = .ok (more, next) := by
  cases step with
  | unreadable read => simp only [advance, read]
  | unknown read =>
    simp only [advance, read, RefSeq.operation]
    rfl
  | cut read limited =>
    simp only [advance, read, RefSeq.operation, apply]
    change Except.map _ ((player.readTo _).limitNotes player.track.time >>= _) = _
    rw [limited]
    rfl
  | @event instruction stop kind more next read known performed =>
    have recorded : (player.readTo stop).apply (.record
        ⟨player.track.cursor.offset, stop - player.track.cursor.offset⟩ kind) =
          .ok (more, next) := performed
    cases instruction with
    | event kind' =>
      cases known
      simp only [advance, read, RefSeq.operation, recorded, Except.map, Option.isNone_none,
        Bool.and_true]
    | octaveNote semitone velocity duration =>
      cases known
      simp only [advance, read, RefSeq.operation]
      rw [show (player.readTo stop).track.octaveKey semitone =
        player.track.octaveKey semitone from rfl, recorded]
      simp only [Except.map, Option.isNone_none, Bool.and_true]
    | cut => cases known
    | unknown opcode => cases known

theorem advance_iff {player next : Player} {more : Bool} :
    player.advance = .ok (more, next) ↔ player.Step more next :=
  ⟨step_of_advance, advance_of_step⟩

end Player
end Sequencer
