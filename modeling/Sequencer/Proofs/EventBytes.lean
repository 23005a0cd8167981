import Sequencer.Proofs.Histories
import Sequencer.Proofs.RefSeq.Extent

/-! The bytes of events. Each event in the store has bytes of the file, and whatever state a player
is in that comes to where they begin, it reads just these bytes and records the same once more. Only
a note that is written relative to an octave has its key from elsewhere. -/
namespace Sequencer

/-- The operations that a routine orders of a player, up to one that is a fault. -/
def Routine.orders {α : Type} (player : Player) : Routine α → List Operation
  | .done _ => []
  | .order operation next => operation ::
    match player.apply operation with
    | .ok (more, player) => orders player (next more player)
    | .error _ => []

namespace RefSeq

/-- Only its opcode makes an instruction a note in an octave. Where an opcode is not known, nothing
after it is read, and no known one stands for it. -/
def Instruction.FollowsFrom (opcode : UInt8) (start stop : Nat) : Instruction → Prop
  | .octaveNote .. => opcode = Opcode.octaveNote
  | .unknown _ => stop = start
  | .event (.unknown _) => False
  | _ => True

open Reader

theorem operands_follow (opcode : UInt8) (offset : Nat) :
    (operands opcode).Spans offset fun stop found => found.FollowsFrom opcode offset stop := by
  have byte {start : Nat} {next : UInt8 → Reader Instruction}
      (rest : ∀ middle value, (next value).Spans middle
        fun stop found => found.FollowsFrom opcode offset stop) :
      (byte >>= next).Spans start fun stop found => found.FollowsFrom opcode offset stop :=
    (byte_spans start).bind fun middle value _ => rest middle value
  unfold operands
  -- One row for each opcode, as when the ends of instructions are read.
  repeat' refine ite_spans (fun same => ?_) ?_
  all_goals first
    | exact pure_spans trivial
    | exact pure_spans rfl
    | exact byte fun _ _ => pure_spans trivial
    | exact byte fun _ _ => byte fun _ _ => pure_spans trivial
    | exact byte fun _ _ => byte fun _ _ => (short_spans _).bind fun _ _ _ => pure_spans trivial
    | exact byte fun _ _ => byte fun _ _ => (short_spans _).bind fun _ _ _ => pure_spans same
    | exact (short_spans _).bind fun _ _ _ => pure_spans trivial
    | exact (short_spans _).bind fun _ _ _ => (short_spans _).bind fun _ _ _ => pure_spans trivial
    | exact (short_spans _).bind fun _ _ _ => (position_spans _).bind fun _ _ _ =>
        pure_spans trivial
    | exact (slideOperands_spans _).bind fun _ _ _ => pure_spans trivial
    | exact byte fun _ _ => byte fun _ _ => (shortAt_spans 6 _).bind fun _ _ _ =>
        pure_spans trivial
    | exact byte fun _ _ => (text_spans _ _).bind fun _ _ _ => pure_spans trivial

/-- An instruction that is read begins with an opcode that it follows from. -/
theorem instruction_follows {source : Source} {offset stop : Nat} {found : Instruction}
    (read : instruction source offset = (.ok found, stop)) :
    ∃ opcode, source[offset]? = some opcode ∧ found.FollowsFrom opcode (offset + 1) stop := by
  have inside := inside_of_read read
  refine ⟨source[offset], Array.getElem?_eq_getElem inside, ?_⟩
  change Reader.bind Reader.byte operands source offset = _ at read
  rw [Reader.bind, Reader.byte, ofWidth, Source.byteAt, Array.getElem?_eq_getElem inside] at read
  exact (operands_follow _ _ source found stop inside read).2.2

/-- What two tracks record that read the same bytes. -/
inductive Agrees (source : Source) (offset : Nat) : EventKind → EventKind → Prop
  | same (kind : EventKind) : Agrees source offset kind kind
  | octave (opcode : source[offset]? = some Opcode.octaveNote) (first second velocity : UInt8)
      (duration : Nat) :
      Agrees source offset (.note first velocity duration) (.note second velocity duration)

section Recorded

variable {source : Source} {offset start stop : Nat} {opcode : UInt8} {found : Instruction}
  {track : Track}

theorem Instruction.FollowsFrom.unknown {label : String}
    (follows : found.FollowsFrom opcode start stop)
    (recorded : found.recorded? track = some (.unknown label)) : stop = start := by
  cases found with
  | event kind =>
    cases recorded
    exact follows.elim
  | octaveNote => cases recorded
  | cut => cases recorded
  | unknown opcode => exact follows

/-- What one track records for an instruction, any player would record that reads it. -/
theorem Instruction.FollowsFrom.agrees {kind : EventKind}
    (follows : found.FollowsFrom opcode start stop) (first : source[offset]? = some opcode)
    (recorded : found.recorded? track = some kind) (span : Span) (player : Player) :
    ∃ other, (operation span player found).1 = .record span other ∧
      Agrees source offset kind other := by
  cases found with
  | event kind =>
    cases recorded
    exact ⟨_, rfl, .same _⟩
  | octaveNote semitone velocity duration =>
    cases recorded
    exact ⟨_, rfl, .octave (follows ▸ first) ..⟩
  | cut => cases recorded
  | unknown opcode =>
    cases recorded
    exact ⟨_, rfl, .same _⟩

end Recorded

end RefSeq

/-- An event stands for bytes of the file. They are all that a player reads which comes to where
they begin, before it does anything else, and it records the same for them. -/
structure Event.Backed (source : Source) (event : Event) : Prop where
  nonempty : 1 ≤ event.length
  inside : event.offset + event.length ≤ source.size
  single : ∀ label, event.kind = .unknown label → event.length = 1
  again : ∀ player : Player, player.setting.source = source →
    player.track.cursor.offset = event.offset →
    ∃ kind, (RefSeq.decode player).orders player =
        [.moveTo (event.offset + event.length), .record ⟨event.offset, event.length⟩ kind] ∧
      RefSeq.Agrees source event.offset event.kind kind

namespace Player

theorem orders_decode {player : Player} {found : RefSeq.Instruction} {stop : Nat}
    (read : player.reads = (.ok found, stop)) :
    (RefSeq.decode player).orders player = [.moveTo stop,
      (RefSeq.operation ⟨player.track.cursor.offset, stop - player.track.cursor.offset⟩
        (player.seek stop) found).1] := by
  change RefSeq.instruction _ _ = _ at read
  simp only [RefSeq.decode, read, Routine.orders, apply, goOn, List.cons.injEq, true_and]
  refine ⟨rfl, ?_⟩
  split
  · split <;> rfl
  · rfl

theorem backed_of_recording {player : Player} {event : Event}
    (recording : player.recording? = some event) : event.Backed player.setting.source := by
  unfold recording? at recording
  split at recording
  case h_1 => cases recording
  rename_i found stop read
  obtain ⟨kind, recorded, rfl⟩ := Option.map_eq_some_iff.mp recording
  obtain ⟨before, within, -⟩ := RefSeq.instruction_extent read
  obtain ⟨opcode, first, follows⟩ := RefSeq.instruction_follows read
  have whole : player.track.cursor.offset + (stop - player.track.cursor.offset) = stop := by omega
  refine ⟨Nat.sub_pos_of_lt before, Nat.le_trans (Nat.le_of_eq whole) within, ?_, ?_⟩
  · intro label unknown
    dsimp only at unknown
    rw [follows.unknown (unknown ▸ recorded)]
    exact Nat.add_sub_cancel_left ..
  · intro reader file there
    dsimp only at there ⊢
    have reads : reader.reads = (.ok found, stop) := by
      rw [← read, reads, reads, file, there]
    rw [orders_decode reads, there, whole]
    obtain ⟨other, ordered, agrees⟩ := follows.agrees first recorded
      ⟨player.track.cursor.offset, stop - player.track.cursor.offset⟩ (reader.seek stop)
    exact ⟨other, by rw [ordered], agrees⟩

end Player

namespace Sequence

variable {source : Source} {opened : Sequence Unit}

/-- Whatever is asked of a sequence, each event in its store stands for bytes of its file. -/
theorem events_backed (accepted : ofSource RefSeq.format () source = .ok opened)
    (history : List Call) : ∃ last, opened.calls history = .ok last ∧
      ∀ (id : Nat) (event : Event), last.arena.get? id = some event → event.Backed source := by
  obtain ⟨last, done, descends⟩ := (descends_ofSource accepted).calls history
  refine ⟨last, done, fun id event stored => ?_⟩
  obtain ⟨player, file, recording⟩ := descends.faithful id event stored
  exact file ▸ Player.backed_of_recording recording

/-- A track that comes back to the middle of its first note, where it reads a note in an octave, and
one that begins with an opcode that is not known. -/
def overlapping : Source :=
  #[0x52, 0x53, 0x45, 0x51, 1, 0, 0, 0, 0, 0, 2, 0, 17, 0, 1, 27, 0,
    0x12, 60, 0x13, 2, 1, 0x14, 0, 0x50, 19, 0, 0xEE]

theorem events_backed_overlapping : ∃ opened,
    ofSource RefSeq.format () overlapping = .ok opened ∧ ∃ bounded : 100 ≤ Tick.last, ∃ last,
      opened.calls [.runPass .length 7, .setOptions { maxSteps := 100 } bounded, .load] =
        .ok last ∧
      ∀ (id : Nat) (event : Event), last.arena.get? id = some event →
        event.Backed overlapping := by
  have accepted : ofSource RefSeq.format () overlapping = .ok _ := rfl
  exact ⟨_, accepted, by decide, events_backed accepted _⟩

end Sequence
end Sequencer
