import Sequencer.Proofs.RefSeq.Advance
import Sequencer.Proofs.RefSeq.Opening

/-! Instructions that the file ends in. All bytes of an instruction are read before anything is done
for it, so that one that is cut short moves nothing but the offset of its track. Otherwise only an
opcode that is not in the table makes the decoder fail. -/
namespace Sequencer

/-- The read went past the end of the file. -/
def ReadError.isPastEnd : ReadError → Bool
  | .outOfRange .. => true
  | _ => false

namespace RefSeq

/-- The opcodes, each with the number of bytes of its operands. The text of a marker is not
counted. -/
def opcodes : List (UInt8 × Nat) :=
  [(Opcode.trackEnd, 0), (Opcode.rest, 2), (Opcode.hold, 2), (Opcode.noteOn, 2),
    (Opcode.noteOff, 1), (Opcode.note, 4), (Opcode.octaveNote, 4), (Opcode.octave, 1),
    (Opcode.keyCorrection, 1), (Opcode.drum, 1), (Opcode.cut, 0), (Opcode.volume, 1),
    (Opcode.volumeSlide, 3), (Opcode.pan, 1), (Opcode.panSlide, 3), (Opcode.expression, 1),
    (Opcode.expressionSlide, 3), (Opcode.masterLevel, 1), (Opcode.masterSlide, 3),
    (Opcode.program, 1), (Opcode.bank, 2), (Opcode.pitchBend, 2), (Opcode.transpose, 1),
    (Opcode.transposeAll, 1), (Opcode.controller, 2), (Opcode.bendRange, 1), (Opcode.sustain, 1),
    (Opcode.tempo, 2), (Opcode.tempoSlide, 4), (Opcode.timeSignature, 2), (Opcode.marker, 1),
    (Opcode.jump, 2), (Opcode.call, 2), (Opcode.ret, 0), (Opcode.loopStart, 1),
    (Opcode.loopEnd, 0), (Opcode.loopForever, 2)]

/-- The file ends before the instruction at an offset does. -/
inductive CutShort (source : Source) (place : Nat) : Prop
  | opcode (outside : source.size ≤ place)
  | operands {width : Nat} (known : (source.byte place, width) ∈ opcodes)
      (cut : source.size < place + 1 + width)
  | text (marker : source.byte place = Opcode.marker)
      (cut : source.size < place + 2 + (source.byte (place + 1)).toNat)

/-- At an offset of the file there is an opcode that is not in the table. -/
structure Unlisted (source : Source) (place : Nat) : Prop where
  inside : place < source.size
  unknown : ∀ width, (source.byte place, width) ∉ opcodes

def Instruction.isUnknown : Instruction → Bool
  | .unknown _ => true
  | _ => false

namespace Reader

variable {α β : Type} {source : Source} {offset width further : Nat} {reader : Reader α}
  {next : α → Reader β} {known : α → Prop} {result : β → Prop}

/-- The reader reads something with a property if the file has enough bytes for it, and else
comes to the end of the file. -/
structure Needs (source : Source) (offset width : Nat) (known : α → Prop) (reader : Reader α) :
    Prop where
  whole : offset + width ≤ source.size →
    ∃ value, reader source offset = (.ok value, offset + width) ∧ known value
  cut : offset ≤ source.size → source.size < offset + width →
    ∃ error stop, reader source offset = (.error error, stop) ∧ error.isPastEnd = true

theorem Needs.bind (first : reader.Needs source offset width known)
    (rest : ∀ value, known value → (next value).Needs source (offset + width) further result) :
    (reader >>= next).Needs source offset (further + width) result where
  whole fits := by
    obtain ⟨value, read, holds⟩ := first.whole (by omega)
    obtain ⟨last, done, final⟩ := (rest value holds).whole (by omega)
    refine ⟨last, ?_, final⟩
    change Reader.bind reader next source offset = _
    rw [Reader.bind, read, Nat.add_comm further, ← Nat.add_assoc]
    exact done
  cut inside short := by
    change ∃ error stop, Reader.bind reader next source offset = (.error error, stop) ∧ _
    rcases Nat.lt_or_ge source.size (offset + width) with here | there
    · obtain ⟨error, stop, read, past⟩ := first.cut inside here
      exact ⟨error, stop, by rw [Reader.bind, read], past⟩
    · obtain ⟨value, read, holds⟩ := first.whole there
      obtain ⟨error, stop, done, past⟩ := (rest value holds).cut there (by omega)
      exact ⟨error, stop, by rw [Reader.bind, read]; exact done, past⟩

theorem pure_needs {value : β} (holds : result value) :
    (Pure.pure value : Reader β).Needs source offset 0 result where
  whole _ := ⟨value, rfl, holds⟩
  cut inside short := absurd inside (Nat.not_le_of_lt short)

theorem ofWidth_needs {read : Source → Nat → Except ReadError α}
    (whole : offset + width ≤ source.size → ∃ value, read source offset = .ok value ∧ known value)
    (cut : source.size < offset + width →
      ∃ error, read source offset = .error error ∧ error.isPastEnd = true) :
    (ofWidth width read).Needs source offset width known where
  whole fits := by
    obtain ⟨value, found, holds⟩ := whole fits
    exact ⟨value, by rw [ofWidth, found], holds⟩
  cut _ short := by
    obtain ⟨error, missing, past⟩ := cut short
    exact ⟨error, offset, by rw [ofWidth, missing], past⟩

theorem byte_needs : byte.Needs source offset 1 (· = source.byte offset) :=
  ofWidth_needs (fun fits => ⟨_, Source.byteAt_of_lt fits, rfl⟩)
    fun short => ⟨_, Source.byteAt_of_le (Nat.le_of_lt_succ short), rfl⟩

theorem short_needs : short.Needs source offset 2 fun _ => True :=
  ofWidth_needs (fun fits => ⟨_, Source.littleEndianAt_two fits, trivial⟩)
    fun short => ⟨_, Source.littleEndianAt_of_lt short, rfl⟩

theorem text_needs (size : Nat) : (text size).Needs source offset size fun _ => True := by
  refine ofWidth_needs (fun fits => ?_) fun short => ?_
  · rw [Source.stretch, if_pos fits]
    exact ⟨_, rfl, trivial⟩
  · rw [Source.stretch, if_neg (Nat.not_le_of_lt short)]
    exact ⟨_, rfl, rfl⟩

theorem position_needs : position.Needs source offset 0 fun _ => True where
  whole _ := ⟨offset, rfl, trivial⟩
  cut inside short := absurd inside (Nat.not_le_of_lt short)

/-- What stands in the header is there for every instruction. -/
theorem shortAt_needs {place : Nat} (there : place + 2 ≤ source.size) :
    (shortAt place).Needs source offset 0 fun _ => True where
  whole _ := ⟨_, by rw [shortAt, Source.littleEndianAt_two there]; rfl, trivial⟩
  cut inside short := absurd inside (Nat.not_le_of_lt short)

end Reader

open Reader

variable {source : Source} {place : Nat}

theorem slideOperands_needs {offset : Nat} : slideOperands.Needs source offset 3 fun _ => True :=
  short_needs.bind fun _ _ => byte_needs.bind fun _ _ => pure_needs trivial

theorem operands_needs {opcode : UInt8} {offset width : Nat} (size : 11 ≤ source.size)
    (listed : (opcode, width) ∈ opcodes) (plain : opcode ≠ Opcode.marker) :
    (operands opcode).Needs source offset width (·.isUnknown = false) := by
  simp only [opcodes, List.mem_cons, Prod.mk.injEq] at listed
  -- Each row of the table stands for one sequence of readers.
  repeat' obtain ⟨rfl, rfl⟩ | listed := listed
  all_goals first
    | exact absurd rfl plain
    | exact pure_needs rfl
    | exact byte_needs.bind fun _ _ => pure_needs rfl
    | exact byte_needs.bind fun _ _ => byte_needs.bind fun _ _ => pure_needs rfl
    | exact byte_needs.bind fun _ _ => byte_needs.bind fun _ _ => short_needs.bind fun _ _ =>
        pure_needs rfl
    | exact byte_needs.bind fun _ _ => byte_needs.bind fun _ _ =>
        (shortAt_needs (by omega)).bind fun _ _ => pure_needs rfl
    | exact short_needs.bind fun _ _ => pure_needs rfl
    | exact short_needs.bind fun _ _ => short_needs.bind fun _ _ => pure_needs rfl
    | exact short_needs.bind fun _ _ => position_needs.bind fun _ _ => pure_needs rfl
    | exact slideOperands_needs.bind fun _ _ => pure_needs rfl

theorem marker_needs {offset : Nat} : (operands Opcode.marker).Needs source offset
    ((source.byte offset).toNat + 1) (·.isUnknown = false) :=
  byte_needs.bind fun size same => by
    have read : (text size.toNat >>= fun text => Pure.pure (.event (.marker text)) :
        Reader Instruction).Needs source (offset + 1) (0 + size.toNat) (·.isUnknown = false) :=
      (text_needs _).bind fun _ _ => pure_needs rfl
    rw [Nat.zero_add] at read
    exact same ▸ read

theorem width_of_marker {width : Nat} (listed : (Opcode.marker, width) ∈ opcodes) : width = 1 := by
  have only : ∀ row ∈ opcodes, row.1 = Opcode.marker → row.2 = 1 := by decide
  exact only _ listed rfl

theorem operands_of_unlisted {opcode : UInt8} (unlisted : ∀ width, (opcode, width) ∉ opcodes) :
    operands opcode = Pure.pure (.unknown opcode) := by
  have absent : opcode ∉ opcodes.map Prod.fst := by
    intro listed
    obtain ⟨⟨_, width⟩, row, rfl⟩ := List.mem_map.mp listed
    exact unlisted width row
  simp only [opcodes, List.map_cons, List.map_nil, List.mem_cons, not_or] at absent
  simp [operands, absent]

theorem instruction_of_inside (inside : place < source.size) :
    instruction source place = operands (source.byte place) source (place + 1) := by
  change Reader.bind byte operands source place = _
  rw [Reader.bind, byte, ofWidth, Source.byteAt_of_lt inside]

theorem instruction_of_cutShort (size : 11 ≤ source.size) (cut : CutShort source place) :
    ∃ error stop, instruction source place = (.error error, stop) ∧ error.isPastEnd = true := by
  rcases Nat.lt_or_ge place source.size with inside | outside
  case inr =>
    refine ⟨.outOfRange place 1 source.size none, place, ?_, rfl⟩
    change Reader.bind byte operands source place = _
    rw [Reader.bind, byte, ofWidth, Source.byteAt_of_le outside]
  rw [instruction_of_inside inside]
  cases cut with
  | opcode outside => exact absurd inside (Nat.not_lt_of_le outside)
  | operands listed cut =>
    by_cases marker : source.byte place = Opcode.marker
    · rw [marker] at listed ⊢
      have one := width_of_marker listed
      exact marker_needs.cut inside (by omega)
    · exact (operands_needs size listed marker).cut inside cut
  | text marker cut =>
    rw [marker]
    exact marker_needs.cut inside (by omega)

theorem instruction_of_unlisted (unlisted : Unlisted source place) :
    instruction source place = (.ok (.unknown (source.byte place)), place + 1) := by
  rw [instruction_of_inside unlisted.inside, operands_of_unlisted unlisted.unknown]
  rfl

/-- What is neither cut short nor unknown is read. -/
theorem instruction_of_whole (size : 11 ≤ source.size) (whole : ¬ CutShort source place)
    (known : ¬ Unlisted source place) :
    ∃ found stop, instruction source place = (.ok found, stop) ∧ found.isUnknown = false := by
  have inside : place < source.size := Nat.lt_of_not_le fun outside => whole (.opcode outside)
  rw [instruction_of_inside inside]
  by_cases marker : source.byte place = Opcode.marker
  · have fits : place + 2 + (source.byte (place + 1)).toNat ≤ source.size :=
      Nat.le_of_not_lt fun cut => whole (.text marker cut)
    have needs : (operands Opcode.marker).Needs source (place + 1) _ _ := marker_needs
    obtain ⟨found, read, good⟩ := needs.whole (by omega)
    exact ⟨found, _, marker ▸ read, good⟩
  · obtain ⟨width, listed⟩ : ∃ width, (source.byte place, width) ∈ opcodes := by
      by_contra absent
      exact known ⟨inside, fun width listed => absent ⟨width, listed⟩⟩
    obtain ⟨found, read, good⟩ := (operands_needs size listed marker).whole
      (Nat.le_of_not_lt fun cut => whole (.operands listed cut))
    exact ⟨found, _, read, good⟩

theorem operation_problem {span : Span} {player : Player} {found : Instruction}
    (known : found.isUnknown = false) : (operation span player found).2 = none := by
  cases found with
  | unknown opcode => cases known
  | _ => rfl

theorem decode_of_cutShort {player : Player} (size : 11 ≤ player.setting.source.size)
    (cut : CutShort player.setting.source player.track.cursor.offset) :
    ∃ error stop, (decode player).run player = .ok (.error error, player.seek stop) ∧
      error.isPastEnd = true := by
  obtain ⟨error, stop, read, past⟩ := instruction_of_cutShort size cut
  exact ⟨error, stop, by rw [decode_run, read], past⟩

theorem decode_of_unlisted {player : Player}
    (unlisted : Unlisted player.setting.source player.track.cursor.offset) :
    ∃ next, (decode player).run player = .ok (.error (.unknownOpcode
      (player.setting.source.byte player.track.cursor.offset) player.track.cursor.offset),
      next) := by
  rw [decode_run, instruction_of_unlisted unlisted]
  exact ⟨_, rfl⟩

theorem decode_of_whole {player next : Player} {error : ReadError}
    (size : 11 ≤ player.setting.source.size)
    (whole : ¬ CutShort player.setting.source player.track.cursor.offset)
    (known : ¬ Unlisted player.setting.source player.track.cursor.offset) :
    (decode player).run player ≠ .ok (.error error, next) := by
  obtain ⟨found, stop, read, good⟩ := instruction_of_whole size whole known
  intro failed
  rw [decode_run, read] at failed
  obtain ⟨⟨more, last⟩, _, same⟩ := Except.map_eq_ok.mp failed
  rw [operation_problem good] at same
  cases same

/-- An instruction that is cut short moves nothing but the offset of its track, in whatever state
the player is, and besides only an unknown opcode makes the decoder fail. -/
theorem decode_fails {sequence : Sequence Unit} {player : Player}
    (accepted : Sequence.ofSource format () source = .ok sequence)
    (plays : player.setting.source = source) (stands : player.track.cursor.offset = place) :
    (∀ error next, (decode player).run player = .ok (.error error, next) →
      CutShort source place ∧ error.isPastEnd = true ∧ (∃ stop, next = player.seek stop) ∨
        Unlisted source place ∧ error = .unknownOpcode (source.byte place) place) ∧
    (CutShort source place → ∃ error next,
      (decode player).run player = .ok (.error error, next) ∧ error.isPastEnd = true) ∧
    (Unlisted source place → ∃ next, (decode player).run player =
      .ok (.error (.unknownOpcode (source.byte place) place), next)) := by
  subst plays stands
  have size := (wellFormed_of_accepted accepted).size
  refine ⟨fun error next failed => ?_, fun cut => ?_, decode_of_unlisted⟩
  · by_cases cut : CutShort player.setting.source player.track.cursor.offset
    · obtain ⟨found, stop, run, past⟩ := decode_of_cutShort size cut
      cases failed.symm.trans run
      exact .inl ⟨cut, past, stop, rfl⟩
    by_cases unlisted : Unlisted player.setting.source player.track.cursor.offset
    · obtain ⟨last, run⟩ := decode_of_unlisted unlisted
      cases failed.symm.trans run
      exact .inr ⟨unlisted, rfl⟩
    · exact absurd failed (decode_of_whole size cut unlisted)
  · obtain ⟨error, stop, run, past⟩ := decode_of_cutShort size cut
    exact ⟨error, _, run, past⟩

/-- One track with a rest that lacks its second byte. -/
def shortRest : Source := #[0x52, 0x53, 0x45, 0x51, 1, 0, 0, 0, 0, 0, 1, 0, 14, 0, 0x01, 0x10]

theorem decode_fails_shortRest :
    let player : Player := ⟨⟨shortRest, .midi, true, 1, 64⟩, Track.starting 0 14 0, {}⟩
    ∃ error stop, (decode player).run player = .ok (.error error, player.seek stop) ∧
      error.isPastEnd = true := by
  intro player
  have formed : WellFormed shortRest :=
    { size := by decide, ident := by decide, version := by decide, tracks := by decide,
      table := by decide, starts := by decide }
  have listed : (shortRest.byte 14, 2) ∈ opcodes := by decide
  have cut : CutShort shortRest 14 := .operands listed (by decide)
  obtain ⟨fails, truncated, _⟩ :=
    decode_fails (ofSource_of_wellFormed formed) (show player.setting.source = shortRest from rfl)
      (show player.track.cursor.offset = 14 from rfl)
  obtain ⟨error, next, run, past⟩ := truncated cut
  rcases fails error next run with ⟨_, _, stop, rfl⟩ | ⟨unlisted, _⟩
  · exact ⟨error, stop, run, past⟩
  · exact absurd listed (unlisted.unknown 2)

end RefSeq
end Sequencer
