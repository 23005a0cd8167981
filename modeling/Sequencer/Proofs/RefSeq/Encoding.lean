import Sequencer.RefSeq.Assembler
import Sequencer.Source

/-! What the assembler encodes is what is read again. A reader takes the bytes of a statement
wherever they stand in a file. -/
namespace Sequencer

/-- The bytes stand at an offset of the file. -/
def Source.Holds (source : Source) (offset : Nat) (bytes : List UInt8) : Prop :=
  offset ≤ source.size ∧ bytes <+: source.toList.drop offset

namespace Source

variable {source : Source} {offset : Nat} {first second : List UInt8} {b : UInt8}

theorem Holds.size_le (holds : source.Holds offset first) :
    offset + first.length ≤ source.size := by
  obtain ⟨inside, starts⟩ := holds
  have short := starts.length_le
  have size : source.toList.length = source.size := Array.length_toList
  rw [List.length_drop] at short
  omega

theorem holds_append : source.Holds offset (first ++ second) ↔
    source.Holds offset first ∧ source.Holds (offset + first.length) second := by
  constructor
  · intro holds
    have size := holds.size_le
    rw [List.length_append] at size
    obtain ⟨inside, rest, all⟩ := holds
    rw [List.append_assoc] at all
    refine ⟨⟨inside, second ++ rest, all⟩, by omega, rest, ?_⟩
    rw [← List.drop_drop, ← all, List.drop_left]
  · rintro ⟨⟨inside, rest, all⟩, _, there⟩
    refine ⟨inside, ?_⟩
    rw [← List.drop_drop, ← all, List.drop_left] at there
    rw [← all]
    exact (List.prefix_append_right_inj first).mpr there

theorem Holds.tail (holds : source.Holds offset (b :: first)) : source.Holds (offset + 1) first :=
  (holds_append.mp (show source.Holds offset ([b] ++ first) from holds)).2

theorem Holds.byteAt (holds : source.Holds offset (b :: first)) : source.byteAt offset = .ok b := by
  obtain ⟨_, rest, all⟩ := holds
  have there : (source.toList.drop offset)[0]? = some b := by
    rw [← all]
    rfl
  rw [List.getElem?_drop, Nat.add_zero, Array.getElem?_toList] at there
  rw [Source.byteAt, there]

theorem Holds.extract (holds : source.Holds offset first) :
    (source.extract offset (offset + first.length)).toList = first := by
  obtain ⟨_, rest, all⟩ := holds
  rw [Array.toList_extract, List.extract_eq_take_drop, Nat.add_sub_cancel_left, ← all,
    List.take_left]

theorem Holds.bytesAt (holds : source.Holds offset first) :
    source.bytesAt offset first.length = .ok first := by
  rw [Source.bytesAt, if_pos holds.size_le, holds.extract]

theorem Holds.littleEndianAt {n : Nat} (holds : source.Holds offset (toLittleEndian 2 n)) :
    source.littleEndianAt offset 2 = .ok (littleEndian (toLittleEndian 2 n)) := by
  have read := holds.bytesAt
  rw [show (toLittleEndian 2 n).length = 2 from rfl] at read
  rw [Source.littleEndianAt, read]
  rfl

theorem Holds.stretch (holds : source.Holds offset first) :
    source.stretch offset first.length = .ok first := by
  rw [Source.stretch, if_pos holds.size_le, holds.extract]

end Source

namespace RefSeq

theorem littleEndian_toLittleEndian {n : Nat} (bound : n < 65536) :
    littleEndian (toLittleEndian 2 n) = n := by
  simp [toLittleEndian, littleEndian]
  omega

namespace Reader

variable {α β : Type} {source : Source} {offset : Nat} {reader : Reader α} {next : α → Reader β}

/-- From an offset where the bytes stand, the reader takes just them. -/
def Takes (source : Source) (offset : Nat) (bytes : List UInt8) (value : α) (reader : Reader α) :
    Prop :=
  source.Holds offset bytes → reader source offset = (.ok value, offset + bytes.length)

theorem Takes.bind {first second : List UInt8} {value : α} {result : β}
    (takes : reader.Takes source offset first value)
    (rest : (next value).Takes source (offset + first.length) second result) :
    (reader >>= next).Takes source offset (first ++ second) result := by
  intro holds
  obtain ⟨here, there⟩ := Source.holds_append.mp holds
  change Reader.bind reader next source offset = _
  rw [Reader.bind, takes here]
  dsimp only
  rw [rest there, List.length_append, Nat.add_assoc]

theorem pure_takes {value : α} : (Pure.pure value : Reader α).Takes source offset [] value :=
  fun _ => rfl

theorem Takes.map {bytes : List UInt8} {value : α} (takes : reader.Takes source offset bytes value)
    (f : α → β) :
    (reader >>= fun value => Pure.pure (f value)).Takes source offset bytes (f value) := by
  rw [← List.append_nil bytes]
  exact takes.bind pure_takes

theorem byte_takes {b : UInt8} : byte.Takes source offset [b] b := by
  intro holds
  rw [byte, ofWidth, holds.byteAt]
  rfl

theorem short_takes_of_lt {n : Nat} (bound : n < 65536) :
    short.Takes source offset (toLittleEndian 2 n) n := by
  intro holds
  have read := holds.littleEndianAt
  rw [littleEndian_toLittleEndian bound] at read
  rw [short, ofWidth, read]
  rfl

theorem short_takes {n : UInt16} : short.Takes source offset (shortBytes n) n.toNat :=
  short_takes_of_lt n.toNat_lt

theorem text_takes {bytes : List UInt8} :
    (text bytes.length).Takes source offset bytes (Text.Utf8.decode bytes) := by
  intro holds
  rw [text, ofWidth, holds.stretch]
  rfl

theorem shortAt_takes {place n : Nat} (there : source.littleEndianAt place 2 = .ok n) :
    (shortAt place).Takes source offset [] n := by
  intro holds
  rw [shortAt, there]
  rfl

theorem position_takes : position.Takes source offset [] offset :=
  fun _ => rfl

end Reader

open Reader

variable {source : Source} {offset : Nat}

theorem slideOperands_takes {duration : UInt16} {target : UInt8} :
    slideOperands.Takes source offset (shortBytes duration ++ [target])
      (duration.toNat, target) :=
  Takes.bind short_takes (Takes.map byte_takes _)

/-- The instruction that a statement is read as. -/
def Plain.instruction (ticksPerQuarter : UInt16) : Plain → Instruction
  | .rest ticks => .event (.rest ticks.toNat)
  | .hold ticks => .event (.hold ticks.toNat)
  | .noteOn key velocity => .event (.noteOn key velocity)
  | .noteOff key => .event (.noteOff key)
  | .note key velocity duration => .event (.note key velocity duration.toNat)
  | .octaveNote semitone velocity duration => .octaveNote semitone velocity duration.toNat
  | .octave number => .event (.octave number)
  | .keyCorrection semitones => .event (.keyCorrection semitones)
  | .drum key => .event (.drum (if key.getD 0xFF = 0xFF then none else key))
  | .cut => .cut
  | .level dial value => .event (.level dial value)
  | .slide dial duration target => .event (.slide dial target duration.toNat)
  | .masterLevel value => .event (.masterLevel value)
  | .masterSlide duration target => .event (.masterSlide target duration.toNat)
  | .program number => .event (.program number)
  | .bank number => .event (.bank number)
  | .pitchBend bend => .event (.pitchBend bend)
  | .transpose scope semitones => .event (.transpose scope semitones)
  | .controller number value => .event (.controller number value)
  | .bendRange semitones => .event (.bendRange semitones 0)
  | .sustain on => .event (.sustain on)
  | .tempo bpm => .event (.tempo (Float.ofNat bpm.toNat))
  | .tempoSlide duration bpm => .event (.tempoSlide (Float.ofNat bpm.toNat) duration.toNat)
  | .timeSignature numerator denominator =>
    .event (.timeSignature numerator denominator ticksPerQuarter)
  | .marker text => .event (.marker (Text.Utf8.decode (Text.Utf8.encode text)))

/-- A marker's text has to fit behind a size of one byte. -/
def Plain.Fits : Plain → Prop
  | .marker text => (Text.Utf8.encode text).length ≤ 255
  | _ => True

theorem opcode_takes {opcode : UInt8} {bytes : List UInt8} {found : Instruction}
    (rest : (operands opcode).Takes source (offset + 1) bytes found) :
    RefSeq.instruction.Takes source offset (opcode :: bytes) found :=
  Takes.bind byte_takes rest

theorem call_takes {destination : Nat} (bound : destination < 65536) :
    instruction.Takes source offset (Opcode.call :: toLittleEndian 2 destination)
      (.event (.call destination (offset + 3))) :=
  opcode_takes (Takes.bind (short_takes_of_lt bound) (Takes.map position_takes _))

theorem ret_takes : instruction.Takes source offset [Opcode.ret] (.event .ret) :=
  opcode_takes pure_takes

theorem loopStart_takes {count : UInt8} :
    instruction.Takes source offset [Opcode.loopStart, count] (.event (.loopStart count.toNat)) :=
  opcode_takes (Takes.map byte_takes _)

theorem loopEnd_takes : instruction.Takes source offset [Opcode.loopEnd] (.event .loopEnd) :=
  opcode_takes pure_takes

theorem trackEnd_takes : instruction.Takes source offset [Opcode.trackEnd] (.event .trackEnd) :=
  opcode_takes pure_takes

theorem drum_of_byte (key : Option UInt8) :
    (if key.getD 0xFF = 0xFF then none else some (key.getD 0xFF)) =
      if key.getD 0xFF = 0xFF then none else key := by
  cases key <;> simp

theorem Plain.instruction_takes {statement : Plain} (fits : statement.Fits)
    {ticksPerQuarter : UInt16}
    (metre : source.littleEndianAt 6 2 = .ok ticksPerQuarter.toNat) :
    RefSeq.instruction.Takes source offset statement.encode
      (statement.instruction ticksPerQuarter) := by
  cases statement with
  | rest ticks => exact opcode_takes (Takes.map short_takes _)
  | hold ticks => exact opcode_takes (Takes.map short_takes _)
  | noteOn key velocity => exact opcode_takes (Takes.bind byte_takes (Takes.map byte_takes _))
  | noteOff key => exact opcode_takes (Takes.map byte_takes _)
  | note key velocity duration =>
    exact opcode_takes (Takes.bind byte_takes (Takes.bind byte_takes (Takes.map short_takes _)))
  | octaveNote semitone velocity duration =>
    exact opcode_takes (Takes.bind byte_takes (Takes.bind byte_takes (Takes.map short_takes _)))
  | octave number => exact opcode_takes (Takes.map byte_takes _)
  | keyCorrection semitones =>
    have same : signedByte semitones.toUInt8 = semitones := by simp [signedByte]
    have read : RefSeq.instruction.Takes source offset (Plain.keyCorrection semitones).encode
        (.event (.keyCorrection (signedByte semitones.toUInt8))) :=
      opcode_takes (Takes.map byte_takes _)
    rwa [same] at read
  | drum key =>
    simp only [Plain.instruction, ← drum_of_byte]
    exact opcode_takes (Takes.map byte_takes _)
  | cut => exact opcode_takes pure_takes
  | level dial value => cases dial <;> exact opcode_takes (Takes.map byte_takes _)
  | slide dial duration target =>
    change RefSeq.instruction.Takes source offset
      (slideOpcode dial :: (shortBytes duration ++ [target])) _
    cases dial <;> exact opcode_takes (Takes.map slideOperands_takes _)
  | masterLevel value => exact opcode_takes (Takes.map byte_takes _)
  | masterSlide duration target =>
    change RefSeq.instruction.Takes source offset
      (Opcode.masterSlide :: (shortBytes duration ++ [target])) _
    exact opcode_takes (Takes.map slideOperands_takes _)
  | program number => exact opcode_takes (Takes.map byte_takes _)
  | bank number =>
    have read : RefSeq.instruction.Takes source offset (Plain.bank number).encode
        (.event (.bank (UInt16.ofNat number.toNat))) :=
      opcode_takes (Takes.map short_takes _)
    rwa [UInt16.ofNat_toNat] at read
  | pitchBend bend =>
    have read : RefSeq.instruction.Takes source offset (Plain.pitchBend bend).encode
        (.event (.pitchBend (UInt16.ofNat bend.toUInt16.toNat).toInt16)) :=
      opcode_takes (Takes.map short_takes _)
    rwa [UInt16.ofNat_toNat, Int16.toInt16_toUInt16] at read
  | transpose scope semitones =>
    have same : signedByte semitones.toUInt8 = semitones := by simp [signedByte]
    have read : RefSeq.instruction.Takes source offset (Plain.transpose scope semitones).encode
        (.event (.transpose scope (signedByte semitones.toUInt8))) := by
      cases scope <;> exact opcode_takes (Takes.map byte_takes _)
    rwa [same] at read
  | controller number value =>
    exact opcode_takes (Takes.bind byte_takes (Takes.map byte_takes _))
  | bendRange semitones => exact opcode_takes (Takes.map byte_takes _)
  | sustain on =>
    have same : ((if on then 1 else 0 : UInt8) != 0) = on := by cases on <;> rfl
    have read : RefSeq.instruction.Takes source offset (Plain.sustain on).encode
        (.event (.sustain ((if on then 1 else 0 : UInt8) != 0))) :=
      opcode_takes (Takes.map byte_takes _)
    rwa [same] at read
  | tempo bpm => exact opcode_takes (Takes.map short_takes _)
  | tempoSlide duration bpm =>
    change RefSeq.instruction.Takes source offset
      (Opcode.tempoSlide :: (shortBytes duration ++ shortBytes bpm)) _
    exact opcode_takes (Takes.bind short_takes (Takes.map short_takes _))
  | timeSignature numerator denominator =>
    have read : RefSeq.instruction.Takes source offset
        (Plain.timeSignature numerator denominator).encode (.event (.timeSignature numerator
          denominator (UInt16.ofNat ticksPerQuarter.toNat))) :=
      opcode_takes (Takes.bind byte_takes (Takes.bind byte_takes
        (Takes.map (shortAt_takes metre) _)))
    rwa [UInt16.ofNat_toNat] at read
  | marker text =>
    have size : (UInt8.ofNat (Text.Utf8.encode text).length).toNat =
        (Text.Utf8.encode text).length :=
      Nat.mod_eq_of_lt (Nat.lt_succ_of_le fits)
    refine opcode_takes (Takes.bind byte_takes (Takes.map ?_ _))
    rw [size]
    exact text_takes

end RefSeq
end Sequencer
