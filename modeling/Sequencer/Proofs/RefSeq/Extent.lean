import Sequencer.Proofs.Outcome
import Sequencer.Proofs.RefSeq.Operands

/-! What a reader leaves behind it. An instruction that is read ends inside of the file and after
its start, and where it sends its track is a number of two bytes or the end of the instruction. -/
namespace Sequencer.RefSeq

/-- Where an instruction that ends at `stop` can send its track, and how often it can repeat. -/
def Instruction.Leads (stop : Nat) : Instruction → Prop
  | .event (.jump destination) | .event (.loopForever destination) => destination ≤ longest
  | .event (.call destination returnTo) => destination ≤ longest ∧ returnTo = stop
  | .event (.loopStart count) => count ≤ 255
  | _ => True

namespace Reader

variable {α β : Type} {offset : Nat} {reader : Reader α} {next : α → Reader β}
  {known : Nat → α → Prop} {result : Nat → β → Prop}

/-- From an offset of the file, what is read ends in the file and has a property there. -/
def Spans (offset : Nat) (known : Nat → α → Prop) (reader : Reader α) : Prop :=
  ∀ (source : Source) (value : α) (stop : Nat), offset ≤ source.size →
    reader source offset = (.ok value, stop) → offset ≤ stop ∧ stop ≤ source.size ∧ known stop value

theorem Spans.bind (first : reader.Spans offset known)
    (rest : ∀ middle value, known middle value → (next value).Spans middle result) :
    (reader >>= next).Spans offset result := by
  intro source value stop inside read
  change Reader.bind reader next source offset = _ at read
  unfold Reader.bind at read
  split at read
  · rename_i found
    obtain ⟨le, within, holds⟩ := first _ _ _ inside found
    obtain ⟨further, end_, final⟩ := rest _ _ holds _ _ _ within read
    exact ⟨Nat.le_trans le further, end_, final⟩
  · cases read

theorem pure_spans {value : β} (holds : result offset value) :
    (Pure.pure value : Reader β).Spans offset result := by
  intro source other stop inside read
  cases read
  exact ⟨Nat.le_refl _, inside, holds⟩

theorem ite_spans {condition : Prop} [Decidable condition] {first second : Reader α}
    (here : condition → first.Spans offset known) (there : second.Spans offset known) :
    (if condition then first else second).Spans offset known := by
  split
  · exact here ‹_›
  · exact there

theorem ofWidth_spans {width : Nat} {read : Source → Nat → Except ReadError α}
    (within : ∀ (source : Source) (value : α), read source offset = .ok value →
      offset + width ≤ source.size ∧ known (offset + width) value) :
    (ofWidth width read).Spans offset known := by
  intro source value stop _ found
  unfold ofWidth at found
  split at found
  · rename_i done
    cases found
    obtain ⟨inside, holds⟩ := within source _ done
    exact ⟨Nat.le_add_right .., inside, holds⟩
  · cases found

theorem byte_spans (offset : Nat) : byte.Spans offset fun stop _ => offset < stop := by
  refine ofWidth_spans fun source value read => ?_
  unfold Source.byteAt at read
  split at read
  · rename_i found
    exact ⟨(Array.getElem?_eq_some_iff.mp found).1, Nat.lt_succ_self _⟩
  · cases read

theorem short_spans (offset : Nat) : short.Spans offset fun _ value => value ≤ longest := by
  refine ofWidth_spans fun source value read => ?_
  refine ⟨?_, Nat.le_of_lt_succ (Source.littleEndianAt_lt read)⟩
  obtain ⟨bytes, found, _⟩ := Except.map_eq_ok.mp read
  unfold Source.bytesAt at found
  split at found
  · assumption
  · cases found

theorem shortAt_spans (place offset : Nat) : (shortAt place).Spans offset fun _ _ => True := by
  intro source value stop inside read
  cases congrArg Prod.snd read
  exact ⟨Nat.le_refl _, inside, trivial⟩

theorem text_spans (size offset : Nat) : (text size).Spans offset fun _ _ => True := by
  refine ofWidth_spans fun source value read => ?_
  obtain ⟨bytes, found, _⟩ := Except.map_eq_ok.mp read
  unfold Source.stretch at found
  split at found
  · exact ⟨by assumption, trivial⟩
  · cases found

theorem position_spans (offset : Nat) : position.Spans offset fun stop value => value = stop := by
  intro source value stop inside read
  cases read
  exact ⟨Nat.le_refl _, inside, rfl⟩

end Reader

open Reader

theorem slideOperands_spans (offset : Nat) : slideOperands.Spans offset fun _ _ => True :=
  (short_spans offset).bind fun middle _ _ => (byte_spans middle).bind fun _ _ _ =>
    pure_spans trivial

theorem operands_spans (opcode : UInt8) (offset : Nat) :
    (operands opcode).Spans offset fun stop found => found.Leads stop := by
  have byte {offset : Nat} {next : UInt8 → Reader Instruction}
      (rest : ∀ middle value, (next value).Spans middle fun stop found => found.Leads stop) :
      (byte >>= next).Spans offset fun stop found => found.Leads stop :=
    (byte_spans offset).bind fun middle value _ => rest middle value
  unfold operands
  -- Five instructions direct the flow of control by what they read; all others do not.
  repeat' refine ite_spans (fun _ => ?_) ?_
  all_goals first
    | exact pure_spans trivial
    | exact byte fun _ _ => pure_spans trivial
    | exact byte fun _ _ => byte fun _ _ => pure_spans trivial
    | exact byte fun _ _ => byte fun _ _ => (short_spans _).bind fun _ _ _ => pure_spans trivial
    | exact (short_spans _).bind fun _ _ _ => pure_spans trivial
    | exact (short_spans _).bind fun _ _ _ => (short_spans _).bind fun _ _ _ => pure_spans trivial
    | exact (slideOperands_spans _).bind fun _ _ _ => pure_spans trivial
    | exact byte fun _ _ => byte fun _ _ => (shortAt_spans 6 _).bind fun _ _ _ =>
        pure_spans trivial
    | exact byte fun _ _ => (text_spans _ _).bind fun _ _ _ => pure_spans trivial
    | exact byte fun _ count => pure_spans (Nat.le_of_lt_succ count.toNat_lt)
    | exact (short_spans _).bind fun _ _ bound => pure_spans bound
    | exact (short_spans _).bind fun _ _ bound => (position_spans _).bind fun _ _ same =>
        pure_spans (And.intro bound same)

theorem instruction_spans (offset : Nat) :
    instruction.Spans offset fun stop found => offset < stop ∧ found.Leads stop :=
  (byte_spans offset).bind fun middle opcode before source found stop inside read => by
    obtain ⟨le, within, leads⟩ := operands_spans opcode middle source found stop inside read
    exact ⟨le, within, Nat.lt_of_lt_of_le before le, leads⟩

theorem inside_of_read {source : Source} {offset stop : Nat} {found : Instruction}
    (read : instruction source offset = (.ok found, stop)) : offset < source.size := by
  refine Nat.lt_of_not_le fun beyond => ?_
  have missing : source[offset]? = none := Array.getElem?_eq_none beyond
  change Reader.bind byte operands source offset = _ at read
  simp [Reader.bind, byte, ofWidth, Source.byteAt, missing] at read

/-- An instruction that is read takes up bytes of the file. -/
theorem instruction_extent {source : Source} {offset stop : Nat} {found : Instruction}
    (read : instruction source offset = (.ok found, stop)) :
    offset < stop ∧ stop ≤ source.size ∧ found.Leads stop := by
  obtain ⟨_, within, before, leads⟩ := instruction_spans offset source found stop
    (Nat.le_of_lt (inside_of_read read)) read
  exact ⟨before, within, leads⟩

end Sequencer.RefSeq
