import Sequencer.Proofs.RefSeq.Tracks

/-! Structured programs: plain statements, counted loops, and calls of subroutines that return. The
unrolling of a program names every instruction that it is to decode, in order: the body of a loop
once for each round, and a subroutine at each call. -/
namespace Sequencer.RefSeq

/-- A stretch of a structured program. -/
inductive Code where
  | done
  | plain (statement : Plain) (rest : Code)
  | loop (count : UInt8) (counted : 0 < count) (body rest : Code)
  | call (name : String) (rest : Code)

namespace Code

def statements : Code → List Statement
  | .done => []
  | .plain statement rest => .plain statement :: rest.statements
  | .loop count _ body rest =>
    .loopStart count :: (body.statements ++ .loopEnd :: rest.statements)
  | .call name rest => .branch .call name :: rest.statements

/-- How many bytes the code takes up. -/
def size (code : Code) : Nat := (code.statements.flatMap Statement.draft).length

/-- Played with no more than so many calls, and so many loops, open beside those that are open
already. A subroutine that comes to call itself again cannot be. -/
inductive Within (subroutines : List (String × Code)) : (calls loops : Nat) → Code → Prop
  | done {calls loops : Nat} : Within subroutines calls loops .done
  | plain {calls loops : Nat} {statement : Plain} {rest : Code}
      (further : Within subroutines calls loops rest) :
      Within subroutines calls loops (.plain statement rest)
  | loop {calls loops : Nat} {count : UInt8} {counted : 0 < count} {body rest : Code}
      (inner : Within subroutines calls loops body)
      (further : Within subroutines calls (loops + 1) rest) :
      Within subroutines calls (loops + 1) (.loop count counted body rest)
  | call {calls loops : Nat} {name : String} {code rest : Code}
      (known : subroutines.lookup name = some code)
      (inner : Within subroutines calls loops code)
      (further : Within subroutines (calls + 1) loops rest) :
      Within subroutines (calls + 1) loops (.call name rest)

end Code

/-- A program for one track. Its subroutines follow behind the end of its main code. -/
structure Program where
  ticksPerQuarter : UInt16 := 48
  tempo : UInt16 := 120
  tickSync : Bool := false
  channel : UInt8 := 0
  main : Code
  subroutines : List (String × Code) := []

namespace Program

def subroutine (routine : String × Code) : List Statement :=
  .label routine.1 :: (routine.2.statements ++ [.ret])

def body (program : Program) : List Statement :=
  program.main.statements ++ .trackEnd :: program.subroutines.flatMap subroutine

def statements (program : Program) : List Statement :=
  .ticksPerQuarter program.ticksPerQuarter :: .headerTempo program.tempo ::
    .tickSync program.tickSync :: .track program.channel :: program.body

end Program

def Plain.ticks : Plain → Nat
  | .rest ticks | .hold ticks => ticks.toNat
  | _ => 0

/-- An instruction of an unrolled program: where it stands, and its statement, or none if it
directs the flow of control. -/
structure Item where
  offset : Nat
  statement : Option Plain
deriving DecidableEq

namespace Item

def ticks (item : Item) : Nat := item.statement.elim 0 Plain.ticks

/-- The item makes an entry in the timeline that is not one of control flow. -/
def isNoted (item : Item) : Bool := item.statement.any (· ≠ .cut)

/-- The items with the ticks at which they are decoded: the sums of the rests and holds before. -/
def timed : (tick : Nat) → List Item → List (Nat × Item)
  | _, [] => []
  | tick, item :: rest => (tick, item) :: timed (tick + item.ticks) rest

/-- The sum of all rests and holds. -/
def total : List Item → Nat
  | [] => 0
  | item :: rest => item.ticks + total rest

@[simp] theorem total_cons (item : Item) (items : List Item) :
    total (item :: items) = item.ticks + total items := rfl

@[simp] theorem total_append (first second : List Item) :
    total (first ++ second) = total first + total second := by
  induction first with
  | nil => exact (Nat.zero_add _).symm
  | cons item rest ih => simp [ih, Nat.add_assoc]

theorem total_singleton (item : Item) : total [item] = item.ticks := rfl

theorem timed_append (tick : Nat) (first second : List Item) :
    timed tick (first ++ second) = timed tick first ++ timed (tick + total first) second := by
  induction first generalizing tick with
  | nil => rfl
  | cons item rest ih =>
    rw [List.cons_append, timed, timed, ih, total_cons, Nat.add_assoc, List.cons_append]

end Item

/-- Unrolls code that stands at an offset. No more than `loops` loops may be open; `enter` unrolls
a subroutine. -/
def Code.unroll (enter : (loops : Nat) → String → Option (List Item)) :
    (loops offset : Nat) → Code → Option (List Item)
  | _, _, .done => some []
  | loops, offset, .plain statement rest => do
    let items ← rest.unroll enter loops (offset + statement.encode.length)
    return ⟨offset, some statement⟩ :: items
  | 0, _, .loop .. => none
  | loops + 1, offset, .loop count _ body rest => do
    let round ← body.unroll enter loops (offset + 2)
    let stop := offset + 2 + body.size
    let items ← rest.unroll enter (loops + 1) (stop + 1)
    return ⟨offset, none⟩ ::
      ((List.replicate count.toNat (round ++ [⟨stop, none⟩])).flatten ++ items)
  | loops, offset, .call name rest => do
    let inner ← enter loops name
    let items ← rest.unroll enter loops (offset + 3)
    return ⟨offset, none⟩ :: (inner ++ items)

namespace Program

/-- Unrolls a subroutine and its return, with no more than `calls` calls open from its own on. -/
def enter (program : Program) (labels : List (String × Nat)) :
    (calls loops : Nat) → String → Option (List Item)
  | 0, _, _ => none
  | calls + 1, loops, name => do
    let code ← program.subroutines.lookup name
    let offset ← labels.lookup name
    let items ← code.unroll (enter program labels calls) loops offset
    return items ++ [⟨offset + code.size, none⟩]

/-- The offset of the code of a single track. -/
def start : Nat := headerSize + pointerSize

/-- Unrolls the whole program up to the end of its track, with the labels at their offsets in the
file. -/
def unroll (program : Program) (labels : List (String × Nat)) (depth : Nat) :
    Option (List Item) := do
  let items ← program.main.unroll (program.enter labels depth) depth start
  return items ++ [⟨start + program.main.size, none⟩]

variable {program : Program} {labels : List (String × Nat)} {calls loops depth : Nat}

theorem enter_succ (program : Program) (labels : List (String × Nat)) (calls loops : Nat)
    (name : String) : program.enter labels (calls + 1) loops name = (do
      let code ← program.subroutines.lookup name
      let offset ← labels.lookup name
      let items ← code.unroll (program.enter labels calls) loops offset
      return items ++ [⟨offset + code.size, none⟩]) := rfl

theorem unrolls_of_within {code : Code} (within : code.Within program.subroutines calls loops)
    (labelled : ∀ name code, program.subroutines.lookup name = some code →
      ∃ offset, labels.lookup name = some offset) (offset : Nat) :
    ∃ items, code.unroll (program.enter labels calls) loops offset = some items := by
  induction within generalizing offset with
  | done => exact ⟨[], by simp [Code.unroll]⟩
  | @plain _ _ statement rest further ih =>
    obtain ⟨items, later⟩ := ih (offset + statement.encode.length)
    simp [Code.unroll, later]
  | @loop _ _ count counted body rest inner further ih ih' =>
    obtain ⟨round, first⟩ := ih (offset + 2)
    obtain ⟨items, later⟩ := ih' (offset + 2 + body.size + 1)
    simp [Code.unroll, first, later]
  | call known inner further ih ih' =>
    obtain ⟨place, found⟩ := labelled _ _ known
    obtain ⟨body, first⟩ := ih place
    obtain ⟨items, later⟩ := ih' (offset + 3)
    simp [Code.unroll, enter_succ, known, found, first, later]

end Program

namespace Code

/-- The code in a file that has the labels at their offsets. -/
def encode (labels : List (String × Nat)) (code : Code) : List UInt8 :=
  code.statements.flatMap (Statement.encode (labels.lookup ·))

def Fits (code : Code) : Prop := ∀ statement ∈ code.statements, statement.Fits

@[simp] theorem length_encode (labels : List (String × Nat)) (code : Code) :
    (code.encode labels).length = code.size :=
  length_encodes ..

theorem isCode (code : Code) : ∀ statement ∈ code.statements, statement.IsCode := by
  induction code with
  | done => simp [statements]
  | plain statement rest ih => simpa [statements, Statement.IsCode] using ih
  | loop count counted body rest ih ih' =>
    intro statement member
    simp only [statements, List.mem_cons, List.mem_append] at member
    rcases member with rfl | member | rfl | member
    · trivial
    · exact ih _ member
    · trivial
    · exact ih' _ member
  | call name rest ih => simpa [statements, Statement.IsCode] using ih

/-- Only subroutines have labels. -/
theorem along_labels (code : Code) (position : Nat) :
    along Statement.labels position code.statements = [] := by
  induction code generalizing position with
  | done => rfl
  | plain statement rest ih => exact ih _
  | loop count counted body rest ih ih' =>
    simp [statements, along, along_append, Statement.labels, ih, ih']
  | call name rest ih => exact ih _

end Code

namespace Program

/-- The bytes before the code. -/
def opening (program : Program) : List UInt8 :=
  ident ++ [version, if program.tickSync then 1 else 0] ++
    shortBytes program.ticksPerQuarter ++ shortBytes program.tempo ++ [1, program.channel, 14, 0]

/-- A file holds the code of the program. -/
structure StandsIn (program : Program) (file : Assembled) : Prop where
  opening : Source.Holds file.bytes 0 program.opening
  main : Source.Holds file.bytes start (program.main.encode file.labels ++ [Opcode.trackEnd])
  fits : program.main.Fits
  subroutines : ∀ name code, program.subroutines.lookup name = some code →
    code.Fits ∧ ∃ offset, file.labels.lookup name = some offset ∧ offset < 65536 ∧
      Source.Holds file.bytes offset (code.encode file.labels ++ [Opcode.ret])

variable {program : Program} {file : Assembled}

theorem body_isCode (program : Program) : ∀ statement ∈ program.body, statement.IsCode := by
  intro statement member
  simp only [body, subroutine, List.mem_append, List.mem_cons, List.mem_flatMap] at member
  rcases member with member | rfl | ⟨routine, _, rfl | member | rfl | absurd⟩
  · exact program.main.isCode _ member
  · trivial
  · trivial
  · exact routine.2.isCode _ member
  · trivial
  · cases absurd

theorem encode_subroutine (address : String → Option Nat) (routine : String × Code) :
    (subroutine routine).flatMap (Statement.encode address) =
      routine.2.statements.flatMap (Statement.encode address) ++ [Opcode.ret] := by
  simp [subroutine, Statement.encode, Statement.draft]

theorem labels_subroutine (position : Nat) (routine : String × Code) :
    along Statement.labels position (subroutine routine) = [(routine.1, position)] := by
  simp [subroutine, along, along_append, Code.along_labels, Statement.labels]

/-- A subroutine stands at its label. -/
theorem subroutine_stands {source : Source} {address : String → Option Nat}
    {subroutines : List (String × Code)} {position : Nat} {name : String} {code : Code}
    (holds : source.Holds (start + position)
      ((subroutines.flatMap subroutine).flatMap (Statement.encode address)))
    (known : subroutines.lookup name = some code) :
    ∃ place, (along Statement.labels position (subroutines.flatMap subroutine)).lookup name =
        some place ∧
      source.Holds (start + place)
        (code.statements.flatMap (Statement.encode address) ++ [Opcode.ret]) := by
  induction subroutines generalizing position with
  | nil => cases known
  | cons routine rest ih =>
    rw [List.flatMap_cons, List.flatMap_append, Source.holds_append, length_encodes] at holds
    rw [List.flatMap_cons, along_append, labels_subroutine, List.singleton_append,
      List.lookup_cons]
    rw [List.lookup_cons] at known
    split at known
    · cases known
      refine ⟨_, rfl, ?_⟩
      rw [← encode_subroutine]
      exact holds.1
    · rw [Nat.add_assoc] at holds
      exact ih holds.2 known

theorem fits_of_body (fits : ∀ statement ∈ program.body, statement.Fits) :
    program.main.Fits ∧ ∀ name code, program.subroutines.lookup name = some code → code.Fits := by
  constructor
  · intro statement member
    exact fits statement (List.mem_append_left _ member)
  · intro name code known statement member
    have routine : (name, code) ∈ program.subroutines := by
      obtain ⟨before, after, all, _⟩ := List.lookup_eq_some_iff.mp known
      rw [all]
      exact List.mem_append_right _ List.mem_cons_self
    refine fits statement (List.mem_append_right _ (List.mem_cons_of_mem _ ?_))
    refine List.mem_flatMap.mpr ⟨_, routine, ?_⟩
    exact List.mem_cons_of_mem _ (List.mem_append_left _ member)

theorem standsIn_of_assemble (assembled : assemble program.statements = .ok file) :
    program.StandsIn file := by
  let opened : Assembly :=
    { tickSync := program.tickSync
      ticksPerQuarter := program.ticksPerQuarter
      tempo := program.tempo
      tracks := #[⟨program.channel, #[]⟩] }
  have ends : opened.EndsWith [] ⟨program.channel, #[]⟩ := rfl
  have assembled : opened.readAll program.body >>= Assembly.build = .ok file := assembled
  obtain ⟨next, read, built⟩ :=
    built_of_readAll (show opened.code = [] from rfl) rfl rfl assembled
  have tracks := ends.readAll_tracks read
  rw [split_of_isCode program.body_isCode] at tracks
  have one : next.tracks.size = 1 := by
    rw [← Array.length_toList, tracks]
    rfl
  have preamble : next.preamble = program.opening := by
    have settings := Assembly.readAll_settings program.body_isCode read
    simp only [Assembly.settings, Prod.mk.injEq] at settings
    obtain ⟨tickSync, ticksPerQuarter, tempo⟩ := settings
    simp [Assembly.preamble, Assembly.headerBytes, Assembly.tableBytes, tracks, next.base_zero, one,
      tickSync, ticksPerQuarter, tempo, opened, Program.opening, headerSize, pointerSize,
      toLittleEndian]
  have all := built.holds
  rw [preamble] at all
  obtain ⟨opening, code⟩ := Source.holds_append.mp all
  obtain ⟨mainFits, fits⟩ := fits_of_body built.fits
  rw [body, List.flatMap_append, List.flatMap_cons, ← List.append_assoc,
    Source.holds_append] at code
  obtain ⟨main, rest⟩ := code
  refine ⟨opening, main, mainFits, ?_⟩
  intro name routine known
  have only : along Statement.labels 0 program.body = along Statement.labels
      (program.main.size + 1) (program.subroutines.flatMap subroutine) := by
    simp [body, along_append, along, Code.along_labels, Statement.labels, Statement.draft,
      Code.size]
  have place : 0 + program.opening.length + (program.main.statements.flatMap
      (Statement.encode (file.labels.lookup ·)) ++ Statement.trackEnd.encode
        (file.labels.lookup ·)).length = start + (program.main.size + 1) := by
    rw [List.length_append, length_encodes]
    rfl
  rw [place] at rest
  obtain ⟨place, found, holds⟩ := subroutine_stands rest known
  have small := built.small
  refine ⟨fits name routine known, start + place, ?_, ?_, holds⟩
  · rw [built.labels, lookup_map_snd, only, found, next.base_zero, one]
    rfl
  · have size := holds.size_le
    rw [List.length_append, List.length_singleton] at size
    omega

end Program
end Sequencer.RefSeq
