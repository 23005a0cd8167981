import Sequencer.Proofs.Among.Rows
import Sequencer.Proofs.Passes
import Sequencer.Proofs.Structured

/-! A structured program plays as it is unrolled. In its free run each stretch of code leads to
its end with the instructions of its unrolling, each at the sum of the rests and holds before; the
length pass neither cuts nor stops that run. -/
namespace Sequencer

open RefSeq (Code Program Item)

namespace RefSeq.Program.StandsIn

variable {program : Program} {file : Assembled}

theorem metre (stands : program.StandsIn file) :
    Source.littleEndianAt file.bytes 6 2 = .ok program.ticksPerQuarter.toNat := by
  have opening := stands.opening
  simp only [Program.opening, Source.holds_append] at opening
  have holds := opening.1.1.2
  have read := holds.littleEndianAt
  rw [littleEndian_toLittleEndian program.ticksPerQuarter.toNat_lt] at read
  exact read

theorem header (stands : program.StandsIn file) :
    ∃ header, RefSeq.header file.bytes = .ok header := by
  have opening := stands.opening
  have size := opening.size_le
  simp only [Program.opening, Source.holds_append] at opening
  obtain ⟨⟨⟨⟨magic, flags⟩, _⟩, tempo⟩, _⟩ := opening
  have length : program.opening.length = 14 := rfl
  have long : ¬ file.bytes.size < headerSize := by
    rw [headerSize]
    omega
  have first : Source.stretch file.bytes 0 4 = .ok ident := magic.stretch
  have second : Source.byteAt file.bytes 4 = .ok version := flags.byteAt
  have third : Source.byteAt file.bytes 5 = .ok _ := flags.tail.byteAt
  have fourth : Source.littleEndianAt file.bytes 8 2 = .ok _ := tempo.littleEndianAt
  simp only [RefSeq.header, long, if_false, first, second, third, fourth, stands.metre]
  exact ⟨_, rfl⟩

theorem pointers (stands : program.StandsIn file) :
    RefSeq.pointers file.bytes = .ok [⟨Program.start, program.channel⟩] := by
  have opening := stands.opening
  simp only [Program.opening, Source.holds_append] at opening
  obtain ⟨_, table⟩ := opening
  have count : Source.byteAt file.bytes 10 = .ok 1 := table.byteAt
  have channel : Source.byteAt file.bytes headerSize = .ok program.channel := table.tail.byteAt
  have place : Source.littleEndianAt file.bytes (headerSize + 1) 2 = .ok 14 :=
    Source.Holds.littleEndianAt (n := 14) table.tail.tail
  simp only [RefSeq.pointers, count]
  change pointersFrom file.bytes 1 headerSize = _
  simp only [pointersFrom, pointer, channel, place]
  rfl

/-- The file is opened as a sequence with one track. -/
theorem opened (stands : program.StandsIn file) : ∃ sequence,
    Sequence.ofSource format () file.bytes = .ok sequence ∧ sequence.source = file.bytes ∧
    sequence.tracks = [Track.starting 0 Program.start program.channel] := by
  obtain ⟨header, read⟩ := stands.header
  have inside : Program.start < file.bytes.size := by
    have size := stands.main.size_le
    rw [List.length_append, List.length_singleton] at size
    omega
  refine ⟨{
    source := file.bytes, format, header
    options := {}
    stage := ⟨[Track.starting 0 Program.start program.channel], {}, ()⟩
    transposes := none
    length := 0
    midi := none
    lastPass := none }, ?_, rfl, rfl⟩
  refine Except.bind_eq_ok.mpr ⟨header, congrArg (Except.mapError _) read, ?_⟩
  refine Except.bind_eq_ok.mpr ⟨_, congrArg (Except.mapError _) stands.pointers, ?_⟩
  simp [Sequence.maxTracks, Sequence.firstOutside, inside, pure, Except.pure]

end RefSeq.Program.StandsIn

/-- What an instruction in the file is that an item names. -/
def RefSeq.Item.Means (ticksPerQuarter : UInt16) (item : Item) (instruction : Instruction) : Prop :=
  match item.statement with
  | some statement => instruction = statement.instruction ticksPerQuarter
  | none => ∃ kind, instruction = .event kind ∧ kind.isControlFlow = true

/-- The item names what is read in the file where it stands. -/
def RefSeq.Item.Names (source : Source) (ticksPerQuarter : UInt16) (item : Item) : Prop :=
  ∃ instruction stop, RefSeq.instruction source item.offset = (.ok instruction, stop) ∧
    item.Means ticksPerQuarter instruction

namespace Position

/-- A free run by the items from one position to another. The clock does not stop in it. -/
inductive Plays (source : Source) (depth : Nat) (ticksPerQuarter : UInt16) (start : Position) :
    List Item → Position → Prop
  | here : Plays source depth ticksPerQuarter start [] start
  | further {items : List Item} {item : Item} {position next : Position}
      (plays : Plays source depth ticksPerQuarter start items position)
      (stands : position.junction.destination = item.offset)
      (names : item.Names source ticksPerQuarter)
      (goes : position.next? source depth = some next)
      (clock : next.tick = position.tick + item.ticks) :
      Plays source depth ticksPerQuarter start (items ++ [item]) next

variable {source : Source} {depth : Nat} {ticksPerQuarter : UInt16} {start middle last : Position}
  {first second items : List Item}

theorem Plays.trans (plays : Plays source depth ticksPerQuarter start first middle)
    (onward : Plays source depth ticksPerQuarter middle second last) :
    Plays source depth ticksPerQuarter start (first ++ second) last := by
  induction onward with
  | here => rwa [List.append_nil]
  | further _ stands names goes clock ih =>
    rw [← List.append_assoc]
    exact ih.further stands names goes clock

theorem Plays.one {item : Item} {position next : Position}
    (stands : position.junction.destination = item.offset)
    (names : item.Names source ticksPerQuarter) (goes : position.next? source depth = some next)
    (clock : next.tick = position.tick + item.ticks) :
    Plays source depth ticksPerQuarter position [item] next :=
  Plays.here.further stands names goes clock

theorem Plays.tick (plays : Plays source depth ticksPerQuarter start items last) :
    last.tick = start.tick + Item.total items := by
  induction plays with
  | here => rfl
  | further _ _ _ _ clock ih =>
    rw [clock, ih, Item.total_append, Item.total_singleton, Nat.add_assoc]

theorem Plays.names (plays : Plays source depth ticksPerQuarter start items last) :
    ∀ item ∈ items, item.Names source ticksPerQuarter := by
  induction plays with
  | here => simp
  | further _ _ names _ _ ih =>
    intro item member
    rcases List.mem_append.mp member with member | member
    · exact ih item member
    · cases List.mem_singleton.mp member
      exact names

theorem Plays.after (plays : Plays source depth ticksPerQuarter start items last) :
    start.after source depth items.length = some last := by
  induction plays with
  | here => rfl
  | further _ _ _ goes _ ih =>
    rw [List.length_append, List.length_singleton, after_succ, ih]
    exact goes

theorem Plays.freeRun (plays : Plays source depth ticksPerQuarter start items last) :
    start.freeRun source depth items.length =
      (Item.timed start.tick items).map fun (tick, item) => (item.offset, tick) := by
  induction plays with
  | here => rfl
  | further plays stands _ _ _ ih =>
    rw [List.length_append, List.length_singleton, freeRun_succ plays.after, ih,
      Item.timed_append, List.map_append, ← plays.tick]
    simp [Item.timed, visit, stands]

theorem tickAfter_of_names {item : Item} (names : item.Names source ticksPerQuarter) :
    RefSeq.tickAfter source item.offset 0 = min item.ticks Tick.last := by
  obtain ⟨instruction, stop, read, means⟩ := names
  obtain ⟨offset, statement⟩ := item
  simp only [RefSeq.tickAfter, read]
  cases statement with
  | none =>
    obtain ⟨kind, rfl, directs⟩ := means
    exact Player.tickAfter_of_isControlFlow directs 0
  | some statement =>
    cases means
    cases statement <;> simp [RefSeq.Plain.instruction, EventKind.tickAfter, Item.ticks,
      RefSeq.Plain.ticks, Tick.later]

/-- The clock shows when the instructions are due. -/
theorem Plays.due (plays : Plays source depth ticksPerQuarter start items last)
    (within : last.tick ≤ Tick.last) : start.due source depth items.length = last.tick := by
  induction plays with
  | here => rfl
  | further plays stands names _ clock ih =>
    rw [List.length_append, List.length_singleton, due_succ plays.after, stands,
      tickAfter_of_names names, ih (by omega), clock]
    omega

theorem next_of_event {offset stop : Nat} {kind : EventKind}
    (read : RefSeq.instruction source offset = (.ok (.event kind), stop)) (outer : List Nat)
    (frames : List Frame) (tick : Nat) : next? source depth ⟨⟨offset, outer, frames⟩, tick⟩ =
      (Departure.ofTurn (kind.tickAfter tick)
        (Cursor.turn depth ⟨stop, 0, outer, frames⟩ kind)).next? := by
  simp only [next?, depart, read]
  rfl

theorem next_of_plain {offset tick stop : Nat} {outer : List Nat} {frames : List Frame}
    {statement : RefSeq.Plain} (read : RefSeq.instruction source offset =
      (.ok (statement.instruction ticksPerQuarter), stop))
    (bound : tick + statement.ticks ≤ Tick.last) :
    next? source depth ⟨⟨offset, outer, frames⟩, tick⟩ =
      some ⟨⟨stop, outer, frames⟩, tick + statement.ticks⟩ := by
  have exact (ticks : Nat) (bound : tick + ticks ≤ Tick.last) :
      Tick.later tick ticks = tick + ticks := Nat.min_eq_left bound
  cases statement with
  | rest ticks | hold ticks =>
    rw [next_of_event read, EventKind.tickAfter, exact ticks.toNat bound]
    rfl
  | octaveNote | cut =>
    simp only [next?, depart, read, RefSeq.Plain.instruction]
    rfl
  | _ =>
    rw [next_of_event read]
    rfl

/-- Wherever there is room for so many calls and loops, the track plays the items from one offset
to another and has then what was open before. -/
def Crosses (source : Source) (depth : Nat) (ticksPerQuarter : UInt16)
    (calls loops offset : Nat) (items : List Item) (stop : Nat) : Prop :=
  ∀ (outer : List Nat) (frames : List Frame) (tick : Nat), outer.length + calls ≤ depth →
    frames.length + loops ≤ depth → tick + Item.total items ≤ Tick.last →
    Plays source depth ticksPerQuarter ⟨⟨offset, outer, frames⟩, tick⟩ items
      ⟨⟨stop, outer, frames⟩, tick + Item.total items⟩

variable {calls loops offset stop target : Nat}

theorem crosses_nil : Crosses source depth ticksPerQuarter calls loops offset [] offset :=
  fun _ _ _ _ _ _ => .here

theorem Crosses.append
    (crosses : Crosses source depth ticksPerQuarter calls loops offset first target)
    (onward : Crosses source depth ticksPerQuarter calls loops target second stop) :
    Crosses source depth ticksPerQuarter calls loops offset (first ++ second) stop := by
  intro outer frames tick shallow nested bound
  rw [Item.total_append, ← Nat.add_assoc] at bound ⊢
  exact (crosses outer frames tick shallow nested (by omega)).trans
    (onward outer frames _ shallow nested bound)

theorem crosses_plain {statement : RefSeq.Plain} (fits : statement.Fits)
    (metre : Source.littleEndianAt source 6 2 = .ok ticksPerQuarter.toNat)
    (holds : source.Holds offset statement.encode) :
    Crosses source depth ticksPerQuarter calls loops offset [⟨offset, some statement⟩]
      (offset + statement.encode.length) := by
  intro outer frames tick _ _ bound
  rw [Item.total_singleton] at bound ⊢
  have read := RefSeq.Plain.instruction_takes fits metre holds
  exact .one rfl ⟨_, _, read, rfl⟩ (next_of_plain read bound) rfl

/-- All rounds of a loop, from the first instruction of its body on. -/
theorem rounds_play {start : Nat} {round : List Item} {outer : List Nat} {frames : List Frame}
    (body : Crosses source depth ticksPerQuarter calls loops start round stop)
    (holds : source.Holds stop [RefSeq.Opcode.loopEnd]) (shallow : outer.length + calls ≤ depth)
    (nested : frames.length + 1 + loops ≤ depth) (more tick : Nat)
    (bound : tick + Item.total (List.replicate (more + 1) (round ++ [⟨stop, none⟩])).flatten ≤
      Tick.last) :
    Plays source depth ticksPerQuarter ⟨⟨start, outer, ⟨start, more + 1⟩ :: frames⟩, tick⟩
      (List.replicate (more + 1) (round ++ [⟨stop, none⟩])).flatten
      ⟨⟨stop + 1, outer, frames⟩,
        tick + Item.total (List.replicate (more + 1) (round ++ [⟨stop, none⟩])).flatten⟩ := by
  have read := RefSeq.loopEnd_takes holds
  have names : Item.Names source ticksPerQuarter ⟨stop, none⟩ :=
    ⟨_, _, read, .loopEnd, rfl, rfl⟩
  induction more generalizing tick with
  | zero =>
    -- The last round leaves the loop.
    simp only [Nat.zero_add, List.replicate_one, List.flatten_singleton, Item.total_append,
      Item.total_singleton] at bound ⊢
    have played := body outer (⟨start, 1⟩ :: frames) tick shallow nested (by omega)
    exact played.further rfl names (next_of_event read outer _ _) rfl
  | succ more ih =>
    rw [List.replicate_succ, List.flatten_cons, Item.total_append] at bound ⊢
    rw [← Nat.add_assoc] at bound ⊢
    have shorter : Item.total (round ++ [⟨stop, none⟩]) = Item.total round := by
      rw [Item.total_append, Item.total_singleton]
      rfl
    rw [shorter] at bound ⊢
    have played := body outer (⟨start, more + 2⟩ :: frames) tick shallow nested (by omega)
    exact (played.further rfl names (next_of_event read outer _ _) rfl).trans (ih _ bound)

theorem crosses_loop {count : UInt8} {round : List Item} (counted : 0 < count)
    (opening : source.Holds offset [RefSeq.Opcode.loopStart, count])
    (body : Crosses source depth ticksPerQuarter calls loops (offset + 2) round stop)
    (closing : source.Holds stop [RefSeq.Opcode.loopEnd]) :
    Crosses source depth ticksPerQuarter calls (loops + 1) offset (⟨offset, none⟩ ::
      (List.replicate count.toNat (round ++ [⟨stop, none⟩])).flatten) (stop + 1) := by
  intro outer frames tick shallow nested bound
  have read := RefSeq.loopStart_takes opening
  have names : Item.Names source ticksPerQuarter ⟨offset, none⟩ :=
    ⟨_, _, read, .loopStart count.toNat, rfl, rfl⟩
  have room : ¬ frames.length ≥ depth := by omega
  have opens : next? source depth ⟨⟨offset, outer, frames⟩, tick⟩ =
      some ⟨⟨offset + 2, outer, ⟨offset + 2, count.toNat⟩ :: frames⟩, tick⟩ := by
    rw [next_of_event read, Cursor.turn, if_neg room]
    rfl
  rw [Item.total_cons, show Item.ticks ⟨offset, none⟩ = 0 from rfl, Nat.zero_add] at bound ⊢
  obtain ⟨more, rounds⟩ := Nat.exists_eq_succ_of_ne_zero (Nat.ne_of_gt (UInt8.lt_iff_toNat_lt.mp
    counted))
  rw [rounds] at opens bound ⊢
  exact (Plays.one rfl names opens rfl).trans
    (rounds_play body closing shallow (by omega) more tick bound)

theorem crosses_call {inner : List Item} {back : Nat} (bound : target < 65536)
    (holds : source.Holds offset (RefSeq.Opcode.call :: toLittleEndian 2 target))
    (body : Crosses source depth ticksPerQuarter calls loops target inner back)
    (closing : source.Holds back [RefSeq.Opcode.ret]) :
    Crosses source depth ticksPerQuarter (calls + 1) loops offset
      (⟨offset, none⟩ :: (inner ++ [⟨back, none⟩])) (offset + 3) := by
  intro outer frames tick shallow nested late
  have read := RefSeq.call_takes bound holds
  have returns := RefSeq.ret_takes closing
  have room : ¬ outer.length ≥ depth := by omega
  have enters : next? source depth ⟨⟨offset, outer, frames⟩, tick⟩ =
      some ⟨⟨target, (offset + 3) :: outer, frames⟩, tick⟩ := by
    rw [next_of_event read, Cursor.turn, if_neg room]
    rfl
  rw [Item.total_cons, Item.total_append, Item.total_singleton, Item.ticks, Item.ticks,
    Option.elim_none, Nat.zero_add, Nat.add_zero] at late ⊢
  have first : Plays source depth ticksPerQuarter ⟨⟨offset, outer, frames⟩, tick⟩
      [⟨offset, none⟩] ⟨⟨target, (offset + 3) :: outer, frames⟩, tick⟩ :=
    .one rfl ⟨_, _, read, _, rfl, rfl⟩ enters rfl
  have played := body ((offset + 3) :: outer) frames tick
    (by rw [List.length_cons]; omega) nested late
  exact (first.trans played).further rfl ⟨_, _, returns, _, rfl, rfl⟩
    (next_of_event returns _ _ _) rfl

end Position

namespace RefSeq

/-- The code stands at an offset of the file. -/
structure Code.StandsAt (file : Assembled) (offset : Nat) (code : Code) : Prop where
  fits : code.Fits
  holds : Source.Holds file.bytes offset (code.encode file.labels)

namespace Code.StandsAt

variable {file : Assembled} {offset : Nat} {statement : Plain} {count : UInt8}
  {counted : 0 < count} {name : String} {body rest : Code}

theorem plain (stands : (Code.plain statement rest).StandsAt file offset) : statement.Fits ∧
    Source.Holds file.bytes offset statement.encode ∧
    rest.StandsAt file (offset + statement.encode.length) := by
  obtain ⟨fits, holds⟩ := stands
  obtain ⟨here, there⟩ := Source.holds_append.mp holds
  refine ⟨fits _ List.mem_cons_self, here, ?_, there⟩
  exact fun statement member => fits statement (List.mem_cons_of_mem _ member)

theorem loop (stands : (Code.loop count counted body rest).StandsAt file offset) :
    Source.Holds file.bytes offset [Opcode.loopStart, count] ∧ body.StandsAt file (offset + 2) ∧
    Source.Holds file.bytes (offset + 2 + body.size) [Opcode.loopEnd] ∧
    rest.StandsAt file (offset + 2 + body.size + 1) := by
  obtain ⟨fits, holds⟩ := stands
  have parts : (Code.loop count counted body rest).encode file.labels =
      [Opcode.loopStart, count] ++ (body.encode file.labels ++
        ([Opcode.loopEnd] ++ rest.encode file.labels)) := by
    simp [encode, statements, Statement.encode, Statement.draft]
  rw [parts, Source.holds_append, Source.holds_append, Source.holds_append, length_encode] at holds
  obtain ⟨opening, inner, closing, further⟩ := holds
  refine ⟨opening, ⟨?_, inner⟩, closing, ?_, further⟩
  · intro statement member
    exact fits statement (List.mem_cons_of_mem _ (List.mem_append_left _ member))
  · intro statement member
    exact fits statement (List.mem_cons_of_mem _ (List.mem_append_right _
      (List.mem_cons_of_mem _ member)))

theorem call (stands : (Code.call name rest).StandsAt file offset) :
    Source.Holds file.bytes offset
      (Opcode.call :: toLittleEndian 2 ((file.labels.lookup name).getD 0)) ∧
    rest.StandsAt file (offset + 3) := by
  obtain ⟨fits, holds⟩ := stands
  obtain ⟨here, there⟩ := Source.holds_append.mp holds
  refine ⟨here, ?_, there⟩
  exact fun statement member => fits statement (List.mem_cons_of_mem _ member)

end Code.StandsAt

/-- The code plays as it is unrolled if the subroutines that it enters do. -/
theorem Code.crosses_of_unroll {file : Assembled} {depth calls : Nat} {ticksPerQuarter : UInt16}
    {enter : (loops : Nat) → String → Option (List Item)}
    (metre : Source.littleEndianAt file.bytes 6 2 = .ok ticksPerQuarter.toNat)
    (enters : ∀ (loops offset : Nat) (name : String) (inner : List Item),
      enter loops name = some inner → Source.Holds file.bytes offset
        (Opcode.call :: toLittleEndian 2 ((file.labels.lookup name).getD 0)) →
      Position.Crosses file.bytes depth ticksPerQuarter calls loops offset
        (⟨offset, none⟩ :: inner) (offset + 3))
    {code : Code} {loops offset : Nat} {items : List Item} (stands : code.StandsAt file offset)
    (unrolled : code.unroll enter loops offset = some items) :
    Position.Crosses file.bytes depth ticksPerQuarter calls loops offset items
      (offset + code.size) := by
  induction code generalizing loops offset items with
  | done =>
    cases unrolled
    exact Position.crosses_nil
  | plain statement rest ih =>
    obtain ⟨fits, holds, further⟩ := stands.plain
    obtain ⟨later, found, same⟩ := Option.bind_eq_some_iff.mp unrolled
    cases same
    have size : (Code.plain statement rest).size = statement.encode.length + rest.size := by
      simp [size, statements, Statement.draft]
    rw [size, ← Nat.add_assoc]
    exact (Position.crosses_plain fits metre holds).append (ih further found)
  | loop count counted body rest ih ih' =>
    obtain ⟨opening, inner, closing, further⟩ := stands.loop
    cases loops with
    | zero => cases unrolled
    | succ loops =>
      obtain ⟨round, first, unrolled⟩ := Option.bind_eq_some_iff.mp unrolled
      obtain ⟨later, found, same⟩ := Option.bind_eq_some_iff.mp unrolled
      cases same
      have size : (Code.loop count counted body rest).size = 2 + body.size + 1 + rest.size := by
        simp [size, statements, Statement.draft]
        omega
      have played := Position.crosses_loop counted opening (ih inner first) closing
      rw [size, ← Nat.add_assoc, ← Nat.add_assoc, ← Nat.add_assoc]
      exact played.append (ih' further found)
  | call name rest ih =>
    obtain ⟨holds, further⟩ := stands.call
    obtain ⟨inner, entered, unrolled⟩ := Option.bind_eq_some_iff.mp unrolled
    obtain ⟨later, found, same⟩ := Option.bind_eq_some_iff.mp unrolled
    cases same
    have size : (Code.call name rest).size = 3 + rest.size := by
      simp [size, statements, Statement.draft]
      omega
    rw [size, ← Nat.add_assoc]
    exact (enters loops offset name inner entered holds).append (ih further found)

namespace Program.StandsIn

variable {program : Program} {file : Assembled} {depth : Nat}

/-- A call plays as its subroutine is unrolled. -/
theorem enters (stands : program.StandsIn file) (calls loops offset : Nat) (name : String)
    (inner : List Item) (entered : program.enter file.labels calls loops name = some inner)
    (holds : Source.Holds file.bytes offset
      (Opcode.call :: toLittleEndian 2 ((file.labels.lookup name).getD 0))) :
    Position.Crosses file.bytes depth program.ticksPerQuarter calls loops offset
      (⟨offset, none⟩ :: inner) (offset + 3) := by
  induction calls generalizing loops offset name inner with
  | zero => cases entered
  | succ calls ih =>
    rw [enter_succ] at entered
    obtain ⟨code, known, entered⟩ := Option.bind_eq_some_iff.mp entered
    obtain ⟨target, labelled, entered⟩ := Option.bind_eq_some_iff.mp entered
    obtain ⟨items, unrolled, same⟩ := Option.bind_eq_some_iff.mp entered
    cases same
    obtain ⟨fits, place, found, bound, stretch⟩ := stands.subroutines name code known
    cases labelled.symm.trans found
    rw [Source.holds_append, Code.length_encode] at stretch
    rw [labelled, Option.getD_some] at holds
    exact Position.crosses_call bound holds
      (Code.crosses_of_unroll stands.metre ih ⟨fits, stretch.1⟩ unrolled) stretch.2

end Program.StandsIn
end RefSeq

namespace Position

/-- A free run that decodes just the items and ends with the last of them. -/
structure Performs (source : Source) (depth : Nat) (ticksPerQuarter : UInt16) (start : Position)
    (items : List Item) : Prop where
  names : ∀ item ∈ items, item.Names source ticksPerQuarter
  freeRun : start.freeRun source depth items.length =
    (Item.timed start.tick items).map fun (tick, item) => (item.offset, tick)
  ends : ∃ count position, items.length = count + 1 ∧
    start.after source depth count = some position ∧ position.next? source depth = none ∧
    position.tick = start.tick + Item.total items ∧ start.due source depth count = position.tick

end Position

/-- The free run of a program is its unrolling. -/
theorem RefSeq.Program.StandsIn.performs {program : Program} {file : RefSeq.Assembled}
    {depth : Nat} {items : List Item} (stands : program.StandsIn file)
    (unrolled : program.unroll file.labels depth = some items)
    (bound : Item.total items ≤ Tick.last) :
    Position.Performs file.bytes depth program.ticksPerQuarter ⟨⟨Program.start, [], []⟩, 0⟩
      items := by
  obtain ⟨before, expanded, same⟩ := Option.bind_eq_some_iff.mp unrolled
  cases same
  have main := stands.main
  rw [Source.holds_append, Code.length_encode] at main
  rw [Item.total_append, Item.total_singleton, Item.ticks, Option.elim_none, Nat.add_zero] at bound
  have crosses : Position.Crosses file.bytes depth program.ticksPerQuarter depth depth start before
      (start + program.main.size) :=
    Code.crosses_of_unroll stands.metre (stands.enters depth) ⟨stands.fits, main.1⟩ expanded
  have plays := crosses [] [] 0 (Nat.le_of_eq (Nat.zero_add depth))
    (Nat.le_of_eq (Nat.zero_add depth)) (by omega)
  have read := RefSeq.trackEnd_takes main.2
  constructor
  · intro item member
    rcases List.mem_append.mp member with member | member
    · exact plays.names item member
    · cases List.mem_singleton.mp member
      exact ⟨_, _, read, _, rfl, rfl⟩
  · rw [List.length_append, List.length_singleton, Position.freeRun_succ plays.after,
      plays.freeRun, Item.timed_append, List.map_append]
    rfl
  · refine ⟨before.length, _, ?_, plays.after, Position.next_of_event read [] [] _, ?_, ?_⟩
    · rw [List.length_append, List.length_singleton]
    · rw [Item.total_append, Item.total_singleton]
      rfl
    · exact plays.due (by simpa using bound)

namespace Player

variable {rule : LoopRule} {together : Bool} {source : Source} {depth maxSteps : Nat}
  {ticksPerQuarter : UInt16} {start : Position} {items : List Item} {trips count total : Nat}

/-- Without a limit of time, and with a budget that is large enough, the run comes to its end. -/
theorem Ending.performs (ending : Ending ⟨maxSteps, 0⟩ rule together source depth start trips count
      total) (endless : 0 < trips → start.Endless source depth)
    (performs : start.Performs source depth ticksPerQuarter items)
    (budget : items.length ≤ maxSteps) (within : start.tick + Item.total items ≤ Tick.last) :
    trips = 0 ∧ count = items.length ∧ total = start.tick + Item.total items := by
  obtain ⟨last, position, length, reached, final, shows, due⟩ := performs.ends
  have uncounted : trips = 0 := by
    rcases Nat.eq_zero_or_pos trips with none | counted
    · exact none
    · exact absurd (endless counted) (Position.not_endless_of_final reached final)
  refine ⟨uncounted, ?_⟩
  cases ending with
  | finished found stops _ =>
    have before := Position.le_of_final reached final found
    have behind := Position.le_of_final found stops reached
    obtain rfl := Nat.le_antisymm behind before
    cases found.symm.trans reached
    exact ⟨length.symm, shows⟩
  | cut further within counted again stale => omega
  | stopped found within' why =>
    have before := Position.le_of_final reached final found
    rcases why with exhausted | ⟨limited, _⟩ | ⟨_, late⟩
    · dsimp only at exhausted
      omega
    · exact absurd rfl limited
    · have earlier : start.due source depth count ≤ start.due source depth last :=
        Position.due_mono before
      omega

end Player
end Sequencer
