import Sequencer.Proofs.Histories
import Sequencer.Proofs.StructuredPass
import Sequencer.Proofs.Text.Utf8

/-! Programs that run straight to the end of their track. The listing pass over the file of such a
program lists the statements that the file was assembled from, in their order and with their
operands: decoding undoes assembling. -/
namespace Sequencer

namespace RefSeq

/-- The statement is one for the header. -/
def Statement.IsSetting : Statement → Prop
  | .ticksPerQuarter _ | .headerTempo _ | .tickSync _ => True
  | _ => False

/-- Settings for the header, then the plain statements of one track. The track is on channel 0 if
it is not begun. -/
structure Straight where
  settings : List Statement
  isSetting : ∀ statement ∈ settings, statement.IsSetting
  channel : Option UInt8
  plains : List Plain

def Code.straight : List Plain → Code
  | [] => .done
  | statement :: rest => .plain statement (straight rest)

/-- What a setting makes of the header. -/
def Assembly.set (assembly : Assembly) : Statement → Assembly
  | .ticksPerQuarter ticks => { assembly with ticksPerQuarter := ticks }
  | .headerTempo bpm => { assembly with tempo := bpm }
  | .tickSync on => { assembly with tickSync := on }
  | _ => assembly

namespace Straight

def statements (straight : Straight) : List Statement :=
  straight.settings ++ (straight.channel.map Statement.track).toList ++
    straight.plains.map .plain ++ [.trackEnd]

/-- The header with all settings. -/
def header (straight : Straight) : Assembly := straight.settings.foldl Assembly.set {}

def program (straight : Straight) : Program where
  ticksPerQuarter := straight.header.ticksPerQuarter
  tempo := straight.header.tempo
  tickSync := straight.header.tickSync
  channel := straight.channel.getD 0
  main := .straight straight.plains

end Straight

/-- The kind of event that a statement is listed as, in an octave of its track. A cut is not
listed. -/
def Plain.kind? (ticksPerQuarter : UInt16) (octave : UInt8) : Plain → Option EventKind
  | .rest ticks => some (.rest ticks.toNat)
  | .hold ticks => some (.hold ticks.toNat)
  | .noteOn key velocity => some (.noteOn key velocity)
  | .noteOff key => some (.noteOff key)
  | .note key velocity duration => some (.note key velocity duration.toNat)
  | .octaveNote semitone velocity duration =>
    some (.note (clampKey ((octave.toNat + 1) * 12 + semitone.toNat)) velocity duration.toNat)
  | .octave number => some (.octave number)
  | .keyCorrection semitones => some (.keyCorrection semitones)
  | .drum key => some (.drum key)
  | .cut => none
  | .level dial value => some (.level dial value)
  | .slide dial duration target => some (.slide dial target duration.toNat)
  | .masterLevel value => some (.masterLevel value)
  | .masterSlide duration target => some (.masterSlide target duration.toNat)
  | .program number => some (.program number)
  | .bank number => some (.bank number)
  | .pitchBend bend => some (.pitchBend bend)
  | .transpose scope semitones => some (.transpose scope semitones)
  | .controller number value => some (.controller number value)
  | .bendRange semitones => some (.bendRange semitones 0)
  | .sustain on => some (.sustain on)
  | .tempo bpm => some (.tempo (Float.ofNat bpm.toNat))
  | .tempoSlide duration bpm => some (.tempoSlide (Float.ofNat bpm.toNat) duration.toNat)
  | .timeSignature numerator denominator =>
    some (.timeSignature numerator denominator ticksPerQuarter)
  | .marker text => some (.marker text)

def Plain.octaveAfter (octave : UInt8) : Plain → UInt8
  | .octave number => number
  | _ => octave

/-- The statement is listed as itself. The drum key 255 means that there is none. -/
def Plain.IsListed (statement : Plain) : Prop := statement ≠ .cut ∧ statement ≠ .drum (some 0xFF)

/-- The ticks and events of statements, the first of them at an offset, and of the track's end. -/
def listing (ticksPerQuarter : UInt16) : (octave : UInt8) → (offset tick : Nat) → List Plain →
    List (Nat × Option Event)
  | _, offset, tick, [] => [(tick, some ⟨.trackEnd, 0, offset, 1⟩)]
  | octave, offset, tick, statement :: rest =>
    (tick, (statement.kind? ticksPerQuarter octave).map fun kind =>
      ⟨kind, 0, offset, statement.encode.length⟩) ::
      listing ticksPerQuarter (statement.octaveAfter octave) (offset + statement.encode.length)
        (tick + statement.ticks) rest

theorem readAll_settings_eq {settings : List Statement} (assembly : Assembly)
    (isSetting : ∀ statement ∈ settings, statement.IsSetting) (rest : List Statement) :
    assembly.readAll (settings ++ rest) = (settings.foldl Assembly.set assembly).readAll rest := by
  induction settings generalizing assembly with
  | nil => rfl
  | cons statement settings ih =>
    have more := ih (assembly.set statement) fun statement member =>
      isSetting statement (List.mem_cons_of_mem _ member)
    have setting := isSetting statement List.mem_cons_self
    cases statement with
    | ticksPerQuarter | headerTempo | tickSync => exact more
    | _ => exact setting.elim

/-- Settings leave all but the header alone. -/
theorem header_eq (assembly : Assembly) (settings : List Statement) :
    settings.foldl Assembly.set assembly = { assembly with
      tickSync := (settings.foldl Assembly.set assembly).tickSync
      ticksPerQuarter := (settings.foldl Assembly.set assembly).ticksPerQuarter
      tempo := (settings.foldl Assembly.set assembly).tempo } := by
  induction settings generalizing assembly with
  | nil => rfl
  | cons statement settings ih =>
    rw [List.foldl_cons, ih]
    cases statement <;> rfl

/-- Code before the first track is that of a track on channel 0. -/
theorem readAll_begin {statement : Statement} (isCode : statement.IsCode) {assembly : Assembly}
    (none : assembly.tracks = #[]) (channel : Option UInt8) (rest : List Statement) :
    assembly.readAll ((channel.map Statement.track).toList ++ statement :: rest) =
      Assembly.readAll { assembly with tracks := #[{ channel := channel.getD 0 }] }
        (statement :: rest) := by
  cases channel with
  | some number =>
    have begun : assembly.tracks.push { channel := number } = #[{ channel := number }] := by
      simp [none]
    simp only [Option.map_some, Option.toList_some, List.singleton_append, Option.getD_some]
    rw [← begun]
    rfl
  | none =>
    have begun : assembly.withTrack = { assembly with tracks := #[{ channel := 0 }] } := by
      simp [Assembly.withTrack, none]
    change assembly.readAll (statement :: rest) = _
    rw [Option.getD_none, ← begun, Assembly.readAll, Assembly.readAll,
      Assembly.read_withTrack isCode]

namespace Code

theorem statements_straight (plains : List Plain) :
    (straight plains).statements = plains.map .plain := by
  induction plains with
  | nil => rfl
  | cons statement rest ih => simp [straight, statements, ih]

theorem size_straight (plains : List Plain) :
    (straight plains).size = (plains.flatMap Plain.encode).length := by
  rw [size, statements_straight, List.flatMap_map]
  rfl

end Code

namespace Straight

theorem body_program (straight : Straight) :
    straight.program.body = straight.plains.map .plain ++ [.trackEnd] := by
  simp [Program.body, program, Code.statements_straight]

/-- The file is that of a structured program, which sets all of the header and begins its track. -/
theorem assemble_eq (straight : Straight) :
    assemble straight.statements = assemble straight.program.statements := by
  obtain ⟨first, rest, isCode, body⟩ : ∃ first rest, Statement.IsCode first ∧
      straight.program.body = first :: rest := by
    rw [body_program]
    cases straight.plains with
    | nil => exact ⟨.trackEnd, [], trivial, rfl⟩
    | cons statement plains => exact ⟨.plain statement, _, trivial, rfl⟩
  have whole := header_eq {} straight.settings
  have unbegun : straight.header.tracks = #[] := congrArg Assembly.tracks whole
  have begun : straight.header.readAll ((straight.channel.map Statement.track).toList ++
      straight.program.body) = Assembly.readAll {} straight.program.statements := by
    rw [Program.statements, body, readAll_begin isCode unbegun]
    exact congrArg (fun header : Assembly => Assembly.readAll
      { header with tracks := #[{ channel := straight.channel.getD 0 }] } (first :: rest)) whole
  rw [assemble, assemble, ← begun, statements, List.append_assoc, List.append_assoc,
    readAll_settings_eq _ straight.isSetting, ← body_program]
  rfl

end Straight

/-- Plain statements one after another. -/
def Item.straight : (offset : Nat) → List Plain → List Item
  | _, [] => []
  | offset, statement :: rest =>
    ⟨offset, some statement⟩ :: Item.straight (offset + statement.encode.length) rest

/-- Plain statements and the end of their track. -/
def Item.toEnd (offset : Nat) (plains : List Plain) : List Item :=
  Item.straight offset plains ++ [⟨offset + (plains.flatMap Plain.encode).length, none⟩]

theorem Item.toEnd_cons (offset : Nat) (statement : Plain) (rest : List Plain) :
    Item.toEnd offset (statement :: rest) =
      ⟨offset, some statement⟩ :: Item.toEnd (offset + statement.encode.length) rest := by
  rw [toEnd, List.flatMap_cons, List.length_append, ← Nat.add_assoc]
  rfl

theorem unroll_straight (enter : (loops : Nat) → String → Option (List Item)) (loops offset : Nat)
    (plains : List Plain) :
    (Code.straight plains).unroll enter loops offset = some (Item.straight offset plains) := by
  induction plains generalizing offset with
  | nil => simp [Code.straight, Code.unroll, Item.straight]
  | cons statement rest ih => simp [Code.straight, Code.unroll, Item.straight, ih]

namespace Item

variable {source : Source} {ticksPerQuarter : UInt16}

theorem length_straight (offset : Nat) (plains : List Plain) :
    (straight offset plains).length = plains.length := by
  induction plains generalizing offset with
  | nil => rfl
  | cons statement rest ih => rw [straight, List.length_cons, ih, List.length_cons]

theorem statement_of_mem_toEnd {offset : Nat} {plains : List Plain} {item : Item}
    {statement : Plain} (member : item ∈ toEnd offset plains)
    (named : item.statement = some statement) : statement ∈ plains := by
  induction plains generalizing offset with
  | nil =>
    cases List.mem_singleton.mp member
    cases named
  | cons first rest ih =>
    rw [toEnd_cons] at member
    rcases List.mem_cons.mp member with rfl | member
    · cases named
      exact List.mem_cons_self
    · exact List.mem_cons_of_mem _ (ih member)

/-- Only instructions of three bytes take time, up to 65535 ticks. -/
theorem total_straight (offset : Nat) (plains : List Plain) :
    3 * total (straight offset plains) ≤ 65535 * (plains.flatMap Plain.encode).length := by
  induction plains generalizing offset with
  | nil => exact Nat.zero_le _
  | cons statement rest ih =>
    have each : 3 * statement.ticks ≤ 65535 * statement.encode.length := by
      cases statement with
      | rest ticks | hold ticks =>
        have bound := ticks.toNat_lt
        simp only [Plain.ticks, Plain.encode, shortBytes, toLittleEndian, List.length_cons,
          List.length_nil]
        omega
      | _ => simp [Plain.ticks]
    have rest := ih (offset + statement.encode.length)
    simp only [straight, total_cons, List.flatMap_cons, List.length_append, ticks,
      Option.elim_some]
    omega

/-- Where a statement other than a cut stands an event is recorded. -/
theorem isRecorded_of_names {item : Item} (names : item.Names source ticksPerQuarter)
    (listed : item.statement ≠ some .cut) : isRecorded source item.offset = true := by
  obtain ⟨instruction, stop, read, means⟩ := names
  obtain ⟨offset, statement⟩ := item
  simp only [isRecorded, read]
  cases statement with
  | none =>
    obtain ⟨kind, rfl, _⟩ := means
    rfl
  | some statement =>
    cases means
    cases statement with
    | cut => exact absurd rfl listed
    | _ => rfl

theorem isRecorded_of_mem_toEnd {offset : Nat} {plains : List Plain} {item : Item}
    (listed : ∀ statement ∈ plains, statement.IsListed)
    (names : ∀ item ∈ toEnd offset plains, item.Names source ticksPerQuarter)
    (member : item ∈ toEnd offset plains) : isRecorded source item.offset = true :=
  isRecorded_of_names (names item member) fun cut =>
    (listed _ (statement_of_mem_toEnd member cut)).1 rfl

theorem visitsOf_visits (items : List Item) : visitsOf (visits items) 0 = visits items := by
  refine visitsOf_own fun visit member => ?_
  obtain ⟨timed, _, rfl⟩ := List.mem_map.mp member
  rfl

theorem offset_visits (items : List Item) :
    (visits items).map Visit.offset = items.map Item.offset := by
  have offsets := congrArg (List.map Item.offset) (map_snd_timed 0 items)
  rw [List.map_map] at offsets
  rw [visits, List.map_map]
  exact offsets

theorem tags_visits {items : List Item}
    (recorded : ∀ item ∈ items, isRecorded source item.offset = true) :
    (visits items).filterMap (Visit.tag? source) =
      (timed 0 items).map fun (tick, item) => (tick, some ⟨0, item.offset⟩) := by
  rw [visits, List.filterMap_map, ← List.filterMap_eq_map]
  refine List.filterMap_congr fun timed member => ?_
  simp [Visit.tag?, recorded timed.2 (mem_of_mem_timed member), Visit.place]

end Item

section

variable {source : Source} {ticksPerQuarter : UInt16} {statement : Plain} {offset stop : Nat}

theorem Plain.recorded_instruction (listed : statement.IsListed) (track : Track) :
    (statement.instruction ticksPerQuarter).recorded? track =
      statement.kind? ticksPerQuarter track.octave := by
  cases statement with
  | drum key =>
    have other : key.getD 0xFF = 0xFF → key = none := by
      intro none
      cases key with
      | none => rfl
      | some key => exact absurd (congrArg (fun key => Plain.drum (some key)) none) listed.2
    simp only [instruction, Instruction.recorded?, Instruction.kind?, Plain.kind?]
    split
    · rename_i none
      rw [other none]
    · rfl
  | marker text =>
    simp only [instruction, Instruction.recorded?, Instruction.kind?, Plain.kind?,
      Text.Utf8.decode_encode]
  | cut => exact absurd rfl listed.1
  | _ => rfl

theorem eventAt_of_plain (listed : statement.IsListed)
    (read : instruction source offset = (.ok (statement.instruction ticksPerQuarter), stop))
    (octave : UInt8) : eventAt? source ⟨0, offset⟩ octave =
      (statement.kind? ticksPerQuarter octave).map fun kind => ⟨kind, 0, offset, stop - offset⟩ := by
  simp only [eventAt?, read, Plain.recorded_instruction listed]

theorem octaveAfter_of_plain
    (read : instruction source offset = (.ok (statement.instruction ticksPerQuarter), stop))
    (octave : UInt8) : octaveAfter source offset octave = statement.octaveAfter octave := by
  simp only [octaveAfter, kindAt?, read]
  cases statement <;> rfl

end

end RefSeq

theorem Event.Charted.eventAt {source : Source} {start : Position} {event : Event} {depth : Nat}
    {before after : List Nat} (charted : event.Charted source start)
    (leads : start.Leads source depth (before ++ event.offset :: after))
    (new : event.offset ∉ before) :
    RefSeq.eventAt? source event.place (RefSeq.octaveOf source before) = some event := by
  obtain ⟨depth', offsets, leads', new', recorded⟩ := charted
  rw [List.append_cons] at leads
  cases leads.prefix.first_unique new leads' new'
  exact recorded

theorem Shared.lines_places (shared : Shared) :
    (shared.lines.map fun line => (line.start, line.event.map Event.place)) = shared.tags := by
  rw [lines, tags, Timeline.skeleton, List.map_map, List.map_map]
  rfl

namespace RefSeq

/-- The lines of charted events that stand where the statements are decoded. -/
structure Lists (source : Source) (start : Position) (lines : List Line) (tick : Nat)
    (items : List Item) : Prop where
  charted : ∀ line ∈ lines, ∀ event, line.event = some event → event.Charted source start
  placed : (lines.map fun line => (line.start, line.event.map Event.place)) =
    (Item.timed tick items).map fun (tick, item) => (tick, some ⟨0, item.offset⟩)

variable {source : Source} {start : Position} {ticksPerQuarter : UInt16} {depth offset tick : Nat}
  {lines : List Line} {before : List Nat} {item : Item} {items : List Item}

/-- The first line is that of the event which is found where the first item stands. -/
theorem Lists.first (lists : Lists source start lines tick (item :: items))
    (leads : start.Leads source depth (before ++ item.offset :: items.map Item.offset))
    (new : item.offset ∉ before) : ∃ line rest, lines = line :: rest ∧ line.start = tick ∧
      line.event = eventAt? source ⟨0, item.offset⟩ (octaveOf source before) ∧
      Lists source start rest (tick + item.ticks) items := by
  obtain ⟨charted, placed⟩ := lists
  obtain ⟨line, rest, rfl, first, others⟩ := List.map_eq_cons_iff.mp placed
  obtain ⟨starts, place⟩ := Prod.mk.inj first
  obtain ⟨event, found, there⟩ := Option.map_eq_some_iff.mp place
  refine ⟨line, rest, rfl, starts, ?_, ?_, others⟩
  · have here : event.offset = item.offset := congrArg Place.offset there
    have recorded := (charted line List.mem_cons_self event found).eventAt
      (here ▸ leads) (here ▸ new)
    rw [found, ← recorded, there]
  · exact fun line member => charted line (List.mem_cons_of_mem _ member)

theorem Lists.eq_listing {octave : UInt8} {plains : List Plain}
    (lists : Lists source start lines tick (Item.toEnd offset plains))
    (leads : start.Leads source depth (before ++ (Item.toEnd offset plains).map Item.offset))
    (earlier : ∀ place ∈ before, place < offset) (inOctave : octaveOf source before = octave)
    (metre : source.littleEndianAt 6 2 = .ok ticksPerQuarter.toNat)
    (holds : source.Holds offset (plains.flatMap Plain.encode ++ [Opcode.trackEnd]))
    (fits : ∀ statement ∈ plains, statement.Fits)
    (listed : ∀ statement ∈ plains, statement.IsListed) :
    (lines.map fun line => (line.start, line.event)) =
      listing ticksPerQuarter octave offset tick plains := by
  have new : offset ∉ before := fun member => Nat.lt_irrefl _ (earlier _ member)
  induction plains generalizing lines before octave offset tick with
  | nil =>
    have last : Lists source start lines tick [⟨offset, none⟩] := lists
    obtain ⟨line, rest, rfl, starts, event, none⟩ := last.first leads new
    have nothing : rest = [] := List.map_eq_nil_iff.mp none.placed
    have read := trackEnd_takes holds
    have recorded : eventAt? source ⟨0, offset⟩ (octaveOf source before) =
        some ⟨.trackEnd, 0, offset, 1⟩ := by
      simp [eventAt?, read, Instruction.recorded?, Instruction.kind?]
    rw [nothing, List.map_singleton, starts, event]
    exact congrArg (fun event => [(tick, event)]) recorded
  | cons statement rest ih =>
    rw [List.flatMap_cons, List.append_assoc, Source.holds_append] at holds
    rw [Item.toEnd_cons] at lists leads
    obtain ⟨line, others, rfl, starts, event, further⟩ := lists.first leads new
    have known := listed statement List.mem_cons_self
    have read := statement.instruction_takes (fits statement List.mem_cons_self) metre holds.1
    have recorded := eventAt_of_plain known read (octaveOf source before)
    have moves : offset < offset + statement.encode.length := by
      have more : 0 < statement.encode.length := by
        cases statement with
        | slide dial => cases dial <;> exact Nat.succ_pos _
        | transpose scope => cases scope <;> exact Nat.succ_pos _
        | _ => exact Nat.succ_pos _
      omega
    have behind : ∀ place ∈ before ++ [offset], place < offset + statement.encode.length := by
      intro place member
      rcases List.mem_append.mp member with member | member
      · exact Nat.lt_trans (earlier place member) moves
      · rwa [List.mem_singleton.mp member]
    have octave' : octaveOf source (before ++ [offset]) = statement.octaveAfter octave := by
      rw [octaveOf_append, inOctave]
      exact octaveAfter_of_plain read octave
    rw [Nat.add_sub_cancel_left, inOctave] at recorded
    rw [List.map_cons, listing, starts, event, inOctave]
    refine congrArg₂ List.cons (congrArg (Prod.mk tick) recorded) ?_
    refine ih further ?_ behind octave' holds.2 ?_ ?_ ?_
    · rw [List.append_assoc]
      exact leads
    · exact fun statement member => fits statement (List.mem_cons_of_mem _ member)
    · exact fun statement member => listed statement (List.mem_cons_of_mem _ member)
    · exact fun member => Nat.lt_irrefl _ (behind _ member)

namespace Straight

variable {straight : Straight} {file : Assembled}

/-- The code is behind the header, and the clock does not stop in it. -/
theorem holds_of_assemble (assembled : assemble straight.statements = .ok file) :
    straight.program.StandsIn file ∧
      Source.Holds file.bytes Program.start
        (straight.plains.flatMap Plain.encode ++ [Opcode.trackEnd]) ∧
      Item.total (Item.toEnd Program.start straight.plains) ≤ Tick.last := by
  obtain ⟨next, _, built⟩ := built_of_readAll rfl rfl rfl assembled
  have small := built.small
  have stands := Program.standsIn_of_assemble (straight.assemble_eq ▸ assembled)
  have code : straight.program.main.encode file.labels =
      straight.plains.flatMap Plain.encode := by
    rw [Code.encode, program, Code.statements_straight, List.flatMap_map]
    rfl
  have main := stands.main
  rw [code] at main
  refine ⟨stands, main, ?_⟩
  have size := main.size_le
  have total := Item.total_straight Program.start straight.plains
  rw [List.length_append] at size
  rw [Item.toEnd, Item.total_append, Item.total_singleton, Tick.last]
  have still : Item.ticks ⟨Program.start + (straight.plains.flatMap Plain.encode).length, none⟩ =
      0 := rfl
  omega

theorem unroll_program (straight : Straight) (labels : List (String × Nat)) (depth : Nat) :
    straight.program.unroll labels depth = some (Item.toEnd Program.start straight.plains) := by
  simp [Program.unroll, program, unroll_straight, Item.toEnd, Code.size_straight]

end Straight

namespace Straight

variable {straight : Straight} {file : Assembled} {channel : UInt8}
  {opened sequence : Sequence Unit} {stage : Stage (Unit × List Visit)} {transposes : Transposes}

/-- The pass decodes the statements, one after another, and nothing else. -/
theorem decodes (stands : straight.program.StandsIn file)
    (clock : Item.total (Item.toEnd Program.start straight.plains) ≤ Tick.last)
    (single : opened.tracks = [Track.starting 0 Program.start channel])
    (descends : sequence.Descends file.bytes opened)
    (budget : straight.plains.length < sequence.options.maxSteps)
    (passes : sequence.Passes .listing 0 stage transposes) :
    stage.memory.2 = Item.visits (Item.toEnd Program.start straight.plains) := by
  have origins : sequence.tracks.map Sequence.origin =
      [(0, Program.start, channel &&& 0x0F)] := by
    rw [descends.origins, single]
    rfl
  have steps : (Item.toEnd Program.start straight.plains).length ≤ sequence.options.maxSteps := by
    rw [Item.toEnd, List.length_append, Item.length_straight]
    exact budget
  have performs :=
    stands.performs (straight.unroll_program file.labels sequence.options.maxDepth) clock
  exact (passes.decodes descends.toIntact origins performs steps clock).1

/-- The lines name the places that are visited, and the store has the event of each first visit. -/
theorem lists_of_passes (stands : straight.program.StandsIn file)
    (clock : Item.total (Item.toEnd Program.start straight.plains) ≤ Tick.last)
    (listed : ∀ statement ∈ straight.plains, statement.IsListed)
    (single : opened.tracks = [Track.starting 0 Program.start channel])
    (descends : sequence.Descends file.bytes opened)
    (visits : stage.memory.2 = Item.visits (Item.toEnd Program.start straight.plains))
    (passes : sequence.Passes .listing 0 stage transposes)
    (charted : stage.shared.arena.Charted file.bytes opened.tracks) :
    Lists file.bytes ⟨⟨Program.start, [], []⟩, 0⟩ stage.shared.lines 0
      (Item.toEnd Program.start straight.plains) := by
  constructor
  · intro line member event found
    obtain ⟨entry, _, rfl⟩ := List.mem_map.mp member
    obtain ⟨owner, known, _, first⟩ := charted entry.event event found
    rw [single] at known
    cases List.mem_singleton.mp known
    exact first
  · have performs :=
      stands.performs (straight.unroll_program file.labels sequence.options.maxDepth) clock
    have journal := passes.played.ensemble.journal
    have reads : (sequence.setting .listing).source = file.bytes := descends.reads
    rw [visits, reads] at journal
    rw [Shared.lines_places, journal]
    exact Item.tags_visits fun item => Item.isRecorded_of_mem_toEnd listed performs.names

theorem lines_of_passes (assembled : assemble straight.statements = .ok file)
    (listed : ∀ statement ∈ straight.plains, statement.IsListed)
    (single : opened.tracks = [Track.starting 0 Program.start channel])
    (descends : sequence.Descends file.bytes opened)
    (budget : straight.plains.length < sequence.options.maxSteps)
    (passes : sequence.Passes .listing 0 stage transposes)
    (charted : stage.shared.arena.Charted file.bytes opened.tracks) :
    (stage.shared.lines.map fun line => (line.start, line.event)) =
      listing straight.header.ticksPerQuarter 4 Program.start 0 straight.plains := by
  obtain ⟨stands, main, clock⟩ := holds_of_assemble assembled
  have visits := decodes stands clock single descends budget passes
  have lists := lists_of_passes stands clock listed single descends visits passes charted
  have fits : ∀ statement ∈ straight.plains, statement.Fits := by
    intro statement member
    refine stands.fits (.plain statement) ?_
    rw [program, Code.statements_straight]
    exact List.mem_map_of_mem member
  have track : Track.starting 0 Program.start channel ∈ opened.tracks := by
    rw [single]
    exact List.mem_singleton_self _
  obtain ⟨depth, leads⟩ := (descends.follows passes).leads _ track
  have only : visitsOf stage.memory.2 0 =
      Item.visits (Item.toEnd Program.start straight.plains) :=
    visits ▸ Item.visitsOf_visits _
  have fromStart : Position.Leads file.bytes depth ⟨⟨Program.start, [], []⟩, 0⟩
      ([] ++ (Item.toEnd Program.start straight.plains).map Item.offset) := by
    rw [← Item.offset_visits, ← only]
    exact leads
  exact lists.eq_listing fromStart (by simp) rfl stands.metre main fits listed

end Straight

/-- Decoding undoes assembling: after any history the listing pass has one line for each statement,
with its tick, its kind and operands and its place, and a last one for the end of the track. -/
theorem listing_of_assemble {straight : Straight} {file : Assembled}
    (assembled : assemble straight.statements = .ok file)
    (listed : ∀ statement ∈ straight.plains, statement.IsListed) : ∃ opened,
      Sequence.ofSource format () file.bytes = .ok opened ∧
      ∀ (history : List Sequence.Call) (options : Options) (bounded : options.maxSteps ≤ Tick.last),
        straight.plains.length < options.maxSteps → ∃ played,
          opened.calls (history ++ [.setOptions options bounded, .runPass .listing 0]) =
            .ok played ∧
          (played.stage.shared.lines.map fun line => (line.start, line.event)) =
            listing straight.header.ticksPerQuarter 4 Program.start 0 straight.plains := by
  obtain ⟨opened, accepted, _, single⟩ := (Straight.holds_of_assemble assembled).1.opened
  refine ⟨opened, accepted, fun history options bounded budget => ?_⟩
  obtain ⟨sequence, done, descends⟩ := (Sequence.descends_ofSource accepted).calls history
  have descends := descends.withOptions options bounded
  obtain ⟨stage, _, transposes, alike⟩ := descends.alone.passes .listing 0
  refine ⟨(sequence.withOptions options).conclude .listing stage.unlogged transposes, ?_, ?_⟩
  · rw [Sequence.calls_append, done]
    exact Except.bind_eq_ok.mpr ⟨_, rfl, Except.bind_eq_ok.mpr ⟨_, rfl,
      Except.bind_eq_ok.mpr ⟨_, alike.mine.run, rfl⟩⟩⟩
  · rw [Sequence.conclude_lines]
    exact Straight.lines_of_passes assembled listed single descends budget alike.mine alike.charted

/-- A note in the fifth octave, a rest, and a marker with a character of two bytes. -/
def lesson : Straight where
  settings := [.ticksPerQuarter 96, .tickSync true]
  isSetting := by simp [Statement.IsSetting]
  channel := some 3
  plains := [.octave 5, .octaveNote 2 100 24, .rest 24, .marker "é", .timeSignature 3 4]

theorem listing_of_assemble_lesson : ∃ file opened played,
    assemble lesson.statements = .ok file ∧
    (∀ statement ∈ lesson.plains, statement.IsListed) ∧
    Sequence.ofSource format () file.bytes = .ok opened ∧ ∃ bounded : 6 ≤ Tick.last,
    opened.calls ([.load] ++ [.setOptions { maxSteps := 6 } bounded, .runPass .listing 0]) =
      .ok played ∧
    (played.stage.shared.lines.map fun line => (line.start, line.event)) =
      [(0, some ⟨.octave 5, 0, 14, 2⟩), (0, some ⟨.note 74 100 24, 0, 16, 5⟩),
        (0, some ⟨.rest 24, 0, 21, 3⟩), (24, some ⟨.marker "é", 0, 24, 4⟩),
        (24, some ⟨.timeSignature 3 4 96, 0, 28, 3⟩), (24, some ⟨.trackEnd, 0, 31, 1⟩)] := by
  have assembled : assemble lesson.statements = .ok _ := rfl
  have listed : ∀ statement ∈ lesson.plains, statement.IsListed := by
    simp [lesson, Plain.IsListed]
  have bounded : 6 ≤ Tick.last := by decide
  obtain ⟨opened, accepted, all⟩ := listing_of_assemble assembled listed
  obtain ⟨played, run, lines⟩ := all [.load] { maxSteps := 6 } bounded (by decide)
  exact ⟨_, opened, played, assembled, listed, accepted, bounded, run, lines⟩

end RefSeq
end Sequencer
