import Sequencer.Proofs.Lists
import Sequencer.Proofs.RefSeq.Layout
import Sequencer.RefSeq.Decoder

/-! Files with any number of tracks. Each track of a program has a pointer to its code in the file,
and the operand of each branch is the offset of its label. -/
namespace Sequencer.RefSeq

/-- A track of a program with the statements up to the next one. -/
structure Part where
  channel : UInt8
  statements : List Statement

def Part.draft (part : Part) : List UInt8 := part.statements.flatMap Statement.draft

def Part.body (part : Part) : TrackBody := ⟨part.channel, part.draft.toArray⟩

/-- The statements before the first track is begun, and the tracks that are begun. -/
def split : List Statement → List Statement × List Part
  | [] => ([], [])
  | .track channel :: rest => ([], ⟨channel, (split rest).1⟩ :: (split rest).2)
  | statement :: rest => (statement :: (split rest).1, (split rest).2)

instance : DecidablePred Statement.IsCode
  | .ticksPerQuarter _ | .headerTempo _ | .tickSync _ | .track _ => .isFalse id
  | .label _ | .bytes _ | .plain _ | .trackEnd | .jump _ | .branch .. | .ret | .loopStart _
  | .loopEnd => .isTrue trivial

/-- The tracks with their statements. The first one is on channel 0 if its code begins before any
track is begun. -/
def tracksOf : List Statement → List Part
  | [] => []
  | .track channel :: rest => ⟨channel, (split rest).1⟩ :: (split rest).2
  | statement :: rest =>
    if statement.IsCode then ⟨0, statement :: (split rest).1⟩ :: (split rest).2 else tracksOf rest

theorem tracksOf_of_isCode {statement : Statement} (isCode : statement.IsCode)
    (rest : List Statement) : tracksOf (statement :: rest) =
      ⟨0, statement :: (split rest).1⟩ :: (split rest).2 := by
  cases statement with
  | ticksPerQuarter | headerTempo | tickSync | track => cases isCode
  | _ => rfl

theorem split_of_isCode {statements : List Statement}
    (isCode : ∀ statement ∈ statements, statement.IsCode) : split statements = (statements, []) := by
  induction statements with
  | nil => rfl
  | cons statement rest ih =>
    have rest := ih fun statement member => isCode statement (List.mem_cons_of_mem _ member)
    cases statement with
    | track => exact (isCode _ List.mem_cons_self).elim
    | _ => rw [split, rest]; simp

/-- The tracks have all of the program's code. -/
theorem flatMap_tracksOf (make : Statement → List UInt8)
    (setting : ∀ statement, ¬ statement.IsCode → make statement = []) (program : List Statement) :
    (tracksOf program).flatMap (fun part => part.statements.flatMap make) =
      program.flatMap make := by
  have parts (statements : List Statement) : (split statements).1.flatMap make ++
      (split statements).2.flatMap (fun part => part.statements.flatMap make) =
        statements.flatMap make := by
    induction statements with
    | nil => rfl
    | cons statement rest ih =>
      cases statement with
      | track channel => simp [split, setting (.track channel) id, ih]
      | _ => simp [split, ← ih]
  induction program with
  | nil => rfl
  | cons statement rest ih =>
    have drop (none : ¬ statement.IsCode) :
        rest.flatMap make = (statement :: rest).flatMap make := by
      rw [List.flatMap_cons, setting statement none, List.nil_append]
    cases statement with
    | ticksPerQuarter | headerTempo | tickSync => exact ih.trans (drop id)
    | track channel =>
      rw [← drop id, ← parts rest]
      rfl
    | label | bytes | plain | trackEnd | jump | branch | ret | loopStart | loopEnd =>
      rw [tracksOf_of_isCode (by trivial), List.flatMap_cons, List.flatMap_cons, List.flatMap_cons,
        ← parts rest, List.append_assoc]

namespace Assembly

variable {assembly next : Assembly} {closed : List TrackBody} {last : TrackBody}
  {statements : List Statement}

/-- Further statements go to the last track, and to those that are begun. -/
theorem EndsWith.readAll_tracks (ends : assembly.EndsWith closed last)
    (done : assembly.readAll statements = .ok next) :
    next.tracks.toList = closed ++ { last with
      code := last.code ++ (split statements).1.flatMap Statement.draft } ::
        (split statements).2.map Part.body := by
  induction statements generalizing assembly closed last with
  | nil =>
    cases done
    simp [show next.tracks = _ from ends, split]
  | cons statement rest ih =>
    obtain ⟨middle, first, later⟩ := Except.bind_eq_ok.mp done
    cases statement with
    | ticksPerQuarter | headerTempo | tickSync =>
      have same : middle.tracks = assembly.tracks := by
        cases first
        rfl
      rw [ih (same.trans ends) later]
      simp [split, Statement.draft]
    | track channel =>
      cases first
      have begun : EndsWith { assembly with tracks := assembly.tracks.push { channel } }
          (closed ++ [last]) { channel } := by
        simp [EndsWith, show assembly.tracks = _ from ends]
      rw [ih begun later]
      simp [split, Part.body, Part.draft]
    | label | bytes | plain | trackEnd | jump | branch | ret | loopStart | loopEnd =>
      have ends' : assembly.withTrack.EndsWith closed last := ends.withTrack.symm ▸ ends
      rw [ih (ends'.read (by trivial) first).grows later]
      simp [split, Array.appendList_assoc]

/-- The tracks of an assembly that begins without any. -/
theorem readAll_tracks (none : assembly.tracks = #[])
    (done : assembly.readAll statements = .ok next) :
    next.tracks.toList = (tracksOf statements).map Part.body := by
  induction statements generalizing assembly with
  | nil =>
    cases done
    rw [none]
    rfl
  | cons statement rest ih =>
    obtain ⟨middle, first, later⟩ := Except.bind_eq_ok.mp done
    cases statement with
    | ticksPerQuarter | headerTempo | tickSync =>
      have same : middle.tracks = assembly.tracks := by
        cases first
        rfl
      exact ih (same.trans none) later
    | track channel =>
      cases first
      have begun : EndsWith { assembly with tracks := assembly.tracks.push { channel } }
          [] { channel } := by
        simp [EndsWith, none]
      rw [begun.readAll_tracks later]
      simp [tracksOf, Part.body, Part.draft]
    | label | bytes | plain | trackEnd | jump | branch | ret | loopStart | loopEnd =>
      have ends : assembly.withTrack.EndsWith [] ⟨0, #[]⟩ := by
        simp [Assembly.withTrack, none, EndsWith]
      rw [(ends.read (by trivial) first).grows.readAll_tracks later,
        tracksOf_of_isCode (by trivial)]
      simp [Part.body, Part.draft]

end Assembly

/-- Where the code of all tracks begins in the file of a program. -/
def codeStart (program : List Statement) : Nat :=
  headerSize + (tracksOf program).length * pointerSize

/-- The offset in the file of a program behind some of its statements. -/
def offsetBehind (program before : List Statement) : Nat :=
  codeStart program + (before.flatMap Statement.draft).length

def trackStart (program : List Statement) (track : Nat) : Nat :=
  codeStart program + (((tracksOf program).take track).flatMap Part.draft).length

theorem pointersFrom_eq {source : Source} {offset : Nat} (table : List TrackPointer)
    (bound : ∀ entry ∈ table, entry.offset < 65536)
    (holds : source.Holds offset
      (table.flatMap fun entry => entry.channel :: toLittleEndian 2 entry.offset)) :
    pointersFrom source table.length offset = .ok table := by
  induction table generalizing offset with
  | nil => rfl
  | cons entry rest ih =>
    rw [List.flatMap_cons, Source.holds_append] at holds
    obtain ⟨here, there⟩ := holds
    have channel : source.byteAt offset = .ok entry.channel := here.byteAt
    have start := here.tail.littleEndianAt
    rw [littleEndian_toLittleEndian (bound entry List.mem_cons_self)] at start
    have later := ih (fun entry member => bound entry (List.mem_cons_of_mem _ member)) there
    have step : offset + (entry.channel :: toLittleEndian 2 entry.offset).length =
        offset + pointerSize := rfl
    rw [step] at later
    simp only [List.length_cons, pointersFrom, pointer, channel, start, later]
    rfl

namespace Built

variable {next : Assembly} {program : List Statement} {file : Assembled}

theorem holds (built : Built next program file) :
    Source.Holds file.bytes 0 (next.preamble ++
      program.flatMap (Statement.encode (file.labels.lookup ·))) := by
  refine ⟨Nat.zero_le _, List.prefix_iff_eq_append.mpr ?_⟩
  rw [List.drop_zero, built.bytes, List.drop_length, List.append_nil]

theorem header_table (built : Built next program file) :
    Source.Holds file.bytes 0 next.headerBytes ∧
      Source.Holds file.bytes headerSize next.tableBytes := by
  have preamble := (Source.holds_append.mp built.holds).1
  rw [Assembly.preamble, Source.holds_append] at preamble
  exact preamble

/-- The number of tracks has one byte. -/
theorem count (built : Built next program file) :
    Source.byteAt file.bytes 10 = .ok (UInt8.ofNat next.tracks.size) := by
  have header := built.header_table.1
  rw [Assembly.headerBytes, Source.holds_append] at header
  exact header.2.byteAt

theorem pointers (built : Built next program file) (few : next.tracks.size < 256)
    (bound : ∀ track < next.tracks.size, next.base track < 65536) :
    RefSeq.pointers file.bytes = .ok (next.tracks.toList.mapIdx fun track body =>
      ⟨next.base track, body.channel⟩) := by
  have table := built.header_table.2
  have size : (UInt8.ofNat next.tracks.size).toNat = next.tracks.size :=
    Nat.mod_eq_of_lt few
  have entries : next.tableBytes = (next.tracks.toList.mapIdx fun track body =>
      (⟨next.base track, body.channel⟩ : TrackPointer)).flatMap fun entry =>
        entry.channel :: toLittleEndian 2 entry.offset := by
    rw [Assembly.tableBytes, List.flatMap_def]
    refine congrArg List.flatten (List.ext_getElem? fun track => ?_)
    simp only [List.getElem?_map, List.getElem?_mapIdx, Option.map_map]
    rfl
  rw [entries] at table
  have read := pointersFrom_eq _ (fun entry member => ?_) table
  · simp only [RefSeq.pointers, built.count]
    rw [List.length_mapIdx, Array.length_toList] at read
    change pointersFrom file.bytes (UInt8.ofNat next.tracks.size).toNat headerSize = _
    rw [size]
    exact read
  · obtain ⟨track, inside, rfl⟩ := List.mem_mapIdx.mp member
    exact bound track (by simpa using inside)

end Built

theorem readAll_append (assembly : Assembly) (first second : List Statement) :
    assembly.readAll (first ++ second) = (do (← assembly.readAll first).readAll second) := by
  induction first generalizing assembly with
  | nil => rfl
  | cons statement rest ih =>
    simp only [List.cons_append, Assembly.readAll, ih, bind_assoc]

theorem mem_along_labels {statements : List Statement} {position place : Nat} {name : String}
    (member : (name, place) ∈ along Statement.labels position statements) :
    ∃ earlier later, statements = earlier ++ .label name :: later ∧
      place = position + (earlier.flatMap Statement.draft).length := by
  induction statements generalizing position with
  | nil => cases member
  | cons statement rest ih =>
    have further (member : (name, place) ∈
        along Statement.labels (position + statement.draft.length) rest) :
        ∃ earlier later, statement :: rest = earlier ++ .label name :: later ∧
          place = position + (earlier.flatMap Statement.draft).length := by
      obtain ⟨earlier, later, rfl, rfl⟩ := ih member
      refine ⟨statement :: earlier, later, rfl, ?_⟩
      rw [List.flatMap_cons, List.length_append, Nat.add_assoc]
    rcases List.mem_append.mp member with here | there
    · cases statement with
      | label other =>
        cases List.mem_singleton.mp here
        exact ⟨[], rest, rfl, rfl⟩
      | _ => cases here
    · exact further there

/-- A label is defined once. -/
theorem lookup_along {assembly next : Assembly} {before after : List Statement} {name : String}
    (empty : assembly.code = []) (unlabelled : assembly.labels = [])
    (whole : assembly.references = [])
    (done : assembly.readAll (before ++ .label name :: after) = .ok next) :
    (along Statement.labels 0 (before ++ .label name :: after)).lookup name =
      some (before.flatMap Statement.draft).length := by
  rw [readAll_append] at done
  obtain ⟨middle, first, done⟩ := Except.bind_eq_ok.mp done
  obtain ⟨last, defined, _⟩ := Except.bind_eq_ok.mp done
  have labelled := ((Assembly.placed_empty unlabelled whole).readAll first).labelled
  rw [Assembly.labelled, Assembly.labelled, unlabelled, empty] at labelled
  have new : (along Statement.labels 0 before).lookup name = none := by
    simp only [Assembly.read, Assembly.define, Assembly.labels_withTrack] at defined
    split at defined
    · cases defined
    · rename_i unknown
      have mapped := congrArg (List.lookup name) labelled
      rw [lookup_map_snd, unknown] at mapped
      exact mapped.symm
  rw [along_append, List.lookup_append, new, Nat.zero_add, along]
  simp [Statement.labels]

/-- A program stands in a file: its tracks at their pointers, and at each operand of a branch the
offset of its label. The table counts up to 255 tracks, and offsets have two bytes. -/
structure LaidOut (program : List Statement) (file : Assembled) : Prop where
  pointers : (tracksOf program).length < 256 →
    (∀ track < (tracksOf program).length, trackStart program track < 65536) →
    RefSeq.pointers file.bytes = .ok ((tracksOf program).mapIdx fun track part =>
      ⟨trackStart program track, part.channel⟩)
  code : ∀ track part, (tracksOf program)[track]? = some part →
    Source.Holds file.bytes (trackStart program track)
      (part.statements.flatMap (Statement.encode (file.labels.lookup ·)))
  labels : ∀ before name after, program = before ++ .label name :: after →
    file.labels.lookup name = some (offsetBehind program before)
  operands : ∀ before how name after, program = before ++ .branch how name :: after →
    ∃ earlier later, program = earlier ++ .label name :: later ∧
      (offsetBehind program earlier < 65536 →
        Source.littleEndianAt file.bytes (offsetBehind program before + 1) 2 =
          .ok (offsetBehind program earlier))

theorem encode_of_not_isCode (address : String → Option Nat) {statement : Statement}
    (setting : ¬ statement.IsCode) : statement.encode address = [] := by
  cases statement with
  | ticksPerQuarter | headerTempo | tickSync | track => rfl
  | _ => exact absurd trivial setting

section

variable {program before after : List Statement} {next : Assembly} {file : Assembled}

theorem size_tracks (read : Assembly.readAll {} program = .ok next) :
    next.tracks.size = (tracksOf program).length := by
  rw [← Array.length_toList, Assembly.readAll_tracks rfl read, List.length_map]

theorem base_zero_eq (read : Assembly.readAll {} program = .ok next) :
    next.base 0 = codeStart program := by
  rw [next.base_zero, size_tracks read, codeStart]

theorem base_eq_trackStart (read : Assembly.readAll {} program = .ok next) (track : Nat) :
    next.base track = trackStart program track := by
  rw [next.base_eq, ← next.base_zero, base_zero_eq read, Assembly.readAll_tracks rfl read,
    ← List.map_take, trackStart, codeOf, List.flatMap_map]
  rfl

namespace Built

theorem holds_code (built : Built next program file)
    (read : Assembly.readAll {} program = .ok next) :
    Source.Holds file.bytes (codeStart program)
      (program.flatMap (Statement.encode (file.labels.lookup ·))) := by
  have code := (Source.holds_append.mp built.holds).2
  rwa [next.length_preamble, Nat.zero_add, base_zero_eq read] at code

theorem holds_part (built : Built next program file)
    (read : Assembly.readAll {} program = .ok next) {track : Nat} {part : Part}
    (found : (tracksOf program)[track]? = some part) :
    Source.Holds file.bytes (trackStart program track)
      (part.statements.flatMap (Statement.encode (file.labels.lookup ·))) := by
  obtain ⟨inside, rfl⟩ := List.getElem?_eq_some_iff.mp found
  have code := built.holds_code read
  have parts := flatMap_tracksOf (Statement.encode (file.labels.lookup ·))
    (fun _ => encode_of_not_isCode _) program
  rw [← parts, ← List.take_append_drop track (tracksOf program), List.flatMap_append,
    Source.holds_append, List.drop_eq_getElem_cons inside, List.flatMap_cons,
    Source.holds_append] at code
  have length : (((tracksOf program).take track).flatMap fun part =>
      part.statements.flatMap (Statement.encode (file.labels.lookup ·))).length =
      (((tracksOf program).take track).flatMap Part.draft).length := by
    simp only [List.length_flatMap, Statement.length_encode, Part.draft]
  rw [length] at code
  exact code.2.1

theorem pointers_program (built : Built next program file)
    (read : Assembly.readAll {} program = .ok next) (few : (tracksOf program).length < 256)
    (bound : ∀ track < (tracksOf program).length, trackStart program track < 65536) :
    RefSeq.pointers file.bytes = .ok ((tracksOf program).mapIdx fun track part =>
      ⟨trackStart program track, part.channel⟩) := by
  have count := size_tracks read
  have table := built.pointers (count ▸ few) fun track inside =>
    base_eq_trackStart read track ▸ bound track (count ▸ inside)
  rw [table, Assembly.readAll_tracks rfl read]
  refine congrArg Except.ok (List.ext_getElem? fun track => ?_)
  simp only [List.getElem?_map, List.getElem?_mapIdx, Option.map_map, base_eq_trackStart read]
  rfl

theorem lookup_label (built : Built next program file)
    (read : Assembly.readAll {} program = .ok next) {name : String}
    (same : program = before ++ .label name :: after) :
    file.labels.lookup name = some (offsetBehind program before) := by
  rw [built.labels, lookup_map_snd, same, lookup_along rfl rfl rfl (same ▸ read), Option.map_some,
    ← same, base_zero_eq read]
  rfl

/-- The name of a branch is that of a label. -/
theorem exists_label (built : Built next program file) {how : Branch} {name : String}
    (same : program = before ++ .branch how name :: after) :
    ∃ earlier later, program = earlier ++ .label name :: later := by
  obtain ⟨target, found⟩ := built.known how name (same ▸ by simp)
  rw [built.labels, lookup_map_snd] at found
  obtain ⟨place, known, _⟩ := Option.map_eq_some_iff.mp found
  obtain ⟨first, second, all, _⟩ := List.lookup_eq_some_iff.mp known
  obtain ⟨earlier, later, split, _⟩ := mem_along_labels (by
    rw [all]
    exact List.mem_append_right _ List.mem_cons_self)
  exact ⟨earlier, later, split⟩

theorem operand (built : Built next program file)
    (read : Assembly.readAll {} program = .ok next) {how : Branch} {name : String} {target : Nat}
    (same : program = before ++ .branch how name :: after)
    (found : file.labels.lookup name = some target) (small : target < 65536) :
    Source.littleEndianAt file.bytes (offsetBehind program before + 1) 2 = .ok target := by
  have code := built.holds_code read
  rw [same, List.flatMap_append, Source.holds_append, ← same, length_encodes, List.flatMap_cons,
    Source.holds_append, Statement.encode, found, Option.getD_some] at code
  have reads := code.2.1.tail.littleEndianAt
  rwa [littleEndian_toLittleEndian small] at reads

end Built

end

theorem laidOut_of_assemble {program : List Statement} {file : Assembled}
    (assembled : assemble program = .ok file) : LaidOut program file := by
  obtain ⟨next, read, built⟩ := built_of_readAll rfl rfl rfl assembled
  refine ⟨built.pointers_program read, fun track part => built.holds_part read,
    fun before name after => built.lookup_label read, fun before how name after same => ?_⟩
  obtain ⟨earlier, later, split⟩ := built.exists_label same
  exact ⟨earlier, later, split, built.operand read same (built.lookup_label read split)⟩

/-- Two tracks. The first jumps into the second, which calls itself without end. -/
def crossing : List Statement :=
  [.track 3, .branch .jump "here", .track 9, .plain (.rest 4), .label "here", .branch .call "here",
    .trackEnd]

theorem laidOut_of_assemble_crossing : ∃ file, assemble crossing = .ok file ∧
    LaidOut crossing file ∧ RefSeq.pointers file.bytes = .ok [⟨17, 3⟩, ⟨20, 9⟩] ∧
    Source.littleEndianAt file.bytes 18 2 = .ok 23 ∧ file.labels = [("here", 23)] :=
  ⟨_, rfl, laidOut_of_assemble rfl, rfl, rfl, rfl⟩

def crowd : List Statement := List.replicate 256 (.track 0)

/-- With 256 tracks the byte that counts them is zero again. -/
theorem pointers_of_crowd : ∃ file, assemble crowd = .ok file ∧ (tracksOf crowd).length = 256 ∧
    RefSeq.pointers file.bytes = .ok [] := by
  have assembles : (assemble crowd).isOk = true := by decide +kernel
  have full : (tracksOf crowd).length = 256 := by decide +kernel
  cases assembled : assemble crowd with
  | error fault =>
    rw [assembled] at assembles
    cases assembles
  | ok file =>
    obtain ⟨next, read, built⟩ := built_of_readAll rfl rfl rfl assembled
    have size : next.tracks.size = 256 := by
      rw [← Array.length_toList, Assembly.readAll_tracks rfl read, List.length_map, full]
    have count := built.count
    rw [size] at count
    refine ⟨file, rfl, full, ?_⟩
    rw [RefSeq.pointers, count]
    rfl

end Sequencer.RefSeq
