import Sequencer.Proofs.Outcome
import Sequencer.Proofs.RefSeq.Encoding

/-! The layout of a file. Reading statements appends their code to that of the latest track, with
holes where the offsets of labels belong. The build puts the codes of the tracks one after another
and fills the holes in the order of the statements. -/
namespace Sequencer.RefSeq

/-- The code of a statement before the offsets of labels are filled in. -/
def Statement.draft : Statement → List UInt8
  | .bytes code => code
  | .plain statement => statement.encode
  | .trackEnd => [Opcode.trackEnd]
  | .jump destination => Opcode.jump :: shortBytes destination
  | .branch how _ => [how.opcode, 0, 0]
  | .ret => [Opcode.ret]
  | .loopStart count => [Opcode.loopStart, count]
  | .loopEnd => [Opcode.loopEnd]
  | .ticksPerQuarter _ | .headerTempo _ | .tickSync _ | .track _ | .label _ => []

/-- The code of a statement in a file that has the labels at some offsets. -/
def Statement.encode (address : String → Option Nat) : Statement → List UInt8
  | .branch how name => how.opcode :: toLittleEndian 2 ((address name).getD 0)
  | statement => statement.draft

/-- The statement belongs to the code of a track. -/
def Statement.IsCode : Statement → Prop
  | .ticksPerQuarter _ | .headerTempo _ | .tickSync _ | .track _ => False
  | _ => True

def Statement.Fits : Statement → Prop
  | .plain statement => statement.Fits
  | _ => True

/-- The label that a statement defines with so much code before it. -/
def Statement.labels (position : Nat) : Statement → List (String × Nat)
  | .label name => [(name, position)]
  | _ => []

/-- The hole that a statement leaves with so much code before it. -/
def Statement.holes (position : Nat) : Statement → List (Nat × String)
  | .branch _ name => [(position + 1, name)]
  | _ => []

/-- What statements that follow each other make, from a position in the code on. -/
def along {α : Type} (make : Nat → Statement → List α) : (position : Nat) → List Statement → List α
  | _, [] => []
  | position, statement :: rest =>
    make position statement ++ along make (position + statement.draft.length) rest

theorem Statement.length_encode (address : String → Option Nat) (statement : Statement) :
    (statement.encode address).length = statement.draft.length := by
  cases statement <;> rfl

theorem Statement.labels_add (shift position : Nat) (statement : Statement) :
    statement.labels (shift + position) =
      (statement.labels position).map fun (name, place) => (name, shift + place) := by
  cases statement <;> rfl

theorem Statement.holes_add (shift position : Nat) (statement : Statement) :
    statement.holes (shift + position) =
      (statement.holes position).map fun (place, name) => (shift + place, name) := by
  cases statement <;> rfl

theorem length_encodes (address : String → Option Nat) (statements : List Statement) :
    (statements.flatMap (Statement.encode address)).length =
      (statements.flatMap Statement.draft).length := by
  simp only [List.length_flatMap, Statement.length_encode]

theorem along_append {α : Type} (make : Nat → Statement → List α) (position : Nat)
    (first second : List Statement) : along make position (first ++ second) =
      along make position first ++
        along make (position + (first.flatMap Statement.draft).length) second := by
  induction first generalizing position with
  | nil => rfl
  | cons statement rest ih =>
    simp only [List.cons_append, along, ih, List.flatMap_cons, List.length_append,
      Nat.add_assoc, List.append_assoc]

/-- The code of tracks, one after another. -/
def codeOf (tracks : List TrackBody) : List UInt8 := tracks.flatMap fun body => body.code.toList

theorem codeOf_cons (body : TrackBody) (rest : List TrackBody) :
    codeOf (body :: rest) = body.code.toList ++ codeOf rest := List.flatMap_cons ..

namespace Assembly

variable {assembly middle next : Assembly} {closed : List TrackBody} {last : TrackBody}
  {statement : Statement} {statements first second : List Statement}

def code (assembly : Assembly) : List UInt8 := codeOf assembly.tracks.toList

/-- How much code stands before a place. -/
def before (assembly : Assembly) (place : CodePosition) : Nat :=
  (codeOf (assembly.tracks.toList.take place.track)).length + place.position

/-- The labels, each with how much code stands before it. -/
def labelled (assembly : Assembly) : List (String × Nat) :=
  assembly.labels.map fun (name, place) => (name, assembly.before place)

/-- The holes in the order in which they were left, each with how much code stands before it. -/
def holes (assembly : Assembly) : List (Nat × String) :=
  assembly.references.reverse.map fun (place, name) => (assembly.before place, name)

/-- Labels and holes stand in tracks that there are. -/
structure Placed (assembly : Assembly) : Prop where
  labels : ∀ label ∈ assembly.labels, label.2.track < assembly.tracks.size
  references : ∀ hole ∈ assembly.references, hole.1.track < assembly.tracks.size

/-- No code gets in before a place that there is. -/
structure Extends (assembly next : Assembly) : Prop where
  tracks : assembly.tracks.size ≤ next.tracks.size
  before : ∀ place, place.track < assembly.tracks.size → next.before place = assembly.before place

theorem Extends.refl_of_tracks (same : next.tracks = assembly.tracks) : assembly.Extends next where
  tracks := Nat.le_of_eq (by rw [same])
  before := fun place _ => by rw [Assembly.before, same, Assembly.before]

theorem Extends.trans (further : assembly.Extends middle) (onward : middle.Extends next) :
    assembly.Extends next where
  tracks := Nat.le_trans further.tracks onward.tracks
  before := fun place there =>
    (onward.before place (Nat.lt_of_lt_of_le there further.tracks)).trans
      (further.before place there)

theorem Extends.labelled (further : assembly.Extends next) (placed : assembly.Placed) :
    (assembly.labels.map fun (name, place) => (name, next.before place)) = assembly.labelled :=
  List.map_congr_left fun label member =>
    congrArg (Prod.mk label.1) (further.before label.2 (placed.labels label member))

theorem Extends.holes (further : assembly.Extends next) (placed : assembly.Placed) :
    (assembly.references.reverse.map fun (place, name) => (next.before place, name)) =
      assembly.holes :=
  List.map_congr_left fun hole member => congrArg (Prod.mk · hole.2)
    (further.before hole.1 (placed.references hole (List.mem_reverse.mp member)))

/-- The last track of an assembly. -/
def EndsWith (assembly : Assembly) (closed : List TrackBody) (last : TrackBody) : Prop :=
  assembly.tracks = (closed ++ [last]).toArray

theorem endsWith_withTrack (assembly : Assembly) :
    ∃ closed last, assembly.withTrack.EndsWith closed last := by
  unfold Assembly.withTrack
  split
  · exact ⟨[], ⟨0, #[]⟩, rfl⟩
  · rename_i some
    have tracks : assembly.tracks.toList ≠ [] := by
      intro none
      exact some (by simpa using none)
    refine ⟨assembly.tracks.toList.dropLast, assembly.tracks.toList.getLast tracks, ?_⟩
    rw [EndsWith, List.dropLast_concat_getLast, Array.toArray_toList]

theorem code_withTrack (assembly : Assembly) : assembly.withTrack.code = assembly.code := by
  unfold Assembly.withTrack
  split
  · rename_i none
    have tracks : assembly.tracks = #[] := Array.isEmpty_iff.mp none
    rw [code, code, tracks]
    rfl
  · rfl

theorem extends_withTrack (assembly : Assembly) : assembly.Extends assembly.withTrack := by
  unfold Assembly.withTrack
  split
  · rename_i none
    have tracks : assembly.tracks = #[] := Array.isEmpty_iff.mp none
    refine ⟨by simp [tracks], fun place there => ?_⟩
    rw [tracks] at there
    exact absurd there (Nat.not_lt_zero _)
  · exact .refl_of_tracks rfl

namespace EndsWith

variable (ends : assembly.EndsWith closed last)
include ends

theorem withTrack : assembly.withTrack = assembly := by
  have some : ¬ assembly.tracks.isEmpty = true := by simp [show assembly.tracks = _ from ends]
  rw [Assembly.withTrack, if_neg some]

theorem size : assembly.tracks.size = closed.length + 1 := by
  simp [show assembly.tracks = _ from ends]

theorem position : assembly.position = ⟨closed.length, last.code.size⟩ := by
  simp [Assembly.position, show assembly.tracks = _ from ends]

theorem code : assembly.code = codeOf closed ++ last.code.toList := by
  simp [Assembly.code, codeOf, show assembly.tracks = _ from ends]

theorem before (place : Nat) :
    assembly.before ⟨closed.length, place⟩ = (codeOf closed).length + place := by
  simp [Assembly.before, show assembly.tracks = _ from ends]

theorem append (more : List UInt8) : assembly.append more =
    { assembly with
      tracks := (closed ++ [{ last with code := last.code ++ more }]).toArray } := by
  have tracks : assembly.tracks = (closed ++ [last]).toArray := ends
  rw [Assembly.append, ends.withTrack]
  simp [tracks, List.modify_eq_take_cons_drop]

/-- Only the last track grows. -/
theorem further {more : TrackBody} (grows : next.EndsWith closed more) :
    assembly.Extends next where
  tracks := Nat.le_of_eq (ends.size.trans grows.size.symm)
  before := fun place there => by
    rw [ends.size, Nat.lt_succ_iff] at there
    simp [Assembly.before, show assembly.tracks = _ from ends, show next.tracks = _ from grows,
      List.take_append_of_le_length there]

end EndsWith

/-- What reading some statements makes of an assembly. -/
structure Reads (assembly : Assembly) (statements : List Statement) (next : Assembly) : Prop where
  fits : ∀ statement ∈ statements, statement.Fits
  code : next.code = assembly.code ++ statements.flatMap Statement.draft
  further : assembly.Extends next
  placed : next.Placed
  labelled : next.labelled =
    assembly.labelled ++ along Statement.labels assembly.code.length statements
  holes : next.holes = assembly.holes ++ along Statement.holes assembly.code.length statements

theorem Reads.refl (placed : assembly.Placed) : assembly.Reads [] assembly :=
  ⟨by simp, by simp, .refl_of_tracks rfl, placed, by simp [along], by simp [along]⟩

theorem Reads.trans (reads : assembly.Reads first middle) (onward : middle.Reads second next) :
    assembly.Reads (first ++ second) next where
  fits := fun statement member =>
    (List.mem_append.mp member).elim (reads.fits statement) (onward.fits statement)
  code := by rw [onward.code, reads.code, List.flatMap_append, List.append_assoc]
  further := reads.further.trans onward.further
  placed := onward.placed
  labelled := by
    rw [onward.labelled, reads.labelled, along_append, reads.code, List.length_append,
      List.append_assoc]
  holes := by
    rw [onward.holes, reads.holes, along_append, reads.code, List.length_append,
      List.append_assoc]

/-- A statement that leaves the code as it is, its labels and its holes. -/
theorem Placed.reads_still (placed : assembly.Placed) (further : assembly.Extends next)
    (code : next.code = assembly.code) (labels : next.labels = assembly.labels)
    (references : next.references = assembly.references) (fits : statement.Fits)
    (draft : statement.draft = []) (labels' : ∀ position, statement.labels position = [])
    (holes' : ∀ position, statement.holes position = []) : assembly.Reads [statement] next where
  fits := by simpa using fits
  code := by simp [code, draft]
  further := further
  placed :=
    ⟨fun label member => Nat.lt_of_lt_of_le (placed.labels label (labels ▸ member)) further.tracks,
      fun hole member =>
        Nat.lt_of_lt_of_le (placed.references hole (references ▸ member)) further.tracks⟩
  labelled := by
    rw [Assembly.labelled, labels, further.labelled placed]
    simp [along, labels']
  holes := by
    rw [Assembly.holes, references, further.holes placed]
    simp [along, holes']

theorem withTrack_withTrack (assembly : Assembly) :
    assembly.withTrack.withTrack = assembly.withTrack := by
  obtain ⟨closed, last, ends⟩ := assembly.endsWith_withTrack
  exact ends.withTrack

theorem append_withTrack (assembly : Assembly) (code : List UInt8) :
    assembly.withTrack.append code = assembly.append code := by
  rw [Assembly.append, Assembly.append, withTrack_withTrack]

/-- A statement of code finds a track, or begins one. -/
theorem read_withTrack (isCode : statement.IsCode) (assembly : Assembly) :
    assembly.withTrack.read statement = assembly.read statement := by
  cases statement with
  | ticksPerQuarter | headerTempo | tickSync | track => cases isCode
  | label name => simp only [Assembly.read, define, withTrack_withTrack]
  | plain plain => cases plain <;> simp only [Assembly.read, append_withTrack]
  | branch how name => simp only [Assembly.read, refer, withTrack_withTrack]
  | bytes | trackEnd | jump | ret | loopStart | loopEnd =>
    simp only [Assembly.read, append_withTrack]

theorem labels_withTrack (assembly : Assembly) : assembly.withTrack.labels = assembly.labels := by
  unfold Assembly.withTrack
  split <;> rfl

theorem references_withTrack (assembly : Assembly) :
    assembly.withTrack.references = assembly.references := by
  unfold Assembly.withTrack
  split <;> rfl

/-- What the assembly has read for the header. -/
def settings (assembly : Assembly) : Bool × UInt16 × UInt16 :=
  (assembly.tickSync, assembly.ticksPerQuarter, assembly.tempo)

theorem settings_withTrack (assembly : Assembly) :
    assembly.withTrack.settings = assembly.settings := by
  unfold Assembly.withTrack
  split <;> rfl

/-- A statement whose code gets behind that of the last track. -/
structure Appends (assembly : Assembly) (closed : List TrackBody) (last : TrackBody)
    (statement : Statement) (next : Assembly) : Prop where
  fits : statement.Fits
  grows : next.EndsWith closed { last with code := last.code ++ statement.draft }
  labels : next.labels = assembly.labels ++ (statement.labels last.code.size).map
    fun (name, place) => (name, ⟨closed.length, place⟩)
  references : next.references.reverse = assembly.references.reverse ++
    (statement.holes last.code.size).map fun (place, name) => (⟨closed.length, place⟩, name)
  settings : next.settings = assembly.settings

theorem EndsWith.append_appends (ends : assembly.withTrack.EndsWith closed last)
    (fits : statement.Fits) (labels : ∀ position, statement.labels position = [])
    (holes : ∀ position, statement.holes position = []) :
    assembly.Appends closed last statement (assembly.append statement.draft) := by
  rw [← append_withTrack, ends.append]
  refine ⟨fits, rfl, ?_, ?_, assembly.settings_withTrack⟩
  · simp [labels, labels_withTrack]
  · simp [holes, references_withTrack]

theorem EndsWith.read (ends : assembly.withTrack.EndsWith closed last) (isCode : statement.IsCode)
    (done : assembly.read statement = .ok next) :
    assembly.Appends closed last statement next := by
  cases statement with
  | ticksPerQuarter | headerTempo | tickSync | track => cases isCode
  | label name =>
    simp only [Assembly.read, define] at done
    split at done
    · cases done
    · cases done
      refine ⟨trivial, ?_, ?_, ?_, assembly.settings_withTrack⟩
      · simpa [EndsWith, Statement.draft] using ends
      · simp [Statement.labels, labels_withTrack, ends.position]
      · simp [Statement.holes, references_withTrack]
  | plain plain =>
    have fits : plain.Fits ∧ assembly.append plain.encode = next := by
      cases plain with
      | marker text =>
        simp only [Assembly.read] at done
        split at done
        · rename_i short
          exact ⟨short, Except.ok.inj done⟩
        · cases done
      | _ => exact ⟨trivial, Except.ok.inj done⟩
    have appends : assembly.Appends closed last (.plain plain) (assembly.append plain.encode) :=
      ends.append_appends fits.1 (fun _ => rfl) fun _ => rfl
    exact fits.2 ▸ appends
  | branch how name =>
    cases done
    refine ⟨trivial, ?_, ?_, ?_, ?_⟩
    · simp [refer, ends.append, EndsWith, Statement.draft]
    · simp [refer, ends.append, Statement.labels, labels_withTrack]
    · simp [refer, ends.append, ends.position, Statement.holes, references_withTrack]
    · rw [refer, ends.append]
      exact assembly.settings_withTrack
  | bytes | trackEnd | jump | ret | loopStart | loopEnd =>
    cases done
    exact ends.append_appends trivial (fun _ => rfl) fun _ => rfl

theorem Appends.reads (appends : assembly.Appends closed last statement next)
    (ends : assembly.withTrack.EndsWith closed last) (placed : assembly.Placed) :
    assembly.Reads [statement] next := by
  obtain ⟨fits, grows, labels, references, _⟩ := appends
  have further := (extends_withTrack assembly).trans (ends.further grows)
  have code : assembly.code = codeOf closed ++ last.code.toList := by
    rw [← code_withTrack, ends.code]
  have position : assembly.code.length = (codeOf closed).length + last.code.size := by
    rw [code, List.length_append]
    rfl
  have there : closed.length < next.tracks.size := by
    rw [grows.size]
    exact Nat.lt_succ_self _
  refine ⟨by simpa using fits, ?_, further, ⟨?_, ?_⟩, ?_, ?_⟩
  · rw [grows.code, code]
    simp
  · intro label member
    rw [labels] at member
    rcases List.mem_append.mp member with known | new
    · exact Nat.lt_of_lt_of_le (placed.labels label known) further.tracks
    · obtain ⟨found, _, rfl⟩ := List.mem_map.mp new
      exact there
  · intro hole member
    rw [← List.mem_reverse, references] at member
    rcases List.mem_append.mp member with known | new
    · exact Nat.lt_of_lt_of_le (placed.references hole (List.mem_reverse.mp known)) further.tracks
    · obtain ⟨found, _, rfl⟩ := List.mem_map.mp new
      exact there
  · rw [Assembly.labelled, labels, List.map_append, further.labelled placed, List.map_map, along,
      along, List.append_nil, position, statement.labels_add]
    exact congrArg (assembly.labelled ++ ·) (List.map_congr_left fun label _ =>
      congrArg (Prod.mk label.1) (grows.before label.2))
  · rw [Assembly.holes, references, List.map_append, further.holes placed, List.map_map, along,
      along, List.append_nil, position, statement.holes_add]
    exact congrArg (assembly.holes ++ ·) (List.map_congr_left fun hole _ =>
      congrArg (Prod.mk · hole.2) (grows.before hole.1))

theorem Placed.read (placed : assembly.Placed) (done : assembly.read statement = .ok next) :
    assembly.Reads [statement] next := by
  cases statement with
  | ticksPerQuarter | headerTempo | tickSync =>
    cases done
    exact placed.reads_still (.refl_of_tracks rfl) rfl rfl rfl trivial rfl (fun _ => rfl)
      fun _ => rfl
  | track channel =>
    cases done
    have further : assembly.Extends
        { assembly with tracks := assembly.tracks.push { channel } } := by
      refine ⟨by simp, fun place there => ?_⟩
      rw [← Array.length_toList] at there
      simp [Assembly.before, List.take_append_of_le_length (Nat.le_of_lt there)]
    refine placed.reads_still further ?_ rfl rfl trivial rfl (fun _ => rfl) fun _ => rfl
    simp [Assembly.code, codeOf]
  | label | bytes | plain | trackEnd | jump | branch | ret | loopStart | loopEnd =>
    obtain ⟨closed, last, ends⟩ := assembly.endsWith_withTrack
    exact (ends.read (by trivial) done).reads ends placed

theorem Placed.readAll (placed : assembly.Placed) (done : assembly.readAll statements = .ok next) :
    assembly.Reads statements next := by
  induction statements generalizing assembly with
  | nil =>
    cases done
    exact .refl placed
  | cons statement rest ih =>
    obtain ⟨middle, first, done⟩ := Except.bind_eq_ok.mp done
    have reads := placed.read first
    exact reads.trans (ih reads.placed done)

theorem readAll_settings (isCode : ∀ statement ∈ statements, statement.IsCode)
    (done : assembly.readAll statements = .ok next) : next.settings = assembly.settings := by
  induction statements generalizing assembly with
  | nil =>
    cases done
    rfl
  | cons statement rest ih =>
    obtain ⟨middle, first, later⟩ := Except.bind_eq_ok.mp done
    obtain ⟨closed, last, ends⟩ := assembly.endsWith_withTrack
    have read := ends.read (isCode _ List.mem_cons_self) first
    exact (ih (fun statement member => isCode statement (List.mem_cons_of_mem _ member))
      later).trans read.settings

/-- The bytes before the code. -/
def preamble (assembly : Assembly) : List UInt8 := assembly.headerBytes ++ assembly.tableBytes

/-- The offset of a label in the file. -/
def address (assembly : Assembly) (name : String) : Option Nat :=
  (assembly.labels.lookup name).map assembly.offset

theorem base_eq (assembly : Assembly) (track : Nat) :
    assembly.base track = headerSize + assembly.tracks.size * pointerSize +
      (codeOf (assembly.tracks.toList.take track)).length := by
  have sums (bodies : List TrackBody) (size : Nat) :
      bodies.foldl (fun size body => size + body.code.size) size =
        size + (codeOf bodies).length := by
    induction bodies generalizing size with
    | nil => rfl
    | cons body rest ih =>
      rw [List.foldl_cons, ih, codeOf_cons, List.length_append, Nat.add_assoc]
      rfl
  rw [base, sums, Nat.zero_add]

theorem base_zero (assembly : Assembly) :
    assembly.base 0 = headerSize + assembly.tracks.size * pointerSize := by
  rw [base_eq, List.take_zero]
  rfl

theorem offset_eq (assembly : Assembly) (place : CodePosition) :
    assembly.offset place = assembly.base 0 + assembly.before place := by
  rw [offset, base_eq, base_zero, before, Nat.add_assoc]

theorem size_eq (assembly : Assembly) : assembly.size = assembly.base 0 + assembly.code.length := by
  rw [Assembly.size, base_eq, base_zero, ← Array.length_toList, List.take_length, code]

theorem length_preamble (assembly : Assembly) : assembly.preamble.length = assembly.base 0 := by
  have table (make : Nat → TrackBody → List UInt8) (three : ∀ n body, (make n body).length = 3)
      (bodies : List TrackBody) : (bodies.mapIdx make).flatten.length = bodies.length * 3 := by
    induction bodies generalizing make with
    | nil => rfl
    | cons body rest ih =>
      rw [List.mapIdx_cons, List.flatten_cons, List.length_append, three, List.length_cons,
        ih _ fun n body => three (n + 1) body]
      omega
  rw [preamble, List.length_append, tableBytes, table _ fun _ _ => rfl, base_zero,
    Array.length_toList]
  rfl

theorem draft_eq (assembly : Assembly) :
    assembly.draft = (assembly.preamble ++ assembly.code).toArray := by
  have appends (bodies : List TrackBody) (bytes : Array UInt8) :
      (bodies.foldl (fun bytes body => bytes ++ body.code) bytes).toList =
        bytes.toList ++ codeOf bodies := by
    induction bodies generalizing bytes with
    | nil => exact (List.append_nil _).symm
    | cons body rest ih =>
      rw [List.foldl_cons, ih, codeOf_cons, Array.toList_append, List.append_assoc]
  apply Array.toList_inj.mp
  rw [Assembly.draft, ← Array.foldl_toList, appends]
  rfl

theorem patchShort_hole (before after : List UInt8) (opcode : UInt8) (value : Nat) :
    patchShort (before ++ opcode :: 0 :: 0 :: after).toArray (before.length + 1) value =
      (before ++ opcode :: toLittleEndian 2 value ++ after).toArray := by
  have past : ¬ before.length + 1 + 1 < before.length := by omega
  have second : before.length + 1 + 1 - before.length = 2 := by omega
  simp [patchShort, toLittleEndian, List.set_append, past, second]

/-- Statements whose holes are filled in one after another. -/
theorem resolve_fills {references : List (CodePosition × String)} {position : Nat}
    {bytes : Array UInt8} (before : List UInt8)
    (size : before.length = assembly.base 0 + position)
    (holes : (references.map fun (place, name) => (assembly.before place, name)) =
      along Statement.holes position statements)
    (done : assembly.resolve (before ++ statements.flatMap Statement.draft).toArray references =
      .ok bytes) :
    bytes.toList = before ++ statements.flatMap (Statement.encode assembly.address) ∧
      ∀ how name, Statement.branch how name ∈ statements →
        ∃ target, assembly.address name = some target := by
  induction statements generalizing before position references with
  | nil =>
    cases List.map_eq_nil_iff.mp holes
    cases done
    simp
  | cons statement rest ih =>
    have further {references : List (CodePosition × String)}
        (holes : (references.map fun (place, name) => (assembly.before place, name)) =
          along Statement.holes (position + statement.draft.length) rest)
        (filled : assembly.resolve ((before ++ statement.encode assembly.address) ++
          rest.flatMap Statement.draft).toArray references = .ok bytes) :=
      ih (before ++ statement.encode assembly.address)
        (by rw [List.length_append, statement.length_encode, size, Nat.add_assoc]) holes filled
    cases statement with
    | branch how name =>
      obtain ⟨⟨place, label⟩, others, rfl, first, holes⟩ := List.map_eq_cons_iff.mp holes
      obtain ⟨there, rfl⟩ := Prod.mk.inj first
      simp only [Assembly.resolve] at done
      split at done
      · cases done
      · rename_i target found
        have hole : assembly.offset place = before.length + 1 := by
          rw [offset_eq, there, size, Nat.add_assoc]
        have address : assembly.address label = some (assembly.offset target) := by
          rw [Assembly.address, found, Option.map_some]
        rw [hole] at done
        have filled : assembly.resolve ((before ++
            (Statement.branch how label).encode assembly.address) ++
              rest.flatMap Statement.draft).toArray others = .ok bytes := by
          simp only [Statement.encode, address, Option.getD_some]
          rw [← patchShort_hole before (rest.flatMap Statement.draft) how.opcode]
          exact done
        obtain ⟨all, known⟩ := further holes filled
        refine ⟨by rw [all, List.flatMap_cons, List.append_assoc], fun other name member => ?_⟩
        rcases List.mem_cons.mp member with same | member
        · cases same
          exact ⟨_, address⟩
        · exact known other name member
    | _ =>
      obtain ⟨all, known⟩ := further (by simpa [along, Statement.holes] using holes)
        (by simpa [Statement.encode] using done)
      refine ⟨by rw [all, List.flatMap_cons, List.append_assoc], fun other name member => ?_⟩
      exact known other name (by simpa using member)

theorem placed_empty (labels : assembly.labels = []) (references : assembly.references = []) :
    assembly.Placed := by
  constructor
  · simp [labels]
  · simp [references]

end Assembly

theorem lookup_map_snd {α β γ : Type} [BEq α] (f : β → γ) (pairs : List (α × β)) (key : α) :
    (pairs.map fun (key, value) => (key, f value)).lookup key = (pairs.lookup key).map f := by
  induction pairs with
  | nil => rfl
  | cons pair rest ih =>
    obtain ⟨found, value⟩ := pair
    simp only [List.map_cons, List.lookup_cons, ih]
    split <;> rfl

/-- What a file holds that is built of statements. -/
structure Built (assembly : Assembly) (statements : List Statement) (file : Assembled) : Prop where
  bytes : file.bytes.toList =
    assembly.preamble ++ statements.flatMap (Statement.encode (file.labels.lookup ·))
  small : file.bytes.size ≤ 65536
  fits : ∀ statement ∈ statements, statement.Fits
  labels : file.labels = (along Statement.labels 0 statements).map fun (name, place) =>
    (name, assembly.base 0 + place)
  known : ∀ how name, Statement.branch how name ∈ statements →
    ∃ target, file.labels.lookup name = some target

/-- An assembly without any code before some statements, and its file with them. -/
theorem built_of_readAll {assembly : Assembly} {statements : List Statement} {file : Assembled}
    (empty : assembly.code = []) (unlabelled : assembly.labels = [])
    (whole : assembly.references = [])
    (done : assembly.readAll statements >>= Assembly.build = .ok file) :
    ∃ next, assembly.readAll statements = .ok next ∧ Built next statements file := by
  obtain ⟨next, read, done⟩ := Except.bind_eq_ok.mp done
  have reads := (Assembly.placed_empty unlabelled whole).readAll read
  have code := reads.code
  have labelled := reads.labelled
  have holes := reads.holes
  rw [empty, List.nil_append] at code
  rw [Assembly.labelled, Assembly.labelled, unlabelled, empty] at labelled
  rw [Assembly.holes, Assembly.holes, whole, empty] at holes
  unfold Assembly.build at done
  split at done
  · cases done
  · rename_i small
    obtain ⟨bytes, resolved, done⟩ := Except.bind_eq_ok.mp done
    cases done
    rw [next.draft_eq, code] at resolved
    obtain ⟨all, known⟩ := Assembly.resolve_fills next.preamble next.length_preamble holes resolved
    have address : next.address = fun name =>
        (next.labels.map fun (name, place) => (name, next.offset place)).lookup name :=
      funext fun name => (lookup_map_snd next.offset next.labels name).symm
    rw [address] at all known
    refine ⟨next, read, all, ?_, reads.fits, ?_, known⟩
    · have size := congrArg List.length all
      rw [Array.length_toList, List.length_append, next.length_preamble, length_encodes,
        ← code, ← next.size_eq] at size
      dsimp only
      omega
    · have offsets := congrArg (List.map fun (label : String × Nat) =>
        (label.1, next.base 0 + label.2)) labelled
      rw [List.map_map] at offsets
      refine Eq.trans (List.map_congr_left fun label _ => ?_) offsets
      exact congrArg (Prod.mk label.1) (next.offset_eq label.2)

end Sequencer.RefSeq
