import Mathlib.Data.Nat.Find
import Sequencer.Proofs.Bytes
import Sequencer.Proofs.Passes

/-! Which files are opened. A file is refused for the first thing that is wrong with it: its size,
its ident, its version, the number of its tracks, their table, or where one of them starts. What
nothing is wrong with is opened, with the tracks of its table. -/
namespace Sequencer

namespace Source

/-- The byte at an offset. Behind the end of the file there are zeros. -/
def byte (source : Source) (offset : Nat) : UInt8 := source[offset]?.getD 0

variable {source : Source} {offset : Nat}

theorem byteAt_of_lt (inside : offset < source.size) :
    source.byteAt offset = .ok (source.byte offset) := by
  simp [byteAt, byte, inside]

theorem byteAt_of_le (outside : source.size ≤ offset) :
    source.byteAt offset = .error (.outOfRange offset 1 source.size none) := by
  simp [byteAt, outside]

theorem littleEndianAt_two (inside : offset + 2 ≤ source.size) : source.littleEndianAt offset 2 =
    .ok ((source.byte offset).toNat + 256 * (source.byte (offset + 1)).toNat) := by
  have first : offset < source.size := by omega
  have second : offset + 1 < source.size := by omega
  have pair : (source.extract offset (offset + 2)).toList =
      [source.byte offset, source.byte (offset + 1)] := by
    rw [Array.toList_extract, List.extract_eq_take_drop, Nat.add_sub_cancel_left,
      List.drop_eq_getElem_cons (by simpa using first),
      List.drop_eq_getElem_cons (by simpa using second)]
    simp [byte, first, second]
  rw [littleEndianAt, bytesAt, if_pos inside, pair]
  rfl

theorem littleEndianAt_of_lt {width : Nat} (cut : source.size < offset + width) :
    source.littleEndianAt offset width = .error (.outOfRange offset width source.size none) := by
  rw [littleEndianAt, bytesAt, if_neg (Nat.not_le_of_lt cut)]
  rfl

end Source

namespace RefSeq

open Sequence (ofSource fresh)

def trackCount (source : Source) : Nat := (source.byte 10).toNat

/-- The channel that the table has for a track. -/
def listedChannel (source : Source) (track : Nat) : UInt8 := source.byte (11 + 3 * track)

/-- The offset at which a track starts by the table. -/
def listedStart (source : Source) (track : Nat) : Nat :=
  (source.byte (12 + 3 * track)).toNat + 256 * (source.byte (13 + 3 * track)).toNat

/-- A file with a header of the format. -/
structure Headed (source : Source) : Prop where
  size : 11 ≤ source.size
  ident : source.toList.take 4 = [0x52, 0x53, 0x45, 0x51]
  version : source.byte 4 = 1

/-- A file with nothing wrong in its header and its table. -/
structure WellFormed (source : Source) : Prop extends Headed source where
  tracks : 1 ≤ trackCount source
  table : 11 + 3 * trackCount source ≤ source.size
  starts : ∀ track < trackCount source, listedStart source track < source.size

/-- The file ends in the table's entry of a track: at its channel, or else at its start. -/
def tableError (source : Source) (track : Nat) : ReadError :=
  if source.size ≤ 11 + 3 * track then
    .outOfRange (11 + 3 * track) 1 source.size (some "track_pointer")
  else .outOfRange (12 + 3 * track) 2 source.size (some "track_pointer")

/-- Why a file is refused: the first thing that is wrong with it, and of the tracks with a wrong
entry the first one. -/
inductive Refused (source : Source) : OpenError → Prop
  | size (short : source.size < 11) :
      Refused source (.unreadable (.shortHeader s!"{source.size} bytes, need 11"))
  | ident (size : 11 ≤ source.size) (other : source.toList.take 4 ≠ [0x52, 0x53, 0x45, 0x51]) :
      Refused source (.unreadable (.badIdent (source.toList.take 4)))
  | version (size : 11 ≤ source.size) (ident : source.toList.take 4 = [0x52, 0x53, 0x45, 0x51])
      (other : source.byte 4 ≠ 1) : Refused source (.unreadable (.badVersion (source.byte 4)))
  | tracks (headed : Headed source) (none : trackCount source = 0) : Refused source .noTracks
  | table {track : Nat} (headed : Headed source) (inside : track < trackCount source)
      (before : 11 + 3 * track ≤ source.size) (cut : source.size < 11 + 3 * (track + 1)) :
      Refused source (.unreadable (tableError source track))
  | start {track : Nat} (headed : Headed source)
      (table : 11 + 3 * trackCount source ≤ source.size) (inside : track < trackCount source)
      (before : ∀ earlier < track, listedStart source earlier < source.size)
      (outside : source.size ≤ listedStart source track) :
      Refused source (.trackOutside track (listedStart source track) source.size)

/-- A track stands where the table has the track of a place, on a channel of sixteen. -/
structure StandsAs (source : Source) (place : Nat) (track : Track) : Prop where
  index : track.index = place
  startOffset : track.startOffset = listedStart source place
  cursor : track.cursor = ⟨listedStart source place, 0, [], []⟩
  startChannel : track.startChannel.toNat = (listedChannel source place).toNat % 16
  channel : track.channel = track.startChannel

/-- A sequence is as the file says. -/
structure Opened (file : Source) (sequence : Sequence Unit) : Prop where
  source : sequence.source = file
  count : sequence.stage.tracks.length = trackCount file
  tracks : ∀ place track, sequence.stage.tracks[place]? = some track → StandsAs file place track
  ticksPerQuarter : sequence.header.ticksPerQuarter ≠ 0
  tickSync : sequence.header.tickSync = (file.byte 5).toNat.testBit 0

variable {source : Source} {error : OpenError}

def headerOf (source : Source) : Header :=
  let ticks := (source.byte 6).toNat + 256 * (source.byte 7).toNat
  let bpm := (source.byte 8).toNat + 256 * (source.byte 9).toNat
  { tickSync := source.byte 5 &&& 1 ≠ 0
    ticksPerQuarter := if ticks = 0 then 48 else UInt16.ofNat ticks
    tempo := if bpm = 0 then 120.0 else Float.ofNat bpm }

theorem header_of_size (short : source.size < 11) :
    header source = .error (.shortHeader s!"{source.size} bytes, need 11") := by
  have text : s!"{source.size} bytes, need {headerSize}" = s!"{source.size} bytes, need 11" := by
    simp only [toString, String.append_assoc]
    rfl
  unfold header
  rw [text]
  simp [headerSize, short, throw, throwThe, MonadExceptOf.throw, bind, Except.bind]

theorem stretch_ident (size : 11 ≤ source.size) :
    source.stretch 0 4 = .ok (source.toList.take 4) := by
  rw [Source.stretch, if_pos (by omega)]
  simp [List.extract_eq_take_drop]

theorem header_of_ident (size : 11 ≤ source.size) (other : source.toList.take 4 ≠ ident) :
    header source = .error (.badIdent (source.toList.take 4)) := by
  unfold header
  simp [headerSize, size, throw, throwThe, MonadExceptOf.throw, bind, Except.bind,
    stretch_ident size, other]

theorem header_of_version (size : 11 ≤ source.size) (same : source.toList.take 4 = ident)
    (other : source.byte 4 ≠ 1) : header source = .error (.badVersion (source.byte 4)) := by
  unfold header
  simp [headerSize, size, throw, throwThe, MonadExceptOf.throw, bind, Except.bind,
    stretch_ident size, same, Source.byteAt_of_lt (show 4 < source.size by omega), version, other]

theorem header_of_headed (headed : Headed source) : header source = .ok (headerOf source) := by
  have size := headed.size
  unfold header
  simp [headerSize, size, bind, Except.bind, pure, Except.pure, stretch_ident size, headed.ident,
    ident, Source.byteAt_of_lt (show 4 < source.size by omega), version, headed.version,
    Source.byteAt_of_lt (show 5 < source.size by omega),
    Source.littleEndianAt_two (show 6 + 2 ≤ source.size by omega),
    Source.littleEndianAt_two (show 8 + 2 ≤ source.size by omega), headerOf]

theorem headerOf_ticksPerQuarter_ne_zero (source : Source) :
    (headerOf source).ticksPerQuarter ≠ 0 := by
  have low := (source.byte 6).toNat_lt
  have high := (source.byte 7).toNat_lt
  simp only [headerOf]
  split
  · decide
  · rename_i positive
    intro zero
    have value := congrArg UInt16.toNat zero
    rw [UInt16.toNat_ofNat_of_lt' (show _ < 65536 by omega)] at value
    exact positive value

theorem headerOf_tickSync (source : Source) :
    (headerOf source).tickSync = (source.byte 5).toNat.testBit 0 := by
  have all : ∀ b : UInt8, decide (b &&& 1 ≠ 0) = b.toNat.testBit 0 := by
    intro b
    rw [Nat.testBit_zero, decide_eq_decide, ne_eq, ← UInt8.toNat_inj, UInt8.toNat_and]
    simp
  exact all (source.byte 5)

def listed (source : Source) (track : Nat) : TrackPointer :=
  ⟨listedStart source track, listedChannel source track⟩

/-- The table of a file in which it fits. -/
def table (source : Source) : List TrackPointer :=
  (List.range (trackCount source)).map (listed source)

theorem pointer_of_fits {track : Nat} (fits : 11 + 3 * (track + 1) ≤ source.size) :
    pointer source (11 + 3 * track) = .ok (listed source track) := by
  have channel := Source.byteAt_of_lt (show 11 + 3 * track < source.size by omega)
  have start := Source.littleEndianAt_two (show 11 + 3 * track + 1 + 2 ≤ source.size by omega)
  rw [pointer, channel, start]
  simp only [listed, listedStart, listedChannel, show 12 + 3 * track = 11 + 3 * track + 1 by omega,
    show 13 + 3 * track = 11 + 3 * track + 1 + 1 by omega]
  rfl

theorem pointer_of_cut {track : Nat} (cut : source.size < 11 + 3 * (track + 1)) :
    pointer source (11 + 3 * track) = .error (tableError source track) := by
  rcases Nat.lt_or_ge (11 + 3 * track) source.size with inside | outside
  · have start := Source.littleEndianAt_of_lt (show source.size < 11 + 3 * track + 1 + 2 by omega)
    rw [pointer, Source.byteAt_of_lt inside, start, tableError, if_neg (by omega),
      show 12 + 3 * track = 11 + 3 * track + 1 by omega]
    rfl
  · rw [pointer, Source.byteAt_of_le outside, tableError, if_pos outside]
    rfl

theorem pointersFrom_of_fits {count first : Nat} (fits : 11 + 3 * (first + count) ≤ source.size) :
    pointersFrom source count (11 + 3 * first) =
      .ok ((List.range' first count).map (listed source)) := by
  induction count generalizing first with
  | zero => rfl
  | succ count ih =>
    rw [pointersFrom, pointer_of_fits (by omega)]
    change (pointersFrom source count (11 + 3 * (first + 1)) >>= _) = _
    rw [ih (by omega)]
    rfl

/-- The entries before the one that the file ends in are read. -/
theorem pointersFrom_of_cut {track count first : Nat} (before : 11 + 3 * track ≤ source.size)
    (cut : source.size < 11 + 3 * (track + 1)) (passed : first ≤ track)
    (inside : track < first + count) :
    pointersFrom source count (11 + 3 * first) = .error (tableError source track) := by
  induction count generalizing first with
  | zero => omega
  | succ count ih =>
    rcases Nat.eq_or_lt_of_le passed with rfl | later
    · rw [pointersFrom, pointer_of_cut cut]
      rfl
    · rw [pointersFrom, pointer_of_fits (by omega)]
      change (pointersFrom source count (11 + 3 * (first + 1)) >>= _) = _
      rw [ih later (by omega)]
      rfl

theorem pointers_eq (size : 11 ≤ source.size) :
    pointers source = pointersFrom source (trackCount source) 11 := by
  rw [pointers, Source.byteAt_of_lt (by omega)]
  rfl

theorem firstOutside_of_inside {size index : Nat} {pointers : List TrackPointer}
    (inside : ∀ pointer ∈ pointers, pointer.offset < size) :
    Sequence.firstOutside size index pointers = none := by
  induction pointers generalizing index with
  | nil => rfl
  | cons pointer rest ih =>
    rw [Sequence.firstOutside, if_pos (inside pointer List.mem_cons_self)]
    exact ih fun later among => inside later (List.mem_cons_of_mem _ among)

theorem firstOutside_of_outside {track count first : Nat}
    (outside : source.size ≤ listedStart source track) (passed : first ≤ track)
    (inside : track < first + count)
    (before : ∀ earlier, first ≤ earlier → earlier < track →
      listedStart source earlier < source.size) :
    Sequence.firstOutside source.size first ((List.range' first count).map (listed source)) =
      some (.trackOutside track (listedStart source track) source.size) := by
  induction count generalizing first with
  | zero => omega
  | succ count ih =>
    rw [List.range'_succ, List.map_cons, Sequence.firstOutside]
    rcases Nat.eq_or_lt_of_le passed with rfl | later
    · exact if_neg (Nat.not_lt_of_le outside)
    · have here : (listed source first).offset < source.size :=
        before first (Nat.le_refl _) later
      rw [if_pos here]
      apply ih later (by omega)
      intro earlier reached
      exact before earlier (by omega)

theorem trackCount_lt (source : Source) : trackCount source < 256 := (source.byte 10).toNat_lt

/-- A table of some tracks that fits is judged by where the tracks start. -/
theorem ofSource_of_table (headed : Headed source) (tracks : 1 ≤ trackCount source)
    (fits : 11 + 3 * trackCount source ≤ source.size) : ofSource format () source =
      match Sequence.firstOutside source.size 0 (table source) with
      | some error => .error error
      | none => .ok (fresh format () source (headerOf source) (table source)) := by
  have header : format.header source = .ok (headerOf source) := header_of_headed headed
  have pointers : format.pointers source = .ok (table source) := by
    rw [table, List.range_eq_range', ← pointersFrom_of_fits (by simpa using fits)]
    exact pointers_eq headed.size
  have count : (table source).length = trackCount source := by simp [table]
  have nonempty : (table source).isEmpty = false :=
    List.isEmpty_eq_false_iff.mpr (List.ne_nil_of_length_pos (count ▸ tracks))
  have few : ¬ Sequence.maxTracks < (table source).length :=
    count ▸ Nat.not_lt_of_gt (trackCount_lt source)
  rw [ofSource, header, pointers]
  simp only [Except.mapError, bind, Except.bind, nonempty, few, Bool.false_eq_true, if_false]
  cases Sequence.firstOutside source.size 0 (table source) <;> rfl

theorem ofSource_of_wellFormed (formed : WellFormed source) : ofSource format () source =
    .ok (fresh format () source (headerOf source) (table source)) := by
  have inside : Sequence.firstOutside source.size 0 (table source) = none :=
    firstOutside_of_inside (by simpa [table, listed] using formed.starts)
  rw [ofSource_of_table formed.toHeaded formed.tracks formed.table, inside]

theorem opened_fresh (source : Source) :
    Opened source (fresh format () source (headerOf source) (table source)) where
  source := rfl
  count := by simp [fresh, table]
  tracks place track found := by
    have starts : track = Track.starting place (listedStart source place)
        (listedChannel source place) := by
      simp only [fresh, table, List.getElem?_mapIdx, List.getElem?_map, Option.map_map] at found
      obtain ⟨index, at_place, rfl⟩ := Option.map_eq_some_iff.mp found
      obtain ⟨_, rfl⟩ := List.getElem?_eq_some_iff.mp at_place
      simp [listed]
    rw [starts]
    exact ⟨rfl, rfl, rfl, UInt8.toNat_and_four_bits _, rfl⟩
  ticksPerQuarter := headerOf_ticksPerQuarter_ne_zero source
  tickSync := headerOf_tickSync source

theorem ofSource_of_header {error : ReadError} (wrong : header source = .error error) :
    ofSource format () source = .error (.unreadable error) := by
  have header : format.header source = .error error := wrong
  rw [ofSource, header]
  rfl

theorem ofSource_of_pointers {error : ReadError} (headed : Headed source)
    (wrong : pointers source = .error error) :
    ofSource format () source = .error (.unreadable error) := by
  have header : format.header source = .ok (headerOf source) := header_of_headed headed
  have pointers : format.pointers source = .error error := wrong
  rw [ofSource, header, pointers]
  rfl

theorem ofSource_of_refused (refused : Refused source error) :
    ofSource format () source = .error error := by
  cases refused with
  | size short => exact ofSource_of_header (header_of_size short)
  | ident size other => exact ofSource_of_header (header_of_ident size other)
  | version size same other => exact ofSource_of_header (header_of_version size same other)
  | tracks headed none =>
    have header : format.header source = .ok (headerOf source) := header_of_headed headed
    have pointers : format.pointers source = .ok [] :=
      (pointers_eq headed.size).trans (by rw [none, pointersFrom])
    rw [ofSource, header, pointers]
    rfl
  | table headed inside before cut =>
    apply ofSource_of_pointers headed
    rw [pointers_eq headed.size]
    exact pointersFrom_of_cut before cut (Nat.zero_le _) (by omega)
  | @start track headed fits inside before outside =>
    have first : Sequence.firstOutside source.size 0 (table source) =
        some (.trackOutside track (listedStart source track) source.size) := by
      rw [table, List.range_eq_range']
      exact firstOutside_of_outside outside (Nat.zero_le track) (by omega) fun earlier _ =>
        before earlier
    rw [ofSource_of_table headed (Nat.zero_lt_of_lt inside) fits, first]

/-- Of a table that does not fit, the first entry that the file ends in. -/
theorem refused_of_table (headed : Headed source)
    (cut : source.size < 11 + 3 * trackCount source) : ∃ error, Refused source error := by
  have size := headed.size
  have first : source.size < 11 + 3 * ((source.size - 11) / 3 + 1) := by omega
  exact ⟨_, .table headed (by omega) (by omega) first⟩

theorem refused_of_start (headed : Headed source)
    (table : 11 + 3 * trackCount source ≤ source.size)
    (outside : ∃ track, track < trackCount source ∧ source.size ≤ listedStart source track) :
    ∃ error, Refused source error := by
  classical
  obtain ⟨inside, start⟩ := Nat.find_spec outside
  refine ⟨_, .start headed table inside (fun earlier before => ?_) start⟩
  by_contra beyond
  exact Nat.find_min outside before ⟨by omega, by omega⟩

theorem wellFormed_or_refused (source : Source) :
    WellFormed source ∨ ∃ error, Refused source error := by
  by_cases size : 11 ≤ source.size
  case neg => exact .inr ⟨_, .size (Nat.lt_of_not_le size)⟩
  by_cases same : source.toList.take 4 = [0x52, 0x53, 0x45, 0x51]
  case neg => exact .inr ⟨_, .ident size same⟩
  by_cases version : source.byte 4 = 1
  case neg => exact .inr ⟨_, .version size same version⟩
  have headed : Headed source := ⟨size, same, version⟩
  by_cases none : trackCount source = 0
  case pos => exact .inr ⟨_, .tracks headed none⟩
  by_cases table : 11 + 3 * trackCount source ≤ source.size
  case neg => exact .inr (refused_of_table headed (Nat.lt_of_not_le table))
  by_cases starts : ∀ track < trackCount source, listedStart source track < source.size
  · exact .inl { headed with tracks := Nat.pos_of_ne_zero none, table, starts }
  · refine .inr (refused_of_start headed table ?_)
    simpa using starts

theorem wellFormed_of_accepted {sequence : Sequence Unit}
    (accepted : ofSource format () source = .ok sequence) : WellFormed source := by
  rcases wellFormed_or_refused source with formed | ⟨error, refused⟩
  · exact formed
  · cases accepted.symm.trans (ofSource_of_refused refused)

/-- A file is opened just when nothing is wrong with it, the sequence is then as the file says, and
what else there is to say is the first thing that is wrong. -/
theorem ofSource_tells (source : Source) :
    ((∃ sequence, ofSource format () source = .ok sequence) ↔ WellFormed source) ∧
      (∀ sequence, ofSource format () source = .ok sequence → Opened source sequence) ∧
      ∀ error, ofSource format () source = .error error ↔ Refused source error := by
  refine ⟨?_, ?_, ?_⟩
  · constructor
    · rintro ⟨sequence, accepted⟩
      exact wellFormed_of_accepted accepted
    · intro formed
      exact ⟨_, ofSource_of_wellFormed formed⟩
  · intro sequence accepted
    have opens := ofSource_of_wellFormed (wellFormed_of_accepted accepted)
    cases accepted.symm.trans opens
    exact opened_fresh source
  · intro error
    constructor
    · intro fails
      rcases wellFormed_or_refused source with formed | ⟨first, refused⟩
      · cases fails.symm.trans (ofSource_of_wellFormed formed)
      · cases fails.symm.trans (ofSource_of_refused refused)
        exact refused
    · exact ofSource_of_refused

/-- One track, on channel 3 with a bit too many, that starts at the file's last byte. -/
def lone : Source := #[0x52, 0x53, 0x45, 0x51, 1, 3, 0, 0, 0, 0, 1, 0x23, 14, 0, 0]

theorem ofSource_tells_lone :
    (∃ sequence, ofSource format () lone = .ok sequence ∧ Opened lone sequence) ∧
    ofSource format () (lone.extract 0 13) =
      .error (.unreadable (.outOfRange 12 2 13 (some "track_pointer"))) := by
  constructor
  · have formed : WellFormed lone :=
      { size := by decide, ident := by decide, version := by decide, tracks := by decide,
        table := by decide, starts := by decide }
    obtain ⟨opens, opened, _⟩ := ofSource_tells lone
    obtain ⟨sequence, accepted⟩ := opens.mpr formed
    exact ⟨sequence, accepted, opened sequence accepted⟩
  · have headed : Headed (lone.extract 0 13) :=
      { size := by decide, ident := by decide, version := by decide }
    obtain ⟨_, _, refuses⟩ := ofSource_tells (lone.extract 0 13)
    have first : (0 : Nat) < trackCount (lone.extract 0 13) := by decide
    exact (refuses _).mpr (.table headed first (by decide) (by decide))

end RefSeq
end Sequencer
