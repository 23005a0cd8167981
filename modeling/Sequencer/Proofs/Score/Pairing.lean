import Sequencer.Proofs.Score.Run
import Sequencer.Proofs.Stable

/-! Notes in the finished MIDI. Each entry of a note has a pair of messages of its own, and there are
no other note messages. Pairs stay together when notes are transposed and messages are sorted. -/
namespace Sequencer

/-- The note messages among `events` are pairs, one for each of the `entries`: from its start to its
end, with one key. -/
structure Labelled.Pairing (labelled : Labelled) (channel : UInt8) (events : List MidiEvent)
    (entries : Nat → Entry → Prop) : Prop where
  messages : labelled.map Prod.fst = events
  notes : ∀ item ∈ labelled, item.2.isSome = item.1.message.isNote
  labels : ∀ item ∈ labelled, ∀ index ∈ item.2, ∃ entry, entries index entry
  whole : ∀ index entry, entries index entry → labelled.Whole channel index entry

namespace MidiMessage

theorem isNote_shift (message : MidiMessage) (semitones : Int) :
    (message.shift semitones).isNote = message.isNote := by
  cases message <;> rfl

end MidiMessage

theorem MidiEvent.isNote_transpose (transposeAt : Nat → Int) (event : MidiEvent) :
    (event.transpose transposeAt).message.isNote = event.message.isNote := by
  unfold transpose
  split
  · rfl
  · dsimp only
    split
    · rfl
    · exact MidiMessage.isNote_shift ..

namespace Labelled

variable {labelled : Labelled} {channel : UInt8} {events : List MidiEvent}
  {entries mine theirs : Nat → Entry → Prop} {own : List Nat} {index k : Nat} {entry : Entry}

/-- The labels of a track's own entries as those of the timeline of all tracks. -/
def relabel (own : List Nat) (labelled : Labelled) : Labelled :=
  labelled.map fun item => (item.1, item.2.map (Sequencer.relabel own))

theorem voice_relabel (nodup : own.Nodup) (there : own[k]? = some index)
    (inside : ∀ item ∈ labelled, ∀ other ∈ item.2, other < own.length) :
    (labelled.relabel own).voice index = labelled.voice k := by
  unfold voice relabel
  rw [List.filter_map, List.map_map]
  have same : labelled.filter ((fun item : MidiEvent × Option Nat => item.2 = some index) ∘
      fun item => (item.1, item.2.map (Sequencer.relabel own))) =
        labelled.filter fun item => item.2 = some k := by
    refine List.filter_congr fun item member => ?_
    cases label : item.2 with
    | none => simp [label]
    | some other =>
      have bound := inside item member other label
      have found : own[other]? = some own[other] := List.getElem?_eq_getElem bound
      have moved : Sequencer.relabel own other = own[other] := by
        rw [Sequencer.relabel, found, Option.getD_some]
      simp only [Function.comp_apply, label, Option.map_some, moved, Option.some.injEq]
      refine decide_eq_decide.mpr ⟨?_, ?_⟩
      · rintro rfl
        exact (List.getElem?_inj bound nodup).mp (found.trans there.symm)
      · rintro rfl
        exact Option.some.inj (found.symm.trans there)
  rw [same]
  rfl

theorem Pairing.relabel (pairing : labelled.Pairing channel events mine) (nodup : own.Nodup)
    (known : ∀ k entry, mine k entry → ∃ index entry', own[k]? = some index ∧
      theirs index entry')
    (hosts : ∀ index entry', theirs index entry' → ∃ k entry, own[k]? = some index ∧
      mine k entry ∧ entry.start = entry'.start ∧ entry.duration = entry'.duration) :
    (labelled.relabel own).Pairing channel events theirs where
  messages := by
    rw [Labelled.relabel, List.map_map, ← pairing.messages]
    rfl
  notes := fun item member => by
    obtain ⟨earlier, there, rfl⟩ := List.mem_map.mp member
    exact (Option.isSome_map ..).trans (pairing.notes earlier there)
  labels := fun item member index label => by
    obtain ⟨earlier, there, rfl⟩ := List.mem_map.mp member
    obtain ⟨k, mine, rfl⟩ := Option.map_eq_some_iff.mp label
    obtain ⟨entry, found⟩ := pairing.labels earlier there k mine
    obtain ⟨index, entry', at_k, found'⟩ := known k entry found
    refine ⟨entry', ?_⟩
    rw [Sequencer.relabel, at_k]
    exact found'
  whole := fun index entry' found => by
    obtain ⟨k, entry, there, found, start, duration⟩ := hosts index entry' found
    obtain ⟨key, velocity, transposeTick, voice⟩ := pairing.whole k entry found
    have inside : ∀ item ∈ labelled, ∀ other ∈ item.2, other < own.length := by
      intro item member other label
      obtain ⟨entry, found⟩ := pairing.labels item member other label
      obtain ⟨_, _, there, _⟩ := known other entry found
      exact (List.getElem?_eq_some_iff.mp there).1
    refine ⟨key, velocity, transposeTick, ?_⟩
    rw [voice_relabel nodup there inside, voice, start, duration]

def transpose (transposeAt : Nat → Int) (labelled : Labelled) : Labelled :=
  labelled.map fun item => (item.1.transpose transposeAt, item.2)

theorem voice_transpose (transposeAt : Nat → Int) (labelled : Labelled) (index : Nat) :
    (labelled.transpose transposeAt).voice index =
      (labelled.voice index).map (MidiEvent.transpose transposeAt) := by
  unfold voice transpose
  rw [List.filter_map, List.map_map, List.map_map]
  rfl

theorem Whole.transpose (whole : labelled.Whole channel index entry) (transposeAt : Nat → Int) :
    (labelled.transpose transposeAt).Whole channel index entry := by
  obtain ⟨key, velocity, transposeTick, voice⟩ := whole
  unfold Whole
  rw [voice_transpose, voice]
  cases transposeTick with
  | none => exact ⟨key, velocity, none, rfl⟩
  | some tick =>
    by_cases unshifted : transposeAt tick = 0
    · exact ⟨key, velocity, some tick, by simp [MidiEvent.transpose, unshifted]⟩
    · exact ⟨clampKey (key.toNat + transposeAt tick), velocity, some tick,
        by simp [MidiEvent.transpose, unshifted, MidiMessage.shift]⟩

theorem Pairing.transpose (pairing : labelled.Pairing channel events entries)
    (transposeAt : Nat → Int) : (labelled.transpose transposeAt).Pairing channel
      (events.map (MidiEvent.transpose transposeAt)) entries where
  messages := by
    rw [← pairing.messages, Labelled.transpose, List.map_map, List.map_map]
    rfl
  notes := fun item member => by
    obtain ⟨earlier, there, rfl⟩ := List.mem_map.mp member
    exact (pairing.notes earlier there).trans (MidiEvent.isNote_transpose ..).symm
  labels := fun item member index label => by
    obtain ⟨earlier, there, rfl⟩ := List.mem_map.mp member
    exact pairing.labels earlier there index label
  whole := fun index entry found => (pairing.whole index entry found).transpose transposeAt

/-- Messages without ends, by tick. -/
def sort (labelled : Labelled) : Labelled :=
  (labelled.filter fun item => !MidiTrack.isEnd item.1).mergeSort fun a b => a.1.tick ≤ b.1.tick

theorem map_fst_sort (labelled : Labelled) : labelled.sort.map Prod.fst =
    ((labelled.map Prod.fst).filter fun event => !MidiTrack.isEnd event).mergeSort
      fun a b => a.tick ≤ b.tick := by
  rw [List.filter_map]
  exact List.map_mergeSort fun _ _ _ _ => rfl

/-- Messages of an entry that are in order already stay as they are. -/
theorem voice_sort_of_ordered (notes : ∀ event ∈ labelled.voice index, MidiTrack.isEnd event = false)
    (ordered : (labelled.voice index).Pairwise fun a b => a.tick ≤ b.tick) :
    labelled.sort.voice index = labelled.voice index := by
  have own : (labelled.filter fun item => !MidiTrack.isEnd item.1).filter
      (fun item => item.2 = some index) = labelled.filter fun item => item.2 = some index := by
    rw [List.filter_filter]
    refine List.filter_congr fun item member => ?_
    by_cases mine : item.2 = some index
    · have sounding : item.1 ∈ labelled.voice index :=
        List.mem_map.mpr ⟨item, List.mem_filter.mpr ⟨member, decide_eq_true mine⟩, rfl⟩
      simp [notes item.1 sounding]
    · simp [mine]
  have ticks : ((labelled.filter fun item => !MidiTrack.isEnd item.1).filter
      fun item => item.2 = some index).Pairwise fun a b => decide (a.1.tick ≤ b.1.tick) = true := by
    rw [own]
    exact (List.pairwise_map.mp ordered).imp decide_eq_true
  have sorted := List.filter_mergeSort
    (fun a b c => by simpa using Nat.le_trans)
    (fun a b => by simpa using Nat.le_total ..) ticks
  unfold Labelled.voice sort
  rw [sorted, own]

theorem voice_sort (whole : labelled.Whole channel index entry) :
    labelled.sort.voice index = labelled.voice index := by
  obtain ⟨key, velocity, transposeTick, voice⟩ := whole
  refine voice_sort_of_ordered ?_ ?_
  · rw [voice]
    simp [MidiTrack.isEnd]
  · rw [voice]
    simp

theorem Pairing.sort (pairing : labelled.Pairing channel events entries) {last : MidiEvent}
    (ends : last.message = .endOfTrack) : Labelled.Pairing (labelled.sort ++ [(last, none)]) channel
      (((events.filter fun event => !MidiTrack.isEnd event).mergeSort
        fun a b => a.tick ≤ b.tick) ++ [last]) entries := by
  have earlier {item : MidiEvent × Option Nat} (member : item ∈ labelled.sort) :
      item ∈ labelled := (List.mem_filter.mp (List.mem_mergeSort.mp member)).1
  constructor
  · rw [List.map_append, map_fst_sort, pairing.messages]
    rfl
  · refine List.forall_mem_append.mpr ⟨fun item member => pairing.notes item (earlier member),
      List.forall_mem_singleton.mpr ?_⟩
    rw [ends]
    rfl
  · refine List.forall_mem_append.mpr ⟨fun item member => pairing.labels item (earlier member),
      List.forall_mem_singleton.mpr ?_⟩
    rintro _ ⟨⟩
  · intro index entry found
    have whole := pairing.whole index entry found
    unfold Whole
    rw [voice_push_other (fun same => by cases same), voice_sort whole]
    exact whole

theorem Pairing.finalize (midi : MidiTrack) (pairing : labelled.Pairing channel
    midi.events.toList entries) : ∃ labelled' : Labelled,
      labelled'.Pairing channel midi.finalize.events.toList entries :=
  ⟨_, pairing.sort rfl⟩

end Labelled
end Sequencer
