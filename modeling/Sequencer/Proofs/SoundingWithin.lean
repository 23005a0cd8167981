import Sequencer.Proofs.Sweep

/-! What sounds within a range of ticks. A sweep that has come to the first tick has passed just the
entries that have begun by then, so that those which sound there, and those which it meets before
the end of the range, are all that overlap the range, each of them once. -/
namespace Sequencer

theorem Timeline.nodup_sortedIndices (size : Nat) (key : Nat → Nat) :
    (sortedIndices size key).toList.Nodup := by
  rw [sortedIndices]
  exact (List.mergeSort_perm _ _).nodup_iff.mpr List.nodup_range

theorem Sweep.passed_nodup {key : Nat → Nat} {order : Array Nat} (nodup : order.toList.Nodup)
    (done tick : Nat) : (passed key order done tick).Nodup :=
  nodup.sublist ((List.takeWhile_sublist _).trans (List.drop_sublist ..))

/-- The entry takes up a tick from `first` on and before `past`. -/
def Entry.Overlaps (entry : Entry) (first past : Nat) : Prop :=
  entry.start < past ∧ first < entry.start + max entry.duration 1

/-- What overlaps a range is what sounds at one of its ticks: at the first one, or else where the
entry starts. -/
theorem Entry.overlaps_iff {entry : Entry} {first past : Nat} (ahead : first < past) :
    entry.Overlaps first past ↔ ∃ tick, first ≤ tick ∧ tick < past ∧
      entry.start ≤ tick ∧ tick < entry.start + max entry.duration 1 := by
  constructor
  · rintro ⟨begins, lasts⟩
    exact ⟨max first entry.start, by omega, by omega, by omega, by omega⟩
  · rintro ⟨tick, late, early, begun, lasts⟩
    exact ⟨by omega, by omega⟩

namespace Timeline

variable {timeline : Timeline} {first past : Nat}

/-- Indices of entries that overlap a range, by their places in the two orders. -/
theorem exists_overlaps_iff {index : Nat} :
    (∃ entry, timeline.entries[index]? = some entry ∧ entry.Overlaps first past) ↔
      index < timeline.size ∧ timeline.startOf index < past ∧ first < timeline.stopOf index := by
  by_cases inside : index < timeline.size
  · have found := Array.getElem?_eq_getElem inside
    simp only [Entry.Overlaps, startOf, stopOf, Entry.stop, found, Option.elim_some, inside,
      true_and, Option.some.injEq, exists_eq_left']
  · have outside : timeline.entries[index]? = none :=
      Array.getElem?_eq_none (Nat.le_of_not_lt inside)
    simp [inside, outside]

/-- What a sweep that stands at the first tick meets before the end of the range. -/
def ahead (timeline : Timeline) (sweep : Sweep) (past : Nat) : List Nat :=
  (timeline.byStart.toList.drop sweep.begun).takeWhile fun index => timeline.startOf index < past

theorem ahead_eq_passed (sweep : Sweep) (positive : 0 < past) :
    timeline.ahead sweep past =
      Sweep.passed timeline.startOf timeline.byStart sweep.begun (past - 1) := by
  have same : ∀ index, decide (timeline.startOf index < past) =
      decide (timeline.startOf index ≤ past - 1) := fun index => by
    rw [decide_eq_decide]
    omega
  simp only [ahead, Sweep.passed, same]

/-- What sounds where the sweep stands and what it meets later: all that overlaps the range. -/
theorem mem_sounding_append_ahead {sweep : Sweep} (ordered : timeline.Ordered)
    (stands : Sweep.Stands timeline sweep) (stood : sweep.tick = some first)
    (range : first < past) (index : Nat) :
    index ∈ sweep.sounding ++ timeline.ahead sweep past ↔
      index < timeline.size ∧ timeline.startOf index < past ∧ first < timeline.stopOf index := by
  simp only [Sweep.Stands, stood, Option.elim_some] at stands
  have lasting : timeline.startOf index < timeline.stopOf index ∨ timeline.size ≤ index := by
    by_cases inside : index < timeline.size
    · have found := Array.getElem?_eq_getElem inside
      simp only [startOf, stopOf, Entry.stop, found, Option.elim_some]
      omega
    · omega
  rw [List.mem_append, Sweep.sounding, Active.mem_sorted, stands.active,
    ahead_eq_passed sweep (by omega), stands.begun.mem_passed ordered.starts_sorted,
    ordered.mem_starts]
  omega

/-- No index is told twice: what is met later has not begun where the sweep stands. -/
theorem nodup_sounding_append_ahead {sweep : Sweep} (nodup : timeline.byStart.toList.Nodup)
    (stands : Sweep.Stands timeline sweep) (stood : sweep.tick = some first)
    (range : first < past) : (sweep.sounding ++ timeline.ahead sweep past).Nodup := by
  simp only [Sweep.Stands, stood, Option.elim_some] at stands
  refine List.nodup_append.mpr ⟨?_, ?_, ?_⟩
  · exact sweep.active.sorted_ascending.imp Nat.ne_of_lt
  · rw [ahead_eq_passed sweep (by omega)]
    exact Sweep.passed_nodup nodup ..
  · intro index here other later same
    have begun := (stands.active index).mp ((sweep.active.mem_sorted index).mp here)
    have behind := stands.begun.behind other ((List.takeWhile_sublist _).subset later)
    rw [same] at begun
    omega

theorem stands_at (ordered : timeline.Ordered) (tick : Nat) :
    Sweep.Stands timeline (Sweep.advance timeline tick {}) := by
  have start : Sweep.Stands timeline {} := Sweep.reached_start timeline
  exact start.advance ordered tick

section Settled

variable (settled : timeline.settled = true)
include settled

theorem sweep_of_settled : timeline.sweep = .ok {} := by
  rw [Timeline.sweep, show timeline.requireSettled = .ok () from if_pos settled]
  rfl

theorem soundingAt_of_settled (tick : Nat) :
    timeline.soundingAt tick = .ok (Sweep.sounding (Sweep.advance timeline tick {})) := by
  rw [soundingAt, sweep_of_settled settled]
  rfl

theorem soundingWithin_of_settled (range : first < past) :
    let sweep := Sweep.advance timeline first {}
    timeline.soundingWithin first past =
      .ok (sweep.sounding ++ timeline.ahead sweep past).mergeSort := by
  rw [soundingWithin, if_neg (Nat.not_le_of_lt range), sweep_of_settled settled]
  rfl

/-- What sounds at one tick, by its entry. -/
theorem mem_soundingAt (ordered : timeline.Ordered) {tick index : Nat} :
    (∃ here, timeline.soundingAt tick = .ok here ∧ index ∈ here) ↔
      ∃ entry, timeline.entries[index]? = some entry ∧
        entry.start ≤ tick ∧ tick < entry.start + max entry.duration 1 := by
  have told := (stands_at ordered tick).tells rfl
  rw [soundingAt_of_settled settled]
  simp only [Except.ok.injEq, exists_eq_left', told.sounding, told.mem]

end Settled

end Timeline

/-- Whatever was added, revised, settled and cleared before: a timeline that counts as settled tells
for every range the entries that overlap it, in ascending order, and these are the entries that it
tells for the ticks of the range one by one. -/
theorem Timeline.soundingWithin_tells {edits : List Timeline.Edit} {timeline : Timeline}
    (made : Timeline.edited edits = .ok timeline) (settled : timeline.settled = true)
    (first past : Nat) :
    ∃ found, timeline.soundingWithin first past = .ok found ∧ found.Pairwise (· < ·) ∧
      (∀ index, index ∈ found ↔ first < past ∧
        ∃ entry, timeline.entries[index]? = some entry ∧
          entry.start < past ∧ first < entry.start + max entry.duration 1) ∧
      ∀ index, index ∈ found ↔ ∃ tick, first ≤ tick ∧ tick < past ∧
        ∃ here, timeline.soundingAt tick = .ok here ∧ index ∈ here := by
  have honest := Timeline.honest_of_edited made
  have ordered := honest.ordered settled
  by_cases range : first < past
  · let sweep := Sweep.advance timeline first {}
    have stands : Sweep.Stands timeline sweep := stands_at ordered first
    have nodup : timeline.byStart.toList.Nodup := by
      rw [(honest settled).1]
      exact nodup_sortedIndices ..
    have members (index : Nat) : index ∈ (sweep.sounding ++ timeline.ahead sweep past).mergeSort ↔
        ∃ entry, timeline.entries[index]? = some entry ∧ entry.Overlaps first past := by
      rw [List.mem_mergeSort, mem_sounding_append_ahead ordered stands rfl range,
        exists_overlaps_iff]
    refine ⟨(sweep.sounding ++ timeline.ahead sweep past).mergeSort,
      soundingWithin_of_settled settled range,
      Active.ascending_of_nodup (nodup_sounding_append_ahead nodup stands rfl range),
      fun index => (members index).trans (and_iff_right range).symm, fun index => ?_⟩
    simp only [members, mem_soundingAt settled ordered, Entry.overlaps_iff range]
    constructor
    · rintro ⟨entry, there, tick, late, early, sounds⟩
      exact ⟨tick, late, early, entry, there, sounds⟩
    · rintro ⟨tick, late, early, entry, there, sounds⟩
      exact ⟨entry, there, tick, late, early, sounds⟩
  · refine ⟨[], ?_, List.Pairwise.nil, ?_, ?_⟩
    · rw [soundingWithin, if_pos (Nat.le_of_not_lt range)]
      rfl
    · intro index
      simp [range]
    · intro index
      simp only [List.not_mem_nil, false_iff]
      rintro ⟨tick, late, early, -⟩
      omega

/-- A range that meets an entry which lasts over all of it, one without a length, and one that
begins within; the one that ends where the range begins is left out. -/
theorem Timeline.soundingWithin_tells_seam :
    let timeline := Timeline.settle
      { entries := #[⟨12, 4, 0⟩, ⟨0, 10, 1⟩, ⟨10, 0, 2⟩, ⟨3, 4294967295, 3⟩, ⟨16, 2, 4⟩] }
    Timeline.edited [.add ⟨12, 4, 0⟩, .add ⟨0, 7, 1⟩, .settle, .setDuration 1 10, .add ⟨10, 0, 2⟩,
        .add ⟨3, 4294967295, 3⟩, .add ⟨16, 2, 4⟩, .settle] = .ok timeline ∧
      timeline.settled = true ∧ ∃ found, timeline.soundingWithin 10 16 = .ok found ∧
        ∀ index, index ∈ found ↔ index = 0 ∨ index = 2 ∨ index = 3 := by
  intro timeline
  have made : Timeline.edited [.add ⟨12, 4, 0⟩, .add ⟨0, 7, 1⟩, .settle, .setDuration 1 10,
      .add ⟨10, 0, 2⟩, .add ⟨3, 4294967295, 3⟩, .add ⟨16, 2, 4⟩, .settle] = .ok timeline := rfl
  obtain ⟨found, asked, -, members, -⟩ := Timeline.soundingWithin_tells made rfl 10 16
  refine ⟨made, rfl, found, asked, ?_⟩
  intro index
  rw [members]
  match index with
  | 0 => simp [timeline, Timeline.settle]
  | 1 => simp [timeline, Timeline.settle]
  | 2 => simp [timeline, Timeline.settle]
  | 3 => simp [timeline, Timeline.settle]
  | 4 => simp [timeline, Timeline.settle]
  | index + 5 => simp [timeline, Timeline.settle]

end Sequencer
