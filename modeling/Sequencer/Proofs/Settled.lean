import Sequencer.Transpose
import Sequencer.Proofs.Among.Shared
import Sequencer.Proofs.Outcome

/-! The end of a pass: the timeline is settled, and a walk over it collects the transposes. It does
not fail if all entries have their events in the store. -/
namespace Sequencer

namespace Timeline

def order (timeline : Timeline) : List Nat := timeline.settle.byStart.toList

theorem order_eq (timeline : Timeline) : timeline.order =
    (List.range timeline.size).mergeSort fun i j => timeline.startOf i ≤ timeline.startOf j :=
  List.toList_toArray ..

theorem mem_order {timeline : Timeline} {index : Nat} :
    index ∈ timeline.order ↔ index < timeline.size := by
  rw [order_eq, List.mem_mergeSort, List.mem_range]

end Timeline

/-- A change of the transpose of all tracks. -/
def EventKind.changeAt? (start : Nat) : EventKind → Option TransposeChange
  | .transpose .all semitones => some ⟨start, semitones.toInt⟩
  | _ => none

namespace Shared

def eventOf? (shared : Shared) (entry : Entry) : Option Event := shared.arena.get? entry.event

/-- The change that the entry at an index makes to the transpose of all tracks. -/
def changeAt? (shared : Shared) (index : Nat) : Option TransposeChange := do
  let entry ← shared.timeline.entries[index]?
  let event ← shared.eventOf? entry
  event.kind.changeAt? entry.start

variable {shared : Shared}

theorem Resolved.event (resolved : shared.Resolved) {index : Nat}
    (inside : index < shared.timeline.size) : ∃ entry event,
      shared.timeline.entries[index]? = some entry ∧ shared.eventOf? entry = some event := by
  have found : shared.timeline.entries[index]? = some shared.timeline.entries[index] :=
    Array.getElem?_eq_getElem inside
  have tagged : shared.tags[index]? = some (shared.timeline.entries[index].start,
      (shared.eventOf? shared.timeline.entries[index]).map Event.place) := by
    simp only [tags, Timeline.skeleton, List.getElem?_map, Array.getElem?_toList, found]
    rfl
  have known := resolved _ (List.mem_of_getElem? tagged)
  rw [Option.isSome_map] at known
  obtain ⟨event, there⟩ := Option.isSome_iff_exists.mp known
  exact ⟨_, event, found, there⟩

end Shared

namespace Transposes

theorem ofAll_collect (transposes : Transposes) (index : Nat) (entry : Entry) (event : Event) :
    (transposes.collect index entry event).ofAll.toList =
      transposes.ofAll.toList ++ (event.kind.changeAt? entry.start).toList := by
  unfold collect EventKind.changeAt?
  cases event.kind with
  | transpose scope semitones => cases scope <;> simp [withTrack]
  | _ => simp [withTrack]

theorem collectAll_yields {shared : Shared} (resolved : shared.Resolved) (timeline : Timeline)
    (entries : timeline.entries = shared.timeline.entries) (indices : List Nat)
    (inside : ∀ index ∈ indices, index < shared.timeline.size) (transposes : Transposes) :
    (collectAll timeline shared.arena indices transposes).Yields fun all =>
      all.ofAll.toList = transposes.ofAll.toList ++ indices.filterMap shared.changeAt? := by
  induction indices generalizing transposes with
  | nil => exact Except.yields_ok (by simp)
  | cons index rest ih =>
    obtain ⟨entry, event, found, stored⟩ := resolved.event (inside index List.mem_cons_self)
    have got : timeline.get index = .ok entry := by rw [Timeline.get, entries, found]
    have change : shared.changeAt? index = event.kind.changeAt? entry.start := by
      simp only [Shared.changeAt?, found, stored, Option.bind_eq_bind, Option.bind_some]
    have known : shared.arena.get? entry.event = some event := stored
    rw [collectAll, got]
    simp only [Bind.bind, Except.bind, known]
    refine (ih (fun index member => inside index (List.mem_cons_of_mem _ member)) _).mono ?_
    intro all collected
    rw [collected, ofAll_collect, List.append_assoc, List.filterMap_cons, change]
    cases event.kind.changeAt? entry.start <;> rfl

/-- The walk over a settled timeline finds the changes in the order of their starts. -/
theorem ofTimeline_yields {shared : Shared} (resolved : shared.Resolved) :
    (ofTimeline shared.timeline.settle shared.arena).Yields fun transposes =>
      transposes.ofAll.toList = shared.timeline.order.filterMap shared.changeAt? :=
  (collectAll_yields resolved shared.timeline.settle rfl shared.timeline.order
    (fun _ member => Timeline.mem_order.mp member) _).mono fun _ collected => collected

end Transposes
end Sequencer
