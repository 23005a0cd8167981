import Sequencer.Proofs.Among.Home
import Sequencer.Proofs.Lists
import Sequencer.Proofs.Settled

/-! The timeline as rows, which name events by their places in the data. Where the events are stored
and at which indices the entries stand is of no account for them. -/
namespace Sequencer

/-- When an event starts, how long it lasts, and where its instruction stands. -/
structure Row where
  start : Nat
  duration : Nat
  place : Option Place
deriving DecidableEq, Repr

def Row.track? (row : Row) : Option Nat := row.place.map Place.track

/-- What the row's instruction makes of the transpose of all tracks. -/
def Row.changeAt? (source : Source) (row : Row) : Option TransposeChange := do
  let place ← row.place
  let kind ← RefSeq.kindAt? source place.offset
  kind.changeAt? row.start

namespace Shared

def rowOf (shared : Shared) (entry : Entry) : Row :=
  ⟨entry.start, entry.duration, (shared.eventOf? entry).map Event.place⟩

/-- The rows in the order in which they were entered. -/
def rows (shared : Shared) : List Row := shared.timeline.entries.toList.map shared.rowOf

/-- The rows of a settled timeline, by start. -/
def rowsByStart (shared : Shared) : List (Option Row) :=
  shared.timeline.byStart.toList.map fun index =>
    (shared.timeline.entries[index]?).map shared.rowOf

variable {shared : Shared}

theorem rows_getElem? (shared : Shared) (index : Nat) :
    shared.rows[index]? = (shared.timeline.entries[index]?).map shared.rowOf := by
  rw [rows, List.getElem?_map, Array.getElem?_toList]

theorem length_rows (shared : Shared) : shared.rows.length = shared.timeline.size := by
  rw [rows, List.length_map, Array.length_toList]
  rfl

theorem tags_eq_rows (shared : Shared) :
    shared.tags = shared.rows.map fun row => (row.start, row.place) := by
  unfold tags rows Timeline.skeleton
  rw [List.map_map, List.map_map]
  rfl

theorem indicesOf_rows (shared : Shared) (track : Nat) :
    (shared.indicesOf track).map (fun index => shared.rows[index]?) =
      (shared.rows.filter fun row => row.track? = some track).map some := by
  rw [← List.map_getElem?_filter, indicesOf, tags_eq_rows, List.zipIdx_map, List.filter_map,
    List.map_map, List.map_map, List.map_map]
  rfl

theorem rowsByStart_settle (shared : Shared) :
    rowsByStart { shared with timeline := shared.timeline.settle } =
      (shared.rows.mergeSort fun a b => a.start ≤ b.start).map some := by
  change shared.timeline.order.map (fun index =>
    (shared.timeline.entries[index]?).map shared.rowOf) = _
  have key : ∀ index, shared.timeline.startOf index =
      ((shared.timeline.entries[index]?).map shared.rowOf).elim 0 Row.start := by
    intro index
    unfold Timeline.startOf
    cases shared.timeline.entries[index]? <;> rfl
  have named : (List.range shared.timeline.size).map (fun index =>
      (shared.timeline.entries[index]?).map shared.rowOf) = shared.rows.map some := by
    rw [← List.map_getElem?_range, length_rows]
    exact List.map_congr_left fun index _ => (shared.rows_getElem? index).symm
  rw [Timeline.order_eq, List.map_mergeSort (s := fun a b : Option Row =>
    decide (a.elim 0 Row.start ≤ b.elim 0 Row.start)) fun i _ j _ => by rw [key, key], named]
  exact (List.map_mergeSort (f := some) fun _ _ _ _ => rfl).symm

end Shared

theorem Arena.Faithful.changeAt {source : Source} {arena : Arena} (faithful : arena.Faithful source)
    {id : Nat} {event : Event} (found : arena.get? id = some event) (entry : Entry) :
    event.kind.changeAt? entry.start =
      Row.changeAt? source ⟨entry.start, entry.duration, some event.place⟩ := by
  obtain ⟨player, reads, recording⟩ := faithful id event found
  subst reads
  unfold Player.recording? at recording
  split at recording
  · cases recording
  · rename_i instruction stop read
    obtain ⟨kind, recorded, rfl⟩ := Option.map_eq_some_iff.mp recording
    simp only [Row.changeAt?, Option.bind_eq_bind, Option.bind_some, Event.place]
    rw [Player.kindAt_of_read read]
    cases instruction with
    | cut => cases recorded
    | event | octaveNote | unknown =>
      cases recorded
      rfl

/-- Whether an event is one of control flow, the bytes of its instruction tell. -/
theorem Arena.Faithful.directs {source : Source} {arena : Arena} (faithful : arena.Faithful source)
    {id : Nat} {event : Event} (found : arena.get? id = some event) :
    event.kind.isControlFlow =
      (RefSeq.kindAt? source event.offset).any EventKind.isControlFlow := by
  obtain ⟨player, reads, recording⟩ := faithful id event found
  subst reads
  unfold Player.recording? at recording
  split at recording
  · cases recording
  · rename_i instruction stop read
    obtain ⟨kind, recorded, rfl⟩ := Option.map_eq_some_iff.mp recording
    rw [Player.kindAt_of_read read]
    cases instruction with
    | cut => cases recorded
    | event | octaveNote | unknown =>
      cases recorded
      rfl

namespace Shared

variable {shared : Shared}

/-- What a walk over the settled timeline collects of its entries, if that depends on the rows
alone. -/
theorem order_filterMap {α : Type} (shared : Shared) (f : Row → Option α) :
    (shared.timeline.order.filterMap fun index =>
      ((shared.timeline.entries[index]?).map shared.rowOf).bind f) =
      (shared.rows.mergeSort fun a b => a.start ≤ b.start).filterMap f := by
  have sorted := rowsByStart_settle shared
  change shared.timeline.order.map (fun index =>
    (shared.timeline.entries[index]?).map shared.rowOf) = _ at sorted
  have named := congrArg (List.filterMap fun row => row.bind f) sorted
  rw [List.filterMap_map, List.filterMap_map] at named
  exact named

/-- The changes of the transpose of all tracks, by start. -/
theorem changes_eq_rows {source : Source} (faithful : shared.arena.Faithful source) :
    shared.timeline.order.filterMap shared.changeAt? =
      (shared.rows.mergeSort fun a b => a.start ≤ b.start).filterMap (Row.changeAt? source) := by
  have change (index : Nat) : shared.changeAt? index =
      ((shared.timeline.entries[index]?).map shared.rowOf).bind (Row.changeAt? source) := by
    unfold changeAt?
    cases shared.timeline.entries[index]? with
    | none => rfl
    | some entry =>
      simp only [Option.map_some, Option.bind_eq_bind, Option.bind_some, rowOf]
      cases found : shared.eventOf? entry with
      | none => rfl
      | some event => exact faithful.changeAt found entry
  rw [show shared.changeAt? = _ from funext change]
  exact shared.order_filterMap (Row.changeAt? source)

end Shared

/-- The rows of a track are those that it makes on its own. -/
theorem Player.Home.rows {solo real : Player} (home : solo.Home real) :
    solo.shared.rows = real.shared.rows.filter fun row => row.track? = some solo.track.index := by
  have same : (real.shared.indicesOf solo.track.index).map (fun index => real.shared.rows[index]?) =
      solo.shared.rows.map some := by
    apply List.ext_getElem?
    intro k
    rw [List.getElem?_map, List.getElem?_map]
    cases there : (real.shared.indicesOf solo.track.index)[k]? with
    | none =>
      have outside := List.getElem?_eq_none_iff.mp there
      rw [home.timeline.size, ← Shared.length_rows] at outside
      rw [List.getElem?_eq_none outside]
      rfl
    | some index =>
      obtain ⟨mine, theirs, found, found', start, duration, event, event', stored, stored', place,
        _⟩ := home.timeline.entries k index there
      rw [Option.map_some, Shared.rows_getElem?, Shared.rows_getElem?, found, found']
      simp only [Option.map_some, Shared.rowOf, Shared.eventOf?, stored, stored', start, duration,
        place]
  rw [Shared.indicesOf_rows] at same
  exact (List.map_inj_right fun _ _ => Option.some.inj).mp same.symm

end Sequencer
