import Mathlib.Data.List.Nodup
import Sequencer.Proofs.Charts
import Sequencer.Proofs.Player.Alike

/-! Timelines that read the same: their entries start and last as long, and are of the same events,
wherever the stores have these. The transposes are collected from what is read. -/
namespace Sequencer

/-- An entry of a timeline with the event that it names. -/
structure Line where
  start : Nat
  duration : Nat
  event : Option Event

namespace Shared

/-- The timeline in the order in which it was played. -/
def lines (shared : Shared) : List Line :=
  shared.timeline.entries.toList.map fun entry =>
    ⟨entry.start, entry.duration, shared.eventOf? entry⟩

variable {shared other : Shared}

theorem lines_getElem? (shared : Shared) (index : Nat) : shared.lines[index]? =
    (shared.timeline.entries[index]?).map fun entry =>
      ⟨entry.start, entry.duration, shared.eventOf? entry⟩ := by
  rw [lines, List.getElem?_map, Array.getElem?_toList]

theorem size_of_lines (same : other.lines = shared.lines) :
    other.timeline.size = shared.timeline.size := by
  have lengths := congrArg List.length same
  simpa [lines, Timeline.size] using lengths

/-- An entry that starts and lasts as long, and has the same event. -/
structure SameEntry (shared other : Shared) (entry entry' : Entry) : Prop where
  start : entry'.start = entry.start
  duration : entry'.duration = entry.duration
  event : other.eventOf? entry' = shared.eventOf? entry

theorem entries_of_lines (same : other.lines = shared.lines) (index : Nat) :
    Option.Rel (SameEntry shared other) shared.timeline.entries[index]?
      other.timeline.entries[index]? := by
  have found := congrArg (fun lines : List Line => lines[index]?) same
  rw [lines_getElem?, lines_getElem?] at found
  cases here : shared.timeline.entries[index]? with
  | none =>
    cases there : other.timeline.entries[index]? with
    | none => exact .none
    | some entry' => simp [here, there] at found
  | some entry =>
    cases there : other.timeline.entries[index]? with
    | none => simp [here, there] at found
    | some entry' =>
      simp only [here, there, Option.map_some, Option.some.injEq, Line.mk.injEq] at found
      obtain ⟨start, duration, event⟩ := found
      exact .some ⟨start, duration, event⟩

theorem startOf_of_lines (same : other.lines = shared.lines) :
    other.timeline.startOf = shared.timeline.startOf := by
  funext index
  unfold Timeline.startOf
  have entries := entries_of_lines same index
  generalize shared.timeline.entries[index]? = mine, other.timeline.entries[index]? = theirs
    at entries
  cases entries with
  | none => rfl
  | some entry => exact entry.start

theorem stopOf_of_lines (same : other.lines = shared.lines) :
    other.timeline.stopOf = shared.timeline.stopOf := by
  funext index
  unfold Timeline.stopOf
  have entries := entries_of_lines same index
  generalize shared.timeline.entries[index]? = mine, other.timeline.entries[index]? = theirs
    at entries
  cases entries with
  | none => rfl
  | some entry =>
    simp only [Option.elim_some, Entry.stop]
    rw [entry.start, entry.duration]

theorem orders_of_lines (same : other.lines = shared.lines) :
    other.timeline.settle.byStart = shared.timeline.settle.byStart ∧
      other.timeline.settle.byStop = shared.timeline.settle.byStop := by
  unfold Timeline.settle
  dsimp only
  rw [size_of_lines same, startOf_of_lines same, stopOf_of_lines same]
  exact ⟨rfl, rfl⟩

end Shared

/-- Whatever both stores have of a place is one event. -/
def Arena.Agrees (arena other : Arena) : Prop :=
  ∀ {id id' : Nat} {event event' : Event}, arena.get? id = some event →
    other.get? id' = some event' → event'.place = event.place → event' = event

theorem Arena.Charted.agrees {source : Source} {tracks : List Track} {arena other : Arena}
    (charted : arena.Charted source tracks) (charted' : other.Charted source tracks)
    (ascending : tracks.Pairwise fun first second => first.index < second.index) :
    arena.Agrees other := by
  intro id id' event event' found found' place
  obtain ⟨track, member, index, first⟩ := charted id event found
  obtain ⟨track', member', index', first'⟩ := charted' id' event' found'
  have owner : event'.track = event.track := congrArg Place.track place
  have distinct : (tracks.map Track.index).Nodup :=
    (List.pairwise_map.mpr ascending).imp Nat.ne_of_lt
  cases List.inj_on_of_nodup_map distinct member' member (by rw [index', owner, index])
  rw [first.unique first' (congrArg Place.offset place), owner]

theorem Shared.durations_of_nameless {shared other : Shared}
    (alike : other.nameless = shared.nameless) :
    other.timeline.entries.toList.map Entry.duration =
      shared.timeline.entries.toList.map Entry.duration := by
  have entries := congrArg (fun shared : Shared =>
    shared.timeline.entries.toList.map Entry.duration) alike
  have blind (shared : Shared) : shared.nameless.timeline.entries.toList.map Entry.duration =
      shared.timeline.entries.toList.map Entry.duration := by
    simp [nameless, withGuise, Timeline.rename, Function.comp_def]
  rwa [blind, blind] at entries

theorem Shared.lines_eq {shared other : Shared} (alike : other.nameless = shared.nameless)
    (tags : other.tags = shared.tags) (agrees : shared.arena.Agrees other.arena) :
    other.lines = shared.lines := by
  have lasting : other.timeline.entries.toList.map Entry.duration =
      shared.timeline.entries.toList.map Entry.duration := durations_of_nameless alike
  have both := congrArg₂ List.zip tags lasting
  unfold Shared.tags Timeline.skeleton at both
  rw [List.map_map, List.map_map, List.zip_map', List.zip_map'] at both
  refine List.map_eq_of_map both fun entry _ entry' _ same => ?_
  obtain ⟨tag, duration⟩ := Prod.mk.inj same
  obtain ⟨start, place⟩ := Prod.mk.inj tag
  have events : other.eventOf? entry' = shared.eventOf? entry := by
    unfold eventOf?
    cases found : shared.arena.get? entry.event with
    | none => rwa [found, Option.map_none, Option.map_eq_none_iff] at place
    | some event =>
      rw [found, Option.map_some] at place
      obtain ⟨event', found', place⟩ := Option.map_eq_some_iff.mp place
      rw [found', agrees found found' place]
  rw [start, duration, events]

namespace Transposes

variable {shared other : Shared}

/-- The walk that collects the transposes reads nothing but the lines. -/
theorem collectAll_of_lines (same : other.lines = shared.lines) (indices : List Nat)
    (transposes : Transposes) :
    collectAll other.timeline.settle other.arena indices transposes =
      collectAll shared.timeline.settle shared.arena indices transposes := by
  induction indices generalizing transposes with
  | nil => rfl
  | cons index rest ih =>
    have sizes : other.timeline.settle.size = shared.timeline.settle.size :=
      Shared.size_of_lines same
    have entries : Option.Rel (Shared.SameEntry shared other)
        shared.timeline.settle.entries[index]? other.timeline.settle.entries[index]? :=
      Shared.entries_of_lines same index
    unfold collectAll Timeline.get
    rw [sizes]
    generalize shared.timeline.settle.entries[index]? = mine,
      other.timeline.settle.entries[index]? = theirs at entries
    cases entries with
    | none => rfl
    | @some entry entry' alike =>
      have event : other.arena.get? entry'.event = shared.arena.get? entry.event := alike.event
      have collects (event : Event) : transposes.collect index entry' event =
          transposes.collect index entry event := by
        unfold collect
        rw [alike.start]
      simp only [bind, Except.bind]
      rw [event]
      cases shared.arena.get? entry.event with
      | none => rfl
      | some event =>
        dsimp only
        rw [collects, ih]

theorem ofTimeline_of_lines (same : other.lines = shared.lines) :
    ofTimeline other.timeline.settle other.arena =
      ofTimeline shared.timeline.settle shared.arena := by
  have order := (Shared.orders_of_lines same).1
  have sizes : other.timeline.settle.size = shared.timeline.settle.size :=
    Shared.size_of_lines same
  change collectAll _ _ other.timeline.settle.byStart.toList _ =
    collectAll _ _ shared.timeline.settle.byStart.toList _
  rw [order, sizes]
  exact collectAll_of_lines same _ _

end Transposes

end Sequencer
