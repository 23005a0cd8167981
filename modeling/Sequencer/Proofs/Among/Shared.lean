import Sequencer.Proofs.Among.Sheet

/-! What a track shares with others. Its entries are of the same instructions as in a timeline of its
own, and when it plays it spares what is not its own. -/
namespace Sequencer

/-- Two positions hold events of one instruction of a track, in the stores of each. -/
def Arena.SamePlace (track : Nat) (solo shared : Arena) (mine theirs : Nat) : Prop :=
  ∃ event event', solo.get? mine = some event ∧ shared.get? theirs = some event' ∧
    event'.place = event.place ∧ event.track = track

theorem Arena.samePlace_storedId {solo shared : Arena} (mine : solo.Sound) (theirs : shared.Sound)
    (event : Event) : Arena.SamePlace event.track (solo.store event) (shared.store event)
      (solo.storedId event) (shared.storedId event) := by
  refine ⟨_, _, get_storedId mine event, get_storedId theirs event, ?_, ?_⟩
  · rw [place_getD_eventAt theirs, place_getD_eventAt mine]
  · exact congrArg Place.track (place_getD_eventAt mine event)

theorem Timeline.Hosts.add {same same' : Nat → Nat → Prop} {mine theirs : Timeline}
    {own : List Nat} (hosts : Timeline.Hosts same own mine theirs) (weaken : ∀ a b, same a b → same' a b)
    {start duration id id' : Nat} (new : same' id id') :
    Timeline.Hosts same' (own ++ [theirs.size]) (mine.add ⟨start, duration, id⟩)
      (theirs.add ⟨start, duration, id'⟩) where
  nodup := by
    refine List.nodup_append.mpr ⟨hosts.nodup, by simp, ?_⟩
    intro index mine last other same
    cases List.mem_singleton.mp other
    exact Nat.ne_of_lt (hosts.inside mine) same
  size := by
    rw [List.length_append, hosts.size]
    simp [Timeline.add, Timeline.size]
  entries := fun k index found => by
    rw [List.getElem?_append] at found
    split at found
    · obtain ⟨first, second, here, there, rest, lasting, event⟩ := hosts.entries k index found
      refine ⟨first, second, ?_, ?_, rest, lasting, weaken _ _ event⟩
      · exact (Array.getElem?_push_lt (Array.getElem?_eq_some_iff.mp here).1).trans
          ((Array.getElem?_eq_getElem _).symm.trans here)
      · exact (Array.getElem?_push_lt (Array.getElem?_eq_some_iff.mp there).1).trans
          ((Array.getElem?_eq_getElem _).symm.trans there)
    · rename_i past
      have last : k = own.length := by
        have bound := (List.getElem?_eq_some_iff.mp found).1
        simp only [List.length_singleton] at bound
        omega
      subst last
      rw [Nat.sub_self] at found
      cases found
      refine ⟨⟨start, duration, id⟩, ⟨start, duration, id'⟩, ?_, Array.getElem?_push_size, rfl,
        rfl, new⟩
      rw [hosts.size]
      exact Array.getElem?_push_size

namespace Shared

/-- The start of every entry, and the place of its event. -/
def tags (shared : Shared) : List (Nat × Option Place) :=
  shared.timeline.skeleton.map fun (start, id) => (start, (shared.arena.get? id).map Event.place)

/-- The indices of the entries of a track. -/
def indicesOf (shared : Shared) (track : Nat) : List Nat :=
  (shared.tags.zipIdx.filter fun (tag, _) => tag.2.map Place.track = some track).map Prod.snd

/-- All entries have their event in the store. -/
def Resolved (shared : Shared) : Prop := ∀ tag ∈ shared.tags, tag.2.isSome

/-- What is left alone of a track when others play: its entries and its events. -/
structure Keeps (track : Nat) (before after : Shared) : Prop where
  entries : ∀ index ∈ before.indicesOf track,
    after.timeline.entries[index]? = before.timeline.entries[index]?
  indices : after.indicesOf track = before.indicesOf track
  events : ∀ (id : Nat) (event : Event), before.arena.get? id = some event →
    after.arena.get? id = some event
  sound : before.arena.Sound → after.arena.Sound

variable {track : Nat} {first second third shared : Shared}

theorem Keeps.refl (track : Nat) (shared : Shared) : Keeps track shared shared :=
  ⟨fun _ _ => rfl, rfl, fun _ _ found => found, fun sound => sound⟩

theorem Keeps.trans (left : Keeps track first second) (right : Keeps track second third) :
    Keeps track first third where
  entries := fun index mine =>
    (right.entries index (left.indices ▸ mine)).trans (left.entries index mine)
  indices := right.indices.trans left.indices
  events := fun id event found => right.events id event (left.events id event found)
  sound := fun sound => right.sound (left.sound sound)

theorem length_tags (shared : Shared) : shared.tags.length = shared.timeline.size := by
  rw [tags, List.length_map, Timeline.length_skeleton]

theorem mem_indicesOf {index : Nat} : index ∈ shared.indicesOf track ↔
    ∃ start place, shared.tags[index]? = some (start, some place) ∧ place.track = track := by
  simp only [indicesOf, List.mem_map, List.mem_filter, decide_eq_true_eq, Option.map_eq_some_iff]
  constructor
  · rintro ⟨⟨⟨start, _⟩, _⟩, ⟨member, place, rfl, own⟩, rfl⟩
    exact ⟨start, place, List.mem_zipIdx_iff_getElem?.mp member, own⟩
  · rintro ⟨start, place, found, own⟩
    exact ⟨((start, some place), index), ⟨List.mem_zipIdx_iff_getElem?.mpr found, place, rfl, own⟩,
      rfl⟩

theorem inside_of_mem_indicesOf {index : Nat} (member : index ∈ shared.indicesOf track) :
    index < shared.timeline.size := by
  obtain ⟨start, place, tagged, _⟩ := mem_indicesOf.mp member
  rw [← length_tags]
  exact (List.getElem?_eq_some_iff.mp tagged).1

theorem not_mem_indicesOf_of_mem {index other : Nat} (member : index ∈ shared.indicesOf other)
    (apart : other ≠ track) : index ∉ shared.indicesOf track := by
  intro mine
  obtain ⟨_, _, tagged, theirs⟩ := mem_indicesOf.mp member
  obtain ⟨_, _, tagged', own⟩ := mem_indicesOf.mp mine
  cases tagged.symm.trans tagged'
  exact apart (theirs.symm.trans own)

theorem indicesOf_append {before after : Shared} {new : List (Nat × Option Place)}
    (tags : after.tags = before.tags ++ new) (track : Nat) : after.indicesOf track =
      before.indicesOf track ++ ((new.zipIdx before.timeline.size).filter fun (tag, _) =>
        tag.2.map Place.track = some track).map Prod.snd := by
  rw [indicesOf, tags, List.zipIdx_append, List.filter_append, List.map_append, length_tags]
  simp only [Nat.zero_add]
  rfl

theorem indicesOf_congr {before after : Shared} (tags : after.tags = before.tags) (track : Nat) :
    after.indicesOf track = before.indicesOf track := by
  rw [indicesOf, tags]
  rfl

theorem tags_congr {before after : Shared} (arena : after.arena = before.arena)
    (skeleton : after.timeline.skeleton = before.timeline.skeleton) : after.tags = before.tags := by
  rw [tags, skeleton, arena]
  rfl

theorem tags_enter (sound : shared.arena.Sound) (resolved : shared.Resolved) (tick : Nat)
    (event : Event) : (shared.enter tick event).tags = shared.tags ++ [(tick, some event.place)] := by
  have stored := Arena.get_storedId sound event
  have place := Arena.place_getD_eventAt sound event
  have skeleton : (shared.enter tick event).timeline.skeleton =
      shared.timeline.skeleton ++ [(tick, shared.arena.storedId event)] := by
    simp [Timeline.skeleton, Shared.enter, Timeline.add]
  have earlier : shared.timeline.skeleton.map (fun (start, id) =>
      (start, (((shared.enter tick event).arena.get? id).map Event.place))) = shared.tags := by
    apply List.map_congr_left
    rintro ⟨start, id⟩ member
    have known := resolved _ (List.mem_map_of_mem member)
    simp only [Option.isSome_map] at known
    obtain ⟨other, found⟩ := Option.isSome_iff_exists.mp known
    have kept : (shared.enter tick event).arena.get? id = some other :=
      Arena.get_store_of_get found
    dsimp only
    rw [found, kept]
  rw [tags, skeleton, List.map_append, earlier]
  simp only [List.map_cons, List.map_nil, Shared.enter, stored, Option.map_some, place]

end Shared
end Sequencer
