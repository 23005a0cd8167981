import Mathlib.Data.List.Induction
import Mathlib.Data.List.Nodup
import Sequencer.Proofs.Arena
import Sequencer.Proofs.Stable

/-! What the event store answers, whatever was inserted and cleared before. It has the first event
that was offered of each place since it was cleared last, and no other, so that its index and its
events tell the same. What a place is known by stays until the store is cleared. -/
namespace Sequencer.Arena

variable {arena : Arena} {event : Event} {place : Place} {id track : Nat}

theorem mem_toList : (id, event) ∈ arena.toList ↔ arena.get? id = some event := by
  simp only [toList, List.mem_filterMap, List.mem_range, Option.map_eq_some_iff, Prod.mk.injEq]
  constructor
  · rintro ⟨_, _, _, stored, rfl, rfl⟩
    exact stored
  · intro stored
    have inside : id < arena.size := (Array.getElem?_eq_some_iff.mp stored).1
    exact ⟨id, inside, event, stored, rfl, rfl⟩

theorem nodup_toList (arena : Arena) : arena.toList.Nodup := by
  apply List.Nodup.filterMap _ List.nodup_range
  intro first second entry here there
  obtain ⟨_, _, rfl⟩ := Option.map_eq_some_iff.mp here
  obtain ⟨_, _, same⟩ := Option.map_eq_some_iff.mp there
  exact (congrArg Prod.fst same).symm

theorem mem_ofTrack :
    (id, event) ∈ arena.ofTrack track ↔ arena.get? id = some event ∧ event.track = track := by
  simp [ofTrack, mem_toList]

theorem nodup_ofTrack (arena : Arena) (track : Nat) : (arena.ofTrack track).Nodup :=
  (List.mergeSort_perm _ _).nodup_iff.mpr ((nodup_toList arena).filter _)

theorem Sound.find_iff (sound : arena.Sound) :
    arena.find? place = some id ↔ ∃ event, arena.get? id = some event ∧ event.place = place := by
  constructor
  · exact sound.stored place id
  · rintro ⟨event, stored, rfl⟩
    exact sound.found id event stored

theorem Sound.id_unique (sound : arena.Sound) {id' : Nat} {event' : Event}
    (stored : arena.get? id = some event) (stored' : arena.get? id' = some event')
    (same : event.place = event'.place) : id = id' := by
  have found := sound.found id event stored
  rw [same, sound.found id' event' stored'] at found
  exact (Option.some.inj found).symm

/-- Two events of a track stand at two offsets, so that an order by offsets has no ties. -/
theorem Sound.ofTrack_ascends (sound : arena.Sound) (track : Nat) :
    (arena.ofTrack track).Pairwise fun a b => a.2.offset < b.2.offset := by
  have sorted : (arena.ofTrack track).Pairwise fun a b => a.2.offset ≤ b.2.offset :=
    List.ascending_mergeSort (fun entry : Nat × Event => entry.2.offset) _
  apply (sorted.and (nodup_ofTrack arena track)).imp_of_mem
  rintro ⟨id, event⟩ ⟨id', event'⟩ here there ⟨le, apart⟩
  obtain ⟨stored, own⟩ := mem_ofTrack.mp here
  obtain ⟨stored', own'⟩ := mem_ofTrack.mp there
  apply Nat.lt_of_le_of_ne le
  intro same
  have place : event.place = event'.place := congrArg₂ Place.mk (own.trans own'.symm) same
  cases sound.id_unique stored stored' place
  cases stored.symm.trans stored'
  exact apart rfl

theorem Sound.eventAt_eq_some_iff (sound : arena.Sound) :
    arena.eventAt? place = some event ↔
      ∃ id, arena.get? id = some event ∧ event.place = place := by
  constructor
  · intro there
    obtain ⟨id, known, stored⟩ := Option.bind_eq_some_iff.mp there
    exact ⟨id, stored, sound.place_of_eventAt there⟩
  · rintro ⟨id, stored, rfl⟩
    exact Option.bind_eq_some_iff.mpr ⟨id, sound.found id event stored, stored⟩

theorem eventAt_empty (place : Place) : ({} : Arena).eventAt? place = none := by
  have none : ({} : Arena).find? place = none := Std.TreeMap.getElem?_emptyc
  rw [eventAt?, none]
  rfl

/-- Only a place without an event gets the new one. -/
theorem Sound.eventAt_store (sound : arena.Sound) (event : Event) (place : Place) :
    (arena.store event).eventAt? place =
      (arena.eventAt? place).or (if event.place = place then some event else none) := by
  rw [eventAt?, find_store]
  split
  · rename_i here
    subst here
    rw [Option.bind_some, get_storedId sound]
    cases arena.eventAt? event.place <;> rfl
  · rw [Option.or_none, eventAt?]
    cases known : arena.find? place with
    | none => rfl
    | some id =>
      obtain ⟨earlier, stored, _⟩ := sound.stored place id known
      simp [stored, get_store_of_get stored]

theorem insert_of_known (known : arena.find? event.place = some id) :
    arena.insert event = ((id, false), arena) := by
  simp [insert, known]

theorem insert_of_new (new : arena.find? event.place = none) :
    arena.insert event = ((arena.size, true), arena.store event) := by
  simp [store, insert, new, size]

/-- An insertion into a store tells whether it adds the event, and the id that the first event
offered of its place is known by. -/
structure Answers (offered : List Event) (arena : Arena) (event : Event) (id : Nat) (new : Bool)
    (next : Arena) : Prop where
  adds : new = true ↔ next.events = arena.events.push event
  known : new = false → next = arena
  names : next.get? id = (offered ++ [event]).find? fun earlier => earlier.place = event.place

/-- A store tells what was offered to it: by its index, by its events, and of each track. -/
structure Tells (offered : List Event) (arena : Arena) : Prop where
  find : ∀ place id, arena.find? place = some id ↔
    ∃ event, arena.get? id = some event ∧ event.place = place
  single : ∀ id event id' event', arena.get? id = some event → arena.get? id' = some event' →
    event.place = event'.place → id = id'
  first : ∀ event, (∃ id, arena.get? id = some event) ↔
    (offered.find? fun earlier => earlier.place = event.place) = some event
  insert : ∀ event, Answers offered arena event (arena.insert event).1.1 (arena.insert event).1.2
    (arena.insert event).2
  ascends : ∀ track, (arena.ofTrack track).Pairwise fun a b => a.2.offset < b.2.offset
  lists : ∀ track id event, (id, event) ∈ arena.ofTrack track ↔
    arena.get? id = some event ∧ event.track = track

section Offered

variable {offered : List Event}
  (firsts : ∀ place, arena.eventAt? place = offered.find? fun event => event.place = place)
include firsts

theorem Sound.answers (sound : arena.Sound) (event : Event) :
    Answers offered arena event (arena.insert event).1.1 (arena.insert event).1.2
      (arena.insert event).2 := by
  have names : (arena.store event).get? (arena.storedId event) =
      (offered ++ [event]).find? fun earlier => earlier.place = event.place := by
    rw [get_storedId sound, firsts, List.find?_append]
    cases offered.find? fun earlier => earlier.place = event.place <;> simp
  cases known : arena.find? event.place with
  | some id =>
    rw [(store_known known).1, (store_known known).2] at names
    rw [insert_of_known known]
    constructor
    · constructor
      · intro new
        cases new
      · intro same
        have sizes := congrArg Array.size same
        simp at sizes
    · exact fun _ => rfl
    · exact names
  | none =>
    rw [(store_new known).2] at names
    rw [insert_of_new known]
    constructor
    · rw [(store_new known).1]
      exact iff_of_true rfl rfl
    · intro old
      cases old
    · exact names

theorem Sound.tells (sound : arena.Sound) : arena.Tells offered where
  find := fun _ _ => sound.find_iff
  single := fun _ _ _ _ => sound.id_unique
  first := fun event => by
    rw [← firsts, sound.eventAt_eq_some_iff]
    simp
  insert := sound.answers firsts
  ascends := sound.ofTrack_ascends
  lists := fun _ _ _ => mem_ofTrack

end Offered

/-- A change to a store. -/
inductive Edit where
  | insert (event : Event)
  | clear

def Edit.apply (arena : Arena) : Edit → Arena
  | .insert event => (arena.insert event).2
  | .clear => arena.clear

/-- The store that changes lead to from the empty one. -/
def edited (edits : List Edit) : Arena := edits.foldl Edit.apply {}

def Edit.offer (events : List Event) : Edit → List Event
  | .insert event => events ++ [event]
  | .clear => []

/-- The events that were handed to the store since it was last cleared, kept or not. -/
def offered (edits : List Edit) : List Event := edits.foldl Edit.offer []

theorem edited_push (edits : List Edit) (edit : Edit) :
    edited (edits ++ [edit]) = edit.apply (edited edits) := by
  rw [edited, List.foldl_append]
  rfl

theorem offered_push (edits : List Edit) (edit : Edit) :
    offered (edits ++ [edit]) = edit.offer (offered edits) := by
  rw [offered, List.foldl_append]
  rfl

theorem sound_edited (edits : List Edit) : (edited edits).Sound := by
  induction edits using List.reverseRecOn with
  | nil => exact sound_empty
  | append_singleton edits edit ih =>
    rw [edited_push]
    cases edit with
    | insert event => exact ih.store event
    | clear => exact sound_empty

/-- The store has the first event that was offered of each place. -/
theorem eventAt_edited (edits : List Edit) (place : Place) :
    (edited edits).eventAt? place = (offered edits).find? fun event => event.place = place := by
  induction edits using List.reverseRecOn with
  | nil => exact eventAt_empty place
  | append_singleton edits edit ih =>
    rw [edited_push, offered_push]
    cases edit with
    | insert event =>
      rw [Edit.offer, List.find?_append, ← ih]
      refine ((sound_edited edits).eventAt_store event place).trans (congrArg _ ?_)
      by_cases here : event.place = place <;> simp [here]
    | clear => exact eventAt_empty place

theorem edited_append (edits later : List Edit) :
    edited (edits ++ later) = later.foldl Edit.apply (edited edits) := List.foldl_append

/-- An id names the same event until the store is cleared. -/
theorem get_foldl_apply {later : List Edit} (kept : .clear ∉ later)
    (stored : arena.get? id = some event) :
    (later.foldl Edit.apply arena).get? id = some event := by
  induction later generalizing arena with
  | nil => exact stored
  | cons edit later ih =>
    obtain ⟨here, there⟩ := not_or.mp (mt List.mem_cons.mpr kept)
    apply ih there
    cases edit with
    | insert inserted => exact get_store_of_get stored
    | clear => exact absurd rfl here

/-- Whatever was inserted and cleared: the store tells what was offered to it since, and goes on to
name each event as before until it is cleared. -/
theorem edited_tells (edits : List Edit) :
    (edited edits).Tells (offered edits) ∧
      ∀ later : List Edit, .clear ∉ later → ∀ id event, (edited edits).get? id = some event →
        (edited (edits ++ later)).get? id = some event := by
  constructor
  · exact (sound_edited edits).tells (eventAt_edited edits)
  · intro later kept id event stored
    rw [edited_append]
    exact get_foldl_apply kept stored

/-- A place that had an event before the clearing, and two events after it. -/
theorem edited_tells_again :
    let volume (level : UInt8) : Event := ⟨.level .volume level, 0, 16, 2⟩
    let edits : List Edit := [.insert (volume 1), .clear, .insert ⟨.ret, 0, 32, 1⟩,
      .insert (volume 100), .insert (volume 50), .insert ⟨.trackEnd, 1, 16, 1⟩]
    let later : List Edit := [.insert (volume 7), .insert ⟨.rest 4, 0, 5, 2⟩]
    .clear ∉ later ∧ (edited edits).find? ⟨0, 16⟩ = some 1 ∧
      (edited (edits ++ later)).get? 1 = some (volume 100) := by
  intro volume edits later
  obtain ⟨tells, stays⟩ := edited_tells edits
  have kept : .clear ∉ later := by simp [later]
  have stored : (edited edits).get? 1 = some (volume 100) := rfl
  exact ⟨kept, (tells.find _ _).mpr ⟨_, stored, rfl⟩, stays later kept 1 _ stored⟩

end Sequencer.Arena
