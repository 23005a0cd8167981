import Sequencer.Event.Arena

/-! The event store is sound: its index finds just the events that it holds, each at its own
place. An event that is stored stays as it is. -/
namespace Sequencer.Arena

structure Sound (arena : Arena) : Prop where
  stored : ∀ place id, arena.find? place = some id →
    ∃ event, arena.get? id = some event ∧ event.place = place
  found : ∀ id event, arena.get? id = some event → arena.find? event.place = some id

def eventAt? (arena : Arena) (place : Place) : Option Event :=
  (arena.find? place).bind arena.get?

theorem sound_empty : Sound {} where
  stored := fun place id found => by
    have none : ({} : Arena).find? place = none := Std.TreeMap.getElem?_emptyc
    rw [none] at found
    cases found
  found := fun id event stored => by simp [get?] at stored

def store (arena : Arena) (event : Event) : Arena := (arena.insert event).2

def storedId (arena : Arena) (event : Event) : Nat := (arena.insert event).1.1

variable {arena : Arena} {event : Event}

theorem store_known {id : Nat} (known : arena.find? event.place = some id) :
    arena.store event = arena ∧ arena.storedId event = id := by
  simp [store, storedId, insert, known]

theorem store_new (new : arena.find? event.place = none) :
    arena.store event =
      ⟨arena.events.push event, arena.index.insert event.place arena.events.size⟩ ∧
    arena.storedId event = arena.events.size := by
  simp [store, storedId, insert, new]

theorem find_store (arena : Arena) (event : Event) (place : Place) :
    (arena.store event).find? place =
      if event.place = place then some (arena.storedId event) else arena.find? place := by
  cases known : arena.find? event.place with
  | some id =>
    rw [(store_known known).1, (store_known known).2]
    split
    · rename_i same
      rw [← same, known]
    · rfl
  | none =>
    rw [(store_new known).1, (store_new known).2]
    simp only [find?, Std.TreeMap.getElem?_insert, Std.LawfulEqCmp.compare_eq_iff_eq]

/-- An event of the place is in the store. -/
def Knows (arena : Arena) (place : Place) : Prop := (arena.find? place).isSome

theorem Knows.store {place : Place} (knows : arena.Knows place) (event : Event) :
    (arena.store event).Knows place := by
  unfold Knows
  rw [find_store]
  split
  · rfl
  · exact knows

theorem knows_store (arena : Arena) (event : Event) : (arena.store event).Knows event.place := by
  unfold Knows
  rw [find_store, if_pos rfl]
  rfl

theorem Knows.store_eq (knows : arena.Knows event.place) : arena.store event = arena := by
  obtain ⟨id, known⟩ := Option.isSome_iff_exists.mp knows
  exact (store_known known).1

theorem get_store_of_get {id : Nat} {earlier : Event} (stored : arena.get? id = some earlier) :
    (arena.store event).get? id = some earlier := by
  cases known : arena.find? event.place with
  | some place =>
    rw [(store_known known).1]
    exact stored
  | none =>
    rw [(store_new known).1]
    have inside : id < arena.events.size := by
      simp only [get?] at stored
      exact (Array.getElem?_eq_some_iff.mp stored).1
    simp only [get?] at stored ⊢
    rw [Array.getElem?_push_lt inside, ← Array.getElem?_eq_getElem inside, stored]

theorem get_storedId (sound : arena.Sound) (event : Event) :
    (arena.store event).get? (arena.storedId event) =
      some ((arena.eventAt? event.place).getD event) := by
  cases known : arena.find? event.place with
  | some id =>
    obtain ⟨stored, found, _⟩ := sound.stored _ _ known
    rw [(store_known known).1, (store_known known).2, eventAt?, known]
    simp [found]
  | none =>
    rw [(store_new known).1, (store_new known).2, eventAt?, known]
    simp [get?]

theorem Sound.place_of_eventAt (sound : arena.Sound) {place : Place}
    (there : arena.eventAt? place = some event) : event.place = place := by
  obtain ⟨id, known, got⟩ := Option.bind_eq_some_iff.mp there
  obtain ⟨stored, found, same⟩ := sound.stored _ _ known
  cases got.symm.trans found
  exact same

theorem place_getD_eventAt (sound : arena.Sound) (event : Event) :
    ((arena.eventAt? event.place).getD event).place = event.place := by
  cases there : arena.eventAt? event.place with
  | none => rfl
  | some earlier => exact sound.place_of_eventAt there

theorem Sound.store (sound : arena.Sound) (event : Event) : (arena.store event).Sound where
  stored := fun place id known => by
    rw [find_store] at known
    split at known
    · rename_i same
      cases known
      exact ⟨_, get_storedId sound event, (place_getD_eventAt sound event).trans same⟩
    · obtain ⟨earlier, found, same⟩ := sound.stored place id known
      exact ⟨earlier, get_store_of_get found, same⟩
  found := fun id earlier stored => by
    rw [find_store]
    cases known : arena.find? event.place with
    | some known' =>
      rw [(store_known known).1] at stored
      rw [(store_known known).2]
      have found := sound.found id earlier stored
      split
      · rename_i same
        rw [← known, same, found]
      · exact found
    | none =>
      rw [(store_new known).1] at stored
      rw [(store_new known).2]
      simp only [get?, Array.getElem?_push] at stored
      split at stored
      · rename_i last
        cases stored
        rw [if_pos rfl, last]
      · have found := sound.found id earlier stored
        split
        · rename_i same
          rw [same, found] at known
          cases known
        · exact found

end Sequencer.Arena
