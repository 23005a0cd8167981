import Sequencer.Midi

/-! Messages with labels. A message that starts or ends a note is labelled with the timeline entry
of the note. The voice of an entry is what is labelled with it. -/
namespace Sequencer

/-- Whether a message starts or ends a note. -/
def MidiMessage.isNote : MidiMessage → Bool
  | .noteOn .. | .noteOff _ => true
  | _ => false

def MidiEvent.moveTo (tick : Nat) (event : MidiEvent) : MidiEvent := { event with tick }

/-- Messages, each with the index of the entry that it sounds for. -/
abbrev Labelled := List (MidiEvent × Option Nat)

namespace Labelled

def voice (labelled : Labelled) (entry : Nat) : List MidiEvent :=
  (labelled.filter fun item => item.2 = some entry).map Prod.fst

def moveAt (labelled : Labelled) (position tick : Nat) : Labelled :=
  labelled.modify position fun item => (item.1.moveTo tick, item.2)

variable {labelled : Labelled} {entry other position : Nat} {event : MidiEvent}

theorem mem_of_mem_voice (sounding : event ∈ labelled.voice entry) :
    event ∈ labelled.map Prod.fst := by
  obtain ⟨item, member, rfl⟩ := List.mem_map.mp sounding
  exact List.mem_map_of_mem (List.mem_filter.mp member).1

theorem voice_append (first second : Labelled) (entry : Nat) :
    voice (first ++ second) entry = voice first entry ++ voice second entry := by
  simp [voice]

theorem voice_push_own (labelled : Labelled) (event : MidiEvent) (entry : Nat) :
    voice (labelled ++ [(event, some entry)]) entry = voice labelled entry ++ [event] := by
  simp [voice]

theorem voice_push_other {label : Option Nat} (apart : label ≠ some entry) :
    voice (labelled ++ [(event, label)]) entry = voice labelled entry := by
  simp [voice, apart]

theorem voice_nil_of_fresh (fresh : ∀ item ∈ labelled, ∀ label ∈ item.2, label ≠ entry) :
    voice labelled entry = [] := by
  simp only [voice, List.map_eq_nil_iff, List.filter_eq_nil_iff, decide_eq_true_eq]
  intro item member same
  exact fresh item member entry same rfl

/-- Messages of one entry say nothing about another one. -/
theorem voice_append_other {index : Nat} (apart : other ≠ index) (labelled : Labelled)
    (events : List MidiEvent) :
    voice (labelled ++ events.map fun event => (event, some index)) other =
      labelled.voice other := by
  have silent : voice (events.map fun event => (event, some index)) other = [] := by
    refine voice_nil_of_fresh fun item member label own same => ?_
    obtain ⟨event, _, rfl⟩ := List.mem_map.mp member
    cases own
    exact apart same.symm
  rw [voice_append, silent, List.append_nil]

theorem split_at {label : Option Nat} (found : labelled[position]? = some (event, label)) :
    ∃ before after, labelled = before ++ (event, label) :: after ∧ before.length = position := by
  obtain ⟨inside, same⟩ := List.getElem?_eq_some_iff.mp found
  refine ⟨labelled.take position, labelled.drop (position + 1), ?_, ?_⟩
  · rw [← same, ← List.drop_eq_getElem_cons inside, List.take_append_drop]
  · rw [List.length_take]
    omega

theorem moveAt_append (before after : Labelled) (event : MidiEvent) (label : Option Nat)
    (tick : Nat) : moveAt (before ++ (event, label) :: after) before.length tick =
      before ++ (event.moveTo tick, label) :: after := by
  induction before with
  | nil => rfl
  | cons first rest ih => exact congrArg (first :: ·) ih

theorem voice_moveAt_other (found : labelled[position]? = some (event, some other))
    (apart : other ≠ entry) (tick : Nat) :
    voice (moveAt labelled position tick) entry = voice labelled entry := by
  obtain ⟨before, after, rfl, rfl⟩ := split_at found
  rw [moveAt_append]
  simp [voice, apart]

/-- A note's end is moved, and nothing else of it. -/
theorem voice_moveAt_own {first last : MidiEvent}
    (found : labelled[position]? = some (event, some entry))
    (pair : voice labelled entry = [first, last]) (apart : event.message ≠ first.message)
    (tick : Nat) : voice (moveAt labelled position tick) entry = [first, last.moveTo tick] := by
  obtain ⟨before, after, rfl, rfl⟩ := split_at found
  rw [moveAt_append]
  simp only [voice, List.filter_append, List.filter_cons, decide_true, if_true, List.map_append,
    List.map_cons] at pair ⊢
  generalize (before.filter fun item => item.2 = some entry).map Prod.fst = earlier at pair ⊢
  generalize (after.filter fun item => item.2 = some entry).map Prod.fst = later at pair ⊢
  match earlier with
  | [] =>
    cases pair
    exact absurd rfl apart
  | [start] =>
    cases pair
    rfl
  | start :: middle :: rest =>
    simp at pair

theorem map_fst_moveAt (labelled : Labelled) (position tick : Nat) :
    (moveAt labelled position tick).map Prod.fst =
      (labelled.map Prod.fst).modify position (MidiEvent.moveTo tick) := by
  unfold moveAt
  induction labelled generalizing position with
  | nil => simp
  | cons first rest ih =>
    cases position with
    | zero => rfl
    | succ position => simp [ih]

/-- Where a message stands, and what it sounds for, stays when others are added or moved. -/
def Keeps (before after : Labelled) : Prop :=
  ∀ (position : Nat) (event : MidiEvent) (label : Option Nat),
    before[position]? = some (event, label) → ∃ event' : MidiEvent,
      after[position]? = some (event', label) ∧ event'.message = event.message

theorem Keeps.refl (labelled : Labelled) : Keeps labelled labelled :=
  fun _ event _ found => ⟨event, found, rfl⟩

theorem Keeps.trans {first second third : Labelled} (left : Keeps first second)
    (right : Keeps second third) : Keeps first third := by
  intro position event label found
  obtain ⟨event', found', same⟩ := left position event label found
  obtain ⟨event'', found'', same'⟩ := right position event' label found'
  exact ⟨event'', found'', same'.trans same⟩

theorem keeps_append (labelled new : Labelled) : Keeps labelled (labelled ++ new) := by
  intro position event label found
  refine ⟨event, ?_, rfl⟩
  rw [List.getElem?_append_left (List.getElem?_eq_some_iff.mp found).1]
  exact found

theorem keeps_moveAt (labelled : Labelled) (position tick : Nat) :
    Keeps labelled (moveAt labelled position tick) := by
  intro other event label found
  unfold moveAt
  rw [List.getElem?_modify, found]
  by_cases same : position = other
  · exact ⟨event.moveTo tick, by simp [same], rfl⟩
  · exact ⟨event, by simp [same], rfl⟩

end Labelled
end Sequencer
