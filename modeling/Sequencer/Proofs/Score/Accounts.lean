import Sequencer.Proofs.Lists
import Sequencer.Proofs.Score.Revisions

/-! What a sheet tells of a note. The note's entry begins where the note does, and the note-off stands
where the note ends. Entries and messages that are added take nothing of this back, and when notes
are revised the note-offs of those that are chosen move along with their ends. -/
namespace Sequencer

section Overwrite

variable {α β γ : Type} {put : β → α → α} {writes : List (Nat × β)} {index : Nat} {value : β}

/-- Where places are written once, each has the value that was written there. -/
theorem overwritten_of_mem (nodup : (writes.map Prod.fst).Nodup) (member : (index, value) ∈ writes)
    (x : α) : overwritten put writes index x = put value x := by
  induction writes generalizing x with
  | nil => cases member
  | cons write rest ih =>
    obtain ⟨apart, nodup⟩ := List.nodup_cons.mp nodup
    rcases List.mem_cons.mp member with rfl | later
    · rw [overwritten, List.foldl_cons, if_pos rfl]
      exact overwritten_of_apart apart _
    · have other : write.1 ≠ index := by
        rintro rfl
        exact apart (List.mem_map.mpr ⟨_, later, rfl⟩)
      rw [overwritten, List.foldl_cons, if_neg other]
      exact ih nodup later x

/-- What no write touches stays. -/
theorem map_overwrite (put : β → α → α) (read : α → γ)
    (untouched : ∀ value x, read (put value x) = read x) (writes : List (Nat × β)) (xs : Array α) :
    (overwrite put writes xs).toList.map read = xs.toList.map read := by
  apply List.ext_getElem?
  intro index
  have still : read ∘ overwritten put writes index = read := by
    funext x
    induction writes generalizing x with
    | nil => rfl
    | cons write rest ih =>
      refine (ih _).trans ?_
      dsimp only
      split
      · exact untouched write.2 x
      · rfl
  simp [getElem?_overwrite, still]

end Overwrite

/-- The entry that a note may have begins at a tick. -/
def Timeline.BeginsAt (timeline : Timeline) (start : Nat) (entry : Option Nat) : Prop :=
  ∀ index ∈ entry, ∃ found, timeline.entries[index]? = some found ∧ found.start = start

/-- A note-off is written, and stands at a tick. -/
def MidiTrack.EndsAt (midi : MidiTrack) (stop : Nat) (noteOff : Option Nat) : Prop :=
  ∃ position event key, noteOff = some position ∧ midi.events[position]? = some event ∧
    event.message = .noteOff key ∧ event.tick = stop

structure TimedNote.Told (writing : Bool) (sheet : Sheet) (note : TimedNote) : Prop where
  entry : sheet.timeline.BeginsAt note.start note.entry
  noteOff : writing = true → sheet.midi.EndsAt note.stop note.noteOff

/-- Entries have been added, and messages. -/
structure Sheet.Extends (before after : Sheet) : Prop where
  entries : before.timeline.skeleton <+: after.timeline.skeleton
  messages : before.midi.events.toList <+: after.midi.events.toList

theorem Sheet.Extends.refl (sheet : Sheet) : sheet.Extends sheet :=
  ⟨List.prefix_rfl, List.prefix_rfl⟩

theorem Timeline.BeginsAt.later {before after : Timeline} {start : Nat} {entry : Option Nat}
    (begins : before.BeginsAt start entry) (grown : before.skeleton <+: after.skeleton) :
    after.BeginsAt start entry := by
  intro index own
  obtain ⟨earlier, there, rfl⟩ := begins index own
  have known : before.skeleton[index]? = some (earlier.start, earlier.event) := by
    simp [skeleton, there]
  have kept := List.getElem?_of_prefix grown known
  simp only [skeleton, List.getElem?_map, Array.getElem?_toList, Option.map_eq_some_iff,
    Prod.mk.injEq] at kept
  obtain ⟨found, there, same, _⟩ := kept
  exact ⟨found, there, same⟩

theorem MidiTrack.EndsAt.later {before after : MidiTrack} {stop : Nat} {noteOff : Option Nat}
    (ends : before.EndsAt stop noteOff) (grown : before.events.toList <+: after.events.toList) :
    after.EndsAt stop noteOff := by
  obtain ⟨position, event, key, own, there, message, tick⟩ := ends
  rw [← Array.getElem?_toList] at there
  have kept := List.getElem?_of_prefix grown there
  rw [Array.getElem?_toList] at kept
  exact ⟨position, event, key, own, kept, message, tick⟩

theorem TimedNote.Told.later {writing : Bool} {before after : Sheet} {note : TimedNote}
    (told : note.Told writing before) (grown : before.Extends after) : note.Told writing after where
  entry := told.entry.later grown.entries
  noteOff := fun writes => (told.noteOff writes).later grown.messages

theorem Timeline.prefix_add (timeline : Timeline) (entry : Entry) :
    timeline.skeleton <+: (timeline.add entry).skeleton := by
  simp [skeleton, add]

theorem Timeline.beginsAt_add (timeline : Timeline) (entry : Entry) :
    (timeline.add entry).BeginsAt entry.start (some timeline.size) := by
  rintro index ⟨⟩
  exact ⟨entry, Array.getElem?_push_size, rfl⟩

theorem MidiTrack.prefix_push (midi : MidiTrack) (event : MidiEvent) :
    midi.events.toList <+: (midi.push event).events.toList := by
  simp [push]

theorem OpenNote.closeAll_messages (writing : Bool) (channel : UInt8) (tick : Nat) (sheet : Sheet)
    (notes : List OpenNote) : (closeAll writing channel tick sheet notes).Ensures fun next =>
      sheet.midi.events.toList <+: next.midi.events.toList := by
  induction notes generalizing sheet with
  | nil => exact Except.ensures_ok List.prefix_rfl
  | cons note rest ih =>
    have first : (note.close writing channel tick sheet).Ensures fun next =>
        sheet.midi.events.toList <+: next.midi.events.toList := by
      refine (Sheet.setDuration_midi sheet note.entry _).bind ?_
      rintro timed same
      rw [← same]
      cases writing with
      | false => exact Except.ensures_ok List.prefix_rfl
      | true => exact Except.ensures_ok (timed.midi.prefix_push _)
    refine Except.Ensures.bind first fun middle grown => ?_
    exact Except.Ensures.mono (ih middle) fun _ later => grown.trans later

theorem Sheet.revise_skeleton (notes : List TimedNote) (sheet : Sheet) :
    (sheet.revise notes).timeline.skeleton = sheet.timeline.skeleton :=
  map_overwrite Entry.lasting _ (fun _ _ => rfl) _ _

/-- A note is told where it ends now, chosen or not. -/
theorem TimedNote.Told.revise {writing : Bool} {sheet : Sheet} {notes : List TimedNote}
    {note : TimedNote} (told : note.Told writing sheet) (member : note ∈ notes)
    (nodup : (notes.filterMap TimedNote.noteOff).Nodup) (chosen : TimedNote → Bool) (tick : Nat) :
    (note.ended chosen tick).Told writing
      (sheet.revise ((notes.filter chosen).map (endedAt tick))) := by
  constructor
  · rw [ended_eq]
    exact told.entry.later ((Sheet.revise_skeleton ..).symm ▸ List.prefix_rfl)
  · intro writes
    obtain ⟨position, event, key, own, there, message, ends⟩ := told.noteOff writes
    cases picked : chosen note with
    | true =>
      have once : ((((notes.filter chosen).map (endedAt tick)).filterMap stops?).map
          Prod.fst).Nodup := by
        rw [map_fst_stops?]
        exact nodup.sublist (List.filter_sublist.filterMap _)
      have written : (position, max tick note.start) ∈
          ((notes.filter chosen).map (endedAt tick)).filterMap stops? := by
        have named := List.mem_map_of_mem (f := endedAt tick)
          (List.mem_filter.mpr ⟨member, picked⟩)
        exact List.mem_filterMap.mpr ⟨_, named, by simp [stops?, endedAt, own]⟩
      rw [ended_of_chosen picked]
      refine ⟨position, event.moveTo (max tick note.start), key, own, ?_, message, rfl⟩
      rw [Sheet.revise, getElem?_overwrite, there, Option.map_some,
        overwritten_of_mem once written]
    | false =>
      have apart : ∀ other ∈ notes.filter chosen, other.noteOff ≠ some position := by
        intro other known same
        obtain ⟨known, moved⟩ := List.mem_filter.mp known
        cases List.eq_of_nodup_filterMap nodup known member same own
        rw [picked] at moved
        cases moved
      rw [ended_of_other picked]
      refine ⟨position, event, key, own, ?_, message, ends⟩
      rw [Sheet.revise_events apart, there]

end Sequencer
