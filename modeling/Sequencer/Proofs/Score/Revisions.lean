import Sequencer.Proofs.Player.Notes
import Sequencer.Proofs.Score.Labels

/-! Revisions of notes as writes to two places. To move the ends of notes is to write a duration at
the entry of each and a tick at its note-off. What is written later at the same places takes the
place of what was written before, and all other places stay as they are. -/
namespace Sequencer

section Overwrite

variable {α β : Type} {put : β → α → α} {writes later : List (Nat × β)} {index : Nat}

/-- Writes values at places of an array, one after another. -/
def overwrite (put : β → α → α) (writes : List (Nat × β)) (xs : Array α) : Array α :=
  writes.foldl (fun xs write => xs.modify write.1 (put write.2)) xs

/-- What writes make of the element at one place. -/
def overwritten (put : β → α → α) (writes : List (Nat × β)) (index : Nat) (x : α) : α :=
  writes.foldl (fun x write => if write.1 = index then put write.2 x else x) x

theorem overwrite_append (writes later : List (Nat × β)) (xs : Array α) :
    overwrite put (writes ++ later) xs = overwrite put later (overwrite put writes xs) :=
  List.foldl_append

theorem getElem?_overwrite (writes : List (Nat × β)) (xs : Array α) (index : Nat) :
    (overwrite put writes xs)[index]? = xs[index]?.map (overwritten put writes index) := by
  induction writes generalizing xs with
  | nil => exact (Option.map_id_fun' ▸ rfl : xs[index]? = xs[index]?.map fun x => x)
  | cons write rest ih =>
    refine (ih _).trans ?_
    rw [Array.getElem?_modify]
    split
    · rename_i here
      rw [Option.map_map]
      refine congrArg (Option.map · _) (funext fun x => ?_)
      simp [overwritten, here]
    · rename_i apart
      refine congrArg (Option.map · _) (funext fun x => ?_)
      simp [overwritten, apart]

@[simp] theorem size_overwrite (writes : List (Nat × β)) (xs : Array α) :
    (overwrite put writes xs).size = xs.size := by
  induction writes generalizing xs with
  | nil => rfl
  | cons write rest ih => exact (ih _).trans Array.size_modify

theorem overwritten_of_apart (apart : index ∉ writes.map Prod.fst) (x : α) :
    overwritten put writes index x = x := by
  induction writes generalizing x with
  | nil => rfl
  | cons write rest ih =>
    obtain ⟨here, there⟩ := not_or.mp (mt List.mem_cons.mpr apart)
    rw [overwritten, List.foldl_cons, if_neg (Ne.symm here)]
    exact ih there x

theorem getElem?_overwrite_of_apart (apart : index ∉ writes.map Prod.fst) (xs : Array α) :
    (overwrite put writes xs)[index]? = xs[index]? := by
  have still : overwritten put writes index = id := funext (overwritten_of_apart apart)
  rw [getElem?_overwrite, still, Option.map_id, id]

/-- A place that is written shows nothing of what it was. -/
theorem overwritten_congr (written : index ∈ writes.map Prod.fst) {x y : α}
    (alike : ∀ last, put last x = put last y) :
    overwritten put writes index x = overwritten put writes index y := by
  induction writes generalizing x y with
  | nil => exact absurd written List.not_mem_nil
  | cons write rest ih =>
    rw [overwritten, overwritten, List.foldl_cons, List.foldl_cons]
    by_cases here : write.1 = index
    · rw [if_pos here, if_pos here, alike]
    · rw [if_neg here, if_neg here]
      exact ih ((List.mem_cons.mp written).resolve_left (Ne.symm here)) alike

section Again

variable (again : ∀ first last x, put last (put first x) = put last x)
include again

/-- A later value hides all that was written before it. -/
theorem put_overwritten (last : β) (writes : List (Nat × β)) (index : Nat) (x : α) :
    put last (overwritten put writes index x) = put last x := by
  induction writes generalizing x with
  | nil => rfl
  | cons write rest ih =>
    rw [overwritten, List.foldl_cons]
    refine (ih _).trans ?_
    split
    · exact again ..
    · rfl

/-- Writes at the same places take the place of earlier ones. -/
theorem overwrite_again (same : later.map Prod.fst = writes.map Prod.fst) (xs : Array α) :
    overwrite put later (overwrite put writes xs) = overwrite put later xs := by
  refine Array.ext_getElem? fun index => ?_
  rw [getElem?_overwrite, getElem?_overwrite, getElem?_overwrite, Option.map_map]
  refine congrArg (Option.map · _) (funext fun x => ?_)
  rw [Function.comp_apply]
  by_cases written : index ∈ later.map Prod.fst
  · exact overwritten_congr written fun last => put_overwritten again last writes index x
  · have apart : index ∉ writes.map Prod.fst := same ▸ written
    rw [overwritten_of_apart apart]

end Again
end Overwrite

namespace TimedNote

def endedAt (tick : Nat) (note : TimedNote) : TimedNote :=
  { note with stop := max tick note.start }

/-- What is written in the timeline for a note. -/
def lasts? (note : TimedNote) : Option (Nat × Nat) := note.entry.map (·, note.stop - note.start)

/-- What is written in the messages for a note. -/
def stops? (note : TimedNote) : Option (Nat × Nat) := note.noteOff.map (·, note.stop)

theorem ended_of_chosen {chosen : TimedNote → Bool} {note : TimedNote} (picked : chosen note = true)
    (tick : Nat) : note.ended chosen tick = note.endedAt tick := if_pos picked

theorem ended_of_other {chosen : TimedNote → Bool} {note : TimedNote} (left : chosen note = false)
    (tick : Nat) : note.ended chosen tick = note := by
  rw [ended, left]
  rfl

/-- To end a note moves its end and nothing else of it. -/
theorem ended_eq (chosen : TimedNote → Bool) (tick : Nat) (note : TimedNote) :
    note.ended chosen tick = { note with stop := (note.ended chosen tick).stop } := by
  unfold ended
  split <;> rfl

theorem map_fst_lasts? (tick : Nat) (notes : List TimedNote) :
    ((notes.map (endedAt tick)).filterMap lasts?).map Prod.fst = notes.filterMap entry := by
  rw [List.filterMap_map, List.map_filterMap]
  refine congrArg (List.filterMap · notes) (funext fun note => ?_)
  cases known : note.entry <;> simp [lasts?, endedAt, known]

theorem map_fst_stops? (tick : Nat) (notes : List TimedNote) :
    ((notes.map (endedAt tick)).filterMap stops?).map Prod.fst = notes.filterMap noteOff := by
  rw [List.filterMap_map, List.map_filterMap]
  refine congrArg (List.filterMap · notes) (funext fun note => ?_)
  cases known : note.noteOff <;> simp [stops?, endedAt, known]

end TimedNote

namespace Sheet

/-- The sheet on which all notes are written with their ends. -/
def revise (notes : List TimedNote) (sheet : Sheet) : Sheet where
  timeline := { sheet.timeline with
    entries := overwrite Entry.lasting (notes.filterMap TimedNote.lasts?) sheet.timeline.entries }
  midi := ⟨overwrite MidiEvent.moveTo (notes.filterMap TimedNote.stops?) sheet.midi.events⟩

variable {sheet : Sheet} {notes : List TimedNote}

theorem revise_append (first last : List TimedNote) (sheet : Sheet) :
    sheet.revise (first ++ last) = (sheet.revise first).revise last := by
  simp only [revise, List.filterMap_append, overwrite_append]

@[simp] theorem revise_size (notes : List TimedNote) (sheet : Sheet) :
    (sheet.revise notes).timeline.size = sheet.timeline.size := size_overwrite ..

@[simp] theorem revise_messages (notes : List TimedNote) (sheet : Sheet) :
    (sheet.revise notes).midi.size = sheet.midi.size := size_overwrite ..

theorem revise_again (first last : Nat) (notes : List TimedNote) (sheet : Sheet) :
    (sheet.revise (notes.map (TimedNote.endedAt first))).revise
      (notes.map (TimedNote.endedAt last)) = sheet.revise (notes.map (TimedNote.endedAt last)) := by
  have entries := overwrite_again (show ∀ first last entry, Entry.lasting last
      (Entry.lasting first entry) = Entry.lasting last entry from fun _ _ _ => rfl)
    ((TimedNote.map_fst_lasts? last notes).trans (TimedNote.map_fst_lasts? first notes).symm)
    sheet.timeline.entries
  have events := overwrite_again (show ∀ first last event, MidiEvent.moveTo last
      (MidiEvent.moveTo first event) = MidiEvent.moveTo last event from fun _ _ _ => rfl)
    ((TimedNote.map_fst_stops? last notes).trans (TimedNote.map_fst_stops? first notes).symm)
    sheet.midi.events
  simp only [revise, entries, events]

/-- Entries that no revised note has stay as they are. -/
theorem revise_entries {index : Nat} (apart : ∀ note ∈ notes, note.entry ≠ some index)
    (tick : Nat) (sheet : Sheet) :
    (sheet.revise (notes.map (TimedNote.endedAt tick))).timeline.entries[index]? =
      sheet.timeline.entries[index]? := by
  refine getElem?_overwrite_of_apart ?_ _
  rw [TimedNote.map_fst_lasts?, List.mem_filterMap]
  rintro ⟨note, member, own⟩
  exact apart note member own

theorem revise_events {position : Nat} (apart : ∀ note ∈ notes, note.noteOff ≠ some position)
    (tick : Nat) (sheet : Sheet) :
    (sheet.revise (notes.map (TimedNote.endedAt tick))).midi.events[position]? =
      sheet.midi.events[position]? := by
  refine getElem?_overwrite_of_apart ?_ _
  rw [TimedNote.map_fst_stops?, List.mem_filterMap]
  rintro ⟨note, member, own⟩
  exact apart note member own

end Sheet

theorem Timeline.setDuration_eq {timeline : Timeline} {index : Nat}
    (inside : index < timeline.size) (unsettled : timeline.settled = false) (duration : Nat) :
    timeline.setDuration index duration = .ok { timeline with
      entries := timeline.entries.modify index (Entry.lasting duration) } := by
  obtain ⟨next, done, entries⟩ := timeline.setDuration_entries inside duration
  rw [done]
  unfold setDuration at done
  split at done
  · split at done
    · cases done
      rw [← entries]
    · cases done
      rw [← unsettled]
      rfl
  · cases done

theorem Sheet.setDuration_eq {sheet : Sheet} {entry : Option Nat}
    (inside : ∀ index ∈ entry, index < sheet.timeline.size)
    (unsettled : sheet.timeline.settled = false) (duration : Nat) :
    sheet.setDuration entry duration = .ok { sheet with
      timeline := { sheet.timeline with
        entries := overwrite Entry.lasting (entry.map (·, duration)).toList
          sheet.timeline.entries } } := by
  cases entry with
  | none => rfl
  | some index =>
    rw [setDuration, Timeline.setDuration_eq (inside index rfl) unsettled]
    rfl

theorem Sheet.setTick_eq (sheet : Sheet) {position : Option Nat}
    (inside : ∀ index ∈ position, index < sheet.midi.size) (tick : Nat) :
    sheet.setTick position tick = .ok { sheet with
      midi := ⟨overwrite MidiEvent.moveTo (position.map (·, tick)).toList sheet.midi.events⟩ } := by
  cases position with
  | none => rfl
  | some index =>
    have written : sheet.midi.setTick index tick = _ := if_pos (inside index rfl)
    rw [setTick, written]
    rfl

namespace TimedNote

variable {sheet : Sheet} {chosen : TimedNote → Bool} {tick : Nat}

theorem endAt_eq {note : TimedNote} (within : note.Within sheet)
    (unsettled : sheet.timeline.settled = false) (tick : Nat) :
    note.endAt tick sheet = .ok (note.endedAt tick, sheet.revise [note.endedAt tick]) := by
  have single {α β : Type} (f : α → Option β) (x : α) : [x].filterMap f = (f x).toList := by
    cases known : f x <;> simp [known]
  have moved (timeline : Timeline) :=
    Sheet.setTick_eq ⟨timeline, sheet.midi⟩ within.noteOff (max tick note.start)
  rw [endAt, Sheet.setDuration_eq within.entry unsettled]
  dsimp only [bind, Except.bind]
  rw [moved, Sheet.revise, single, single]
  rfl

/-- All chosen notes are written with their new ends. -/
theorem endAll_eq {notes : List TimedNote} (within : ∀ note ∈ notes, note.Within sheet)
    (unsettled : sheet.timeline.settled = false) : endAll chosen tick sheet notes =
      .ok (notes.map (ended chosen tick),
        sheet.revise ((notes.filter chosen).map (endedAt tick))) := by
  induction notes generalizing sheet with
  | nil => rfl
  | cons note rest ih =>
    rw [endAll_cons, endIf]
    cases picked : chosen note with
    | false =>
      have others := ih (fun other member => within other (List.mem_cons_of_mem _ member)) unsettled
      simp only [Bool.false_eq_true, if_false, bind, Except.bind, others, Except.map,
        List.map_cons, ended_of_other picked, List.filter_cons, picked]
    | true =>
      have first := endAt_eq (within note List.mem_cons_self) unsettled tick
      have within' : ∀ other ∈ rest, other.Within (sheet.revise [note.endedAt tick]) := by
        intro other member
        have inside := within other (List.mem_cons_of_mem _ member)
        exact ⟨fun index known => by simpa using inside.entry index known,
          fun position known => by simpa using inside.noteOff position known⟩
      have others := ih within' unsettled
      simp only [if_true, first, bind, Except.bind, others, Except.map, List.map_cons,
        ended_of_chosen picked, List.filter_cons, picked, ← Sheet.revise_append,
        List.singleton_append]

end TimedNote
end Sequencer
