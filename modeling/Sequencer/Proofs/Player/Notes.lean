import Sequencer.Player.Notes
import Sequencer.Proofs.Outcome

/-! What note operations leave alone. Notes know where they are written by indices. While those
are in range no operation fails, and all that changes is durations, note-offs, and the notes
themselves. -/
namespace Sequencer

/-- The entries without their durations. -/
def Timeline.skeleton (timeline : Timeline) : List (Nat × Nat) :=
  timeline.entries.toList.map fun entry => (entry.start, entry.event)

theorem Timeline.length_skeleton (timeline : Timeline) :
    timeline.skeleton.length = timeline.size := by
  simp [skeleton, size]

def Entry.lasting (duration : Nat) (entry : Entry) : Entry := { entry with duration }

theorem Entry.lasting_same {entry : Entry} {duration : Nat} (same : entry.duration = duration) :
    entry.lasting duration = entry := by
  subst same
  rfl

theorem Timeline.setDuration_entries {timeline : Timeline} {index : Nat}
    (inside : index < timeline.size) (duration : Nat) :
    (timeline.setDuration index duration).Yields fun next =>
      next.entries = timeline.entries.modify index (Entry.lasting duration) := by
  have found : index < timeline.entries.size := inside
  unfold setDuration
  rw [dif_pos found]
  split
  · rename_i same
    apply Except.yields_ok
    apply Array.ext
    · simp
    · intro k _ _
      rw [Array.getElem_modify]
      split
      · rename_i here
        subst here
        exact (Entry.lasting_same same).symm
      · rfl
  · exact Except.yields_ok rfl

theorem Timeline.setDuration_skeleton {timeline : Timeline} {index : Nat}
    (inside : index < timeline.size) (duration : Nat) :
    (timeline.setDuration index duration).Yields fun next => next.skeleton = timeline.skeleton := by
  refine (setDuration_entries inside duration).mono ?_
  intro next entries
  apply List.ext_getElem
  · simp [skeleton, entries]
  · intro k _ _
    simp only [skeleton, entries, Array.toList_modify, List.getElem_map, List.getElem_modify]
    split <;> rfl

theorem Sheet.setDuration_midi (sheet : Sheet) (entry : Option Nat) (duration : Nat) :
    (sheet.setDuration entry duration).Ensures fun next => next.midi = sheet.midi := by
  cases entry with
  | none => exact Except.ensures_ok rfl
  | some index =>
    rintro next done
    obtain ⟨timeline, _, same⟩ := Except.bind_eq_ok.mp done
    cases same
    rfl

theorem Sheet.setTick_timeline (sheet : Sheet) (position : Option Nat) (tick : Nat) :
    (sheet.setTick position tick).Ensures fun next => next.timeline = sheet.timeline := by
  cases position with
  | none => exact Except.ensures_ok rfl
  | some index =>
    rintro next done
    obtain ⟨midi, _, same⟩ := Except.bind_eq_ok.mp done
    cases same
    rfl

/-- A sheet after some notes were revised: nothing is taken back, and the timeline differs in
durations only. -/
structure Sheet.Revises (before after : Sheet) : Prop where
  skeleton : after.timeline.skeleton = before.timeline.skeleton
  messages : before.midi.size ≤ after.midi.size

namespace Sheet.Revises

theorem refl (sheet : Sheet) : sheet.Revises sheet := ⟨rfl, Nat.le_refl _⟩

theorem trans {first second third : Sheet} (left : first.Revises second)
    (right : second.Revises third) : first.Revises third :=
  ⟨right.skeleton.trans left.skeleton, Nat.le_trans left.messages right.messages⟩

theorem size_eq {before after : Sheet} (revises : before.Revises after) :
    after.timeline.size = before.timeline.size := by
  rw [← Timeline.length_skeleton, ← Timeline.length_skeleton, revises.skeleton]

end Sheet.Revises

structure TimedNote.Within (sheet : Sheet) (note : TimedNote) : Prop where
  entry : ∀ index ∈ note.entry, index < sheet.timeline.size
  noteOff : ∀ position ∈ note.noteOff, position < sheet.midi.size

def OpenNote.Within (sheet : Sheet) (note : OpenNote) : Prop :=
  ∀ index ∈ note.entry, index < sheet.timeline.size

theorem TimedNote.Within.revise {before after : Sheet} (revises : before.Revises after)
    {note : TimedNote} (within : note.Within before) : note.Within after where
  entry := fun index known => revises.size_eq ▸ within.entry index known
  noteOff := fun position known =>
    Nat.lt_of_lt_of_le (within.noteOff position known) revises.messages

theorem OpenNote.Within.revise {before after : Sheet} (revises : before.Revises after)
    {note : OpenNote} (within : note.Within before) : note.Within after :=
  fun index known => revises.size_eq ▸ within index known

namespace Sheet

theorem setDuration_revises {sheet : Sheet} {entry : Option Nat}
    (inside : ∀ index ∈ entry, index < sheet.timeline.size) (duration : Nat) :
    (sheet.setDuration entry duration).Yields fun next =>
      sheet.Revises next ∧ next.midi = sheet.midi := by
  cases entry with
  | none => exact Except.yields_ok ⟨.refl sheet, rfl⟩
  | some index =>
    refine (Timeline.setDuration_skeleton (inside index rfl) duration).bind ?_
    intro timeline same
    exact Except.yields_ok ⟨⟨same, Nat.le_refl _⟩, rfl⟩

theorem setTick_revises {sheet : Sheet} {position : Option Nat}
    (inside : ∀ index ∈ position, index < sheet.midi.size) (tick : Nat) :
    (sheet.setTick position tick).Yields sheet.Revises := by
  cases position with
  | none => exact Except.yields_ok (.refl sheet)
  | some index =>
    have moved : (sheet.midi.setTick index tick).Yields fun midi => midi.size = sheet.midi.size := by
      have found : index < sheet.midi.events.size := inside index rfl
      unfold MidiTrack.setTick
      rw [if_pos found]
      exact Except.yields_ok (by simp [MidiTrack.size])
    apply moved.bind
    intro midi same
    exact Except.yields_ok ⟨rfl, Nat.le_of_eq same.symm⟩

end Sheet

theorem TimedNote.endAt_revises {sheet : Sheet} {note : TimedNote} (within : note.Within sheet)
    (tick : Nat) :
    (note.endAt tick sheet).Yields fun (note, next) =>
      sheet.Revises next ∧ note.Within next := by
  refine (Sheet.setDuration_revises within.entry _).bind ?_
  rintro timed ⟨revises, sameMidi⟩
  have placed : ∀ position ∈ note.noteOff, position < timed.midi.size := by
    rw [sameMidi]
    exact within.noteOff
  refine (Sheet.setTick_revises placed _).bind ?_
  intro next moved
  have kept := within.revise (revises.trans moved)
  exact Except.yields_ok ⟨revises.trans moved, kept.entry, kept.noteOff⟩

namespace TimedNote

/-- The note once it is ended at a tick, if it is chosen. -/
def ended (chosen : TimedNote → Bool) (tick : Nat) (note : TimedNote) : TimedNote :=
  if chosen note then { note with stop := max tick note.start } else note

def endIf (chosen : TimedNote → Bool) (tick : Nat) (sheet : Sheet) (note : TimedNote) :
    Except Fault (TimedNote × Sheet) :=
  if chosen note then note.endAt tick sheet else .ok (note, sheet)

theorem endAll_cons (chosen : TimedNote → Bool) (tick : Nat) (sheet : Sheet) (note : TimedNote)
    (rest : List TimedNote) : endAll chosen tick sheet (note :: rest) =
      note.endIf chosen tick sheet >>= fun (note, sheet) =>
        (endAll chosen tick sheet rest).map fun (rest, sheet) => (note :: rest, sheet) := by
  rw [endAll, endIf]
  split <;> rfl

theorem endIf_revises (chosen : TimedNote → Bool) (tick : Nat) {sheet : Sheet} {note : TimedNote}
    (within : note.Within sheet) : (note.endIf chosen tick sheet).Yields fun (note, next) =>
      sheet.Revises next ∧ note.Within next := by
  unfold endIf
  split
  · exact endAt_revises within tick
  · exact Except.yields_ok ⟨.refl sheet, within⟩

theorem endAll_revises (chosen : TimedNote → Bool) (tick : Nat) {sheet : Sheet}
    {notes : List TimedNote} (within : ∀ note ∈ notes, note.Within sheet) :
    (endAll chosen tick sheet notes).Yields fun (notes, next) =>
      sheet.Revises next ∧ ∀ note ∈ notes, note.Within next := by
  induction notes generalizing sheet with
  | nil => exact Except.yields_ok ⟨.refl sheet, fun _ member => nomatch member⟩
  | cons note rest ih =>
    rw [endAll_cons]
    refine (endIf_revises chosen tick (within note List.mem_cons_self)).bind ?_
    rintro ⟨note, middle⟩ ⟨revises, noteWithin⟩
    refine (ih fun other member =>
      (within other (List.mem_cons_of_mem _ member)).revise revises).map ?_
    rintro ⟨rest, next⟩ ⟨later, restWithin⟩
    refine ⟨revises.trans later, ?_⟩
    intro other member
    rcases List.mem_cons.mp member with rfl | member
    · exact noteWithin.revise later
    · exact restWithin other member

end TimedNote

theorem OpenNote.closeAll_revises (writing : Bool) (channel : UInt8) (tick : Nat) {sheet : Sheet}
    {notes : List OpenNote} (within : ∀ note ∈ notes, note.Within sheet) :
    (closeAll writing channel tick sheet notes).Yields sheet.Revises := by
  induction notes generalizing sheet with
  | nil => exact Except.yields_ok (.refl sheet)
  | cons note rest ih =>
    have first : (note.close writing channel tick sheet).Yields sheet.Revises := by
      refine (Sheet.setDuration_revises (within note List.mem_cons_self) _).bind ?_
      rintro ⟨timeline, midi⟩ ⟨revises, _⟩
      dsimp only
      split
      · refine Except.yields_ok ⟨revises.skeleton, Nat.le_trans revises.messages ?_⟩
        simp [MidiTrack.size, MidiTrack.push]
      · exact Except.yields_ok revises
    apply first.bind
    intro middle revises
    refine (ih fun other member =>
      (within other (List.mem_cons_of_mem _ member)).revise revises).mono ?_
    intro next later
    exact revises.trans later

def Track.noteless (track : Track) : Track :=
  { track with timedNotes := [], openNotes := [], midi := {} }

def Shared.untimed (shared : Shared) : Shared := { shared with timeline := {} }

namespace Player

/-- The players differ in notes only. -/
structure Rescores (player next : Player) : Prop where
  setting : next.setting = player.setting
  track : next.track.noteless = player.track.noteless
  shared : next.shared.untimed = player.shared.untimed
  sheet : player.sheet.Revises next.sheet

theorem Rescores.refl (player : Player) : player.Rescores player := ⟨rfl, rfl, rfl, .refl _⟩

theorem Rescores.trans {first second third : Player} (left : first.Rescores second)
    (right : second.Rescores third) : first.Rescores third :=
  ⟨right.setting.trans left.setting, right.track.trans left.track,
    right.shared.trans left.shared, left.sheet.trans right.sheet⟩

/-- All notes of the player are written inside of its sheet. -/
structure Safe (player : Player) : Prop where
  timed : ∀ note ∈ player.track.timedNotes, note.Within player.sheet
  opened : ∀ note ∈ player.track.openNotes, note.Within player.sheet

/-- Notes stay inside of a revised sheet, and may be dropped. -/
theorem Safe.revise {player next : Player} (safe : player.Safe)
    (revises : player.sheet.Revises next.sheet)
    (timed : ∀ note ∈ next.track.timedNotes, note ∈ player.track.timedNotes)
    (opened : ∀ note ∈ next.track.openNotes, note ∈ player.track.openNotes) : next.Safe where
  timed := fun note member => (safe.timed note (timed note member)).revise revises
  opened := fun note member => (safe.opened note (opened note member)).revise revises

theorem emit_rescores (player : Player) (tick : Nat) (message : MidiMessage)
    (transposeTick : Option Nat) : player.Rescores (player.emit tick message transposeTick) := by
  unfold emit
  split
  · exact ⟨rfl, rfl, rfl, rfl, by simp [sheet, MidiTrack.size, MidiTrack.push]⟩
  · exact .refl player

@[simp] theorem emit_timedNotes (player : Player) (tick : Nat) (message : MidiMessage)
    (transposeTick : Option Nat) :
    (player.emit tick message transposeTick).track.timedNotes = player.track.timedNotes := by
  unfold emit
  split <;> rfl

@[simp] theorem emit_openNotes (player : Player) (tick : Nat) (message : MidiMessage)
    (transposeTick : Option Nat) :
    (player.emit tick message transposeTick).track.openNotes = player.track.openNotes := by
  unfold emit
  split <;> rfl

theorem Safe.emit {player : Player} (safe : player.Safe) (tick : Nat) (message : MidiMessage)
    (transposeTick : Option Nat) : (player.emit tick message transposeTick).Safe :=
  safe.revise (emit_rescores player tick message transposeTick).sheet
    (fun note member => by rwa [emit_timedNotes] at member)
    (fun note member => by rwa [emit_openNotes] at member)

theorem endNotes_safe {player : Player} (safe : player.Safe) (closing : List OpenNote)
    (inside : ∀ note ∈ closing, note.Within player.sheet) (chosen : TimedNote → Bool)
    (tick : Nat) : (player.endNotes closing chosen tick).Yields fun next =>
      player.Rescores next ∧ next.Safe ∧ next.track.openNotes = player.track.openNotes := by
  refine (OpenNote.closeAll_revises _ _ tick inside).bind ?_
  intro closed revises
  refine (TimedNote.endAll_revises chosen tick fun note member =>
    (safe.timed note member).revise revises).bind ?_
  rintro ⟨notes, next⟩ ⟨later, within⟩
  have both := revises.trans later
  exact Except.yields_ok ⟨⟨rfl, rfl, rfl, both⟩,
    ⟨within, fun note member => (safe.opened note member).revise both⟩, rfl⟩

theorem cutKey_safe {player : Player} (safe : player.Safe) (key : UInt8) :
    (player.cutKey key).Yields fun next => player.Rescores next ∧ next.Safe := by
  have others : Safe { player with track := { player.track with
      openNotes := (player.track.openNotes.partition fun note => note.key = key).2 } } :=
    safe.revise (.refl _) (fun _ member => member) fun note member => by
      rw [List.partition_eq_filter_filter] at member
      exact (List.mem_filter.mp member).1
  have same : ∀ note ∈ (player.track.openNotes.partition fun note => note.key = key).1,
      note.Within player.sheet := by
    intro note member
    rw [List.partition_eq_filter_filter] at member
    exact safe.opened note (List.mem_filter.mp member).1
  refine (endNotes_safe others _ same _ player.track.time).mono ?_
  rintro next ⟨⟨setting, track, shared, sheet⟩, kept, _⟩
  exact ⟨⟨setting, track, shared, sheet⟩, kept⟩

theorem startNote_safe {player : Player} (safe : player.Safe) (key velocity : UInt8)
    {entry : Option Nat} (inside : ∀ index ∈ entry, index < player.shared.timeline.size) :
    (player.startNote key velocity entry).Yields fun next =>
      player.Rescores next ∧ next.Safe := by
  refine (cutKey_safe safe key).bind ?_
  rintro cut ⟨rescores, kept⟩
  have sounds := emit_rescores cut cut.track.time
    (.noteOn (cut.track.soundingKey key).1 velocity) (cut.track.soundingKey key).2
  have both := rescores.trans sounds
  have emitted := kept.emit cut.track.time
    (.noteOn (cut.track.soundingKey key).1 velocity) (cut.track.soundingKey key).2
  refine Except.yields_ok ⟨⟨both.setting, both.track, both.shared, both.sheet⟩,
    emitted.timed, ?_⟩
  intro note member
  rcases List.mem_append.mp member with member | member
  · exact emitted.opened note member
  · cases List.mem_singleton.mp member
    intro index known
    exact both.sheet.size_eq ▸ inside index known

theorem endNote_safe {player : Player} (safe : player.Safe) (key : UInt8) :
    (player.endNote key).Yields fun next => player.Rescores next ∧ next.Safe := by
  unfold endNote
  split
  · exact Except.yields_ok ⟨.refl player, safe⟩
  · rename_i note found
    have others : Safe { player with track := { player.track with
        openNotes := player.track.openNotes.eraseP fun note => note.key = key } } :=
      safe.revise (.refl _) (fun _ member => member) fun note member =>
        List.mem_of_mem_eraseP member
    refine (endNotes_safe others [note] ?_ _ player.track.time).mono ?_
    · intro other member
      cases List.mem_singleton.mp member
      exact safe.opened note (List.mem_of_find?_eq_some found)
    · rintro next ⟨⟨setting, track, shared, sheet⟩, kept, _⟩
      exact ⟨⟨setting, track, shared, sheet⟩, kept⟩

theorem TimedNote.mem_of_mem_beforeNote {now : Nat} {notes : List TimedNote} {note : TimedNote}
    (member : note ∈ TimedNote.beforeNote now notes) :
    ∃ earlier ∈ notes, note.start = earlier.start ∧ note.entry = earlier.entry ∧
      note.noteOff = earlier.noteOff := by
  unfold TimedNote.beforeNote at member
  have kept := (List.mem_filter.mp member).1
  split at kept
  · obtain ⟨earlier, known, rfl⟩ := List.mem_map.mp kept
    exact ⟨earlier, known, rfl, rfl, rfl⟩
  · exact ⟨note, kept, rfl, rfl, rfl⟩

theorem startTimedNote_safe {player : Player} (safe : player.Safe) (key velocity : UInt8)
    (duration : Nat) {entry : Option Nat}
    (inside : ∀ index ∈ entry, index < player.shared.timeline.size) :
    (player.startTimedNote key velocity duration entry).Yields fun next =>
      player.Rescores next ∧ next.Safe := by
  refine (cutKey_safe safe key).bind ?_
  rintro cut ⟨rescores, kept⟩
  dsimp only
  generalize (cut.track.soundingKey key).1 = midiKey
  generalize (cut.track.soundingKey key).2 = transposeTick
  have on := emit_rescores cut cut.track.time (.noteOn midiKey velocity) transposeTick
  have onSafe := kept.emit cut.track.time (.noteOn midiKey velocity) transposeTick
  generalize sounded : cut.emit cut.track.time (.noteOn midiKey velocity) transposeTick = sounding
    at on onSafe
  have off := emit_rescores sounding (Tick.later cut.track.time duration) (.noteOff midiKey)
    transposeTick
  have offSafe := onSafe.emit (Tick.later cut.track.time duration) (.noteOff midiKey)
    transposeTick
  have all := (rescores.trans on).trans off
  refine Except.yields_ok ⟨⟨all.setting, all.track, all.shared, all.sheet⟩, ?_, offSafe.opened⟩
  intro note member
  rcases List.mem_append.mp member with member | member
  · obtain ⟨earlier, known, _, sameEntry, sameOff⟩ := TimedNote.mem_of_mem_beforeNote member
    have within := offSafe.timed earlier known
    exact ⟨fun index found => within.entry index (sameEntry ▸ found),
      fun position found => within.noteOff position (sameOff ▸ found)⟩
  · cases List.mem_singleton.mp member
    refine ⟨fun index known => all.sheet.size_eq ▸ inside index known, ?_⟩
    intro position known
    dsimp only at known
    split at known
    · rename_i writing
      cases known
      simp [emit, writing, sheet, MidiTrack.size, MidiTrack.push]
    · cases known

theorem extendNotes_safe {player : Player} (safe : player.Safe) (tick : Nat) :
    (player.extendNotes tick).Yields fun next => player.Rescores next ∧ next.Safe :=
  (endNotes_safe safe [] (fun _ member => absurd member List.not_mem_nil) _ tick).mono
    fun _ ⟨rescores, kept, _⟩ => ⟨rescores, kept⟩

theorem limitNotes_safe {player : Player} (safe : player.Safe) (tick : Nat) :
    (player.limitNotes tick).Yields fun next => player.Rescores next ∧ next.Safe := by
  refine (endNotes_safe safe [] (fun _ member => absurd member List.not_mem_nil) _ tick).bind ?_
  rintro next ⟨⟨setting, track, shared, sheet⟩, kept, _⟩
  refine Except.yields_ok ⟨⟨setting, track, shared, sheet⟩, ?_, kept.opened⟩
  intro note member
  obtain ⟨earlier, known, rfl⟩ := List.mem_map.mp member
  have within := kept.timed earlier known
  exact ⟨within.entry, within.noteOff⟩

end Player
end Sequencer
