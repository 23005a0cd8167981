import Sequencer.Proofs.RefSeq.Control

/-! A track among others. A timeline that several tracks write to holds the entries of each at
scattered indices. A track that finds its own entries there does what it does on its own, and
spares the entries of the others. -/
namespace Sequencer

/-- A timeline of many tracks holds that of one track: the entry `k` of the one stands at
`own[k]`. Both entries name their events in stores of their own, which `same` compares. -/
structure Timeline.Hosts (same : Nat → Nat → Prop) (own : List Nat) (solo shared : Timeline) :
    Prop where
  nodup : own.Nodup
  size : own.length = solo.size
  entries : ∀ k index : Nat, own[k]? = some index → ∃ mine theirs : Entry,
    solo.entries[k]? = some mine ∧ shared.entries[index]? = some theirs ∧
    mine.start = theirs.start ∧ mine.duration = theirs.duration ∧ same mine.event theirs.event

/-- Entries outside of `own` stay, and none is added or removed. -/
structure Timeline.Spares (own : List Nat) (before after : Timeline) : Prop where
  size : after.size = before.size
  others : ∀ index, index ∉ own → after.entries[index]? = before.entries[index]?

namespace Timeline

theorem Spares.refl (own : List Nat) (timeline : Timeline) : Spares own timeline timeline :=
  ⟨rfl, fun _ _ => rfl⟩

theorem Spares.trans {own : List Nat} {first second third : Timeline}
    (left : Spares own first second) (right : Spares own second third) : Spares own first third :=
  ⟨right.size.trans left.size, fun index other =>
    (right.others index other).trans (left.others index other)⟩

variable {same : Nat → Nat → Prop} {own : List Nat} {solo shared : Timeline}

theorem Hosts.own_index (hosts : Hosts same own solo shared) {k : Nat} (inside : k < solo.size) :
    ∃ index, own[k]? = some index :=
  ⟨own.get ⟨k, hosts.size ▸ inside⟩, List.getElem?_eq_getElem _⟩

theorem Hosts.inside (hosts : Hosts same own solo shared) {index : Nat} (mine : index ∈ own) :
    index < shared.size := by
  obtain ⟨k, found⟩ := List.getElem?_of_mem mine
  obtain ⟨_, theirs, _, there, _⟩ := hosts.entries k index found
  exact (Array.getElem?_eq_some_iff.mp there).1

theorem inside_of_setDuration {index duration : Nat} {next : Timeline}
    (done : solo.setDuration index duration = .ok next) : index < solo.size := by
  unfold setDuration at done
  split at done
  · rename_i inside
    exact inside
  · cases done

theorem Hosts.setDuration (hosts : Hosts same own solo shared) {k index : Nat}
    (mine : own[k]? = some index) (duration : Nat) :
    (solo.setDuration k duration).Follows
      (fun solo' shared' => Hosts same own solo' shared' ∧ Spares own shared shared')
      (shared.setDuration index duration) := by
  intro solo' done
  have inside := hosts.inside (List.mem_of_getElem? mine)
  obtain ⟨next, found, entries⟩ := setDuration_entries (inside_of_setDuration done) duration
  cases found.symm.trans done
  obtain ⟨shared', found', entries'⟩ := setDuration_entries inside duration
  refine ⟨shared', found', ⟨hosts.nodup, ?_, ?_⟩, ?_, ?_⟩
  · rw [hosts.size, Timeline.size, Timeline.size, entries, Array.size_modify]
  · intro j other at_j
    obtain ⟨first, second, here, there, start, lasting, event⟩ := hosts.entries j other at_j
    rw [entries, entries', Array.getElem?_modify, Array.getElem?_modify, here, there]
    -- The own entries stand at different indices, so that both sides revise the same one.
    by_cases revised : k = j
    · subst revised
      cases mine.symm.trans at_j
      rw [if_pos rfl, if_pos rfl]
      exact ⟨_, _, rfl, rfl, start, rfl, event⟩
    · have apart : index ≠ other := by
        rintro rfl
        have bound := (List.getElem?_eq_some_iff.mp at_j).1
        exact revised ((List.getElem?_inj bound hosts.nodup).mp (at_j.trans mine.symm)).symm
      rw [if_neg revised, if_neg apart]
      exact ⟨_, _, rfl, rfl, start, lasting, event⟩
  · rw [Timeline.size, Timeline.size, entries', Array.size_modify]
  · intro other spared
    have apart : index ≠ other := by
      rintro rfl
      exact spared (List.mem_of_getElem? mine)
    rw [entries', Array.getElem?_modify, if_neg apart]

end Timeline

/-- Where an entry of the track's own stands in the timeline of all tracks. -/
def relabel (own : List Nat) (index : Nat) : Nat := (own[index]?).getD 0

def TimedNote.relabel (own : List Nat) (note : TimedNote) : TimedNote :=
  { note with entry := note.entry.map (Sequencer.relabel own) }

def OpenNote.relabel (own : List Nat) (note : OpenNote) : OpenNote :=
  { note with entry := note.entry.map (Sequencer.relabel own) }

/-- A track's own sheet, and one that has the same messages but the timeline of all tracks. Since
the timeline was `before`, only entries of the track have changed. -/
structure Sheet.Hosts (same : Nat → Nat → Prop) (own : List Nat) (before : Timeline)
    (solo shared : Sheet) : Prop where
  midi : shared.midi = solo.midi
  timeline : Timeline.Hosts same own solo.timeline shared.timeline
  spares : Timeline.Spares own before shared.timeline

variable {same : Nat → Nat → Prop} {own : List Nat} {before : Timeline} {solo shared : Sheet}

namespace Sheet

theorem Hosts.setDuration (hosts : Hosts same own before solo shared) (entry : Option Nat)
    (duration : Nat) : (solo.setDuration entry duration).Follows (Hosts same own before)
      (shared.setDuration (entry.map (relabel own)) duration) := by
  cases entry with
  | none => exact Except.follows_ok hosts
  | some k =>
    intro next done
    obtain ⟨timeline, found, kept⟩ := Except.bind_eq_ok.mp done
    cases kept
    obtain ⟨index, mine⟩ := hosts.timeline.own_index (Timeline.inside_of_setDuration found)
    obtain ⟨timeline', found', hosts', spares⟩ := hosts.timeline.setDuration mine duration _ found
    have there : relabel own k = index := by rw [relabel, mine, Option.getD_some]
    refine ⟨⟨timeline', shared.midi⟩, ?_, hosts.midi, hosts', hosts.spares.trans spares⟩
    rw [Option.map_some, there, Sheet.setDuration, found']
    rfl

theorem Hosts.setTick (hosts : Hosts same own before solo shared) (position : Option Nat)
    (tick : Nat) : (solo.setTick position tick).Follows (Hosts same own before)
      (shared.setTick position tick) := by
  cases position with
  | none => exact Except.follows_ok hosts
  | some index =>
    intro next done
    obtain ⟨midi, found, kept⟩ := Except.bind_eq_ok.mp done
    cases kept
    refine ⟨⟨shared.timeline, midi⟩, ?_, rfl, hosts.timeline, hosts.spares⟩
    rw [Sheet.setTick, hosts.midi, found]
    rfl

end Sheet

def TimedNote.Hosts (same : Nat → Nat → Prop) (own : List Nat) (before : Timeline)
    (solo shared : List TimedNote × Sheet) : Prop :=
  shared.1 = solo.1.map (TimedNote.relabel own) ∧ Sheet.Hosts same own before solo.2 shared.2

theorem TimedNote.endAt_hosts (hosts : Sheet.Hosts same own before solo shared)
    (note : TimedNote) (tick : Nat) : (note.endAt tick solo).Follows
      (fun mine theirs => theirs.1 = mine.1.relabel own ∧
        Sheet.Hosts same own before mine.2 theirs.2)
      ((note.relabel own).endAt tick shared) := by
  refine (hosts.setDuration note.entry _).bind ?_
  intro solo shared hosts
  refine (hosts.setTick note.noteOff _).bind ?_
  intro solo shared hosts
  exact Except.follows_ok ⟨rfl, hosts⟩

theorem TimedNote.endAll_hosts {chosen : TimedNote → Bool}
    (alike : ∀ note : TimedNote, chosen (note.relabel own) = chosen note) (tick : Nat)
    (hosts : Sheet.Hosts same own before solo shared) (notes : List TimedNote) :
    (endAll chosen tick solo notes).Follows (TimedNote.Hosts same own before)
      (endAll chosen tick shared (notes.map (relabel own))) := by
  induction notes generalizing solo shared with
  | nil => exact Except.follows_ok ⟨rfl, hosts⟩
  | cons note rest ih =>
    rw [List.map_cons, endAll_cons, endAll_cons]
    have first : (note.endIf chosen tick solo).Follows (fun mine theirs =>
        theirs.1 = mine.1.relabel own ∧ Sheet.Hosts same own before mine.2 theirs.2)
        ((note.relabel own).endIf chosen tick shared) := by
      unfold endIf
      rw [alike]
      split
      · exact endAt_hosts hosts note tick
      · exact Except.follows_ok ⟨rfl, hosts⟩
    apply first.bind
    rintro ⟨note, solo⟩ ⟨_, shared⟩ ⟨rfl, hosts⟩
    refine (ih hosts).map ?_
    rintro ⟨rest, solo⟩ ⟨_, shared⟩ ⟨rfl, hosts⟩
    exact ⟨rfl, hosts⟩

theorem OpenNote.closeAll_hosts (writing : Bool) (channel : UInt8) (tick : Nat)
    (hosts : Sheet.Hosts same own before solo shared) (notes : List OpenNote) :
    (closeAll writing channel tick solo notes).Follows (Sheet.Hosts same own before)
      (closeAll writing channel tick shared (notes.map (relabel own))) := by
  induction notes generalizing solo shared with
  | nil => exact Except.follows_ok hosts
  | cons note rest ih =>
    have first : (note.close writing channel tick solo).Follows (Sheet.Hosts same own before)
        ((note.relabel own).close writing channel tick shared) := by
      refine (hosts.setDuration note.entry _).bind ?_
      rintro ⟨soloTimeline, midi⟩ ⟨sharedTimeline, _⟩ ⟨rfl, timeline, spares⟩
      dsimp only
      split
      · exact Except.follows_ok ⟨rfl, timeline, spares⟩
      · exact Except.follows_ok ⟨rfl, timeline, spares⟩
    apply first.bind
    intro solo shared hosts
    exact ih hosts

theorem relabel_append {own : List Nat} {index : Nat} (inside : index < own.length) (new : Nat) :
    relabel (own ++ [new]) index = relabel own index := by
  rw [relabel, relabel, List.getElem?_append_left inside]

theorem relabel_last (own : List Nat) (new : Nat) : relabel (own ++ [new]) own.length = new := by
  simp [relabel]

theorem TimedNote.relabel_append {own : List Nat} {sheet : Sheet} {note : TimedNote}
    (size : own.length = sheet.timeline.size) (within : note.Within sheet) (new : Nat) :
    note.relabel (own ++ [new]) = note.relabel own := by
  unfold TimedNote.relabel
  cases entry : note.entry with
  | none => rfl
  | some index =>
    have inside : index < own.length := size ▸ within.entry index entry
    rw [Option.map_some, Option.map_some, Sequencer.relabel_append inside]

theorem OpenNote.relabel_append {own : List Nat} {sheet : Sheet} {note : OpenNote}
    (size : own.length = sheet.timeline.size) (within : note.Within sheet) (new : Nat) :
    note.relabel (own ++ [new]) = note.relabel own := by
  unfold OpenNote.relabel
  cases entry : note.entry with
  | none => rfl
  | some index =>
    have inside : index < own.length := size ▸ within index entry
    rw [Option.map_some, Option.map_some, Sequencer.relabel_append inside]

end Sequencer
