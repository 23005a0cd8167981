import Sequencer.Proofs.Midway
import Sequencer.RefSeq.Decoder

/-! Revisions of notes, at any time of a pass. Ties do not add up by themselves: the last of several
is all that is left of them. To shorten notes twice is to shorten them once, and never lets a note
sound longer. Neither reaches further than the notes that are tracked. -/
namespace Sequencer

namespace Player

variable {player next : Player}

/-- What is written for notes that are not tracked, or still open, has not changed. -/
structure KeepsOthers (player next : Player) : Prop where
  entries : ∀ note ∈ player.track.timedNotes, note.tracked = false → ∀ index ∈ note.entry,
    next.shared.timeline.entries[index]? = player.shared.timeline.entries[index]?
  noteOffs : ∀ note ∈ player.track.timedNotes, note.tracked = false → ∀ position ∈ note.noteOff,
    next.track.midi.events[position]? = player.track.midi.events[position]?
  opened : ∀ note ∈ player.track.openNotes, ∀ index ∈ note.entry,
    next.shared.timeline.entries[index]? = player.shared.timeline.entries[index]?

/-- No two notes share a place, so that a revision of some leaves those of the others. -/
theorem Tidy.keepsOthers (tidy : player.Tidy) (revises : player.RevisesTracked next) :
    player.KeepsOthers next := by
  obtain ⟨timed, _, apart⟩ := List.nodup_append.mp tidy.track.entries.nodup
  have differ {note other : TimedNote} (left : note.tracked = false)
      (tracked : other.tracked = true) : other ≠ note := by
    rintro rfl
    rw [left] at tracked
    cases tracked
  refine ⟨?_, ?_, ?_⟩
  · intro note here left index own
    refine revises.entries index fun other there tracked theirs => differ left tracked ?_
    exact List.eq_of_nodup_filterMap timed there here theirs own
  · intro note here left position own
    refine revises.events position fun other there tracked theirs => differ left tracked ?_
    exact List.eq_of_nodup_filterMap tidy.track.noteOffs.nodup there here theirs own
  · intro note here index own
    refine revises.entries index fun other there _ theirs => ?_
    exact apart index (List.mem_filterMap.mpr ⟨other, there, theirs⟩) index
      (List.mem_filterMap.mpr ⟨note, here, own⟩) rfl

/-- What the two ways to move the ends of tracked notes come to. -/
structure RevisesWell (player : Player) : Prop where
  /-- Only the last of two ties counts. -/
  extend : ∀ first last : Nat, ∃ middle final, player.extendNotes first = .ok middle ∧
    middle.extendNotes last = .ok final ∧ player.extendNotes last = .ok final
  limit : ∀ tick : Nat, ∃ limited, player.limitNotes tick = .ok limited ∧
    limited.limitNotes tick = .ok limited ∧
    List.Forall₂ (fun note note' => note'.start = note.start ∧
      note'.start ≤ note'.stop ∧ note'.stop ≤ note.stop)
      player.track.timedNotes limited.track.timedNotes
  /-- Neither touches anything else. -/
  others : ∀ (tick : Nat) (next : Player),
    player.extendNotes tick = .ok next ∨ player.limitNotes tick = .ok next →
    player.RevisesTracked next ∧ player.KeepsOthers next

theorem Tidy.revisesWell (tidy : player.Tidy) : player.RevisesWell where
  extend := fun first last => by
    obtain ⟨middle, extended, clears⟩ := tidy.extendNotes first
    have same := extendNotes_eq tidy.safe tidy.unsettled first
    cases extended.symm.trans same
    refine ⟨_, _, same, extendNotes_eq clears.tidy.safe clears.tidy.unsettled last, ?_⟩
    rw [revise_again]
    exact extendNotes_eq tidy.safe tidy.unsettled last
  limit := fun tick => ⟨player.limit tick, limitNotes_eq_limit tidy.safe tidy.unsettled tick,
    player.limitNotes_limit tick tick, limit_stops tidy.track.ordered tick⟩
  others := fun tick next done => by
    have revises : player.RevisesTracked next := by
      rcases done with extended | limited
      · cases extended.symm.trans (extendNotes_eq tidy.safe tidy.unsettled tick)
        exact revise_revisesTracked (fun _ => id) player tick
      · cases limited.symm.trans (limitNotes_eq_limit tidy.safe tidy.unsettled tick)
        exact limit_revisesTracked player tick
    exact ⟨revises, tidy.keepsOthers revises⟩

end Player

namespace Sequence

/-- At any time of a pass, whatever was ordered of its tracks before. -/
theorem revisions_settle {σ : Type} {sequence : Sequence σ} {pass : Pass} {tracks : List Track}
    {shared : Shared} (midway : sequence.Midway pass tracks shared) :
    ∀ track ∈ tracks, Player.RevisesWell ⟨sequence.setting pass, track, shared⟩ :=
  fun track member => (midway.tidy track member).revisesWell

/-- A sequence of one track goes on by what is ordered of it. -/
theorem Midway.alone {σ : Type} {sequence : Sequence σ} {pass : Pass} {track : Track}
    {shared : Shared} {more : Bool} {next : Player} (midway : sequence.Midway pass [track] shared)
    (operation : Operation)
    (done : Player.apply ⟨sequence.setting pass, track, shared⟩ operation = .ok (more, next)) :
    sequence.Midway pass [next.track] next.shared :=
  midway.orders [] [] operation done

/-- The first note of the track has an earlier start than the two that are tracked, of which one has
no entry. They are tied over, and a note is held open below them. -/
theorem revisions_settle_chord : ∃ opened,
    ofSource RefSeq.format () #[0x52, 0x53, 0x45, 0x51, 1, 0, 0, 0, 0, 0, 1, 0, 14, 0, 0] =
      .ok opened ∧
    ∃ track shared, opened.Midway .midi [track] shared ∧
      track.timedNotes = [⟨60, 0, 8, some 0, some 4, false⟩, ⟨64, 4, 20, none, some 6, true⟩,
        ⟨67, 4, 20, some 1, some 8, true⟩] ∧
      track.openNotes = [⟨48, 48, 4, some 2, some 4⟩] ∧
      Player.RevisesWell ⟨opened.setting .midi, track, shared⟩ := by
  let opened : { opened // ofSource RefSeq.format () #[0x52, 0x53, 0x45, 0x51, 1, 0, 0, 0, 0, 0, 1,
    0, 14, 0, 0] = .ok opened } := ⟨_, rfl⟩
  have begun : opened.val.Midway .midi [_] _ := .opened
  have first := begun.alone (.record ⟨14, 1⟩ (.note 60 100 8)) rfl
  have later := first.alone (.play (.rest 4)) rfl
  have second := later.alone (.play (.note 64 90 8)) rfl
  have third := second.alone (.record ⟨14, 1⟩ (.note 67 90 6)) rfl
  have held := third.alone (.record ⟨14, 1⟩ (.noteOn 48 80)) rfl
  have tied := held.alone (.extendNotes 20) rfl
  exact ⟨_, opened.property, _, _, tied, rfl, rfl, revisions_settle tied _ List.mem_cons_self⟩

end Sequence
end Sequencer
