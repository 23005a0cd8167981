import Mathlib.Data.List.Forall2
import Sequencer.Proofs.Player.Aside
import Sequencer.Proofs.Score.Revisions

/-! What a player revises when it moves the ends of its notes: the notes that are tracked, with
their entries and note-offs, and nothing else. A tie hides an earlier one, and once notes were
shortened no note is tracked. -/
namespace Sequencer

namespace TimedNote

theorem map_ended_again (first last : Nat) (notes : List TimedNote) :
    (notes.map (ended tracked first)).map (ended tracked last) =
      notes.map (ended tracked last) := by
  rw [List.map_map]
  refine List.map_congr_left fun note _ => ?_
  rw [Function.comp_apply]
  cases known : note.tracked with
  | false => rw [ended_of_other known]
  | true =>
    have still : (note.ended tracked first).tracked = true := by rw [ended_eq, known]
    rw [ended_of_chosen still, ended_of_chosen known, ended_of_chosen known]
    rfl

theorem filter_tracked_ended (first last : Nat) (notes : List TimedNote) :
    ((notes.map (ended tracked first)).filter tracked).map (endedAt last) =
      (notes.filter tracked).map (endedAt last) := by
  rw [List.filter_map, List.map_map]
  have same : tracked ∘ ended tracked first = tracked := funext fun note => by
    rw [Function.comp_apply, ended_eq]
  rw [same]
  refine List.map_congr_left fun note member => ?_
  rw [Function.comp_apply, ended_of_chosen (List.mem_filter.mp member).2]
  rfl

theorem endAll_of_none {chosen : TimedNote → Bool} {tick : Nat} {sheet : Sheet}
    {notes : List TimedNote} (none : ∀ note ∈ notes, chosen note = false) :
    endAll chosen tick sheet notes = .ok (notes, sheet) := by
  induction notes with
  | nil => rfl
  | cons note rest ih =>
    obtain ⟨here, there⟩ := List.forall_mem_cons.mp none
    rw [endAll_cons, endIf, if_neg (by simp [here])]
    exact congrArg (Except.map _) (ih there)

end TimedNote

namespace Player

variable {player : Player}

/-- The player once the chosen notes end at a tick. -/
def revise (player : Player) (chosen : TimedNote → Bool) (tick : Nat) : Player :=
  (player.withSheet (player.sheet.revise
    ((player.track.timedNotes.filter chosen).map (TimedNote.endedAt tick)))).withTimed
    (player.track.timedNotes.map (TimedNote.ended chosen tick))

/-- Open notes are closed before the others are revised. -/
theorem endNotes_of_closed {closing : List OpenNote} {closed : Sheet} {tick : Nat}
    (done : OpenNote.closeAll player.writing player.track.channel tick player.sheet closing =
      .ok closed) (within : ∀ note ∈ player.track.timedNotes, note.Within closed)
    (unsettled : closed.timeline.settled = false) (chosen : TimedNote → Bool) :
    player.endNotes closing chosen tick = .ok ((player.withSheet closed).revise chosen tick) := by
  have ended : TimedNote.endAll chosen tick closed player.track.timedNotes = _ :=
    TimedNote.endAll_eq within unsettled
  unfold endNotes
  dsimp only [bind, Except.bind]
  rw [done]
  dsimp only
  rw [ended]
  rfl

theorem endNotes_eq (safe : player.Safe) (unsettled : player.shared.timeline.settled = false)
    (chosen : TimedNote → Bool) (tick : Nat) :
    player.endNotes [] chosen tick = .ok (player.revise chosen tick) :=
  endNotes_of_closed rfl safe.timed unsettled chosen

theorem extendNotes_eq (safe : player.Safe) (unsettled : player.shared.timeline.settled = false)
    (tick : Nat) : player.extendNotes tick = .ok (player.revise TimedNote.tracked tick) :=
  endNotes_eq safe unsettled _ tick

/-- A tie hides the one before it. -/
theorem revise_again (player : Player) (first last : Nat) :
    (player.revise TimedNote.tracked first).revise TimedNote.tracked last =
      player.revise TimedNote.tracked last := by
  have sheet : (player.revise TimedNote.tracked first).sheet.revise
      (((player.revise TimedNote.tracked first).track.timedNotes.filter TimedNote.tracked).map
        (TimedNote.endedAt last)) =
      player.sheet.revise ((player.track.timedNotes.filter TimedNote.tracked).map
        (TimedNote.endedAt last)) := by
    change (player.sheet.revise _).revise (((player.track.timedNotes.map _).filter _).map _) = _
    rw [TimedNote.filter_tracked_ended, Sheet.revise_again]
  have notes : (player.revise TimedNote.tracked first).track.timedNotes.map
      (TimedNote.ended TimedNote.tracked last) =
      player.track.timedNotes.map (TimedNote.ended TimedNote.tracked last) :=
    TimedNote.map_ended_again ..
  rw [revise, sheet, notes]
  rfl

/-- The notes that are shortened to end at a tick. -/
def passes (tick : Nat) (note : TimedNote) : Bool := note.tracked && tick < note.stop

def limit (player : Player) (tick : Nat) : Player :=
  let ended := player.revise (passes tick) tick
  ended.withTimed (ended.track.timedNotes.map TimedNote.untrack)

theorem limitNotes_eq_limit (safe : player.Safe)
    (unsettled : player.shared.timeline.settled = false) (tick : Nat) :
    player.limitNotes tick = .ok (player.limit tick) := by
  rw [limitNotes_eq]
  exact congrArg (Except.map _) (endNotes_eq safe unsettled (passes tick) tick)

/-- Where no note is tracked, there is nothing to shorten. -/
theorem limitNotes_of_untracked (untracked : ∀ note ∈ player.track.timedNotes,
    note.tracked = false) (tick : Nat) : player.limitNotes tick = .ok player := by
  have none : ∀ note ∈ player.track.timedNotes,
      (note.tracked && decide (tick < note.stop)) = false := fun note member => by
    rw [untracked note member, Bool.false_and]
  have ended : player.endNotes [] (fun note => note.tracked && tick < note.stop) tick =
      .ok player := by
    unfold endNotes
    dsimp only [OpenNote.closeAll, bind, Except.bind]
    rw [TimedNote.endAll_of_none none]
    rfl
  have still : player.track.timedNotes.map TimedNote.untrack = player.track.timedNotes := by
    refine (List.map_congr_left fun note member => ?_).trans (List.map_id _)
    rw [TimedNote.untrack, ← untracked note member]
    rfl
  rw [limitNotes_eq, ended]
  dsimp only [Except.map]
  rw [still]
  rfl

theorem limitNotes_limit (player : Player) (first last : Nat) :
    (player.limit first).limitNotes last = .ok (player.limit first) := by
  refine limitNotes_of_untracked (fun note member => ?_) last
  obtain ⟨earlier, _, rfl⟩ := List.mem_map.mp member
  rfl

/-- All that has changed is the ends of tracked notes, and their entries and note-offs. -/
structure RevisesTracked (player next : Player) : Prop where
  setting : next.setting = player.setting
  track : next.track.noteless = player.track.noteless
  shared : next.shared.untimed = player.shared.untimed
  openNotes : next.track.openNotes = player.track.openNotes
  untracked : List.Forall₂ (fun note revised => note.tracked = false → revised = note)
    player.track.timedNotes next.track.timedNotes
  entries : ∀ index : Nat,
    (∀ note ∈ player.track.timedNotes, note.tracked = true → note.entry ≠ some index) →
    next.shared.timeline.entries[index]? = player.shared.timeline.entries[index]?
  events : ∀ position : Nat,
    (∀ note ∈ player.track.timedNotes, note.tracked = true → note.noteOff ≠ some position) →
    next.track.midi.events[position]? = player.track.midi.events[position]?

theorem revise_revisesTracked {chosen : TimedNote → Bool}
    (only : ∀ note, chosen note = true → note.tracked = true) (player : Player) (tick : Nat) :
    player.RevisesTracked (player.revise chosen tick) where
  setting := rfl
  track := rfl
  shared := rfl
  openNotes := rfl
  untracked := by
    refine List.forall₂_map_right_iff.mpr (List.forall₂_same.mpr fun note _ left => ?_)
    refine TimedNote.ended_of_other (Bool.eq_false_iff.mpr fun picked => ?_) tick
    rw [only note picked] at left
    cases left
  entries := fun index apart => Sheet.revise_entries (fun note member =>
    apart note (List.mem_filter.mp member).1 (only note (List.mem_filter.mp member).2)) tick _
  events := fun position apart => Sheet.revise_events (fun note member =>
    apart note (List.mem_filter.mp member).1 (only note (List.mem_filter.mp member).2)) tick _

theorem passes_tracked (tick : Nat) (note : TimedNote) (picked : passes tick note = true) :
    note.tracked = true := (Bool.and_eq_true_iff.mp picked).1

theorem limit_revisesTracked (player : Player) (tick : Nat) :
    player.RevisesTracked (player.limit tick) := by
  have revised := revise_revisesTracked (passes_tracked tick) player tick
  refine ⟨revised.setting, revised.track, revised.shared, revised.openNotes, ?_,
    revised.entries, revised.events⟩
  refine List.forall₂_map_right_iff.mpr (revised.untracked.imp fun note ended same left => ?_)
  rw [same left, TimedNote.untrack, ← left]

/-- A note that is shortened ends no later than before, and not before its start. -/
theorem limit_stops (ordered : ∀ note ∈ player.track.timedNotes, note.start ≤ note.stop)
    (tick : Nat) : List.Forall₂ (fun note limited => limited.start = note.start ∧
      limited.start ≤ limited.stop ∧ limited.stop ≤ note.stop)
      player.track.timedNotes (player.limit tick).track.timedNotes := by
  change List.Forall₂ _ _ ((player.track.timedNotes.map _).map _)
  rw [List.map_map]
  refine List.forall₂_map_right_iff.mpr (List.forall₂_same.mpr fun note member => ?_)
  have before := ordered note member
  rw [Function.comp_apply]
  cases picked : passes tick note with
  | false =>
    rw [TimedNote.ended_of_other picked]
    exact ⟨rfl, before, Nat.le_refl _⟩
  | true =>
    have late : tick < note.stop := of_decide_eq_true (Bool.and_eq_true_iff.mp picked).2
    rw [TimedNote.ended_of_chosen picked]
    exact ⟨rfl, Nat.le_max_right .., Nat.max_le.mpr ⟨Nat.le_of_lt late, before⟩⟩

end Player
end Sequencer
