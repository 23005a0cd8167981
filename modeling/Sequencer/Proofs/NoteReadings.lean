import Sequencer.Proofs.Histories
import Sequencer.Proofs.NotePairs
import Sequencer.Proofs.OwnTransposes

/-! The notes of a track. A note is a reading that starts one. There is an entry in the timeline for
each note that a track has read, and a message in its MIDI, in the order of the readings. The store
has the event of another reading for it: the first one of the same bytes. -/
namespace Sequencer

theorem EventKind.isSome_struck (kind : EventKind) : kind.struck?.isSome = kind.startsNote := by
  cases kind <;> rfl

theorem EventKind.key_of_struck {kind : EventKind} {key velocity : UInt8}
    (struck : kind.struck? = some (key, velocity)) : kind.key? = some key := by
  cases kind with
  | noteOn | note =>
    cases struck
    rfl
  | _ => cases struck

namespace RefSeq

/-- The notes among the readings of a track that has read nothing before. -/
def notes (source : Source) (visits : List Visit) : List Reading :=
  (readings source {} visits).filter fun reading => (reading.struck? source).isSome

variable {source : Source} {visits : List Visit}

theorem isSome_struck (reading : Reading) : (reading.struck? source).isSome =
    startsNote source reading.visit.offset := by
  unfold Reading.struck? Reading.kind? Reading.event? eventAt? startsNote
  rw [show reading.visit.place.offset = reading.visit.offset from rfl]
  rcases instruction source reading.visit.offset with ⟨result, stop⟩
  cases result with
  | error error => rfl
  | ok instruction =>
    cases instruction with
    | event kind => exact kind.isSome_struck
    | octaveNote | cut | unknown => rfl

theorem isRecorded_of_startsNote {offset : Nat} (starts : startsNote source offset = true) :
    isRecorded source offset = true := by
  unfold startsNote at starts
  unfold isRecorded
  revert starts
  rcases instruction source offset with ⟨result, stop⟩
  intro starts
  cases result with
  | error error => cases starts
  | ok instruction => cases instruction <;> first | rfl | cases starts

/-- A note sets no register. -/
theorem after_of_struck {reading : Reading} {key velocity : UInt8}
    (struck : reading.struck? source = some (key, velocity)) :
    reading.after source = reading.registers := by
  obtain ⟨kind, known, struck⟩ := Option.bind_eq_some_iff.mp struck
  rw [Reading.after, known]
  cases kind with
  | noteOn | note => rfl
  | _ => cases struck

theorem notes_append (visits : List Visit) (visit : Visit) :
    notes source (visits ++ [visit]) = notes source visits ++
      if startsNote source visit.offset then [⟨visit, registersAfter source {} visits⟩] else [] := by
  rw [notes, readings_append, List.filter_append, notes]
  simp [readings, List.filter_cons, isSome_struck]

/-- A reading has the registers that the readings before it leave behind. -/
theorem registers_of_split {registers : Registers} {before after : List Reading}
    {reading : Reading} (split : readings source registers visits = before ++ reading :: after) :
    visits = before.map Reading.visit ++ reading.visit :: after.map Reading.visit ∧
      reading.registers = registersAfter source registers (before.map Reading.visit) := by
  have own : visits = before.map Reading.visit ++ reading.visit :: after.map Reading.visit := by
    have same : (readings source registers visits).map Reading.visit = visits :=
      visits_readings visits
    rw [← same, split, List.map_append, List.map_cons]
  refine ⟨own, ?_⟩
  rw [own, readings_append] at split
  have sizes : (readings source registers (before.map Reading.visit)).length = before.length := by
    rw [← List.length_map Reading.visit, visits_readings, List.length_map]
  obtain ⟨head, _⟩ := List.cons.inj (List.append_inj_right split sizes)
  exact (congrArg Reading.registers head).symm

end RefSeq

namespace Shared

/-- The indices of the entries of a track's notes. -/
def notesOf (shared : Shared) (track : Nat) : List Nat :=
  (List.range shared.timeline.size).filter fun index =>
    (shared.eventAt? index).any fun event => event.track = track && event.kind.startsNote

variable {shared : Shared} {source : Source} {log earlier later : List Visit}

/-- A note of a track, and the entry that was made when it was read. -/
structure Enters (source : Source) (log : List Visit) (track index : Nat) (note : Reading) :
    Prop where
  split : ∃ earlier later, log = earlier ++ note.visit :: later ∧
    RefSeq.entryAfter source earlier = index ∧
    note.registers = RefSeq.registersAfter source {} (visitsOf earlier track)
  owner : note.visit.track = track
  starts : RefSeq.startsNote source note.visit.offset = true

theorem enters_notes_prefix (journal : shared.tags = log.filterMap (Visit.tag? source))
    (faithful : shared.arena.Faithful source) (split : log = earlier ++ later) (track : Nat) :
    List.Forall₂ (Enters source log track)
      ((List.range (RefSeq.entryAfter source earlier)).filter fun index =>
        (shared.eventAt? index).any fun event => event.track = track && event.kind.startsNote)
      (RefSeq.notes source (visitsOf earlier track)) := by
  induction earlier using List.reverseRecOn generalizing later with
  | nil => exact .nil
  | append_singleton earlier visit ih =>
    rw [List.append_assoc] at split
    have before := ih split
    cases recorded : RefSeq.isRecorded source visit.offset with
    | false =>
      have silent : RefSeq.startsNote source visit.offset = false := by
        cases starts : RefSeq.startsNote source visit.offset with
        | false => rfl
        | true => cases recorded.symm.trans (RefSeq.isRecorded_of_startsNote starts)
      have none : RefSeq.notes source (visitsOf (earlier ++ [visit]) track) =
          RefSeq.notes source (visitsOf earlier track) := by
        rw [visitsOf_push]
        split
        · rw [RefSeq.notes_append, silent]
          exact List.append_nil _
        · rfl
      rw [RefSeq.entryAfter_unrecorded earlier recorded, none]
      exact before
    | true =>
      obtain ⟨entry, event, _, _, named, stored, place⟩ :=
        event_of_tag (tag_of_visit journal split recorded)
      have owner : event.track = visit.track := congrArg Place.track place
      have offset : event.offset = visit.offset := congrArg Place.offset place
      rw [RefSeq.entryAfter_recorded earlier recorded, List.range_succ, List.filter_append,
        visitsOf_push]
      by_cases own : visit.track = track
      · rw [if_pos own, RefSeq.notes_append]
        refine List.rel_append before ?_
        rw [List.filter_cons, named, Option.any_some, faithful.startsNote stored, owner, offset,
          decide_eq_true own, Bool.true_and]
        cases starts : RefSeq.startsNote source visit.offset with
        | false => exact .nil
        | true => exact .cons ⟨⟨earlier, later, split, rfl, rfl⟩, own, starts⟩ .nil
      · rw [if_neg own, List.filter_cons, named, Option.any_some, owner, decide_eq_false own,
          Bool.false_and, if_neg Bool.false_ne_true, List.filter_nil, List.append_nil]
        exact before

/-- The entries of a track's notes are those of its notes, in their order. -/
theorem enters_notes (journal : shared.tags = log.filterMap (Visit.tag? source))
    (faithful : shared.arena.Faithful source) (track : Nat) :
    List.Forall₂ (Enters source log track) (shared.notesOf track)
      (RefSeq.notes source (visitsOf log track)) := by
  have all : RefSeq.entryAfter source log = shared.timeline.size := by
    rw [RefSeq.entryAfter, ← journal, length_tags]
  have split : log = log ++ [] := (List.append_nil log).symm
  have notes := enters_notes_prefix journal faithful split track
  rw [all] at notes
  exact notes

end Shared

/-- The store has the event that the track recorded when it first read the bytes. -/
theorem Event.Charted.first {source : Source} {start : Position} {event : Event}
    (charted : event.Charted source start) {depth : Nat} {visits : List Visit}
    (leads : start.Leads source depth (visits.map Visit.offset))
    (owner : ∀ visit ∈ visits, visit.track = event.track)
    (visited : ∃ visit ∈ visits, visit.offset = event.offset) :
    ∃ first, (RefSeq.readings source {} visits).find?
        (fun reading => reading.visit.offset = event.offset) = some first ∧
      first.event? source = some event := by
  obtain ⟨visit, member, there⟩ := visited
  have same : (RefSeq.readings source {} visits).map Reading.visit = visits :=
    RefSeq.visits_readings visits
  rw [← same] at member
  obtain ⟨reading, read, rfl⟩ := List.mem_map.mp member
  cases found : (RefSeq.readings source {} visits).find?
      (fun reading => reading.visit.offset = event.offset) with
  | none => exact absurd (decide_eq_true there) (List.find?_eq_none.mp found reading read)
  | some first =>
    refine ⟨first, rfl, ?_⟩
    obtain ⟨here, before, after, split, none⟩ := List.find?_eq_some_iff_append.mp found
    have here := of_decide_eq_true here
    obtain ⟨own, registers⟩ := RefSeq.registers_of_split split
    obtain ⟨depth', offsets, leads', new', recorded⟩ := charted
    have offset : first.visit.offset = event.offset := here
    have new : event.offset ∉ (before.map Reading.visit).map Visit.offset := by
      intro earlier
      obtain ⟨_, visited, same⟩ := List.mem_map.mp earlier
      obtain ⟨other, member, rfl⟩ := List.mem_map.mp visited
      have elsewhere := none other member
      simp [same] at elsewhere
    have way : start.Leads source depth
        ((before.map Reading.visit).map Visit.offset ++ [event.offset]) := by
      rw [own, List.map_append, List.map_cons, offset, List.append_cons] at leads
      exact leads.prefix
    cases way.first_unique new leads' new'
    have place : first.visit.place = event.place := by
      unfold Visit.place Event.place
      rw [offset, owner first.visit (by rw [own]; simp)]
    rw [Reading.event?, place, registers, RefSeq.octave_eq_octaveOf]
    exact recorded

end Sequencer
