import Mathlib.Data.List.Induction
import Mathlib.Data.List.Nodup
import Sequencer.Proofs.Among.Rows
import Sequencer.Proofs.RefSeq.Readings
import Sequencer.Proofs.Score.Run
import Sequencer.Proofs.Stable

/-! The transpose of a track, found again. The walk over a settled timeline keeps the last transpose of
each track that it has come to. A track's entries stand there in the order in which they were made,
so that each is given the transpose that the track had behind the instruction of the entry. -/
namespace Sequencer

/-- What an instruction makes of the transpose of its track. -/
def EventKind.ownTranspose? : EventKind → Option Int8
  | .transpose .own semitones => some semitones
  | _ => none

theorem Registers.transpose_after (registers : Registers) (kind : EventKind) :
    (registers.after kind).transpose = kind.ownTranspose?.getD registers.transpose := by
  cases kind with
  | transpose scope semitones => cases scope <;> rfl
  | _ => rfl

namespace Transposes

variable (transposes : Transposes) (index : Nat) (entry : Entry) (event : Event) (track : Nat)

theorem current_eq : transposes.current track =
    ((transposes.ofTrack[track]?).bind Array.back?).elim 0 TransposeChange.semitones := by
  unfold current
  cases transposes.ofTrack[track]? <;> rfl

theorem size_withTrack : track < (transposes.withTrack track).ofTrack.size := by
  simp only [withTrack, Array.size_append, Array.size_replicate]
  omega

/-- A track of which nothing is known has no transpose. -/
theorem current_withTrack (other : Nat) :
    (transposes.withTrack other).current track = transposes.current track := by
  rw [current_eq, current_eq, withTrack]
  dsimp only
  rw [Array.getElem?_append]
  split
  · rfl
  · rename_i outside
    rw [Array.getElem?_eq_none (Nat.le_of_not_lt outside), Array.getElem?_replicate]
    split <;> rfl

theorem current_collect : (transposes.collect index entry event).current track =
    if event.track = track then
      (event.kind.ownTranspose?.map Int8.toInt).getD (transposes.current track)
    else transposes.current track := by
  rw [← transposes.current_withTrack track event.track]
  have known := transposes.size_withTrack event.track
  unfold collect
  generalize transposes.withTrack event.track = opened at known ⊢
  have plain : opened.current track =
      if event.track = track then opened.current track else opened.current track :=
    (ite_self _).symm
  cases event.kind with
  | transpose scope semitones =>
    cases scope with
    | all => exact plain
    | own =>
      change current { opened with ofTrack := opened.ofTrack.modify _ _ } track = _
      rw [current_eq, current_eq]
      dsimp only
      rw [Array.getElem?_modify]
      split
      · rename_i own
        subst own
        rw [Array.getElem?_eq_getElem known]
        simp [EventKind.ownTranspose?, Array.back?_push]
      · rfl
  | _ => exact plain

theorem ofEntry_collect : (transposes.collect index entry event).ofEntry =
    transposes.ofEntry.setIfInBounds index
      ((transposes.collect index entry event).current event.track) := by
  unfold collect
  cases event.kind with
  | transpose scope semitones => cases scope <;> rfl
  | _ => rfl

end Transposes

namespace Shared

/-- Whether an entry is the track's own. -/
def isOf (shared : Shared) (track index : Nat) : Bool :=
  (shared.eventAt? index).any fun event => event.track = track

/-- The transpose of a track behind an entry. -/
def transposed (shared : Shared) (track : Nat) (semitones : Int) (index : Nat) : Int :=
  if shared.isOf track index then
    (((shared.eventAt? index).bind fun event => event.kind.ownTranspose?).map Int8.toInt).getD
      semitones
  else semitones

variable {shared : Shared} {track : Nat}

theorem foldl_transposed_filter (indices : List Nat) (semitones : Int) :
    (indices.filter (shared.isOf track)).foldl (shared.transposed track) semitones =
      indices.foldl (shared.transposed track) semitones := by
  rw [List.foldl_filter]
  refine congrArg (fun step => indices.foldl step semitones) (funext₂ fun semitones index => ?_)
  unfold transposed
  split <;> rfl

end Shared

namespace Transposes

/-- At each entry the walk has collected the transpose of its track up to there. -/
theorem collectAll_own {shared : Shared} (resolved : shared.Resolved) (timeline : Timeline)
    (entries : timeline.entries = shared.timeline.entries) {indices : List Nat}
    (once : indices.Nodup) (inside : ∀ index ∈ indices, index < shared.timeline.size)
    {transposes : Transposes} (room : transposes.ofEntry.size = shared.timeline.size) :
    (collectAll timeline shared.arena indices transposes).Ensures fun all =>
      (∀ index ∉ indices, all.ofEntry[index]? = transposes.ofEntry[index]?) ∧
      ∀ earlier index later, indices = earlier ++ index :: later →
        ∃ event, shared.eventAt? index = some event ∧ all.ofEntry[index]? = some
          ((earlier ++ [index]).foldl (shared.transposed event.track)
            (transposes.current event.track)) := by
  induction indices generalizing transposes with
  | nil =>
    refine Except.ensures_ok ⟨fun _ _ => rfl, fun earlier index later split => ?_⟩
    exact absurd split.symm (by simp)
  | cons first rest ih =>
    obtain ⟨new, once⟩ := List.nodup_cons.mp once
    have here := inside first List.mem_cons_self
    obtain ⟨entry, event, found, stored⟩ := resolved.event here
    have named : shared.eventAt? first = some event := by
      rw [Shared.eventAt?, found]
      exact stored
    have current (track : Nat) : (transposes.collect first entry event).current track =
        shared.transposed track (transposes.current track) first := by
      rw [current_collect, Shared.transposed, Shared.isOf, named]
      simp
    have got : timeline.get first = .ok entry := by rw [Timeline.get, entries, found]
    have known : shared.arena.get? entry.event = some event := stored
    rw [collectAll, got]
    simp only [Bind.bind, Except.bind, known]
    refine Except.Ensures.mono (ih once
      (fun index member => inside index (List.mem_cons_of_mem _ member)) ?_) ?_
    · rw [ofEntry_collect, Array.size_setIfInBounds, room]
    · rintro all ⟨kept, collected⟩
      constructor
      · intro index outside
        rw [kept index fun member => outside (List.mem_cons_of_mem _ member), ofEntry_collect,
          Array.getElem?_setIfInBounds, if_neg fun same => outside (by simp [same])]
      · intro earlier index later split
        cases earlier with
        | nil =>
          cases split
          refine ⟨event, named, ?_⟩
          rw [kept _ new, ofEntry_collect, Array.getElem?_setIfInBounds, if_pos rfl,
            if_pos (room ▸ here), current]
          rfl
        | cons before earlier =>
          cases split
          obtain ⟨event', named', value⟩ := collected earlier index later rfl
          refine ⟨event', named', ?_⟩
          rw [value, current]
          rfl

end Transposes

namespace Timeline

variable {timeline : Timeline} {p : Nat → Bool}

theorem nodup_order (timeline : Timeline) : timeline.order.Nodup := by
  rw [order_eq]
  exact (List.mergeSort_perm _ _).nodup_iff.mpr List.nodup_range

/-- Entries whose starts do not go back are walked over in the order of their indices. -/
theorem filter_order (ascending : ((List.range timeline.size).filter p).Pairwise fun i j =>
    timeline.startOf i ≤ timeline.startOf j) :
    timeline.order.filter p = (List.range timeline.size).filter p := by
  rw [order_eq]
  refine List.filter_mergeSort (fun a b c => ?_) (fun a b => ?_) (ascending.imp decide_eq_true)
  · simpa only [decide_eq_true_eq] using Nat.le_trans
  · simpa only [Bool.or_eq_true, decide_eq_true_eq] using Nat.le_total _ _

/-- Those that come before an entry are those with a lower index. -/
theorem filter_before {earlier later : List Nat} {index : Nat}
    (same : timeline.order.filter p = (List.range timeline.size).filter p)
    (split : timeline.order = earlier ++ index :: later) (own : p index = true) :
    earlier.filter p = (List.range index).filter p := by
  have inside : index < timeline.size := mem_order.mp (by simp [split])
  have once := timeline.nodup_order
  rw [split] at same once
  obtain ⟨out, _⟩ := List.nodup_cons.mp (List.nodup_middle.mp once)
  obtain ⟨before, after⟩ := not_or.mp (mt List.mem_append.mpr out)
  have range : List.range timeline.size =
      List.range index ++ index :: (List.range timeline.size).drop (index + 1) := by
    have cut := (List.take_append_drop index (List.range timeline.size)).symm
    rwa [List.take_range, Nat.min_eq_left (Nat.le_of_lt inside),
      List.drop_eq_getElem_cons (by simpa using inside), List.getElem_range] at cut
  rw [range, List.filter_append, List.filter_append, List.filter_cons_of_pos own,
    List.filter_cons_of_pos own] at same
  refine ((List.append_cons_inj_of_notMem ?_ ?_).mp same).1
  · exact fun member => before (List.mem_filter.mp member).1
  · exact fun member => after (List.mem_filter.mp member).1

end Timeline

/-- The walk over a settled timeline starts without a transpose. -/
theorem Transposes.ofTimeline_own {shared : Shared} (resolved : shared.Resolved) :
    (ofTimeline shared.timeline.settle shared.arena).Ensures fun all =>
      ∀ earlier index later, shared.timeline.order = earlier ++ index :: later →
        ∃ event, shared.eventAt? index = some event ∧ all.ofEntry[index]? = some
          ((earlier ++ [index]).foldl (shared.transposed event.track) 0) := by
  intro all done
  have room : ({ ofEntry := Array.replicate shared.timeline.size 0 } : Transposes).ofEntry.size =
      shared.timeline.size := Array.size_replicate
  have collected := collectAll_own resolved shared.timeline.settle rfl
    shared.timeline.nodup_order (fun _ => Timeline.mem_order.mp) room all done
  exact collected.2

theorem Reading.transpose_after {source : Source} (reading : Reading) :
    (reading.after source).transpose =
      ((RefSeq.kindAt? source reading.visit.offset).bind EventKind.ownTranspose?).getD
        reading.registers.transpose := by
  rw [RefSeq.after_eq]
  cases RefSeq.kindAt? source reading.visit.offset with
  | none => rfl
  | some kind => exact reading.registers.transpose_after kind

theorem Arena.Faithful.ownTranspose {source : Source} {arena : Arena}
    (faithful : arena.Faithful source) {id : Nat} {event : Event}
    (found : arena.get? id = some event) : event.kind.ownTranspose? =
      (RefSeq.kindAt? source event.offset).bind EventKind.ownTranspose? := by
  obtain ⟨player, reads, recording⟩ := faithful id event found
  have offset : event.offset = player.reading.visit.offset :=
    congrArg Place.offset (RefSeq.place_eventAt (player.recording_eq.symm.trans recording))
  have kind : player.reading.kind? source = some event.kind := by
    rw [Reading.kind?, show player.reading.event? source = some event from
      reads ▸ player.recording_eq.symm.trans recording]
    rfl
  rw [offset]
  cases known : RefSeq.kindAt? source player.reading.visit.offset with
  | some other =>
    cases (RefSeq.kind_of_kindAt known).symm.trans kind
    rfl
  | none =>
    rcases RefSeq.kind_of_kindAt_none known kind with ⟨_, _, _, same⟩ | ⟨_, same⟩ <;> rw [same] <;> rfl

/-- The number of the entry that comes behind those of some visits. -/
def RefSeq.entryAfter (source : Source) (visits : List Visit) : Nat :=
  (visits.filterMap (Visit.tag? source)).length

theorem RefSeq.tag_of_recorded {source : Source} {visit : Visit}
    (recorded : RefSeq.isRecorded source visit.offset = true) :
    visit.tag? source = some (visit.tick, some visit.place) := if_pos recorded

theorem RefSeq.entryAfter_recorded {source : Source} (earlier : List Visit) {visit : Visit}
    (recorded : RefSeq.isRecorded source visit.offset = true) :
    entryAfter source (earlier ++ [visit]) = entryAfter source earlier + 1 := by
  simp [entryAfter, tag_of_recorded recorded]

theorem RefSeq.entryAfter_unrecorded {source : Source} (earlier : List Visit) {visit : Visit}
    (unrecorded : RefSeq.isRecorded source visit.offset = false) :
    entryAfter source (earlier ++ [visit]) = entryAfter source earlier := by
  simp [entryAfter, Visit.tag?, unrecorded]

/-- Bytes that leave no entry do not change a transpose. -/
theorem RefSeq.kindAt_of_unrecorded {source : Source} {offset : Nat}
    (unrecorded : RefSeq.isRecorded source offset = false) : RefSeq.kindAt? source offset = none := by
  unfold RefSeq.isRecorded at unrecorded
  unfold RefSeq.kindAt?
  revert unrecorded
  rcases RefSeq.instruction source offset with ⟨result, stop⟩
  intro unrecorded
  cases result with
  | error error => rfl
  | ok instruction => cases instruction <;> first | rfl | cases unrecorded

theorem RefSeq.transpose_append (source : Source) (earlier : List Visit) (visit : Visit)
    (track : Nat) :
    (registersAfter source {} (visitsOf (earlier ++ [visit]) track)).transpose =
      if visit.track = track then
        ((kindAt? source visit.offset).bind EventKind.ownTranspose?).getD
          (registersAfter source {} (visitsOf earlier track)).transpose
      else (registersAfter source {} (visitsOf earlier track)).transpose := by
  rw [visitsOf_push]
  split
  · rw [registersAfter_append, Reading.transpose_after]
  · rfl

namespace Shared

variable {shared : Shared} {source : Source} {log earlier later : List Visit} {visit : Visit}

theorem event_of_tag {index start : Nat} {place : Place}
    (tagged : shared.tags[index]? = some (start, some place)) : ∃ entry event,
      shared.timeline.entries[index]? = some entry ∧ entry.start = start ∧
      shared.eventAt? index = some event ∧ shared.arena.get? entry.event = some event ∧
      event.place = place := by
  simp only [tags, Timeline.skeleton, List.getElem?_map, Array.getElem?_toList, Option.map_map,
    Option.map_eq_some_iff] at tagged
  obtain ⟨entry, found, same⟩ := tagged
  obtain ⟨rfl, named⟩ := Prod.mk.inj same
  obtain ⟨event, stored, there⟩ := Option.map_eq_some_iff.mp named
  refine ⟨entry, event, found, rfl, ?_, stored, there⟩
  rw [eventAt?, found]
  exact stored

theorem tag_of_visit (journal : shared.tags = log.filterMap (Visit.tag? source))
    (split : log = earlier ++ visit :: later)
    (recorded : RefSeq.isRecorded source visit.offset = true) :
    shared.tags[RefSeq.entryAfter source earlier]? = some (visit.tick, some visit.place) := by
  rw [journal, split, List.filterMap_append, List.filterMap_cons, RefSeq.tag_of_recorded recorded]
  simp [RefSeq.entryAfter]

/-- The transpose of a track behind the entries of some visits is the one behind the visits. -/
theorem foldl_transposed (journal : shared.tags = log.filterMap (Visit.tag? source))
    (faithful : shared.arena.Faithful source) (split : log = earlier ++ later) (track : Nat) :
    (List.range (RefSeq.entryAfter source earlier)).foldl (shared.transposed track) 0 =
      (RefSeq.registersAfter source {} (visitsOf earlier track)).transpose.toInt := by
  induction earlier using List.reverseRecOn generalizing later with
  | nil => rfl
  | append_singleton earlier visit ih =>
    rw [List.append_assoc] at split
    have before := ih split
    rw [RefSeq.transpose_append]
    cases recorded : RefSeq.isRecorded source visit.offset with
    | false =>
      rw [RefSeq.entryAfter_unrecorded earlier recorded, before,
        RefSeq.kindAt_of_unrecorded recorded]
      exact congrArg Int8.toInt (ite_self _).symm
    | true =>
      obtain ⟨entry, event, _, _, named, stored, place⟩ :=
        event_of_tag (tag_of_visit journal split recorded)
      have owner : event.track = visit.track := congrArg Place.track place
      have offset : event.offset = visit.offset := congrArg Place.offset place
      rw [RefSeq.entryAfter_recorded earlier recorded, List.range_succ, List.foldl_append, before,
        List.foldl_cons, List.foldl_nil, transposed, isOf, named]
      simp only [Option.any_some, decide_eq_true_eq, Option.bind_some, owner]
      rw [faithful.ownTranspose stored, offset]
      split
      · cases (RefSeq.kindAt? source visit.offset).bind EventKind.ownTranspose? <;> rfl
      · rfl

/-- Entries of one track start in the order in which they were made. -/
theorem starts_ascending (journal : shared.tags = log.filterMap (Visit.tag? source)) {track : Nat}
    (ascending : (visitsOf log track).Pairwise fun first second => first.tick ≤ second.tick) :
    ((List.range shared.timeline.size).filter (shared.isOf track)).Pairwise fun i j =>
      shared.timeline.startOf i ≤ shared.timeline.startOf j := by
  let own (tag : Nat × Option Place) : Bool := tag.2.any fun place => place.track = track
  have start (index : Nat) :
      shared.timeline.startOf index = (shared.tags[index]?).elim 0 Prod.fst := by
    simp only [Timeline.startOf, tags, Timeline.skeleton, List.getElem?_map, Array.getElem?_toList]
    cases shared.timeline.entries[index]? <;> rfl
  have isOf (index : Nat) : shared.isOf track index = (shared.tags[index]?).any own := by
    simp only [Shared.isOf, eventAt?, tags, Timeline.skeleton, List.getElem?_map,
      Array.getElem?_toList, own]
    cases shared.timeline.entries[index]? with
    | none => rfl
    | some entry =>
      simp only [Option.bind_some, Option.map_some, Option.any_some, eventOf?]
      cases shared.arena.get? entry.event <;> rfl
  have kept : shared.tags.filter own = (visitsOf log track).filterMap (Visit.tag? source) := by
    rw [journal, visitsOf, List.filter_filterMap, List.filterMap_filter]
    refine congrArg (List.filterMap · log) (funext fun visit => ?_)
    unfold Visit.tag?
    split
    · simp [own, Visit.place, Option.filter]
    · simp
  have named := List.map_getElem?_filter_range shared.tags own
  rw [length_tags, kept, ← funext isOf] at named
  have starts := (Visit.tags_ascending source ascending).map (S := fun a b =>
    a.elim 0 Prod.fst ≤ b.elim 0 Prod.fst) some fun _ _ le => le
  rw [← named] at starts
  refine (List.pairwise_map.mp starts).imp fun le => ?_
  rwa [start, start]

end Shared

/-- After a pass, the transpose that is given for an entry is that of its track behind the
instruction of the entry. -/
theorem Sequence.Passes.entryTranspose {source : Source} {sequence : Sequence Unit} {pass : Pass}
    {stopTime : Nat} {stage : Stage (Unit × List Visit)} {transposes : Transposes}
    (passes : sequence.Passes pass stopTime stage transposes) (intact : sequence.Intact source)
    {earlier later : List Visit} {visit : Visit}
    (split : stage.memory.2 = earlier ++ visit :: later)
    (recorded : RefSeq.isRecorded source visit.offset = true) :
    transposes.entryTranspose (RefSeq.entryAfter source earlier) =
      .ok (RefSeq.registersAfter source {}
        (visitsOf (earlier ++ [visit]) visit.track)).transpose.toInt := by
  have journal := passes.played.ensemble.journal
  have faithful := passes.played.ensemble.faithful
  rw [show (sequence.setting pass).source = source from intact.reads] at journal faithful
  obtain ⟨entry, event, found, _, named, _, place⟩ :=
    Shared.event_of_tag (Shared.tag_of_visit journal split recorded)
  have inside : RefSeq.entryAfter source earlier < stage.shared.timeline.size :=
    (Array.getElem?_eq_some_iff.mp found).1
  have owner : event.track = visit.track := congrArg Place.track place
  obtain ⟨before, after, order⟩ := List.append_of_mem (Timeline.mem_order.mpr inside)
  obtain ⟨event', named', value⟩ := Transposes.ofTimeline_own passes.played.ensemble.resolved
    transposes passes.collected before _ after order
  cases named.symm.trans named'
  have own : stage.shared.isOf event.track (RefSeq.entryAfter source earlier) = true := by
    simp [Shared.isOf, named]
  have ordered := Timeline.filter_order (Shared.starts_ascending journal
    (passes.ascending intact event.track))
  have same : (before ++ [RefSeq.entryAfter source earlier]).filter
      (stage.shared.isOf event.track) = (List.range (RefSeq.entryAfter source
        (earlier ++ [visit]))).filter (stage.shared.isOf event.track) := by
    rw [RefSeq.entryAfter_recorded earlier recorded, List.range_succ, List.filter_append,
      List.filter_append, Timeline.filter_before ordered order own]
  rw [Transposes.entryTranspose, value, ← Shared.foldl_transposed_filter, same,
    Shared.foldl_transposed_filter, owner]
  have behind : stage.memory.2 = (earlier ++ [visit]) ++ later := by simp [split]
  exact congrArg Except.ok (Shared.foldl_transposed journal faithful behind visit.track)

end Sequencer
