import Sequencer.Proofs.Passes
import Sequencer.Proofs.Player.Guise

/-! Which event the store has for a place. It is stored when the track first comes there, so that
the bytes and the octave of the track then decide on it, and the octave is decided by where the
track has been before. All passes take the same way from the start of a track, some further than
others; none of them finds another event first. -/
namespace Sequencer

open RefSeq (instruction)

namespace RefSeq

/-- The octave that a track is in after the instructions at some offsets. -/
def octaveOf (source : Source) (offsets : List Nat) : UInt8 :=
  offsets.foldl (fun octave offset => octaveAfter source offset octave) 4

/-- The event that a track in an octave records for the instruction at a place. -/
def eventAt? (source : Source) (place : Place) (octave : UInt8) : Option Event :=
  match instruction source place.offset with
  | (.error _, _) => none
  | (.ok instruction, stop) =>
    (instruction.recorded? { Track.starting place.track place.offset 0 with octave }).map fun kind =>
      ⟨kind, place.track, place.offset, stop - place.offset⟩

variable {source : Source}

theorem octaveOf_append (offsets : List Nat) (offset : Nat) :
    octaveOf source (offsets ++ [offset]) =
      octaveAfter source offset (octaveOf source offsets) := by
  rw [octaveOf, List.foldl_append]
  rfl

theorem isSome_eventAt (source : Source) (place : Place) (octave : UInt8) :
    (eventAt? source place octave).isSome = isRecorded source place.offset := by
  unfold eventAt? isRecorded
  rcases instruction source place.offset with ⟨result, stop⟩
  cases result with
  | error error => rfl
  | ok instruction => cases instruction <;> rfl

theorem place_eventAt {place : Place} {octave : UInt8} {event : Event}
    (recorded : eventAt? source place octave = some event) : event.place = place := by
  unfold eventAt? at recorded
  split at recorded
  · cases recorded
  · obtain ⟨kind, _, rfl⟩ := Option.map_eq_some_iff.mp recorded
    rfl

/-- Which track it is has no part in what is recorded. -/
theorem eventAt_track (source : Source) (place : Place) (octave : UInt8) (track : Nat) :
    eventAt? source { place with track } octave =
      (eventAt? source place octave).map fun event => { event with track } := by
  unfold eventAt?
  dsimp only
  rcases instruction source place.offset with ⟨result, stop⟩
  cases result with
  | error error => rfl
  | ok instruction => cases instruction <;> rfl

end RefSeq

theorem Player.recording_eq (player : Player) : player.recording? =
    RefSeq.eventAt? player.setting.source player.track.visit.place player.track.octave := by
  unfold recording? RefSeq.eventAt?
  change _ = match player.reads with
    | (.error _, _) => none
    | (.ok instruction, stop) => _
  cases player.reads with
  | mk result stop =>
    cases result with
    | error error => rfl
    | ok instruction => cases instruction <;> rfl

/-- A turn that does not halt the track is the same if more calls and loops may be open. -/
theorem Cursor.turn_deeper {depth depth' : Nat} (le : depth ≤ depth') (cursor : Cursor)
    (kind : EventKind) (goes : cursor.turn depth kind ≠ .halt) :
    cursor.turn depth' kind = cursor.turn depth kind := by
  cases kind with
  | call destination returnTo =>
    simp only [turn] at goes ⊢
    split at goes
    · exact absurd rfl goes
    · rename_i room
      rw [if_neg room, if_neg (by omega)]
  | loopStart count =>
    simp only [turn] at goes ⊢
    split at goes
    · exact absurd rfl goes
    · rename_i room
      rw [if_neg room, if_neg (by omega)]
  | _ => rfl

namespace Position

variable {source : Source} {depth depth' : Nat} {start position next : Position}
  {offsets offsets' : List Nat}

theorem next_deeper (le : depth ≤ depth') (goes : position.next? source depth = some next) :
    position.next? source depth' = some next := by
  unfold next? depart at goes ⊢
  revert goes
  rcases instruction source position.junction.destination with ⟨result, stop⟩
  intro goes
  cases result with
  | error error => cases goes
  | ok instruction =>
    cases instruction with
    | event kind =>
      have onward : (position.junction.readTo stop).turn depth kind ≠ .halt := by
        intro halts
        dsimp only at goes
        rw [halts] at goes
        cases goes
      dsimp only at goes ⊢
      rw [Cursor.turn_deeper le _ _ onward]
      exact goes
    | octaveNote | cut => exact goes
    | unknown => cases goes

theorem after_deeper (le : depth ≤ depth') {count : Nat}
    (reached : start.after source depth count = some position) :
    start.after source depth' count = some position := by
  induction count generalizing position with
  | zero => exact reached
  | succ count ih =>
    obtain ⟨before, found, goes⟩ := Option.bind_eq_some_iff.mp reached
    rw [after_succ, ih found]
    exact next_deeper le goes

/-- The first instructions of a free run stand at these offsets. -/
def Leads (source : Source) (depth : Nat) (start : Position) (offsets : List Nat) : Prop :=
  ∀ k offset, offsets[k]? = some offset →
    ∃ position, start.after source depth k = some position ∧
      position.junction.destination = offset

theorem Leads.deeper (leads : start.Leads source depth offsets) (le : depth ≤ depth') :
    start.Leads source depth' offsets := by
  intro k offset found
  obtain ⟨position, reached, there⟩ := leads k offset found
  exact ⟨position, after_deeper le reached, there⟩

theorem Leads.same (leads : start.Leads source depth offsets)
    (leads' : start.Leads source depth offsets') {k offset offset' : Nat}
    (found : offsets[k]? = some offset) (found' : offsets'[k]? = some offset') :
    offset = offset' := by
  obtain ⟨position, reached, rfl⟩ := leads k offset found
  obtain ⟨position', reached', rfl⟩ := leads' k offset' found'
  cases reached.symm.trans reached'
  rfl

theorem Leads.prefix {later : List Nat} (leads : start.Leads source depth (offsets ++ later)) :
    start.Leads source depth offsets := by
  intro k offset found
  have inside := (List.getElem?_eq_some_iff.mp found).1
  exact leads k offset ((List.getElem?_append_left inside).trans found)

theorem Leads.append {last : Position} (leads : start.Leads source depth offsets)
    (reached : start.after source depth offsets.length = some last) :
    start.Leads source depth (offsets ++ [last.junction.destination]) := by
  intro k offset found
  rw [List.getElem?_append] at found
  split at found
  · exact leads k offset found
  · rename_i past
    have here : k = offsets.length := by
      have bound := (List.getElem?_eq_some_iff.mp found).1
      simp only [List.length_singleton] at bound
      omega
    subst here
    rw [Nat.sub_self] at found
    cases found
    exact ⟨last, reached, rfl⟩

/-- There is one way to come to an offset for the first time. -/
theorem Leads.first_unique {offset : Nat}
    (leads : start.Leads source depth (offsets ++ [offset])) (new : offset ∉ offsets)
    (leads' : start.Leads source depth' (offsets' ++ [offset])) (new' : offset ∉ offsets') :
    offsets = offsets' := by
  have common := leads.deeper (Nat.le_max_left depth depth')
  have common' := leads'.deeper (Nat.le_max_right depth depth')
  have last (offsets : List Nat) : (offsets ++ [offset])[offsets.length]? = some offset := by simp
  have inside {offsets : List Nat} {k other : Nat} (found : offsets[k]? = some other) :
      (offsets ++ [offset])[k]? = some other :=
    (List.getElem?_append_left (List.getElem?_eq_some_iff.mp found).1).trans found
  -- The longer way would have come to the offset before.
  have notShorter {depth : Nat} {offsets offsets' : List Nat}
      (leads : start.Leads source depth (offsets ++ [offset]))
      (leads' : start.Leads source depth (offsets' ++ [offset])) (new' : offset ∉ offsets') :
      offsets'.length ≤ offsets.length := by
    refine Nat.le_of_not_lt fun shorter => ?_
    have found : offsets'[offsets.length]? = some offsets'[offsets.length] :=
      List.getElem?_eq_getElem shorter
    have same := leads.same leads' (last offsets) (inside found)
    exact new' (same ▸ List.getElem_mem shorter)
  apply List.ext_getElem
  · exact Nat.le_antisymm (notShorter common' common new) (notShorter common common' new')
  · intro k within within'
    exact common.same common' (inside (List.getElem?_eq_getElem within))
      (inside (List.getElem?_eq_getElem within'))

theorem leads_of_freeRun {visits : List Visit}
    (decoded : visits.map (fun visit => (visit.offset, visit.tick)) =
      start.freeRun source depth visits.length) :
    start.Leads source depth (visits.map Visit.offset) := by
  have offsets : visits.map Visit.offset =
      (start.freeRun source depth visits.length).map Prod.fst := by
    rw [← decoded, List.map_map]
    rfl
  have full : (start.freeRun source depth visits.length).length = visits.length := by
    rw [← decoded, List.length_map]
  rw [offsets]
  generalize visits.length = count at full
  induction count with
  | zero =>
    intro k offset found
    simp [freeRun] at found
  | succ count ih =>
    cases reached : start.after source depth count with
    | none =>
      have short := List.length_filterMap_le
        (fun n => (start.after source depth n).map Position.visit) (List.range count)
      simp only [freeRun, List.range_succ, List.filterMap_append, List.length_append,
        List.length_range, List.filterMap_cons, reached, Option.map_none, List.filterMap_nil,
        List.length_nil] at full short
      omega
    | some position =>
      rw [freeRun_succ reached, List.length_append, List.length_singleton,
        Nat.add_right_cancel_iff] at full
      rw [freeRun_succ reached, List.map_append]
      refine (ih full).append ?_
      rw [List.length_map, full, reached]

end Position

/-- What a track that starts there records when it first comes to the place of the event. -/
def Event.Charted (source : Source) (start : Position) (event : Event) : Prop :=
  ∃ depth offsets, start.Leads source depth (offsets ++ [event.offset]) ∧
    event.offset ∉ offsets ∧
    RefSeq.eventAt? source event.place (RefSeq.octaveOf source offsets) = some event

theorem Event.Charted.unique {source : Source} {start : Position} {event other : Event}
    (charted : event.Charted source start) (charted' : other.Charted source start)
    (same : other.offset = event.offset) : other = { event with track := other.track } := by
  obtain ⟨depth, offsets, leads, new, recorded⟩ := charted
  obtain ⟨depth', offsets', leads', new', recorded'⟩ := charted'
  rw [same] at leads' new'
  cases leads.first_unique new leads' new'
  have moved := RefSeq.eventAt_track source event.place (RefSeq.octaveOf source offsets) other.track
  have place : { event.place with track := other.track } = other.place := by
    unfold Event.place
    rw [same]
  rw [place, recorded, recorded'] at moved
  exact Option.some.inj moved

namespace Arena

variable {source : Source} {opening arena : Arena} {log : List Visit} {tracks : List Track}

/-- Stores what a step records, if it records anything. -/
def storeAny (arena : Arena) (event : Option Event) : Arena := event.elim arena arena.store

/-- What the visits of a log have made of a store. -/
inductive Records (source : Source) (opening : Arena) : List Visit → Arena → Prop
  | opening : Records source opening [] opening
  | visit {log : List Visit} {arena : Arena} (earlier : Records source opening log arena)
      (visit : Visit) : Records source opening (log ++ [visit])
        (arena.storeAny (RefSeq.eventAt? source visit.place
          (RefSeq.octaveOf source ((visitsOf log visit.track).map Visit.offset))))

theorem Knows.storeAny {place : Place} (knows : arena.Knows place) (event : Option Event) :
    (arena.storeAny event).Knows place := by
  cases event with
  | none => exact knows
  | some event => exact knows.store event

/-- The places of all visits are in the store. -/
theorem Records.knows (records : Records source opening log arena) {visit : Visit}
    (member : visit ∈ log) (recorded : RefSeq.isRecorded source visit.offset = true) :
    arena.Knows visit.place := by
  induction records with
  | opening => cases member
  | @visit log arena earlier last ih =>
    rcases List.mem_append.mp member with member | member
    · exact (ih member).storeAny _
    · cases List.mem_singleton.mp member
      have known := RefSeq.isSome_eventAt source visit.place
        (RefSeq.octaveOf source ((visitsOf log visit.track).map Visit.offset))
      rw [show visit.place.offset = visit.offset from rfl, recorded] at known
      obtain ⟨event, found⟩ := Option.isSome_iff_exists.mp known
      rw [found, ← RefSeq.place_eventAt found]
      exact knows_store arena event

/-- All events of the store are those of first visits. -/
def Charted (source : Source) (tracks : List Track) (arena : Arena) : Prop :=
  ∀ (id : Nat) (event : Event), arena.get? id = some event →
    ∃ track ∈ tracks, track.index = event.track ∧ event.Charted source track.opening

theorem charted_empty (source : Source) (tracks : List Track) : Charted source tracks {} := by
  intro id event found
  simp [get?] at found

theorem get_store {event other : Event} {id : Nat}
    (found : (arena.store event).get? id = some other) :
    arena.get? id = some other ∨ other = event ∧ ¬ arena.Knows event.place := by
  cases known : arena.find? event.place with
  | some earlier =>
    rw [(store_known known).1] at found
    exact .inl found
  | none =>
    rw [(store_new known).1] at found
    simp only [get?, Array.getElem?_push] at found
    split at found
    · refine .inr ⟨(Option.some.inj found).symm, ?_⟩
      simp [Knows, known]
    · exact .inl found

/-- The tracks have gone the way of their free runs, as far as the log tells. -/
structure Follows (source : Source) (tracks : List Track) (log : List Visit) : Prop where
  inside : ∀ visit ∈ log, ∃ track ∈ tracks, track.index = visit.track
  leads : ∀ track ∈ tracks, ∃ depth, track.opening.Leads source depth
    ((visitsOf log track.index).map Visit.offset)

theorem Follows.prefix {later : List Visit} (follows : Follows source tracks (log ++ later)) :
    Follows source tracks log where
  inside := fun visit member => follows.inside visit (List.mem_append_left _ member)
  leads := fun track member => by
    obtain ⟨depth, leads⟩ := follows.leads track member
    rw [visitsOf_append, List.map_append] at leads
    exact ⟨depth, leads.prefix⟩

theorem Records.charted (records : Records source opening log arena)
    (charted : opening.Charted source tracks) (follows : Follows source tracks log) :
    arena.Charted source tracks := by
  induction records with
  | opening => exact charted
  | @visit log arena earlier visit ih =>
    have earlier' := ih follows.prefix
    intro id event found
    cases recorded : RefSeq.eventAt? source visit.place
      (RefSeq.octaveOf source ((visitsOf log visit.track).map Visit.offset)) with
    | none =>
      rw [recorded] at found
      exact earlier' id event found
    | some first =>
      rw [recorded] at found
      rcases get_store found with found | ⟨rfl, unknown⟩
      · exact earlier' id event found
      · obtain ⟨track, member, index⟩ := follows.inside visit (by simp)
        obtain ⟨depth, leads⟩ := follows.leads track member
        have place := RefSeq.place_eventAt recorded
        have offset : event.offset = visit.offset := congrArg Place.offset place
        have own : event.track = visit.track := congrArg Place.track place
        have last : visitsOf [visit] visit.track = [visit] := visitsOf_own (by simp)
        rw [index, visitsOf_append, last, List.map_append] at leads
        refine ⟨track, member, index.trans own.symm, depth, _, offset ▸ leads, ?_, place ▸ recorded⟩
        -- An earlier visit at the offset would have been recorded.
        intro before
        obtain ⟨other, there, same⟩ := List.mem_map.mp before
        obtain ⟨visited, track'⟩ := List.mem_filter.mp there
        have known : RefSeq.isRecorded source other.offset = true := by
          have some := RefSeq.isSome_eventAt source visit.place
            (RefSeq.octaveOf source ((visitsOf log visit.track).map Visit.offset))
          rw [recorded, show visit.place.offset = visit.offset from rfl] at some
          rw [same, offset]
          exact some.symm
        have knows := earlier.knows visited known
        have there : other.place = event.place := by
          rw [place]
          unfold Visit.place
          rw [of_decide_eq_true track', same, offset]
        exact unknown (there ▸ knows)

end Arena
end Sequencer
