import Sequencer.Proofs.Among.Advance
import Sequencer.Proofs.RefSeq.Quiet

/-! A track at home among others: it owns the entries that are tagged with it, and no others. When
it plays, the other tracks stay at home. -/
namespace Sequencer

/-- Whether decoding at an offset enters an event: the bytes make sense and are no cut. -/
def RefSeq.isRecorded (source : Source) (offset : Nat) : Bool :=
  match RefSeq.instruction source offset with
  | (.ok .cut, _) | (.error _, _) => false
  | (.ok _, _) => true

def Visit.place (visit : Visit) : Place := ⟨visit.track, visit.offset⟩

/-- The tag of the entry that a visit adds to the timeline. -/
def Visit.tag? (source : Source) (visit : Visit) : Option (Nat × Option Place) :=
  if RefSeq.isRecorded source visit.offset then some (visit.tick, some visit.place) else none

/-- Visits whose ticks do not go back tag entries whose starts do not. -/
theorem Visit.tags_ascending (source : Source) {visits : List Visit}
    (ascending : visits.Pairwise fun first second => first.tick ≤ second.tick) :
    (visits.filterMap (Visit.tag? source)).Pairwise fun first second => first.1 ≤ second.1 := by
  refine ascending.filterMap _ fun first second le tag here tag' there => ?_
  unfold Visit.tag? at here there
  split at here
  · split at there
    · cases here
      cases there
      exact le
    · cases there
  · cases here

/-- The events in a store were recorded for instructions of the source. -/
def Arena.Faithful (source : Source) (arena : Arena) : Prop :=
  ∀ (id : Nat) (event : Event), arena.get? id = some event →
    ∃ player : Player, player.setting.source = source ∧ player.recording? = some event

theorem Arena.faithful_empty (source : Source) : Arena.Faithful source {} := by
  intro id event found
  simp [get?] at found

theorem Arena.Faithful.store {source : Source} {arena : Arena} (faithful : arena.Faithful source)
    {event : Event} {player : Player} (reads : player.setting.source = source)
    (recording : player.recording? = some event) : (arena.store event).Faithful source := by
  intro id other found
  cases known : arena.find? event.place with
  | some earlier =>
    rw [(store_known known).1] at found
    exact faithful id other found
  | none =>
    rw [(store_new known).1] at found
    simp only [get?, Array.getElem?_push] at found
    split at found
    · cases found
      exact ⟨player, reads, recording⟩
    · exact faithful id other found

/-- What some visits have made of a store. It knows the places that they record; if it has known
them before, it is as it was. -/
structure Arena.Lists (source : Source) (visits : List Visit) (before after : Arena) : Prop where
  kept : ∀ place, before.Knows place → after.Knows place
  listed : ∀ visit ∈ visits, RefSeq.isRecorded source visit.offset = true →
    after.Knows visit.place
  still : (∀ visit ∈ visits, RefSeq.isRecorded source visit.offset = true →
    before.Knows visit.place) → after = before

namespace Arena

variable {source : Source} {visits later : List Visit} {first second third : Arena}

theorem Lists.refl (source : Source) (arena : Arena) : Lists source [] arena arena :=
  ⟨fun _ knows => knows, fun _ member => absurd member List.not_mem_nil, fun _ => rfl⟩

theorem Lists.trans (left : Lists source visits first second)
    (right : Lists source later second third) : Lists source (visits ++ later) first third where
  kept := fun place knows => right.kept place (left.kept place knows)
  listed := List.forall_mem_append.mpr
    ⟨fun visit member recorded => right.kept _ (left.listed visit member recorded), right.listed⟩
  still := fun known => by
    obtain ⟨before, after⟩ := List.forall_mem_append.mp known
    have same := left.still before
    subst same
    exact right.still after

end Arena

/-- What tracks share after instructions that are no slides. -/
structure Shared.Conducts (setting : Setting) (visits : List Visit) (before after : Shared) :
    Prop where
  master : before.masterRamp = none → after.masterRamp = none
  conductor : after.conductor.events.toList =
    before.conductor.events.toList ++ visits.filterMap (Visit.conducted? setting)

/-- A track has decoded some instructions and left alone what is not its own. -/
structure Shared.Plays (setting : Setting) (track : Nat) (visits : List Visit)
    (before after : Shared) : Prop where
  tags : after.tags = before.tags ++ visits.filterMap (Visit.tag? setting.source)
  keeps : ∀ other ≠ track, Keeps other before after
  index : ∀ visit ∈ visits, visit.track = track
  faithful : before.arena.Faithful setting.source → after.arena.Faithful setting.source
  lists : before.arena.Lists setting.source visits after.arena
  conducts : (∀ visit ∈ visits, visit.isSlide setting.source = false) →
    Conducts setting visits before after

namespace Shared

variable {setting : Setting} {track : Nat} {visits later : List Visit}
  {first second third : Shared}

theorem Conducts.refl (setting : Setting) (shared : Shared) : Conducts setting [] shared shared :=
  ⟨id, by simp⟩

theorem Conducts.trans (left : Conducts setting visits first second)
    (right : Conducts setting later second third) :
    Conducts setting (visits ++ later) first third where
  master := fun none => right.master (left.master none)
  conductor := by
    rw [right.conductor, left.conductor, List.filterMap_append, List.append_assoc]

theorem Plays.refl (setting : Setting) (track : Nat) (shared : Shared) :
    Plays setting track [] shared shared :=
  ⟨by simp, fun other _ => .refl other shared, fun _ member => absurd member List.not_mem_nil,
    id, .refl _ _, fun _ => .refl setting shared⟩

theorem Plays.trans (left : Plays setting track visits first second)
    (right : Plays setting track later second third) :
    Plays setting track (visits ++ later) first third where
  tags := by rw [right.tags, left.tags, List.filterMap_append, List.append_assoc]
  keeps := fun other apart => (left.keeps other apart).trans (right.keeps other apart)
  index := fun visit member =>
    (List.mem_append.mp member).elim (left.index visit) (right.index visit)
  faithful := fun earlier => right.faithful (left.faithful earlier)
  lists := left.lists.trans right.lists
  conducts := fun quiet => by
    have first := left.conducts fun visit member => quiet visit (List.mem_append_left _ member)
    have second := right.conducts fun visit member => quiet visit (List.mem_append_right _ member)
    exact first.trans second

theorem Plays.resolved (plays : Plays setting track visits first second)
    (resolved : first.Resolved) : second.Resolved := by
  intro tag member
  rw [plays.tags] at member
  rcases List.mem_append.mp member with member | member
  · exact resolved tag member
  · obtain ⟨visit, _, tagged⟩ := List.mem_filterMap.mp member
    unfold Visit.tag? at tagged
    split at tagged
    · cases tagged
      rfl
    · cases tagged

end Shared

namespace Player

variable {own : List Nat} {before : Shared} {solo real solo' real' : Player}

/-- A track that plays among others and owns just the entries that are tagged with it. -/
def Home (solo real : Player) : Prop :=
  Mirrors (real.shared.indicesOf solo.track.index) real.shared solo real

theorem relabel_mem {own : List Nat} {index : Nat} (inside : index < own.length) :
    relabel own index ∈ own := by
  rw [relabel, List.getElem?_eq_getElem inside, Option.getD_some]
  exact List.getElem_mem inside

theorem Mirrors.safe (mirrors : Mirrors own before solo real) (safe : solo.Safe) : real.Safe := by
  have entry {note : Option Nat} (inside : ∀ index ∈ note, index < solo.shared.timeline.size) :
      ∀ index ∈ note.map (relabel own), index < real.shared.timeline.size := by
    intro index member
    obtain ⟨earlier, known, rfl⟩ := Option.map_eq_some_iff.mp member
    refine mirrors.timeline.inside (relabel_mem ?_)
    rw [mirrors.timeline.size]
    exact inside earlier known
  constructor
  · intro note member
    rw [mirrors.timedNotes] at member
    obtain ⟨earlier, known, rfl⟩ := List.mem_map.mp member
    have within := safe.timed earlier known
    refine ⟨entry within.entry, fun position known => ?_⟩
    have same : real.track.midi = solo.track.midi := mirrors.sheet.midi
    change position < real.track.midi.size
    rw [same]
    exact within.noteOff position known
  · intro note member
    rw [mirrors.openNotes] at member
    obtain ⟨earlier, known, rfl⟩ := List.mem_map.mp member
    exact entry (safe.opened earlier known)

theorem isRecorded_eq (player : Player) : player.recording?.isSome =
    RefSeq.isRecorded player.setting.source player.track.cursor.offset := by
  unfold recording? RefSeq.isRecorded
  change _ = match player.reads with
    | (.ok .cut, _) | (.error _, _) => false
    | (.ok _, _) => true
  cases player.reads with
  | mk result stop =>
    cases result with
    | error error => rfl
    | ok instruction => cases instruction <;> rfl

theorem visit_tag (player : Player) : Visit.tag? player.setting.source player.track.visit =
    player.recording?.map fun _ => (player.track.time, some player.track.visit.place) := by
  unfold Visit.tag?
  rw [show player.track.visit.offset = player.track.cursor.offset from rfl, ← isRecorded_eq]
  cases player.recording? <;> rfl

theorem recording_place {event : Event} {player : Player}
    (recording : player.recording? = some event) : event.place = player.track.visit.place := by
  unfold recording? at recording
  split at recording
  · cases recording
  · obtain ⟨kind, _, rfl⟩ := Option.map_eq_some_iff.mp recording
    rfl

theorem entered_tags {player : Player} (sound : player.shared.arena.Sound)
    (resolved : player.shared.Resolved) : player.entered.tags =
      player.shared.tags ++
        [player.track.visit].filterMap (Visit.tag? player.setting.source) := by
  rw [List.filterMap_cons, visit_tag]
  cases recording : player.recording? with
  | none =>
    rw [entered, recording]
    simp
  | some event =>
    rw [entered_of_recording recording, Shared.tags_enter sound resolved,
      recording_place recording]
    simp

theorem entered_indices {player : Player} (sound : player.shared.arena.Sound)
    (resolved : player.shared.Resolved) (track : Nat) : player.entered.indicesOf track =
      player.shared.indicesOf track ++
        if player.track.index = track then player.adding else [] := by
  rw [Shared.indicesOf_append (entered_tags sound resolved), List.filterMap_cons, visit_tag,
    adding]
  cases player.recording? with
  | none => simp
  | some event =>
    have own : player.track.visit.place.track = player.track.index := rfl
    by_cases same : player.track.index = track
    · simp [own, same]
    · simp [own, same]

theorem entered_keeps {player : Player} (sound : player.shared.arena.Sound) :
    (∀ (id : Nat) (event : Event), player.shared.arena.get? id = some event →
      player.entered.arena.get? id = some event) ∧ player.entered.arena.Sound ∧
    (player.shared.arena.Faithful player.setting.source →
      player.entered.arena.Faithful player.setting.source) := by
  cases recording : player.recording? with
  | none =>
    rw [entered, recording]
    exact ⟨fun _ _ found => found, sound, id⟩
  | some event =>
    rw [entered_of_recording recording]
    exact ⟨fun _ _ found => Arena.get_store_of_get found, sound.store event,
      fun faithful => faithful.store rfl recording⟩

/-- The step of a track lists the place of its instruction. -/
theorem entered_lists (player : Player) : player.shared.arena.Lists player.setting.source
    [player.track.visit] player.entered.arena := by
  have recorded := isRecorded_eq player
  cases recording : player.recording? with
  | none =>
    rw [recording] at recorded
    have silent : RefSeq.isRecorded player.setting.source player.track.visit.offset = false :=
      recorded.symm
    rw [entered, recording]
    refine ⟨fun _ knows => knows, List.forall_mem_singleton.mpr fun known => ?_, fun _ => rfl⟩
    rw [silent] at known
    cases known
  | some event =>
    rw [recording] at recorded
    have place := recording_place recording
    rw [entered_of_recording recording]
    refine ⟨fun _ knows => knows.store event, List.forall_mem_singleton.mpr fun _ => ?_,
      fun known => ?_⟩
    · rw [← place]
      exact Arena.knows_store player.shared.arena event
    · have knows := known _ List.mem_cons_self recorded.symm
      rw [← place] at knows
      exact knows.store_eq

theorem Mirrors.guard (mirrors : Mirrors own before solo real) :
    real.track.guard = solo.track.guard := by
  obtain ⟨delay, same⟩ := mirrors.real_eq
  rw [same]
  rfl

theorem conducted_visit (player : Player) :
    player.conducted ((RefSeq.kindAt? player.setting.source player.track.cursor.offset).bind
      EventKind.conducted?) = [player.track.visit].filterMap (Visit.conducted? player.setting) := by
  unfold conducted writing
  rw [List.filterMap_cons, List.filterMap_nil, Visit.conducted?,
    show player.track.visit.offset = player.track.cursor.offset from rfl]
  generalize (RefSeq.kindAt? player.setting.source player.track.cursor.offset).bind
    EventKind.conducted? = message
  by_cases writes : player.setting.pass = .midi
  · simp only [writes, decide_true, if_true]
    cases message <;> rfl
  · simp [writes]

theorem Home.visit (home : Home solo real) : real.track.visit = solo.track.visit := by
  obtain ⟨delay, same⟩ := home.real_eq
  rw [same]
  rfl

/-- A step of a track at home. -/
theorem Home.advance (home : Home solo real) (safe : solo.Safe)
    (counts : solo.track.guard.trips < Tick.last) (resolved : real.shared.Resolved) :
    solo.advance.Follows (fun mine theirs => theirs.1 = mine.1 ∧ Home mine.2 theirs.2 ∧
      theirs.2.track.cursor.delay = RefSeq.tickAfter real.setting.source
        real.track.cursor.offset real.track.cursor.delay ∧
      Shared.Plays solo.setting solo.track.index [solo.track.visit] real.shared
        theirs.2.shared) real.advance := by
  intro mine done
  obtain ⟨theirs, done', steps⟩ := Mirrors.advance home safe mine done
  obtain ⟨_, advanced, advances, _⟩ := safe.advance_yields counts
  cases advanced.symm.trans done
  rw [← Mirrors.guard home] at counts
  obtain ⟨_, advanced', advances', _⟩ := (Mirrors.safe home safe).advance_yields counts
  cases advanced'.symm.trans done'
  have sound := home.arenas.2
  have index : mine.2.track.index = solo.track.index := by
    have same := congrArg Track.index advances.identity
    exact same
  have visit := home.visit
  have tags := (Shared.tags_congr advances'.arena advances'.skeleton).trans
    (entered_tags sound resolved)
  have indices (track : Nat) := (Shared.indicesOf_congr
    (Shared.tags_congr advances'.arena advances'.skeleton) track).trans
      (entered_indices sound resolved track)
  rw [visit, home.setting] at tags
  obtain ⟨events, kept, faithful⟩ := entered_keeps sound
  refine ⟨theirs, done', steps.more, ?_, advances'.delay, tags, ?_, ?_, ?_, ?_, ?_⟩
  · unfold Home
    rw [index, indices, if_pos (Mirrors.index home)]
    exact steps.mirrors
  · intro other apart
    refine ⟨?_, ?_, ?_, fun _ => advances'.arena ▸ kept⟩
    · exact fun index theirs => steps.others index (Shared.inside_of_mem_indicesOf theirs)
        (Shared.not_mem_indicesOf_of_mem theirs apart)
    · rw [indices, if_neg, List.append_nil]
      rw [Mirrors.index home]
      exact Ne.symm apart
    · intro id event found
      rw [advances'.arena]
      exact events id event found
  · intro visit member
    cases List.mem_singleton.mp member
    rfl
  · rw [advances'.arena, ← home.setting]
    exact faithful
  · rw [advances'.arena, ← home.setting, ← visit]
    exact real.entered_lists
  · intro quiet
    have plain := quiet _ List.mem_cons_self
    rw [← visit, ← home.setting] at plain
    have quiet := (Mirrors.safe home safe).advance_quiet plain done'
    refine ⟨quiet.master, ?_⟩
    rw [quiet.conductor, ← visit, ← home.setting, conducted_visit]

/-- A track at home that revises its notes stays at home. -/
theorem Mirrors.home
    (mirrors : Mirrors (real.shared.indicesOf solo.track.index) real.shared solo' real')
    (index : solo'.track.index = solo.track.index)
    (skeleton : real'.shared.timeline.skeleton = real.shared.timeline.skeleton)
    (untimed : real'.shared.untimed = real.shared.untimed) (setting : Setting) :
    Home solo' real' ∧ Shared.Plays setting solo.track.index [] real.shared real'.shared := by
  have tags := Shared.tags_congr mirrors.stored skeleton
  constructor
  · unfold Home
    rw [index, Shared.indicesOf_congr tags]
    exact mirrors.rebase
  · refine ⟨by rw [tags]; simp, ?_, fun _ member => absurd member List.not_mem_nil, ?_, ?_,
      fun _ => ⟨?_, ?_⟩⟩
    · intro other apart
      refine ⟨?_, Shared.indicesOf_congr tags other, ?_, ?_⟩
      · exact fun index theirs => mirrors.spares.others index
          (Shared.not_mem_indicesOf_of_mem theirs apart)
      · exact fun id event found => by rw [mirrors.stored]; exact found
      · exact fun sound => by rw [mirrors.stored]; exact sound
    · rw [mirrors.stored]
      exact id
    · rw [mirrors.stored]
      exact .refl _ _
    · have same := congrArg Shared.masterRamp untimed
      exact same.trans
    · have same := congrArg (fun shared : Shared => shared.conductor.events.toList) untimed
      rw [List.filterMap_nil, List.append_nil]
      exact same

theorem Home.finish (home : Home solo real) (safe : solo.Safe) (setting : Setting) :
    solo.finish.Follows (fun mine theirs => Home mine theirs ∧
      Shared.Plays setting solo.track.index [] real.shared theirs.shared) real.finish := by
  intro mine done
  obtain ⟨theirs, done', mirrors⟩ := Mirrors.finish home mine done
  obtain ⟨_, finished, _, outline, _⟩ := safe.finish_yields
  cases finished.symm.trans done
  obtain ⟨_, finished', _, _, untimed, skeleton, _⟩ := (Mirrors.safe home safe).finish_yields
  cases finished'.symm.trans done'
  have index : mine.track.index = solo.track.index := by
    have same := congrArg Track.index outline
    exact same
  exact ⟨theirs, done', mirrors.home index skeleton untimed setting⟩

theorem moveDials_shared (player : Player) (tick : Nat) :
    (player.moveDials tick).shared = player.shared := by
  have moved (player : Player) (dial : Dial) :
      (player.moveDial tick dial).shared = player.shared := by
    have emitted (message : MidiMessage) : (player.emit tick message none).shared =
        player.shared := by
      unfold emit
      split <;> rfl
    unfold moveDial
    dsimp only
    split
    · rfl
    · split
      · exact emitted _
      · rfl
  rw [moveDials, moved, moved, moved]

theorem Home.moveDials (home : Home solo real) (safe : solo.Safe) (tick : Nat)
    (setting : Setting) : Home (solo.moveDials tick) (real.moveDials tick) ∧
      Shared.Plays setting solo.track.index [] real.shared (real.moveDials tick).shared := by
  have index : (solo.moveDials tick).track.index = solo.track.index := by
    have same := congrArg Track.index (safe.moveDials_sounds tick).retains.outline
    exact same
  exact (Mirrors.moveDials home tick).home index (by rw [moveDials_shared])
    (by rw [moveDials_shared]) setting

theorem Home.delay (home : Home solo real) (delay : Nat) :
    Home solo (real.withTrack
      { real.track with cursor := { real.track.cursor with delay } }) := by
  refine Mirrors.plain home (.refl _) ⟨rfl, rfl, rfl⟩ ⟨home.setting, delay, ?_⟩
  obtain ⟨_, same⟩ := home.twins.track
  rw [same]
  rfl

theorem Home.keep (home : Home solo real) {shared : Shared}
    (keeps : Shared.Keeps solo.track.index real.shared shared) :
    Home solo ⟨real.setting, real.track, shared⟩ := by
  unfold Home
  rw [keeps.indices]
  refine ⟨⟨home.setting, home.twins.track⟩, ⟨home.arenas.1, keeps.sound home.arenas.2⟩,
    ⟨home.timeline.nodup, home.timeline.size, ?_⟩, .refl _ _, rfl⟩
  intro k index there
  obtain ⟨mine, theirs, found, found', start, duration, event, event', stored, stored', same⟩ :=
    home.timeline.entries k index there
  exact ⟨mine, theirs, found,
    (keeps.entries index (List.mem_of_getElem? there)).trans found', start, duration, event,
    event', stored, keeps.events _ _ stored', same⟩

end Player
end Sequencer
