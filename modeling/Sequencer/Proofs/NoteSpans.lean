import Sequencer.Proofs.NoteNames
import Sequencer.Proofs.Player.Spans

/-! How long the notes of a track last. Of two notes of one key the earlier one has ended when the
later one starts, whatever else is played. The one exception are ties: a note that ends by itself is
tied over by instructions that come after the later note, if that one is ended by an instruction. -/
namespace Sequencer

open RefSeq (longest)

namespace Player

variable {start player next last : Player} {visits : List Visit} {limits : Limits}

theorem entered_size (player : Player) : player.entered.timeline.size =
    player.shared.timeline.size +
      if RefSeq.isRecorded player.setting.source player.track.cursor.offset then 1 else 0 := by
  rw [← isRecorded_eq]
  cases recording : player.recording? with
  | none =>
    rw [entered, recording]
    rfl
  | some event =>
    rw [entered_of_recording recording]
    exact Array.size_push ..

/-- The player has the notes of what it has read. -/
structure Sustains (start : Player) (visits : List Visit) (player : Player) : Prop where
  octave : player.track.octave = (RefSeq.registersAfter start.setting.source {} visits).octave
  size : player.shared.timeline.size = RefSeq.entryAfter start.setting.source visits
  holds : player.Holds start.setting.source (RefSeq.readings start.setting.source {} visits)

theorem entriesOf_readings (source : Source) (visits : List Visit) :
    entriesOf source (RefSeq.readings source {} visits) = RefSeq.entryAfter source visits := by
  rw [entriesOf, RefSeq.visits_readings]

/-- A track that starts from nothing has read nothing. -/
theorem sustains_start (opening : start.track.Opening)
    (octave : start.track.octave = Registers.octave {})
    (timeline : start.shared.timeline = {}) : start.Sustains [] start where
  octave := octave
  size := by
    rw [timeline]
    rfl
  holds := by
    unfold Holds
    rw [opening.openNotes, opening.timedNotes]
    refine ⟨?_, ?_, ?_, ?_⟩
    · exact fun _ member => absurd member List.not_mem_nil
    · exact fun _ member => absurd member List.not_mem_nil
    · exact fun _ member => absurd member List.not_mem_nil
    · exact fun _ _ _ stands => absurd stands.mem List.not_mem_nil

theorem Sustains.advance {more : Bool} (sustains : start.Sustains visits player)
    (setting : player.setting = start.setting) (early : player.track.time ≤ Tick.last)
    (advances : player.Advances more next) (advanced : player.advance = .ok (more, next)) :
    start.Sustains (visits ++ [player.track.visit]) next := by
  have guise := advance_guise advanced
  refine ⟨?_, ?_, ?_⟩
  · rw [guise.octave, RefSeq.registersAfter_append, RefSeq.octave_after, sustains.octave, setting]
    rfl
  · have size := player.entered_size
    rw [← Timeline.length_skeleton, ← advances.skeleton, Timeline.length_skeleton, sustains.size,
      setting] at size
    rw [size]
    cases recorded : RefSeq.isRecorded start.setting.source player.track.visit.offset with
    | true =>
      rw [RefSeq.entryAfter_recorded visits recorded,
        show RefSeq.isRecorded start.setting.source player.track.cursor.offset = true from recorded]
      rfl
    | false =>
      rw [RefSeq.entryAfter_unrecorded visits recorded,
        show RefSeq.isRecorded start.setting.source player.track.cursor.offset = false from recorded]
      rfl
  · rw [RefSeq.readings_append]
    have holds := sustains.holds
    rw [← setting] at holds ⊢
    refine holds.advance early rfl ?_ ?_ advanced
    · rw [setting]
      exact sustains.octave.symm
    · rw [entriesOf_readings, setting]
      exact sustains.size

theorem Sustains.moveDials (sustains : start.Sustains visits player) (tick : Nat) :
    start.Sustains visits (player.moveDials tick) where
  octave := (player.moveDials_guise tick).octave.trans sustains.octave
  size := by
    rw [moveDials_shared]
    exact sustains.size
  holds := (aboutSound_holds _ _).messages.moveDials sustains.holds tick fun _ _ _ => rfl

variable (fresh : start.Fresh) (countable : limits.Countable start.setting.loopRule)
include fresh countable

theorem Runs.sustains (atStart : start.Sustains [] start)
    (runs : Runs limits start visits player) : start.Sustains visits player := by
  induction runs with
  | start => exact atStart
  | step runs may punctual advanced ih =>
    have traces := runs.traces fresh countable
    obtain ⟨_, done, advances, _⟩ := traces.advance_yields countable may
    cases done.symm.trans advanced
    exact ih.advance traces.setting traces.clock advances advanced
  | glide runs together tick early ih => exact ih.moveDials tick

theorem Ends.holds (atStart : start.Sustains [] start) (ends : Ends limits start visits last) :
    last.Holds start.setting.source (RefSeq.readings start.setting.source {} visits) := by
  cases ends with
  | refused runs may punctual advanced finished =>
    have traces := runs.traces fresh countable
    obtain ⟨_, done, advances, _⟩ := traces.advance_yields countable may
    cases done.symm.trans advanced
    have further := (runs.sustains fresh countable atStart).advance traces.setting traces.clock
      advances advanced
    exact further.holds.finish last finished
  | stopped runs stopped finished =>
    exact (runs.sustains fresh countable atStart).holds.finish last finished

theorem Runs.clock (runs : Runs limits start visits player) :
    ∀ visit ∈ visits, visit.tick ≤ Tick.last := by
  induction runs with
  | start => exact fun _ member => absurd member List.not_mem_nil
  | step runs may punctual advanced ih =>
    exact List.forall_mem_append.mpr ⟨ih,
      List.forall_mem_singleton.mpr (runs.traces fresh countable).clock⟩
  | glide runs together tick early ih => exact ih

/-- All that a track reads it reads while its clock is right, or at its last tick. -/
theorem Ends.clock (ends : Ends limits start visits last) :
    ∀ visit ∈ visits, visit.tick ≤ Tick.last := by
  cases ends with
  | refused runs may punctual advanced finished =>
    exact List.forall_mem_append.mpr ⟨runs.clock fresh countable,
      List.forall_mem_singleton.mpr (runs.traces fresh countable).clock⟩
  | stopped runs stopped finished => exact runs.clock fresh countable

end Player

/-- A track reads a tie after two notes that ties the earlier one over. -/
def RefSeq.Revived (source : Source) (visits : List Visit) (note next : Reading) : Prop :=
  ∃ before between later,
    readings source {} visits = before ++ note :: (between ++ next :: later) ∧
      note.Revives source next between later

namespace Shared

variable {shared : Shared} {source : Source} {log earlier later : List Visit} {visit : Visit}
  {track index : Nat} {note : Reading}

/-- The entry of a tag of a track comes after the entries of its earlier tags. -/
theorem getElem_indicesOf {before after : List (Nat × Option Place)} {tag : Nat × Option Place}
    (split : shared.tags = before ++ tag :: after) (own : tag.2.map Place.track = some track) :
    (shared.indicesOf track)[(before.filter fun tag => tag.2.map Place.track = some track).length]? =
      some before.length := by
  have sizes : ((before.zipIdx.filter fun item => item.1.2.map Place.track = some track).map
      Prod.snd).length =
        (before.filter fun tag => tag.2.map Place.track = some track).length := by
    rw [List.length_map, ← List.length_map Prod.fst, ← List.zipIdx_map_fst 0 before,
      List.filter_map, List.zipIdx_map_fst]
    rfl
  rw [indicesOf, split, List.zipIdx_append, List.filter_append, List.map_append, ← sizes,
    List.getElem?_append_right (Nat.le_refl _), Nat.sub_self, List.zipIdx_cons, List.filter_cons,
    if_pos (decide_eq_true own)]
  simp

theorem filter_tags (source : Source) (visits : List Visit) (track : Nat) :
    (visits.filterMap (Visit.tag? source)).filter (fun tag => tag.2.map Place.track = some track) =
      (visitsOf visits track).filterMap (Visit.tag? source) := by
  induction visits with
  | nil => rfl
  | cons visit rest ih =>
    cases recorded : RefSeq.isRecorded source visit.offset with
    | false =>
      have none : Visit.tag? source visit = none := by simp [Visit.tag?, recorded]
      by_cases own : visit.track = track <;> simp [visitsOf, none, own] at ih ⊢ <;> exact ih
    | true =>
      have tag := RefSeq.tag_of_recorded recorded
      have owner : visit.place.track = visit.track := rfl
      by_cases own : visit.track = track <;> simp [visitsOf, tag, owner, own] at ih ⊢ <;> exact ih

/-- A note of a track stands among its readings, and its entry among the entries of the track. -/
theorem Enters.stands (enters : Enters source log track index note)
    (journal : shared.tags = log.filterMap (Visit.tag? source)) : ∃ mine before after,
      RefSeq.readings source {} (visitsOf log track) = before ++ note :: after ∧
      Stands source (RefSeq.readings source {} (visitsOf log track)) mine note after ∧
      (shared.indicesOf track)[mine]? = some index := by
  obtain ⟨⟨earlier, later, rfl, rfl, registers⟩, own, starts⟩ := enters
  have recorded := RefSeq.isRecorded_of_startsNote starts
  have here : visitsOf (earlier ++ note.visit :: later) track =
      visitsOf earlier track ++ note.visit :: visitsOf later track := by
    rw [visitsOf_append]
    simp [visitsOf, own]
  have split : RefSeq.readings source {} (visitsOf (earlier ++ note.visit :: later) track) =
      RefSeq.readings source {} (visitsOf earlier track) ++ note ::
        RefSeq.readings source (note.after source) (visitsOf later track) := by
    rw [here, RefSeq.readings_append, ← registers]
    rfl
  refine ⟨RefSeq.entryAfter source (visitsOf earlier track), _, _, split, ⟨⟨_, split, ?_⟩, ?_⟩, ?_⟩
  · rw [RefSeq.visits_readings]
  · rw [RefSeq.isSome_struck]
    exact starts
  · rw [List.filterMap_append, List.filterMap_cons, RefSeq.tag_of_recorded recorded] at journal
    have found : (shared.indicesOf track)[_]? = some _ :=
      getElem_indicesOf journal (congrArg some own)
    rwa [filter_tags] at found

/-- The notes of a track are in the timeline. Of two notes of one key the earlier one has ended when
the later one starts, if the clock is not at its last tick then and no later tie revives it. -/
structure NotesApart (source : Source) (own : List Visit) (track : Nat) (shared : Shared) : Prop where
  length : (shared.notesOf track).length = (RefSeq.notes source own).length
  entries : ∀ (k index : Nat) (note : Reading), (shared.notesOf track)[k]? = some index →
    (RefSeq.notes source own)[k]? = some note →
      ∃ entry event, shared.timeline.entries[index]? = some entry ∧
        shared.eventAt? index = some event ∧ entry.start = note.visit.tick ∧
        event.place = note.visit.place
  apart : ∀ (k k' index index' : Nat) (note next : Reading) (entry entry' : Entry),
    (shared.notesOf track)[k]? = some index → (RefSeq.notes source own)[k]? = some note →
    shared.timeline.entries[index]? = some entry →
    (shared.notesOf track)[k']? = some index' → (RefSeq.notes source own)[k']? = some next →
    shared.timeline.entries[index']? = some entry' →
    next.key? source = note.key? source → entry.start < entry'.start →
      entry.start + entry.duration ≤ entry'.start ∨ entry'.start = Tick.last ∨
        RefSeq.Revived source own note next

end Shared

theorem Entry.ends_of_within {entry : Entry} {tick : Nat} (ended : entry.within ≤ tick)
    (early : tick ≤ Tick.last) : entry.start + entry.duration ≤ tick ∨ tick = Tick.last := by
  unfold within Tick.later at ended
  omega

namespace Sequence

variable {source : Source} {sequence : Sequence Unit} {pass : Pass} {stopTime : Nat}
  {stage : Stage (Unit × List Visit)} {transposes : Transposes} {before track : Track}
  {start solo : Player}

theorem Ended.holds (ended : sequence.Ended pass stopTime stage before track start solo)
    (countable : (sequence.limits stopTime).Countable (sequence.setting pass).loopRule) :
    solo.Holds sequence.source
      (RefSeq.readings sequence.source {} (visitsOf stage.memory.2 track.index)) := by
  obtain ⟨setting, opening, shared⟩ := mem_starts ended.began
  obtain ⟨opened, _, known⟩ := mem_starts_openTrack ended.began
  have octave : start.track.octave = Registers.octave {} := by
    rw [known]
    rfl
  have timeline : start.shared.timeline = {} := by
    rw [shared]
    exact (openStage_shared sequence pass).2.1
  have holds := ended.ends.holds (Player.fresh_of_opening opening) (setting ▸ countable)
    (Player.sustains_start opening octave timeline)
  rw [setting, ← ended.index_eq] at holds
  exact holds

/-- An entry of a track lasts as long as if the track had been played on its own. -/
theorem Ended.entry_of_own (ended : sequence.Ended pass stopTime stage before track start solo)
    {mine index : Nat} (own : (stage.shared.indicesOf track.index)[mine]? = some index) :
    ∃ known entry, solo.shared.timeline.entries[mine]? = some known ∧
      stage.shared.timeline.entries[index]? = some entry ∧ known.start = entry.start ∧
      known.duration = entry.duration := by
  have same : solo.track.index = track.index := by
    obtain ⟨_, _, rfl⟩ := ended.real_eq
    rfl
  rw [← same] at own
  obtain ⟨known, entry, found, there, starts, lasts, _⟩ := ended.home.timeline.entries mine _ own
  exact ⟨known, entry, found, there, starts, lasts⟩

/-- The entry of a note of a track, and what the notes after it make of it. -/
theorem Ended.entry_of_note (ended : sequence.Ended pass stopTime stage before track start solo)
    (countable : (sequence.limits stopTime).Countable (sequence.setting pass).loopRule)
    (journal : stage.shared.tags = stage.memory.2.filterMap (Visit.tag? sequence.source))
    {index : Nat} {note : Reading}
    (enters : Shared.Enters sequence.source stage.memory.2 track.index index note) :
    ∃ entry before after, stage.shared.timeline.entries[index]? = some entry ∧
      RefSeq.readings sequence.source {} (visitsOf stage.memory.2 track.index) =
        before ++ note :: after ∧
      entry.start = note.visit.tick ∧ note.Apart sequence.source after entry.within := by
  obtain ⟨mine, before, after, split, stands, own⟩ := enters.stands journal
  obtain ⟨known, found, start, apart, _⟩ := (ended.holds countable).entries mine note after stands
  obtain ⟨_, entry, found', there, starts, lasts⟩ := ended.entry_of_own own
  cases found.symm.trans found'
  refine ⟨entry, before, after, there, split, starts ▸ start, ?_⟩
  have same : entry.within = known.within := by
    rw [Entry.within, ← starts, ← lasts]
    rfl
  rw [same]
  exact apart

theorem Ended.notesApart (ended : sequence.Ended pass stopTime stage before track start solo)
    (countable : (sequence.limits stopTime).Countable (sequence.setting pass).loopRule)
    (journal : stage.shared.tags = stage.memory.2.filterMap (Visit.tag? sequence.source))
    (faithful : stage.shared.arena.Faithful sequence.source) :
    stage.shared.NotesApart sequence.source (visitsOf stage.memory.2 track.index) track.index := by
  have enters := Shared.enters_notes journal faithful track.index
  refine ⟨enters.length_eq, ?_, ?_⟩
  · intro k index note listed read
    obtain ⟨⟨earlier, later, split, rfl, _⟩, _, starts⟩ := enters.at listed read
    obtain ⟨entry, event, found, start, named, _, place⟩ := Shared.event_of_tag
      (Shared.tag_of_visit journal split (RefSeq.isRecorded_of_startsNote starts))
    exact ⟨entry, event, found, named, start, place⟩
  · intro k k' index index' note next entry entry' listed read found listed' read' found' key behind
    obtain ⟨_, before, after, same, split, start, apart⟩ :=
      ended.entry_of_note countable journal (enters.at listed read)
    cases found.symm.trans same
    obtain ⟨_, before', later, same', split', start', _⟩ :=
      ended.entry_of_note countable journal (enters.at listed' read')
    cases found'.symm.trans same'
    have visits : (RefSeq.readings sequence.source {} (visitsOf stage.memory.2 track.index)).map
        Reading.visit = visitsOf stage.memory.2 track.index := RefSeq.visits_readings _
    have ordered := ended.follows.ascending
    rw [← visits] at ordered
    have ordered := List.pairwise_map.mp ordered
    rw [start, start'] at behind
    obtain ⟨between, rfl⟩ := List.split_behind ordered (fun _ => Nat.le_refl _) split split'
      (Nat.not_le.mpr behind)
    have clock : next.visit.tick ≤ Tick.last := by
      obtain ⟨setting, opening, _⟩ := mem_starts ended.began
      refine ended.ends.clock (Player.fresh_of_opening opening) (setting ▸ countable) _ ?_
      rw [← ended.index_eq, ← visits, split']
      simp
    rcases apart between next later rfl key behind with ends | revives
    · rw [← start'] at ends clock
      exact (Entry.ends_of_within ends clock).imp_right .inl
    · exact .inr (.inr ⟨before, between, later, split, revives⟩)

theorem notesApart_conclude (sequence : Sequence Unit) (pass : Pass) (stage : Stage Unit)
    (transposes : Transposes) {own : List Visit} {track : Nat}
    (apart : stage.shared.NotesApart source own track) :
    (sequence.conclude pass stage transposes).stage.shared.NotesApart source own track := by
  cases pass <;> exact ⟨apart.length, apart.entries, apart.apart⟩

/-- In every pass the notes of one key of a track are apart, but for those that a tie revives: the
earlier one ends by itself, the later one is ended by an instruction, and after it the track reads a
tie before any cut, and before any other note that ends by itself. -/
theorem runPass_notesApart (reachable : Reachable source sequence) (pass : Pass) (stopTime : Nat) :
    ∃ log next, sequence.visits pass stopTime = .ok log ∧
      sequence.runPass pass stopTime = .ok next ∧
      ∀ track ∈ next.tracks,
        next.stage.shared.NotesApart source (visitsOf log track.index) track.index := by
  have intact := reachable.intact
  have countable : (sequence.limits stopTime).Countable (sequence.setting pass).loopRule :=
    .inl intact.bounded
  obtain ⟨stage, transposes, passes⟩ := intact.passes pass stopTime
  refine ⟨_, _, passes.visits, passes.run, fun track member => ?_⟩
  rw [conclude_tracks] at member
  obtain ⟨played, there, rfl⟩ := List.mem_map.mp member
  obtain ⟨i, found⟩ := List.getElem?_of_mem there
  obtain ⟨_, _, _, _, ended⟩ := passes.ended intact found
  have journal := passes.played.ensemble.journal
  have faithful := passes.played.ensemble.faithful
  have reads : sequence.source = source := intact.reads
  have apart := ended.notesApart countable journal faithful
  rw [reads] at apart
  have same : (played.conclude pass).index = played.index := by cases pass <;> rfl
  rw [same]
  exact notesApart_conclude sequence pass stage.unlogged transposes apart

/-- A note of key 60 for 4 ticks; after 2 ticks another note of this key, until it is ended; and a tie
of 4 ticks. -/
def revived : Source :=
  #[0x52, 0x53, 0x45, 0x51, 1, 0, 0, 0, 0, 0, 1, 0, 14, 0,
    0x12, 60, 100, 4, 0, 0x01, 2, 0, 0x10, 60, 100, 0x02, 4, 0, 0x00]

theorem runPass_notesApart_revived : ∃ sequence,
    ofSource RefSeq.format () revived = .ok sequence ∧
    ∃ log next, sequence.visits .listing 0 = .ok log ∧ sequence.runPass .listing 0 = .ok next ∧
      ∀ track ∈ next.tracks,
        next.stage.shared.NotesApart revived (visitsOf log track.index) track.index :=
  ⟨_, rfl, runPass_notesApart (.opened
    (show ofSource RefSeq.format () revived = .ok _ from rfl)) .listing 0⟩

end Sequence

namespace Player

/-- A track that is played for some instructions, and has ended with the last one. -/
def playOut : (count : Nat) → (player : Player) → Option Player
  | 0, _ => none
  | count + 1, player =>
    match player.advance with
    | .ok (true, next) => playOut count next
    | .ok (false, next) => next.finish.toOption
    | .error _ => none

variable {limits : Limits} {start player last : Player} {visits : List Visit}

theorem Runs.playOut (alone : start.setting.tickSync = false) (fresh : start.Fresh)
    (countable : limits.Countable start.setting.loopRule) (runs : Runs limits start visits player)
    (count : Nat) : start.playOut (visits.length + count) = player.playOut count := by
  induction runs generalizing count with
  | start => exact congrArg (start.playOut ·) (Nat.zero_add count)
  | @step visits player _ runs may punctual advanced ih =>
    rw [List.length_append, List.length_singleton, Nat.add_assoc, Nat.add_comm 1, ih,
      Player.playOut, advanced]
  | glide runs together tick early ih =>
    rw [(runs.traces fresh countable).setting, alone] at together
    cases together

theorem Ends.playOut (alone : start.setting.tickSync = false) (fresh : start.Fresh)
    (countable : limits.Countable start.setting.loopRule) (ends : Ends limits start visits last) :
    ∀ found ∈ start.playOut visits.length, found = last := by
  cases ends with
  | @refused visits _ _ _ runs may punctual advanced finished =>
    rw [List.length_append, List.length_singleton, runs.playOut alone fresh countable 1,
      Player.playOut, advanced]
    dsimp only
    rw [finished]
    intro found same
    exact (Option.some.inj same).symm
  | stopped runs stopped finished =>
    have none := runs.playOut alone fresh countable 0
    rw [Nat.add_zero] at none
    rw [none]
    intro found same
    cases same

end Player

namespace Sequence

variable {source : Source} {sequence : Sequence Unit} {pass : Pass} {stopTime : Nat}
  {stage : Stage (Unit × List Visit)} {before track : Track} {start solo : Player}

/-- Tracks that do not keep time together are played out on their own. -/
theorem Ended.playOut (ended : sequence.Ended pass stopTime stage before track start solo)
    (intact : sequence.Intact source) (alone : sequence.header.tickSync = false) :
    ∀ found ∈ start.playOut (visitsOf stage.memory.2 track.index).length, found = solo := by
  obtain ⟨setting, opening, _⟩ := mem_starts ended.began
  have played := ended.ends.playOut (by rw [setting]; exact alone)
    (Player.fresh_of_opening opening) (by rw [setting]; exact .inl intact.bounded)
  rwa [← ended.index_eq] at played

/-- An entry of a track, by its tag and by what is known of it on its own. -/
theorem Ended.entry_of_tag (ended : sequence.Ended pass stopTime stage before track start solo)
    (k index : Nat) {tick tick' duration : Nat} {place : Place}
    (own : (stage.shared.indicesOf track.index)[k]? = some index)
    (lasts : (solo.shared.timeline.entries.toList.map fun entry =>
      (entry.start, entry.duration))[k]? = some (tick', duration))
    (tagged : stage.shared.tags[index]? = some (tick, some place)) : ∃ entry event,
      stage.shared.timeline.entries[index]? = some entry ∧
      stage.shared.eventAt? index = some event ∧ event.place = place ∧ entry.start = tick ∧
      entry.duration = duration := by
  obtain ⟨known, entry, there, found, _, same⟩ := ended.entry_of_own own
  obtain ⟨entry', event, found', start, named, _, place⟩ := Shared.event_of_tag tagged
  cases found.symm.trans found'
  rw [List.getElem?_map, Array.getElem?_toList, there] at lasts
  refine ⟨_, event, found, named, place, start, same.symm.trans ?_⟩
  exact congrArg Prod.snd (Option.some.inj lasts)

/-- The tie lets the first of two notes of one key last beyond the start of the second one. -/
theorem not_apart_revived : ∃ sequence log next first second event event',
    ofSource RefSeq.format () revived = .ok sequence ∧ sequence.visits .listing 0 = .ok log ∧
    sequence.runPass .listing 0 = .ok next ∧
    RefSeq.notes revived (visitsOf log 0) = [⟨⟨0, 14, 0⟩, {}⟩, ⟨⟨0, 22, 2⟩, {}⟩] ∧
    Reading.key? revived ⟨⟨0, 14, 0⟩, {}⟩ = some 60 ∧
    Reading.key? revived ⟨⟨0, 22, 2⟩, {}⟩ = some 60 ∧
    next.stage.shared.timeline.entries[0]? = some first ∧
    next.stage.shared.eventAt? 0 = some event ∧ event.place = ⟨0, 14⟩ ∧
    next.stage.shared.timeline.entries[2]? = some second ∧
    next.stage.shared.eventAt? 2 = some event' ∧ event'.place = ⟨0, 22⟩ ∧
    first.start = 0 ∧ first.duration = 6 ∧ second.start = 2 ∧ second.duration = 4 := by
  have opened : ofSource RefSeq.format () revived = .ok _ := rfl
  have intact := (Reachable.opened opened).intact
  obtain ⟨stage, transposes, passes⟩ := intact.passes .listing 0
  -- The track goes through all of its five instructions.
  have reached : Position.after revived 64 ⟨⟨14, [], []⟩, 0⟩ 4 = some ⟨⟨28, [], []⟩, 6⟩ := by
    decide +kernel
  obtain ⟨before, track, start, solo, tracks, index, ended, all, own⟩ := passes.single intact
    (show _ = [(0, 14, 0)] from rfl) reached (by decide +kernel) (by decide) (.inl rfl) rfl
  have log : stage.memory.2 =
      [⟨0, 14, 0⟩, ⟨0, 19, 0⟩, ⟨0, 22, 2⟩, ⟨0, 25, 2⟩, ⟨0, 28, 6⟩] := by
    rw [own]
    decide +kernel
  have visits := all.trans log
  have tags := passes.played.ensemble.journal
  rw [log] at tags
  have tags : stage.shared.tags = [(0, some ⟨0, 14⟩), (0, some ⟨0, 19⟩), (2, some ⟨0, 22⟩),
      (2, some ⟨0, 25⟩), (6, some ⟨0, 28⟩)] := by
    rw [tags]
    decide +kernel
  have indices : stage.shared.indicesOf track.index = [0, 1, 2, 3, 4] := by
    rw [Shared.indicesOf, tags, index]
    decide
  -- On its own it ends with these entries.
  have lasting : (start.playOut 5).map (fun last : Player =>
      last.shared.timeline.entries.toList.map fun entry => (entry.start, entry.duration)) =
        some [(0, 6), (0, 2), (2, 4), (2, 4), (6, 0)] := by
    obtain ⟨opening, member, rfl⟩ := mem_starts_openTrack ended.began
    cases List.mem_singleton.mp member
    decide +kernel
  obtain ⟨last, played, alone⟩ := Option.map_eq_some_iff.mp lasting
  obtain rfl := ended.playOut intact rfl last (by rw [index, visits]; exact played)
  obtain ⟨first, event, found, named, place, start, lasts⟩ := ended.entry_of_tag 0 0
    (by rw [indices]; rfl) (by rw [alone]; rfl) (by rw [tags]; rfl)
  obtain ⟨second, event', found', named', place', start', lasts'⟩ := ended.entry_of_tag 2 2
    (by rw [indices]; rfl) (by rw [alone]; rfl) (by rw [tags]; rfl)
  have notes : RefSeq.notes revived (visitsOf stage.memory.2 0) =
      [⟨⟨0, 14, 0⟩, {}⟩, ⟨⟨0, 22, 2⟩, {}⟩] := by
    rw [visits]
    decide +kernel
  exact ⟨_, _, _, first, second, event, event', opened, passes.visits, passes.run, notes,
    by decide +kernel, by decide +kernel, found, named, place, found', named', place', start, lasts,
    start', lasts'⟩

end Sequence
end Sequencer
