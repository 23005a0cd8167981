import Sequencer.Proofs.Concert
import Sequencer.Proofs.NoteReadings
import Sequencer.Proofs.Player.Registers
import Sequencer.Proofs.Score.Spans

/-! Moments of a pass: the players as they are when they decode an instruction. A format is watched
by a decoder that keeps each player before it moves it. Nothing reads what is kept. In every moment
the registers of the track are those that the instructions decoded before have set, and the entry
that comes next is the one behind theirs. -/
namespace Sequencer

variable {σ : Type}

/-- The same format with a decoder that keeps every player that it is about to move. -/
def Format.watched (format : Format σ) : Format (σ × List Player) where
  name := format.name
  header := format.header
  pointers := format.pointers
  decode := fun (memory, moments) player =>
    (format.decode memory player).map fun (result, memory) =>
      (result, (memory, moments ++ [player]))

def Player.visit (player : Player) : Visit := player.track.visit

namespace Sequence

/-- The sequence with a watched format that has not seen a player yet. -/
def watched (sequence : Sequence σ) : Sequence (σ × List Player) :=
  { sequence with
    format := sequence.format.watched
    stage := ⟨sequence.stage.tracks, sequence.stage.shared, (sequence.stage.memory, [])⟩ }

/-- The players that decode instructions in a pass, each as it is right before, in the order in
which they do. -/
def moments (sequence : Sequence σ) (pass : Pass) (stopTime : Nat) : Except Fault (List Player) :=
  (sequence.watched.runPass pass stopTime).map fun played => played.stage.memory.2

end Sequence

/-- The visits of the players that were kept. -/
def logOf (memory : σ × List Player) : σ × List Visit := (memory.1, memory.2.map Player.visit)

/-- Visits that were written down earlier come first. -/
def loggedBefore (log : List Visit) (memory : σ × List Player) : σ × List Visit :=
  (memory.1, log ++ memory.2.map Player.visit)

theorem Format.maps_loggedBefore (format : Format σ) (log : List Visit) :
    format.watched.Maps (loggedBefore log) format.logged := by
  rintro ⟨memory, moments⟩ player
  simp only [Format.watched, Format.logged, loggedBefore, Routine.run_map]
  cases (format.decode memory player).run player with
  | error fault => rfl
  | ok outcome => simp [Except.map, Player.visit]

theorem Format.maps_watched (format : Format σ) : format.watched.Maps logOf format.logged :=
  format.maps_loggedBefore []

theorem Format.watched_step (format : Format σ) (player : Player) (memory : σ)
    (moments : List Player) : format.watched.step ⟨player, (memory, moments)⟩ =
      (format.step ⟨player, memory⟩).map fun (more, next) =>
        (more, ⟨next.player, (next.memory, moments ++ [player.count])⟩) := by
  simp only [Format.step, Format.watched, Routine.run_map]
  change ((format.decode memory player.count).run player.count |>.map _) >>= _ =
    ((format.decode memory player.count).run player.count >>= _).map _
  cases (format.decode memory player.count).run player.count <;> rfl

namespace RefSeq

/-- The registers of a track once all of the players have moved. -/
def registersOf (source : Source) (moments : List Player) (track : Nat) : Registers :=
  registersAfter source {} (visitsOf (moments.map Player.visit) track)

/-- The number of the entry that comes once all of the players have moved. -/
def entryOf (source : Source) (moments : List Player) : Nat :=
  entryAfter source (moments.map Player.visit)

/-- What the players before a moment have set is what it finds. -/
structure Found (source : Source) (earlier : List Player) (moment : Player) : Prop where
  registers : moment.track.registers = registersOf source earlier moment.track.index
  entry : moment.shared.timeline.nextIndex = entryOf source earlier

/-- All players that were kept have found what those before them had set. -/
structure Watched (source : Source) (shared : Shared) (memory : Unit × List Player) : Prop where
  size : shared.timeline.size = entryOf source memory.2
  found : ∀ earlier moment later, memory.2 = earlier ++ moment :: later →
    Found source earlier moment

variable {source : Source} {moments : List Player} {player : Player}

theorem registersOf_push (moments : List Player) (player : Player) (track : Nat) :
    registersOf source (moments ++ [player]) track =
      if player.track.index = track then
        Reading.after source ⟨player.visit, registersOf source moments track⟩
      else registersOf source moments track := by
  unfold registersOf
  rw [List.map_append, List.map_singleton, visitsOf_push]
  rw [show player.visit.track = player.track.index from rfl]
  split
  · exact registersAfter_append ..
  · rfl

theorem entryOf_push (moments : List Player) (player : Player) :
    entryOf source (moments ++ [player]) =
      entryOf source moments + entriesAt source player.track.cursor.offset := by
  unfold entryOf entriesAt
  rw [List.map_append, List.map_singleton]
  cases recorded : isRecorded source player.track.cursor.offset with
  | false => exact entryAfter_unrecorded _ recorded
  | true => exact entryAfter_recorded _ recorded

theorem Watched.push {next : Player} (watched : Watched source player.shared ((), moments))
    (registers : player.track.registers = registersOf source moments player.track.index)
    (size : next.shared.timeline.size =
      player.shared.timeline.size + entriesAt source player.track.cursor.offset) :
    Watched source next.shared ((), moments ++ [player.count]) where
  size := by
    rw [size, watched.size]
    exact (entryOf_push moments player.count).symm
  found := by
    intro earlier moment later split
    rcases List.split_push split with ⟨rest, -, before⟩ | ⟨-, rfl, rfl⟩
    · exact watched.found earlier moment rest before
    · exact ⟨registers, watched.size⟩

/-- While all tracks are watched, each of them has the registers that it has set. -/
abbrev Registered (source : Source) (track : Track) (_ : Shared) (memory : Unit × List Player) :
    Prop := track.registers = registersOf source memory.2 track.index

/-- A player that stays as it is, or is moved by the clock, is not kept. -/
theorem Registered.spares {next : Player} {memory : Unit × List Player}
    (kept : Performer.Kept (Registered source) (Watched source) ⟨player, memory⟩)
    (calm : player.Calm next) :
    Performer.Spares (Registered source) (Watched source) ⟨player, memory⟩ ⟨next, memory⟩ where
  own := by
    change next.track.registers = _
    rw [calm.registers, calm.index]
    exact kept.own
  all := ⟨calm.size.trans kept.all.size, kept.all.found⟩
  setting := calm.setting
  index := calm.index
  others := fun _ _ registered => registered

theorem concert_watched (setting : Setting) : Concert format.watched setting
    (Registered setting.source) (Watched setting.source) where
  steps := by
    rintro ⟨player, ⟨⟩, moments⟩ rfl ⟨registers, watched⟩
    rw [Format.watched_step, step_eq]
    rintro ⟨more, performer⟩ stepped
    obtain ⟨outcome, done, same⟩ := Except.map_eq_ok.mp stepped
    obtain ⟨⟨more', next⟩, advanced, same'⟩ := Except.map_eq_ok.mp done
    cases same'
    cases same
    have heeds := player.advance_heeds (more, next) advanced
    have own : next.track.registers =
        registersOf player.setting.source (moments ++ [player.count]) next.track.index := by
      rw [heeds.registers, heeds.index, registersOf_push,
        if_pos (show player.count.track.index = player.track.index from rfl)]
      exact congrArg (fun before => Reading.after _ ⟨player.visit, before⟩) registers
    refine ⟨⟨own, watched.push registers heeds.size⟩, heeds.setting, heeds.index, ?_⟩
    intro other apart registered
    refine Eq.trans registered (Eq.trans ?_ (registersOf_push ..).symm)
    exact (if_neg fun same => apart (Eq.symm same)).symm
  finishes := by
    rintro ⟨player, memory⟩ _ kept last done
    obtain ⟨ended, finished, same⟩ := Except.bind_eq_ok.mp done
    cases same
    exact Registered.spares kept (player.finish_calm ended finished)
  glides := fun tick _ kept => Registered.spares kept (Player.moveDials_calm _ tick)
  waits := fun _ registered => registered
  leads := fun _ _ registered => registered
  leadsAll := fun writing tick watched =>
    ⟨(congrArg Timeline.size (Stage.moveMaster_shared writing tick _).2).trans watched.size,
      watched.found⟩

end RefSeq

namespace Sequence

variable {source : Source} {sequence : Sequence Unit} {pass : Pass} {stopTime : Nat}
  {stage : Stage (Unit × List Visit)} {transposes : Transposes}

theorem memory_closePass {sequence played : Sequence σ} {stage : Stage σ}
    (closed : sequence.closePass pass stage = .ok played) : played.stage.memory = stage.memory := by
  obtain ⟨transposes, -, closed⟩ := Except.bind_eq_ok.mp closed
  cases pass <;> cases closed <;> rfl

/-- The stage at the start of a pass: nothing has been set, and nothing entered. -/
theorem watched_opening (source : Source) (sequence : Sequence Unit) (pass : Pass) :
    (sequence.watched.openStage pass).Kept (RefSeq.Registered source) (RefSeq.Watched source)
      (sequence.tracks.map Track.index) where
  indices := by
    rw [openStage_openTrack, List.map_map]
    rfl
  each := by
    intro track member
    rw [openStage_openTrack] at member
    obtain ⟨before, -, rfl⟩ := List.mem_map.mp member
    unfold openStage
    split <;> rfl
  all := by
    unfold openStage
    split <;> exact ⟨rfl, fun earlier moment later split =>
      absurd (show [] = earlier ++ moment :: later from split) (by simp)⟩

/-- The moments of a pass belong to its visits, and each has found what those before it had set. -/
theorem Passes.moments (passes : sequence.Passes pass stopTime stage transposes)
    (intact : sequence.Intact source) : ∃ moments, sequence.moments pass stopTime = .ok moments ∧
      moments.map Player.visit = stage.memory.2 ∧
      ∀ earlier moment later, moments = earlier ++ moment :: later →
        RefSeq.Found source earlier moment := by
  have maps : sequence.watched.format.Maps logOf sequence.format.logged :=
    sequence.format.maps_watched
  have image := withMemory_runPass maps pass stopTime
  obtain ⟨logged, done, same⟩ := Except.map_eq_ok.mp passes.visits
  have logs : sequence.watched.withMemory logOf sequence.format.logged = sequence.logged := rfl
  rw [logs, done] at image
  obtain ⟨played, run, rfl⟩ := Except.map_eq_ok.mp image
  refine ⟨played.stage.memory.2, Except.map_eq_ok.mpr ⟨played, run, rfl⟩, same, ?_⟩
  obtain ⟨stage', done, closed⟩ := Except.bind_eq_ok.mp run
  rw [memory_closePass closed]
  have format : sequence.watched.format = RefSeq.format.watched :=
    congrArg Format.watched intact.format
  have reads : (sequence.watched.setting pass).source = source := intact.reads
  rw [format] at done
  have concert := RefSeq.concert_watched (sequence.watched.setting pass)
  rw [reads] at concert
  have distinct : (sequence.tracks.map Track.index).Nodup :=
    List.pairwise_map.mpr (intact.ascending.imp Nat.ne_of_lt)
  exact (concert.play _ distinct (watched_opening source sequence pass) stage' done).all.found

end Sequence

/-- In the moment a note is read, and the entry at the index is the one that comes next. -/
structure Player.EntersNote (source : Source) (moment : Player) (index : Nat) : Prop where
  starts : RefSeq.startsNote source moment.track.cursor.offset = true
  next : moment.shared.timeline.nextIndex = index

/-- The entry at the index was made in the moment: for what the track read there, and then. -/
def Sequence.EnteredIn (played : Sequence Unit) (moment : Player) (index : Nat) : Prop :=
  ∃ entry event, played.timeline.entries[index]? = some entry ∧ entry.start = moment.track.time ∧
    played.arena.get? entry.event = some event ∧ event.track = moment.track.index ∧
    event.offset = moment.track.cursor.offset

namespace Sequence

variable {source : Source} {sequence : Sequence Unit} {pass : Pass} {stopTime : Nat}
  {stage : Stage (Unit × List Visit)} {transposes : Transposes}

/-- The transpose that is given for the entry of a note is the one that the track had when it read
the note. -/
theorem Passes.noteTranspose (passes : sequence.Passes pass stopTime stage transposes)
    (intact : sequence.Intact source) {earlier later : List Player} {moment : Player}
    (log : (earlier ++ moment :: later).map Player.visit = stage.memory.2)
    (found : RefSeq.Found source earlier moment)
    (starts : RefSeq.startsNote source moment.track.cursor.offset = true) :
    transposes.entryTranspose moment.shared.timeline.nextIndex =
      .ok moment.track.transpose.toInt := by
  have split : stage.memory.2 =
      earlier.map Player.visit ++ moment.visit :: later.map Player.visit := by
    rw [← log, List.map_append, List.map_cons]
  have given := passes.entryTranspose intact split (RefSeq.isRecorded_of_startsNote starts)
  have reading : (Reading.struck? source ⟨moment.visit,
      RefSeq.registersOf source earlier moment.track.index⟩).isSome :=
    (RefSeq.isSome_struck _).trans starts
  obtain ⟨⟨key, velocity⟩, struck⟩ := Option.isSome_iff_exists.mp reading
  rw [visitsOf_push, if_pos rfl, RefSeq.registersAfter_append] at given
  have still := RefSeq.after_of_struck struck
  rw [found.entry, show moment.track.transpose = moment.track.registers.transpose from rfl,
    found.registers]
  exact given.trans
    (congrArg (fun registers : Registers => Except.ok registers.transpose.toInt) still)

theorem Passes.entered (passes : sequence.Passes pass stopTime stage transposes)
    (intact : sequence.Intact source) {earlier later : List Player} {moment : Player}
    (log : (earlier ++ moment :: later).map Player.visit = stage.memory.2)
    (found : RefSeq.Found source earlier moment)
    (starts : RefSeq.startsNote source moment.track.cursor.offset = true) :
    (sequence.conclude pass stage.unlogged transposes).EnteredIn moment
      moment.shared.timeline.nextIndex := by
  have journal := passes.played.ensemble.journal
  rw [show (sequence.setting pass).source = source from intact.reads] at journal
  have split : stage.memory.2 =
      earlier.map Player.visit ++ moment.visit :: later.map Player.visit := by
    rw [← log, List.map_append, List.map_cons]
  obtain ⟨entry, event, there, start, _, stored, place⟩ := Shared.event_of_tag
    (Shared.tag_of_visit journal split (RefSeq.isRecorded_of_startsNote starts))
  rw [found.entry]
  refine ⟨entry, event, ?_, start, ?_, congrArg Place.track place, congrArg Place.offset place⟩
  · rw [← there]
    cases pass <;> rfl
  · rw [conclude_arena]
    exact stored

/-- Each entry of a note was made in some moment. -/
theorem Passes.moment_of_note (passes : sequence.Passes pass stopTime stage transposes)
    (intact : sequence.Intact source) {moments : List Player}
    (log : moments.map Player.visit = stage.memory.2)
    (found : ∀ earlier moment later, moments = earlier ++ moment :: later →
      RefSeq.Found source earlier moment) {index : Nat}
    (note : index ∈ stage.shared.noteIndices source) :
    ∃ moment ∈ moments, moment.EntersNote source index := by
  have journal := passes.played.ensemble.journal
  rw [show (sequence.setting pass).source = source from intact.reads] at journal
  obtain ⟨inside, starts⟩ := List.mem_filter.mp note
  obtain ⟨tag, tagged⟩ : ∃ tag, stage.shared.tags[index]? = some tag := by
    refine ⟨_, List.getElem?_eq_getElem ?_⟩
    rw [Shared.length_tags]
    exact List.mem_range.mp inside
  have visited := tagged
  rw [journal] at visited
  obtain ⟨earlier, visit, later, split, recorded, number⟩ := List.split_of_filterMap visited
  rw [split] at log
  obtain ⟨before, rest, rfl, mine, others⟩ := List.map_eq_append_iff.mp log
  obtain ⟨moment, after, rfl, rfl, _⟩ := List.map_eq_cons_iff.mp others
  have finds := found before moment after rfl
  refine ⟨moment, by simp, ?_, ?_⟩
  · -- The entry at the index has its event from the visit of the moment.
    unfold Visit.tag? at recorded
    split at recorded
    · cases recorded
      obtain ⟨_, event, _, _, named, _, place⟩ := Shared.event_of_tag tagged
      have offset : event.offset = moment.track.cursor.offset := congrArg Place.offset place
      rw [named, Option.any_some, offset] at starts
      exact starts
    · cases recorded
  · rw [finds.entry, RefSeq.entryOf, mine]
    exact number

/-- After any pass, the transpose that is given for the entry of a note is the transpose register of
its track, as it was when the note was read. -/
theorem runPass_noteTransposes (reachable : Reachable source sequence) (pass : Pass)
    (stopTime : Nat) : ∃ played moments transposes, sequence.runPass pass stopTime = .ok played ∧
      sequence.moments pass stopTime = .ok moments ∧ played.transposes = some transposes ∧
      ∀ index ∈ played.stage.shared.noteIndices source,
        (∃ moment ∈ moments, moment.EntersNote source index) ∧
        ∀ moment ∈ moments, moment.EntersNote source index → played.EnteredIn moment index ∧
          transposes.entryTranspose index = .ok moment.track.transpose.toInt := by
  have intact := reachable.intact
  obtain ⟨stage, transposes, passes⟩ := intact.passes pass stopTime
  obtain ⟨moments, watched, log, found⟩ := passes.moments intact
  refine ⟨_, moments, transposes, passes.run, watched, by cases pass <;> rfl, ?_⟩
  intro index note
  have note : index ∈ stage.shared.noteIndices source := by
    cases pass <;> exact note
  refine ⟨passes.moment_of_note intact log found note, ?_⟩
  rintro moment member ⟨starts, rfl⟩
  obtain ⟨earlier, later, rfl⟩ := List.append_of_mem member
  have finds := found earlier moment later rfl
  exact ⟨passes.entered intact log finds starts, passes.noteTranspose intact log finds starts⟩

/-- A track that calls a note with a transpose of 3, and again with one of -2. -/
def retuned : Source :=
  #[0x52, 0x53, 0x45, 0x51, 1, 0, 0, 0, 0, 0, 1, 0, 14, 0,
    0x33, 3, 0x51, 25, 0, 0x33, 254, 0x51, 25, 0, 0x00, 0x12, 60, 100, 4, 0, 0x52]

theorem runPass_noteTransposes_retuned : ∃ sequence,
    ofSource RefSeq.format () retuned = .ok sequence ∧
    ∃ played moments transposes, (sequence.withTickSync true).runPass .listing 0 = .ok played ∧
      (sequence.withTickSync true).moments .listing 0 = .ok moments ∧
      played.transposes = some transposes ∧
      ∀ index ∈ played.stage.shared.noteIndices retuned,
        (∃ moment ∈ moments, moment.EntersNote retuned index) ∧
        ∀ moment ∈ moments, moment.EntersNote retuned index → played.EnteredIn moment index ∧
          transposes.entryTranspose index = .ok moment.track.transpose.toInt :=
  ⟨_, rfl, runPass_noteTransposes ((Reachable.opened
    (show ofSource RefSeq.format () retuned = .ok _ from rfl)).synced true) .listing 0⟩

end Sequence
end Sequencer
