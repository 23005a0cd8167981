import Sequencer.Proofs.Among.Rows
import Sequencer.Proofs.Moments

/-! The beats of the common clock. A tick that the clock plays is a beat, with the players that
decode instructions then. In a beat the clock of every one of them shows the tick of the beat, so
that what they enter in the timeline stands there by tick, and at one tick by track. -/
namespace Sequencer

/-- A tick of the common clock, and the players that decode instructions at it. -/
structure Beat where
  tick : Nat
  moments : List Player

/-- The clocks of the players show the tick of the beat, and they take turns by track. -/
structure Beat.InTime (beat : Beat) : Prop where
  clocks : ∀ moment ∈ beat.moments, moment.track.time = beat.tick
  turns : beat.moments.Pairwise fun first second => first.track.index ≤ second.track.index

variable {σ : Type}

/-- The stage for a watched format that has seen some players before. -/
def Stage.watched (moments : List Player) (stage : Stage σ) : Stage (σ × List Player) :=
  ⟨stage.tracks, stage.shared, (stage.memory, moments)⟩

/-- The beats of tracks that play together, from `tick` on. Each tick is watched on its own. -/
def Stage.beats (format : Format σ) (setting : Setting) (limits : Limits) (tick : Nat)
    (stage : Stage σ) : Except Fault (List Beat) := do
  let watched ← (stage.watched []).playTick format.watched setting limits tick
  let beat : Beat := ⟨tick, watched.memory.2⟩
  let played := watched.withMemory Prod.fst
  if played.isActive then
    let ticks := max (idleTicks tick played) 1
    if tick + ticks ≤ Tick.last then
      let later ← beats format setting limits (tick + ticks) (played.pass ticks)
      return beat :: later
    else return [beat]
  else return [beat]
termination_by Tick.last - tick

/-- The beats of a pass in which the tracks play together. -/
def Sequence.beats (sequence : Sequence σ) (pass : Pass) (stopTime : Nat) :
    Except Fault (List Beat) :=
  (sequence.openStage pass).beats sequence.format (sequence.setting pass)
    (sequence.limits stopTime) 0

/-- Players that were kept earlier come first. -/
def keptBefore (moments : List Player) (memory : σ × List Player) : σ × List Player :=
  (memory.1, moments ++ memory.2)

theorem Format.maps_keptBefore (format : Format σ) (moments : List Player) :
    format.watched.Maps (keptBefore moments) format.watched := by
  rintro ⟨memory, later⟩ player
  simp only [Format.watched, keptBefore, Routine.run_map]
  cases (format.decode memory player).run player with
  | error fault => rfl
  | ok outcome => simp [Except.map]

namespace Stage

variable {format : Format σ} {setting : Setting} {limits : Limits} {tick : Nat} {stage : Stage σ}

/-- A tick that is watched after others comes to what it comes to on its own. -/
theorem playTick_watched {earlier : List Player} {played : Stage (σ × List Player)}
    (done : (stage.watched earlier).playTick format.watched setting limits tick = .ok played) :
    ∃ alone, (stage.watched []).playTick format.watched setting limits tick = .ok alone ∧
      played = (alone.withMemory Prod.fst).watched (earlier ++ alone.memory.2) := by
  have image := withMemory_playTick (format.maps_keptBefore earlier) setting limits tick
    (stage.watched [])
  have same : (stage.watched []).withMemory (keptBefore earlier) = stage.watched earlier := by
    simp [watched, withMemory, keptBefore]
  rw [same, done] at image
  obtain ⟨alone, found, rfl⟩ := Except.map_eq_ok.mp image
  exact ⟨alone, found, rfl⟩

theorem finishAll_memory (stage : Stage σ) :
    (stage.finishAll setting).Ensures fun ended => ended.memory = stage.memory := by
  refine forTracks_keeps (fun ended => ended.memory = stage.memory) ?_ rfl
  intro earlier track later shared memory same
  dsimp only
  split
  · intro last done
    obtain ⟨player, _, ended⟩ := Except.bind_eq_ok.mp done
    cases ended
    exact same
  · exact Except.ensures_ok same

/-- The players that decode instructions while the tracks play together are those of the beats. -/
theorem playTogether_watched {earlier : List Player} {ended : Stage (σ × List Player)}
    (done : (stage.watched earlier).playTogether format.watched setting limits idleTicks tick =
      .ok ended) : ∃ beats, stage.beats format setting limits tick = .ok beats ∧
        ended.memory.2 = earlier ++ beats.flatMap Beat.moments := by
  induction left : Tick.last - tick using Nat.strongRecOn generalizing tick stage earlier with
  | ind left ih =>
    rw [playTogether] at done
    obtain ⟨played, first, done⟩ := Except.bind_eq_ok.mp done
    obtain ⟨alone, found, rfl⟩ := playTick_watched first
    rw [beats, found]
    change (if (alone.withMemory Prod.fst).isActive = true then _ else _) = _ at done
    change ∃ list, (if (alone.withMemory Prod.fst).isActive = true then _ else _) = _ ∧ _
    generalize alone.withMemory Prod.fst = after at done ⊢
    split at done
    · rename_i active
      rw [if_pos active]
      have strides : idleTicks tick (after.watched (earlier ++ alone.memory.2)) =
          idleTicks tick after := rfl
      dsimp only at done ⊢
      rw [strides] at done
      split at done
      · rename_i further
        rw [if_pos further]
        have goes : ((after.pass (max (idleTicks tick after) 1)).watched _).playTogether
            format.watched setting limits idleTicks _ = .ok ended := done
        obtain ⟨later, rest, seen⟩ := ih _ (by omega) goes rfl
        rw [rest]
        refine ⟨_, rfl, ?_⟩
        rw [seen, List.flatMap_cons, List.append_assoc]
      · rename_i beyond
        rw [if_neg beyond]
        refine ⟨_, rfl, ?_⟩
        rw [finishAll_memory _ _ done, List.flatMap_singleton]
        rfl
    · rename_i silent
      rw [if_neg silent]
      cases done
      refine ⟨_, rfl, ?_⟩
      rw [List.flatMap_singleton]
      rfl

end Stage

/-- From `tick` on each beat comes after the one before, and is in time. -/
structure KeepsTime (tick : Nat) (beats : List Beat) : Prop where
  onward : ∀ beat ∈ beats, tick ≤ beat.tick
  ascending : beats.Pairwise fun first second => first.tick < second.tick
  inTime : ∀ beat ∈ beats, beat.InTime

theorem KeepsTime.last {beat : Beat} (inTime : beat.InTime) : KeepsTime beat.tick [beat] where
  onward := by simp
  ascending := List.pairwise_singleton ..
  inTime := by simpa using inTime

theorem KeepsTime.cons {beat : Beat} {later : List Beat} {next : Nat} (inTime : beat.InTime)
    (after : beat.tick < next) (keeps : KeepsTime next later) :
    KeepsTime beat.tick (beat :: later) where
  onward := List.forall_mem_cons.mpr ⟨Nat.le_refl _, fun other member =>
    Nat.le_of_lt (Nat.lt_of_lt_of_le after (keeps.onward other member))⟩
  ascending := List.pairwise_cons.mpr ⟨fun other member =>
    Nat.lt_of_lt_of_le after (keeps.onward other member), keeps.ascending⟩
  inTime := List.forall_mem_cons.mpr ⟨inTime, keeps.inTime⟩

variable {setting : Setting} {opening : Shared} {limits : Limits} {starts : List Player}
  {log : List Visit} {tick : Nat} {stage : Stage Unit}

/-- A tick of tracks that are ready for it is a beat in time, and leaves them waiting. -/
theorem Stage.playTick_inTime (together : setting.tickSync = true)
    (alike : ∀ start ∈ starts, start.setting = setting)
    (ascending : starts.Pairwise fun first second => first.track.index < second.track.index)
    (within : tick ≤ Tick.last)
    (ensemble : Ensemble setting opening (Player.Ready limits tick) starts log stage.tracks
      stage.shared) :
    ((stage.watched []).playTick RefSeq.format.watched setting limits tick).Yields fun played =>
      Beat.InTime ⟨tick, played.memory.2⟩ ∧
      Ensemble setting opening
        (fun start visits solo track => Format.Waits limits start tick visits solo track) starts
        (log ++ played.memory.2.map Player.visit) played.tracks played.shared := by
  obtain ⟨last, done, new, round⟩ := playTick_round together alike ascending within ensemble
  have image := withMemory_playTick (RefSeq.format.maps_loggedBefore log) setting limits tick
    (stage.watched [])
  have same : (stage.watched []).withMemory (loggedBefore log) =
      ⟨stage.tracks, stage.shared, ((), log)⟩ := by
    simp [watched, withMemory, loggedBefore]
  rw [same, done] at image
  obtain ⟨played, found, rfl⟩ := Except.map_eq_ok.mp image
  obtain ⟨logged, ensemble, now, sorted, _, _⟩ := round
  obtain rfl := List.append_cancel_left logged
  refine ⟨played, found, ⟨fun moment member => ?_, ?_⟩, ensemble⟩
  · exact now moment.visit (List.mem_map_of_mem member)
  · have turns := List.pairwise_map.mp sorted
    exact turns

theorem Stage.beats_keepsTime (together : setting.tickSync = true)
    (alike : ∀ start ∈ starts, start.setting = setting)
    (ascending : starts.Pairwise fun first second => first.track.index < second.track.index)
    (within : tick ≤ Tick.last)
    (ensemble : Ensemble setting opening (Player.Ready limits tick) starts log stage.tracks
      stage.shared) :
    (stage.beats RefSeq.format setting limits tick).Yields (KeepsTime tick) := by
  induction left : Tick.last - tick using Nat.strongRecOn generalizing tick stage log with
  | ind left ih =>
    rw [beats]
    refine (playTick_inTime together alike ascending within ensemble).bind ?_
    rintro played ⟨inTime, ensemble⟩
    dsimp only
    split
    · generalize strides : max (idleTicks tick _) 1 = ticks
      have short : ∀ track ∈ played.tracks, track.active = true → track.cursor.delay ≠ 0 →
          ticks ≤ track.cursor.delay := by
        intro track member active waits
        rw [← strides]
        exact idleTicks_le (show track ∈ (played.withMemory Prod.fst).tracks from member) active
          waits
      split
      · rename_i further
        have ready : Ensemble setting opening (Player.Ready limits (tick + ticks)) starts
            (log ++ played.memory.2.map Player.visit)
            ((played.withMemory Prod.fst).pass ticks).tracks
            ((played.withMemory Prod.fst).pass ticks).shared :=
          ensemble.withVoices (pass_ready short ensemble.voices)
        refine (ih _ (by omega) further ready rfl).bind fun later keeps => ?_
        exact Except.yields_ok (.cons inTime (by dsimp only; omega) keeps)
      · exact Except.yields_ok (.last inTime)
    · exact Except.yields_ok (.last inTime)

/-- The first visit is at an earlier tick, or at the same one by a track that is not later. -/
def Visit.InOrder (first second : Visit) : Prop :=
  first.tick < second.tick ∨ first.tick = second.tick ∧ first.track ≤ second.track

/-- The first row starts earlier, or at the same tick with an instruction of a track that is not
later. -/
def Row.InOrder (first second : Row) : Prop :=
  first.start < second.start ∨ first.start = second.start ∧
    ∃ place ∈ first.place, ∃ place' ∈ second.place, place.track ≤ place'.track

theorem KeepsTime.visits {beats : List Beat} (keeps : KeepsTime tick beats) :
    ((beats.flatMap Beat.moments).map Player.visit).Pairwise Visit.InOrder := by
  refine List.pairwise_map.mpr (List.pairwise_flatMap.mpr ⟨fun beat member => ?_, ?_⟩)
  · have inTime := keeps.inTime beat member
    refine inTime.turns.imp_of_mem fun here there ordered => .inr ⟨?_, ordered⟩
    exact (inTime.clocks _ here).trans (inTime.clocks _ there).symm
  · refine keeps.ascending.imp_of_mem fun here there ordered first early second late => .inl ?_
    change first.track.time < second.track.time
    rw [(keeps.inTime _ here).clocks first early, (keeps.inTime _ there).clocks second late]
    exact ordered

/-- Entries stand in the order of the visits that made them. -/
theorem Shared.rows_inOrder {source : Source} {shared : Shared}
    (journal : shared.tags = log.filterMap (Visit.tag? source))
    (visits : log.Pairwise Visit.InOrder) : shared.rows.Pairwise Row.InOrder := by
  have tags : shared.tags.Pairwise fun first second => first.1 < second.1 ∨
      first.1 = second.1 ∧ ∃ place ∈ first.2, ∃ place' ∈ second.2, place.track ≤ place'.track := by
    rw [journal]
    refine visits.filterMap _ fun first second ordered tag here tag' there => ?_
    unfold Visit.tag? at here there
    split at here
    · split at there
      · cases here
        cases there
        exact ordered.imp_right fun ⟨same, le⟩ => ⟨same, _, rfl, _, rfl, le⟩
      · cases there
    · cases here
  rw [tags_eq_rows] at tags
  have rows := List.pairwise_map.mp tags
  exact rows

namespace Sequence

variable {source : Source} {sequence : Sequence Unit}

theorem watched_openStage (sequence : Sequence σ) (pass : Pass) :
    sequence.watched.openStage pass = (sequence.openStage pass).watched [] := by
  unfold openStage
  change (if (pass = .midi && sequence.options.initialState) = true then _ else _) = _
  dsimp only
  split <;> rfl

/-- In a pass over tracks that play together, those that decode instructions are those of its
beats. -/
theorem moments_eq_beats {sequence : Sequence σ} {pass : Pass} {stopTime : Nat}
    {moments : List Player} (together : sequence.header.tickSync = true)
    (watched : sequence.moments pass stopTime = .ok moments) :
    ∃ beats, sequence.beats pass stopTime = .ok beats ∧ moments = beats.flatMap Beat.moments := by
  obtain ⟨played, run, rfl⟩ := Except.map_eq_ok.mp watched
  obtain ⟨stage, done, closed⟩ := Except.bind_eq_ok.mp run
  have goes : ((sequence.openStage pass).watched []).playTogether sequence.format.watched
      (sequence.setting pass) (sequence.limits stopTime) Stage.idleTicks 0 = .ok stage := by
    rw [watched_openStage] at done
    exact (if_pos together).symm.trans done
  obtain ⟨beats, found, seen⟩ := Stage.playTogether_watched goes
  exact ⟨beats, found, (congrArg Prod.snd (memory_closePass closed)).trans seen⟩

theorem Intact.beats (intact : sequence.Intact source)
    (together : sequence.header.tickSync = true) (pass : Pass) (stopTime : Nat) :
    (sequence.beats pass stopTime).Yields (KeepsTime 0) := by
  have alike : ∀ start ∈ sequence.starts pass, start.setting = sequence.setting pass :=
    fun start member => (mem_starts member).1
  have ensemble := intact.ensemble pass stopTime (.inl intact.bounded)
  unfold Sequence.beats
  rw [intact.format]
  exact Stage.beats_keepsTime together alike (intact.starts_ascending pass) (Nat.zero_le _)
    (ensemble.withVoices (ensemble.voices.mono fun _ _ _ _ _ _ held _ => .inl held))

/-- In a pass over tracks that play together, every track that decodes an instruction does so when
its clock shows the tick of the common clock, and what the tracks enter in the timeline stands there
by tick and then by track. -/
theorem runPass_inTime (reachable : Reachable source sequence)
    (together : sequence.header.tickSync = true) (pass : Pass) (stopTime : Nat) :
    ∃ played moments beats, sequence.runPass pass stopTime = .ok played ∧
      sequence.moments pass stopTime = .ok moments ∧
      sequence.beats pass stopTime = .ok beats ∧ moments = beats.flatMap Beat.moments ∧
      (beats.Pairwise fun first second => first.tick < second.tick) ∧
      (∀ beat ∈ beats, ∀ moment ∈ beat.moments, moment.track.time = beat.tick) ∧
      (∀ row ∈ played.stage.shared.rows, row.place.isSome) ∧
      played.stage.shared.rows.Pairwise Row.InOrder := by
  have intact := reachable.intact
  obtain ⟨stage, transposes, passes⟩ := intact.passes pass stopTime
  obtain ⟨moments, watched, log, -⟩ := passes.moments intact
  obtain ⟨beats, found, keeps⟩ := intact.beats together pass stopTime
  obtain ⟨_, same, rfl⟩ := moments_eq_beats together watched
  cases found.symm.trans same
  have rows : (sequence.conclude pass stage.unlogged transposes).stage.shared.rows =
      stage.shared.rows := by
    cases pass <;> rfl
  have ensemble := passes.played.ensemble
  refine ⟨_, _, beats, passes.run, watched, found, rfl, keeps.ascending,
    fun beat member => (keeps.inTime beat member).clocks, ?_, ?_⟩
  · intro row member
    rw [rows] at member
    refine ensemble.resolved (row.start, row.place) ?_
    rw [Shared.tags_eq_rows]
    exact List.mem_map_of_mem member
  · rw [rows]
    exact Shared.rows_inOrder ensemble.journal (log ▸ keeps.visits)

/-- Two tracks that play together. The second one begins while the note of the first one sounds. -/
def canon : Source :=
  #[0x52, 0x53, 0x45, 0x51, 1, 1, 0, 0, 0, 0, 2, 0, 17, 0, 1, 26, 0,
    0x12, 60, 100, 4, 0, 0x01, 4, 0, 0x00,
    0x01, 2, 0, 0x12, 62, 90, 2, 0, 0x01, 2, 0, 0x00]

theorem runPass_inTime_canon : ∃ sequence, ofSource RefSeq.format () canon = .ok sequence ∧
    sequence.header.tickSync = true ∧
    ∃ played moments beats, sequence.runPass .midi 0 = .ok played ∧
      sequence.moments .midi 0 = .ok moments ∧
      sequence.beats .midi 0 = .ok beats ∧ moments = beats.flatMap Beat.moments ∧
      (beats.Pairwise fun first second => first.tick < second.tick) ∧
      (∀ beat ∈ beats, ∀ moment ∈ beat.moments, moment.track.time = beat.tick) ∧
      (∀ row ∈ played.stage.shared.rows, row.place.isSome) ∧
      played.stage.shared.rows.Pairwise Row.InOrder :=
  ⟨_, rfl, rfl, runPass_inTime (.opened (show ofSource RefSeq.format () canon = .ok _ from rfl)) rfl
    .midi 0⟩

end Sequence
end Sequencer
