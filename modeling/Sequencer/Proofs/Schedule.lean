import Sequencer.Proofs.Ensemble
import Sequencer.Proofs.Lists

/-! A pass comes to its end in both of its schedules, and at its end every track has come to what it
comes to on its own. Of instructions at the same tick, those of an earlier track come first. -/
namespace Sequencer

open RefSeq (format)
open Player

/-- What all tracks have come to at the end of a pass. -/
structure Stage.Played (setting : Setting) (opening : Shared) (limits : Limits)
    (starts : List Player) (stage : Stage (Unit × List Visit)) : Prop where
  ensemble : Ensemble setting opening (Closed limits) starts stage.memory.2 stage.tracks
    stage.shared
  merged : stage.memory.2.Pairwise fun first second =>
    first.tick = second.tick → first.track ≤ second.track
  inside : ∀ visit ∈ stage.memory.2, ∃ start ∈ starts, visit.track = start.track.index

/-- A track that plays with the clock is ready for the instructions of a tick. -/
def Player.Ready (limits : Limits) (tick : Nat) (start : Player) (visits : List Visit)
    (solo : Player) (track : Track) : Prop :=
  Underway limits start visits solo ∧ Format.InTime start tick visits track ∨
    Closed limits start visits solo track

variable {limits : Limits} {setting : Setting} {opening : Shared} {starts : List Player}
  {log : List Visit} {shared shared' : Shared} {tracks : List Track} {tick ticks : Nat}

theorem Stint.rest {holds : List Visit → Player → Track → Prop} {each : Visit → Prop}
    {start solo real : Player} {visits : List Visit} (held : holds visits solo real.track)
    (continues : start.Continues solo) (home : solo.Home real) (log : List Visit) :
    Stint holds each start visits log real.shared ⟨real, ((), log)⟩ := by
  refine ⟨[], solo, by simp, ?_, fun _ member => absurd member List.not_mem_nil, continues, home,
    .refl _ _ _⟩
  rw [List.append_nil]
  exact held

theorem Voices.map {before after : Player → List Visit → Player → Track → Prop}
    (voices : Voices before log shared starts tracks) (act : Track → Track)
    (each : ∀ start ∈ starts, ∀ track ∈ tracks, ∀ visits solo,
      before start visits solo track → solo.Home ⟨start.setting, track, shared⟩ →
      after start visits solo (act track) ∧ solo.Home ⟨start.setting, act track, shared⟩) :
    Voices after log shared starts (tracks.map act) := by
  induction voices with
  | nil => exact .nil
  | cons first rest ih =>
    obtain ⟨solo, held, continues, home⟩ := first
    obtain ⟨held, home⟩ := each _ List.mem_cons_self _ List.mem_cons_self _ solo held home
    refine .cons ⟨solo, held, continues, home⟩ ?_
    exact ih fun start known track member =>
      each start (List.mem_cons_of_mem _ known) track (List.mem_cons_of_mem _ member)

theorem Voices.mono {before after : Player → List Visit → Player → Track → Prop}
    (voices : Voices before log shared starts tracks)
    (imply : ∀ start ∈ starts, ∀ track ∈ tracks, ∀ visits solo,
      before start visits solo track → solo.Home ⟨start.setting, track, shared⟩ →
      after start visits solo track) : Voices after log shared starts tracks := by
  have same := voices.map id fun start known track member visits solo held home =>
    ⟨imply start known track member visits solo held home, home⟩
  rwa [List.map_id] at same

namespace Stage

/-- Tracks that play one after another, each to its end. -/
theorem playInTurn_played (alone : setting.tickSync = false)
    (alike : ∀ start ∈ starts, start.setting = setting)
    (ascending : starts.Pairwise fun first second => first.track.index < second.track.index)
    (ensemble : Ensemble setting opening (fun start visits solo _ =>
      Underway limits start visits solo) starts [] tracks shared) :
    (playInTurn format.logged setting limits ⟨tracks, shared, ((), [])⟩).Yields
      (Played setting opening limits starts) := by
  have round : (playInTurn format.logged setting limits ⟨tracks, shared, ((), [])⟩).Yields
      fun stage => ∃ new, Round setting opening (Closed limits) (fun _ => True) starts [] shared
        new stage := by
    refine eachTrack_round alike ascending ?_ ensemble
    intro start known visits log solo real underway _ home resolved
    exact Format.playThrough_stint underway home resolved (alike start known ▸ alone)
      (by rw [home.steps])
  apply round.mono
  rintro ⟨tracks, shared, ⟨⟩, log⟩ ⟨new, logged, ensemble, _, sorted, inside, _⟩
  cases logged
  exact ⟨ensemble, List.Pairwise.imp (fun {first second} (ordered : first.track ≤ second.track) _ =>
    ordered) sorted, inside⟩

theorem playDue_round (alike : ∀ start ∈ starts, start.setting = setting)
    (ascending : starts.Pairwise fun first second => first.track.index < second.track.index)
    (within : tick ≤ Tick.last)
    (ensemble : Ensemble setting opening (Ready limits tick) starts log tracks shared) :
    (eachTrack (fun performer => format.logged.playDue limits.stopTime
      (limits.maxSteps - performer.player.track.steps) performer) setting tracks shared
        ((), log)).Yields fun stage => ∃ new, Round setting opening
          (fun start visits solo track => Format.Waits limits start tick visits solo track)
          (fun visit => visit.tick = tick) starts log shared new stage := by
  refine eachTrack_round alike ascending ?_ ensemble
  rintro start _ visits log solo real (⟨underway, inTime⟩ | closed) continues home resolved
  · exact Format.playDue_stint within underway home resolved inTime (by rw [home.steps])
  · have idle : real.track.isDue = false := by rw [Track.isDue, closed.2, Bool.false_and]
    have skipped (budget : Nat) : format.logged.playDue limits.stopTime budget
        ⟨real, ((), log)⟩ = .ok ⟨real, ((), log)⟩ := by
      cases budget <;> exact if_neg (Bool.eq_false_iff.mp idle)
    dsimp only
    rw [skipped]
    exact Except.yields_ok (.rest (.inr closed) continues home log)

theorem moveDials_round (together : setting.tickSync = true)
    (alike : ∀ start ∈ starts, start.setting = setting)
    (ascending : starts.Pairwise fun first second => first.track.index < second.track.index)
    (within : tick ≤ Tick.last)
    (ensemble : Ensemble setting opening (fun start visits solo track =>
      Format.Waits limits start tick visits solo track) starts log tracks shared) :
    (eachTrack (fun (performer : LoggedPerformer) => .ok ⟨if performer.player.track.active then
      performer.player.moveDials tick else performer.player, performer.memory⟩) setting tracks
        shared ((), log)).Yields fun stage => ∃ new, Round setting opening
          (fun start visits solo track => Format.Waits limits start tick visits solo track)
          (fun _ => False) starts log shared new stage := by
  refine eachTrack_round alike ascending ?_ ensemble
  rintro start known visits log solo real (⟨underway, inTime, waits⟩ | closed) continues home _
  · have traces := underway.traces
    have sync : solo.setting.tickSync = true := by
      rw [continues.setting, alike start known, together]
    have early : tick ≤ solo.track.time := by
      have due : start.dueAfter visits.length = tick + real.track.cursor.delay := inTime
      rw [traces.time underway.fresh, due]
      exact Nat.le_min.mpr ⟨Nat.le_add_right .., within⟩
    have glided : Underway limits start visits (solo.moveDials tick) :=
      ⟨.glide underway.runs sync tick early, underway.fresh, underway.countable⟩
    obtain ⟨home', plays⟩ := home.moveDials traces.safe tick start.setting
    rw [continues.index] at plays
    have waits' : Format.InTime start tick visits (real.moveDials tick).track ∧
        (real.moveDials tick).track.cursor.delay ≠ 0 := by
      rw [Format.InTime, moveDials_cursor]
      exact ⟨inTime, waits⟩
    dsimp only
    rw [home.active underway, if_pos rfl]
    refine Except.yields_ok ⟨[], solo.moveDials tick, by simp, ?_,
      fun _ member => absurd member List.not_mem_nil, glided.traces.continues, home', plays⟩
    rw [List.append_nil]
    exact .inl ⟨glided, waits'⟩
  · dsimp only
    rw [closed.2]
    exact Except.yields_ok (.rest (.inr closed) continues home log)

theorem moveMaster_shared (writing : Bool) (tick : Nat) (shared : Shared) :
    (moveMaster writing tick shared).arena = shared.arena ∧
      (moveMaster writing tick shared).timeline = shared.timeline := by
  unfold moveMaster
  split
  · exact ⟨rfl, rfl⟩
  · dsimp only
    split <;> split <;> (try split) <;> exact ⟨rfl, rfl⟩

theorem keeps_moveMaster (writing : Bool) (tick : Nat) (shared : Shared) (track : Nat) :
    Shared.Keeps track shared (moveMaster writing tick shared) := by
  obtain ⟨arena, timeline⟩ := moveMaster_shared writing tick shared
  have tags : (moveMaster writing tick shared).tags = shared.tags :=
    Shared.tags_congr arena (by rw [timeline])
  refine ⟨fun _ _ => by rw [timeline], Shared.indicesOf_congr tags track, ?_, ?_⟩
  · exact fun id event found => by rw [arena]; exact found
  · exact fun sound => by rw [arena]; exact sound

theorem moveMaster_still (writing : Bool) (tick : Nat) {shared : Shared}
    (still : shared.masterRamp = none) : moveMaster writing tick shared = shared := by
  rw [moveMaster, still]

/-- One tick of the common clock. -/
theorem playTick_round (together : setting.tickSync = true)
    (alike : ∀ start ∈ starts, start.setting = setting)
    (ascending : starts.Pairwise fun first second => first.track.index < second.track.index)
    (within : tick ≤ Tick.last)
    (ensemble : Ensemble setting opening (Ready limits tick) starts log tracks shared) :
    (playTick format.logged setting limits tick ⟨tracks, shared, ((), log)⟩).Yields fun stage =>
      ∃ new, Round setting opening
        (fun start visits solo track => Format.Waits limits start tick visits solo track)
        (fun visit => visit.tick = tick) starts log shared new stage := by
  refine (playDue_round alike ascending within ensemble).bind ?_
  rintro ⟨tracks, shared', ⟨⟩, log'⟩ ⟨new, logged, ensemble, all, sorted, inside, keeps⟩
  cases logged
  refine (moveDials_round together alike ascending within ensemble).bind ?_
  rintro ⟨tracks, shared'', ⟨⟩, log''⟩ ⟨silent, logged, ensemble, none, _, _, keeps'⟩
  cases logged
  cases List.eq_nil_iff_forall_not_mem.mpr none
  rw [List.append_nil] at ensemble
  obtain ⟨arena, timeline⟩ := moveMaster_shared (setting.pass = .midi) tick shared''
  have tags := Shared.tags_congr arena (congrArg Timeline.skeleton timeline)
  refine Except.yields_ok ⟨new, List.append_nil _,
    ⟨tags.trans ensemble.journal, ?_, ?_, ?_, ?_, ?_⟩, all, sorted, inside, fun other apart => ?_⟩
  · exact (keeps_moveMaster (setting.pass = .midi) tick shared'' 0).sound ensemble.sound
  · dsimp only
    rw [arena]
    exact ensemble.faithful
  · dsimp only
    rw [arena]
    exact ensemble.lists
  · intro quiet
    have conducted := ensemble.conducts quiet
    dsimp only
    rw [moveMaster_still _ _ conducted.1]
    exact conducted
  · have kept : Voices (fun start visits solo track => Format.Waits limits start tick visits solo
        track) (log ++ new ++ []) (moveMaster (setting.pass = .midi) tick shared'') starts tracks :=
      ensemble.voices.keep (fun _ _ => keeps_moveMaster ..)
        fun _ _ _ member => absurd member List.not_mem_nil
    rwa [List.append_nil] at kept
  · exact ((keeps other apart).trans (keeps' other apart)).trans (keeps_moveMaster ..)

/-- The clock does not go past the next instruction of a track. -/
theorem idleTicks_le {σ : Type} {stage : Stage σ} {track : Track} (member : track ∈ stage.tracks)
    (active : track.active = true) (waits : track.cursor.delay ≠ 0) :
    max (idleTicks tick stage) 1 ≤ track.cursor.delay := by
  obtain ⟨least, found, bound⟩ := List.exists_min?_le (List.mem_filterMap.mpr
    ⟨track, member, if_pos active⟩ : track.cursor.delay ∈ stage.tracks.filterMap fun track =>
      if track.active then some track.cursor.delay else none)
  unfold idleTicks
  dsimp only
  rw [found, Option.getD_some]
  split <;> omega

theorem pass_ready {σ : Type} {stage : Stage σ}
    (short : ∀ track ∈ stage.tracks, track.active = true → track.cursor.delay ≠ 0 →
      ticks ≤ track.cursor.delay)
    (voices : Voices (fun start visits solo track => Format.Waits limits start tick visits solo
      track) log shared starts stage.tracks) :
    Voices (Ready limits (tick + ticks)) log shared starts (stage.pass ticks).tracks := by
  apply voices.map _
  rintro start _ track member visits solo (⟨underway, inTime, waits⟩ | closed) home
  · have active := home.active underway
    have bound := short track member active waits
    rw [if_pos active]
    refine ⟨.inl ⟨underway, ?_⟩, home.delay _⟩
    change start.dueAfter visits.length = tick + ticks + (track.cursor.delay - ticks)
    rw [inTime]
    omega
  · rw [closed.2]
    exact ⟨.inr closed, home⟩

/-- A track that has come to the end of the clock, or has ended before. -/
def Late (limits : Limits) (start : Player) (visits : List Visit) (solo : Player)
    (track : Track) : Prop :=
  Underway limits start visits solo ∧ Tick.last < start.dueAfter visits.length ∨
    Closed limits start visits solo track

theorem waits_late {log : List Visit} (beyond : Tick.last < tick + ticks)
    (short : ∀ track ∈ tracks, track.active = true → track.cursor.delay ≠ 0 →
      ticks ≤ track.cursor.delay)
    (voices : Voices (fun start visits solo track => Format.Waits limits start tick visits solo
      track) log shared starts tracks) : Voices (Late limits) log shared starts tracks := by
  apply voices.mono
  rintro start _ track member visits solo (⟨underway, inTime, waits⟩ | closed) home
  · have bound := short track member (home.active underway) waits
    refine .inl ⟨underway, ?_⟩
    rw [inTime]
    omega
  · exact .inr closed

theorem finishAll_round (together : setting.tickSync = true)
    (alike : ∀ start ∈ starts, start.setting = setting)
    (ascending : starts.Pairwise fun first second => first.track.index < second.track.index)
    (ensemble : Ensemble setting opening (Late limits) starts log tracks shared) :
    (finishAll setting ⟨tracks, shared, ((), log)⟩).Yields fun stage => ∃ new,
      Round setting opening (Closed limits) (fun _ => False) starts log shared new stage := by
  refine eachTrack_round alike ascending ?_ ensemble
  rintro start known visits log solo real (⟨underway, late⟩ | closed) continues home _
  · have traces := underway.traces
    dsimp only
    rw [if_pos (home.active underway)]
    refine home.finish_stint traces.safe continues _ visits log fun last finished =>
      .stopped underway.runs (.inr fun punctual => ?_) finished
    have within := punctual (by rw [alike start known, together])
    omega
  · dsimp only
    rw [closed.2]
    exact Except.yields_ok (.rest closed continues home log)

theorem merged_append (past : ∀ visit ∈ log, visit.tick < tick)
    (now : ∀ visit ∈ new, visit.tick = tick)
    (merged : log.Pairwise fun first second =>
      first.tick = second.tick → first.track ≤ second.track)
    (sorted : new.Pairwise fun first second => first.track ≤ second.track) :
    (log ++ new).Pairwise fun first second =>
      first.tick = second.tick → first.track ≤ second.track := by
  refine List.pairwise_append.mpr ⟨merged, sorted.imp ?_, ?_⟩
  · exact fun ordered _ => ordered
  · intro first earlier second later same
    have before := past first earlier
    have after := now second later
    omega

theorem playTogether_played (together : setting.tickSync = true)
    (alike : ∀ start ∈ starts, start.setting = setting)
    (ascending : starts.Pairwise fun first second => first.track.index < second.track.index)
    (within : tick ≤ Tick.last)
    (ensemble : Ensemble setting opening (Ready limits tick) starts log tracks shared)
    (past : ∀ visit ∈ log, visit.tick < tick)
    (inside : ∀ visit ∈ log, ∃ start ∈ starts, visit.track = start.track.index)
    (merged : log.Pairwise fun first second =>
      first.tick = second.tick → first.track ≤ second.track) :
    (playTogether format.logged setting limits idleTicks tick ⟨tracks, shared, ((), log)⟩).Yields
      (Played setting opening limits starts) := by
  induction left : Tick.last - tick using Nat.strongRecOn generalizing tick tracks shared log with
  | ind left ih =>
    rw [playTogether]
    refine (playTick_round together alike ascending within ensemble).bind ?_
    rintro ⟨tracks, shared, ⟨⟩, log'⟩ ⟨new, logged, ensemble, now, sorted, inside', _⟩
    cases logged
    have inside : ∀ visit ∈ log ++ new, ∃ start ∈ starts, visit.track = start.track.index :=
      List.forall_mem_append.mpr ⟨inside, inside'⟩
    have merged := merged_append past now merged sorted
    split
    · dsimp only
      generalize strides : max (idleTicks tick _) 1 = ticks
      have short : ∀ track ∈ tracks, track.active = true → track.cursor.delay ≠ 0 →
          ticks ≤ track.cursor.delay := by
        intro track member active waits
        rw [← strides]
        exact idleTicks_le member active waits
      split
      · rename_i further
        refine ih _ (by omega) further (ensemble.withVoices (pass_ready short ensemble.voices))
          (List.forall_mem_append.mpr ⟨fun visit member => ?_, fun visit member => ?_⟩)
          inside merged rfl
        · have before := past visit member
          omega
        · rw [now visit member]
          omega
      · rename_i beyond
        have late := waits_late (Nat.lt_of_not_le beyond) short ensemble.voices
        refine (finishAll_round together alike ascending (ensemble.withVoices late)).mono ?_
        rintro ⟨tracks, shared, ⟨⟩, log''⟩ ⟨silent, logged, ensemble, none, _, _, _⟩
        cases List.eq_nil_iff_forall_not_mem.mpr none
        cases logged.trans (List.append_nil _)
        rw [List.append_nil] at ensemble
        exact ⟨ensemble, merged, inside⟩
    · rename_i quiet
      refine Except.yields_ok ⟨ensemble.withVoices (ensemble.voices.mono ?_), merged, inside⟩
      rintro start _ track member visits solo (⟨underway, _, _⟩ | closed) home
      · refine absurd ?_ quiet
        exact List.any_eq_true.mpr ⟨track, member, home.active underway⟩
      · exact closed

/-- Every pass ends, and every track has played as it does on its own. -/
theorem play_played (alike : ∀ start ∈ starts, start.setting = setting)
    (ascending : starts.Pairwise fun first second => first.track.index < second.track.index)
    (ensemble : Ensemble setting opening (fun start visits solo track =>
      Underway limits start visits solo ∧ Format.InTime start 0 visits track) starts [] tracks
        shared) :
    (play format.logged setting limits ⟨tracks, shared, ((), [])⟩).Yields
      (Played setting opening limits starts) := by
  unfold play
  split
  · rename_i together
    refine playTogether_played together alike ascending (Nat.zero_le _) (ensemble.withVoices
      (ensemble.voices.mono fun _ _ _ _ _ _ held _ => .inl held)) ?_ ?_ .nil
    · exact fun _ member => absurd member List.not_mem_nil
    · exact fun _ member => absurd member List.not_mem_nil
  · rename_i alone
    exact playInTurn_played (Bool.eq_false_iff.mpr alone) alike ascending (ensemble.withVoices
      (ensemble.voices.mono fun _ _ _ _ _ _ held _ => held.1))

end Stage
end Sequencer
