import Mathlib.Data.List.Forall2
import Sequencer.Proofs.Charts
import Sequencer.Proofs.Player.Alike

/-! Two passes in lockstep. Their tracks are alike, and so is what they share, but their stores have
held other events from the beginning. Track by track and tick by tick the two do the same, and each
adds to its store what its visits record. -/
namespace Sequencer

open RefSeq (format octaveOf)

namespace Player

variable {player next : Player} {more : Bool}

theorem steered_source (player : Player) (stance : Stance) :
    (player.steered stance).source = stance.source := by
  unfold steered
  split
  · rfl
  · rename_i instruction stop _
    cases instruction.kind? player.track with
    | none => rfl
    | some kind =>
      change ((player.noted stop kind).steer stance kind).source = _
      unfold steer
      split <;> (try split) <;> rfl

theorem advance_source (advanced : player.advance = .ok (more, next)) :
    next.setting.source = player.setting.source :=
  (congrArg Stance.source (advance_stance advanced)).trans (player.steered_source _)

theorem finish_source (finished : player.finish = .ok next) :
    next.setting.source = player.setting.source :=
  congrArg Stance.source (finish_stance finished)

theorem moveDials_source (player : Player) (tick : Nat) :
    (player.moveDials tick).setting.source = player.setting.source :=
  congrArg Stance.source (moveDials_stance player tick)

theorem entered_arena (player : Player) :
    player.entered.arena = player.shared.arena.storeAny player.recording? := by
  unfold entered Arena.storeAny
  cases player.recording? <;> rfl

end Player

variable {source : Source} {openings : Arena × Arena} {log : List Visit} {setting : Setting}
  {limits : Limits} {index tick : Nat}

/-- Two tracks that have decoded the same, of which the log tells. -/
structure Track.InStep (source : Source) (log : List Visit) (track other : Track) : Prop where
  alike : other.nameless = track.nameless
  index : other.index = track.index
  octave : track.octave = octaveOf source ((visitsOf log track.index).map Visit.offset)

/-- What the tracks of two stages share, each with a store that was one of the two `openings`. -/
structure Shared.InStep (source : Source) (openings : Arena × Arena) (log : List Visit)
    (shared other : Shared) : Prop where
  alike : other.nameless = shared.nameless
  mine : openings.1.Records source log shared.arena
  theirs : openings.2.Records source log other.arena

theorem Track.InStep.midi {track other : Track} (inStep : track.InStep source log other) :
    other.midi = track.midi := by
  have same := congrArg Track.midi inStep.alike
  exact same

theorem Track.InStep.total {track other : Track} (inStep : track.InStep source log other) :
    other.totalTicks = track.totalTicks := by
  have same := congrArg Track.totalTicks inStep.alike
  exact same

theorem Shared.InStep.conductor {shared other : Shared}
    (inStep : shared.InStep source openings log other) : other.conductor = shared.conductor := by
  have same := congrArg Shared.conductor inStep.alike
  exact same

/-- Two performers of one track in the midst of a stint that began when the log was `log`. -/
structure Performer.InStep (source : Source) (openings : Arena × Arena) (log : List Visit)
    (index : Nat) (performer other : LoggedPerformer) : Prop where
  memory : other.memory = performer.memory
  logged : ∃ new, performer.memory.2 = log ++ new ∧ ∀ visit ∈ new, visit.track = index
  settings : other.player.setting = performer.player.setting
  reads : performer.player.setting.source = source
  own : performer.player.track.index = index
  tracks : performer.player.track.InStep source performer.memory.2 other.player.track
  shared : performer.player.shared.InStep source openings performer.memory.2 other.player.shared

namespace Performer.InStep

variable {performer other next next' : LoggedPerformer}

theorem alike (inStep : performer.InStep source openings log index other) :
    performer.player.Alike other.player := by
  unfold Player.Alike Player.nameless
  rw [inStep.settings, inStep.tracks.alike, inStep.shared.alike]

/-- Nothing is decoded, and no event is stored. -/
theorem still (inStep : performer.InStep source openings log index other)
    {player player' : Player} (alike : player.Alike player')
    (reads : player.setting.source = performer.player.setting.source)
    (guise : performer.player.SameGuise player) (guise' : other.player.SameGuise player') :
    Performer.InStep source openings log index ⟨player, performer.memory⟩
      ⟨player', other.memory⟩ := by
  refine ⟨inStep.memory, inStep.logged, alike.setting, reads.trans inStep.reads,
    guise.index.trans inStep.own, ⟨alike.track, ?_, ?_⟩, ⟨alike.shared, ?_, ?_⟩⟩
  · rw [guise.index, guise'.index, inStep.tracks.index]
  · rw [guise.octave, guise.index]
    exact inStep.tracks.octave
  · rw [guise.arena]
    exact inStep.shared.mine
  · rw [guise'.arena]
    exact inStep.shared.theirs

theorem finish (inStep : performer.InStep source openings log index other) :
    performer.finish.Follows (Performer.InStep source openings log index) other.finish := by
  intro next done
  obtain ⟨player, finished, done⟩ := Except.bind_eq_ok.mp done
  cases done
  obtain ⟨player', finished', alike⟩ := inStep.alike.finish player finished
  refine ⟨⟨player', other.memory⟩, ?_, inStep.still alike (Player.finish_source finished)
    (Player.finish_guise finished) (Player.finish_guise finished')⟩
  rw [Performer.finish, finished']
  rfl

theorem step (inStep : performer.InStep source openings log index other) :
    (format.logged.step performer).Follows (fun outcome outcome' => outcome'.1 = outcome.1 ∧
      outcome.2.InStep source openings log index outcome'.2) (format.logged.step other) := by
  have alike := inStep.alike
  obtain ⟨player, ⟨⟩, known⟩ := performer
  obtain ⟨player', ⟨⟩, known'⟩ := other
  obtain ⟨memory, ⟨new, logged, owned⟩, settings, reads, own, tracks, shared⟩ := inStep
  cases memory
  subst reads
  have visit : player'.track.visit = player.track.visit := by
    unfold Track.visit
    rw [tracks.index, alike.cursor, alike.time]
  rw [RefSeq.logged_step, RefSeq.logged_step, visit]
  intro outcome done
  obtain ⟨⟨more, next⟩, advanced, rfl⟩ := Except.map_eq_ok.mp done
  obtain ⟨⟨_, next'⟩, advanced', rfl, alike'⟩ := alike.advance _ advanced
  refine ⟨_, Except.map_eq_ok.mpr ⟨_, advanced', rfl⟩, rfl, ?_⟩
  have guise := Player.advance_guise advanced
  have guise' := Player.advance_guise advanced'
  have octave := tracks.octave
  have octave' := alike.octave
  have records (player : Player) : player.entered.arena = player.shared.arena.storeAny
      (RefSeq.eventAt? player.setting.source player.track.visit.place player.track.octave) := by
    rw [Player.entered_arena, Player.recording_eq]
  have mine := shared.mine.visit player.track.visit
  have theirs := shared.theirs.visit player.track.visit
  dsimp only at tracks own octave octave' mine theirs ⊢
  rw [show player.track.visit.track = player.track.index from rfl, ← octave] at mine theirs
  refine ⟨rfl, ⟨new ++ [player.track.visit], ?_, ?_⟩, alike'.setting, Player.advance_source advanced,
    guise.index.trans own, ⟨alike'.track, ?_, ?_⟩, ⟨alike'.shared, ?_, ?_⟩⟩
  · rw [← List.append_assoc, ← logged]
  · intro visit member
    rcases List.mem_append.mp member with member | member
    · exact owned visit member
    · cases List.mem_singleton.mp member
      exact own
  · rw [guise.index, guise'.index, tracks.index]
  · have last : visitsOf [player.track.visit] player.track.index = [player.track.visit] :=
      visitsOf_own (by simp [Track.visit])
    rw [guise.octave, guise.index, octave, visitsOf_append, last, List.map_append]
    exact (RefSeq.octaveOf_append ..).symm
  · rw [guise.arena, records]
    exact mine
  · rw [guise'.arena, records, settings, visit, octave']
    exact theirs

/-- Performers in step do the same in all that their tracks do. -/
theorem relates (source : Source) (openings : Arena × Arena) (log : List Visit) (index : Nat) :
    format.logged.Relates format.logged (Performer.InStep source openings log index) where
  isDue := fun inStep => inStep.alike.reads_track Track.isDue fun _ => rfl
  timeIsUp := fun stopTime inStep =>
    inStep.alike.reads_track (Track.timeIsUp · stopTime) fun _ => rfl
  step := step
  finish := finish

theorem hastens (inStep : performer.InStep source openings log index other) :
    performer.hastened.InStep source openings log index other.hastened :=
  inStep.still (inStep.alike.register (fun track => { track with
    cursor := { track.cursor with delay := 0 } }) fun _ => rfl) rfl ⟨rfl, rfl, rfl⟩ ⟨rfl, rfl, rfl⟩

theorem moveDials (inStep : performer.InStep source openings log index other) (tick : Nat) :
    Performer.InStep source openings log index
      ⟨performer.player.moveDials tick, performer.memory⟩
      ⟨other.player.moveDials tick, other.memory⟩ :=
  inStep.still (inStep.alike.moveDials tick) (performer.player.moveDials_source tick)
    (performer.player.moveDials_guise tick) (other.player.moveDials_guise tick)

end Performer.InStep

theorem Track.InStep.keep {track other : Track} {new : List Visit}
    (inStep : track.InStep source log other) (others : ∀ visit ∈ new, visit.track ≠ track.index) :
    track.InStep source (log ++ new) other := by
  refine ⟨inStep.alike, inStep.index, ?_⟩
  rw [visitsOf_append, visitsOf_other others, List.append_nil]
  exact inStep.octave

theorem Track.InStep.act {track other : Track} (inStep : track.InStep source log other)
    (act : Track → Track) (blind : ∀ track, (act track).nameless = act track.nameless)
    (index : ∀ track, (act track).index = track.index)
    (octave : ∀ track, (act track).octave = track.octave) :
    (act track).InStep source log (act other) where
  alike := by rw [blind, blind, inStep.alike]
  index := by rw [index, index, inStep.index]
  octave := by
    rw [octave, index]
    exact inStep.octave

namespace Stage

/-- Two stages of which all tracks, and what they share, are in step. -/
structure InStep (source : Source) (openings : Arena × Arena)
    (stage other : Stage (Unit × List Visit)) : Prop where
  memory : other.memory = stage.memory
  ascending : (stage.tracks.map Track.index).Pairwise (· < ·)
  tracks : List.Forall₂ (Track.InStep source stage.memory.2) stage.tracks other.tracks
  shared : stage.shared.InStep source openings stage.memory.2 other.shared

/-- What tracks in turn have come to that are in step. -/
structure RoundInStep (source : Source) (openings : Arena × Arena) (log : List Visit)
    (indices : List Nat) (stage other : Stage (Unit × List Visit)) : Prop extends
    stage.InStep source openings other where
  logged : ∃ new, stage.memory.2 = log ++ new ∧ ∀ visit ∈ new, visit.track ∈ indices
  indices : stage.tracks.map Track.index = indices

theorem eachTrack_inStep {play : LoggedPerformer → Except Fault LoggedPerformer}
    (each : ∀ {performer other : LoggedPerformer} {log : List Visit} {index : Nat},
      performer.InStep source openings log index other →
      (play performer).Follows (Performer.InStep source openings log index) (play other))
    (reads : setting.source = source) {tracks others : List Track} {shared shared' : Shared}
    (ascending : (tracks.map Track.index).Pairwise (· < ·))
    (inStep : List.Forall₂ (Track.InStep source log) tracks others)
    (shares : shared.InStep source openings log shared') :
    (eachTrack play setting tracks shared ((), log)).Follows
      (RoundInStep source openings log (tracks.map Track.index))
      (eachTrack play setting others shared' ((), log)) := by
  induction tracks generalizing others log shared shared' with
  | nil =>
    cases inStep
    exact Except.follows_ok ⟨⟨rfl, .nil, .nil, shares⟩, ⟨[], by simp, by simp⟩, rfl⟩
  | cons track rest ih =>
    cases inStep with
    | @cons _ other _ others first inStep =>
    have ordered := List.pairwise_cons.mp ascending
    have begun : Performer.InStep source openings log track.index
        ⟨⟨setting, track, shared⟩, ((), log)⟩ ⟨⟨setting, other, shared'⟩, ((), log)⟩ :=
      ⟨rfl, ⟨[], by simp, by simp⟩, rfl, reads, rfl, first, shares⟩
    refine (each begun).bind ?_
    rintro ⟨⟨_, track', shared⟩, ⟨⟩, known⟩ ⟨⟨_, other', shared'⟩, _⟩
      ⟨memory, ⟨new, logged, owned⟩, _, _, own, played, shares⟩
    cases memory
    cases logged
    have own : track'.index = track.index := own
    have kept : List.Forall₂ (Track.InStep source (log ++ new)) rest others := by
      have apart : ∀ later ∈ rest, ∀ visit ∈ new, visit.track ≠ later.index := by
        intro later member visit visited
        rw [owned visit visited]
        exact Nat.ne_of_lt (ordered.1 _ (List.mem_map_of_mem member))
      exact ((List.forall₂_and_left _ _).mpr ⟨apart, inStep⟩).imp fun _ _ related =>
        related.2.keep related.1
    refine (ih ordered.2 kept shares).bind ?_
    rintro ⟨tracks, shared, ⟨⟩, known⟩ ⟨tracks', shared', _⟩
      ⟨⟨memory, _, inStep, shares⟩, ⟨later, logged, inside⟩, indices⟩
    cases memory
    cases logged
    have indices : (track' :: tracks).map Track.index = (track :: rest).map Track.index :=
      congrArg₂ List.cons own indices
    refine Except.follows_ok ⟨⟨rfl, indices ▸ ascending, .cons (played.keep ?_) inStep, shares⟩,
      ⟨new ++ later, List.append_assoc .., ?_⟩, indices⟩
    · intro visit member
      rw [own]
      exact Nat.ne_of_gt (ordered.1 _ (inside visit member))
    · intro visit member
      rcases List.mem_append.mp member with member | member
      · exact List.mem_cons.mpr (.inl (owned visit member))
      · exact List.mem_cons_of_mem _ (inside visit member)

variable {stage other : Stage (Unit × List Visit)}

theorem InStep.forTracks (play : LoggedPerformer → Except Fault LoggedPerformer)
    (each : ∀ {performer other : LoggedPerformer} {log : List Visit} {index : Nat},
      performer.InStep source openings log index other →
      (play performer).Follows (Performer.InStep source openings log index) (play other))
    (reads : setting.source = source) (inStep : stage.InStep source openings other) :
    (stage.forTracks setting play).Follows (InStep source openings)
      (other.forTracks setting play) := by
  obtain ⟨tracks, shared, ⟨⟩, log⟩ := stage
  obtain ⟨tracks', shared', _⟩ := other
  obtain ⟨memory, ascending, inStep, shares⟩ := inStep
  cases memory
  exact (eachTrack_inStep each reads ascending inStep shares).mono fun _ _ round => round.toInStep

theorem InStep.playInTurn (reads : setting.source = source)
    (inStep : stage.InStep source openings other) :
    (stage.playInTurn format.logged setting limits).Follows (InStep source openings)
      (other.playInTurn format.logged setting limits) := by
  refine inStep.forTracks _ ?_ reads
  intro performer other log index inStep
  rw [inStep.alike.steps]
  exact (Performer.InStep.relates source openings log index).playThrough
    Performer.InStep.hastens _ _ inStep

theorem InStep.finishAll (reads : setting.source = source)
    (inStep : stage.InStep source openings other) :
    (stage.finishAll setting).Follows (InStep source openings) (other.finishAll setting) := by
  refine inStep.forTracks _ ?_ reads
  intro performer other log index inStep
  rw [inStep.alike.active]
  split
  · exact inStep.finish
  · exact Except.follows_ok inStep

theorem moveMaster_nameless (writing : Bool) (tick : Nat) (shared : Shared) :
    (moveMaster writing tick shared).nameless = moveMaster writing tick shared.nameless := by
  unfold moveMaster
  rw [show shared.nameless.masterRamp = shared.masterRamp from rfl]
  split
  · rfl
  · split <;> split <;> (try split) <;> rfl

theorem InStep.playTick (reads : setting.source = source)
    (inStep : stage.InStep source openings other) :
    (stage.playTick format.logged setting limits tick).Follows (InStep source openings)
      (other.playTick format.logged setting limits tick) := by
  unfold Stage.playTick
  refine (inStep.forTracks _ ?_ reads).bind ?_
  · intro performer other log index inStep
    rw [inStep.alike.steps]
    exact (Performer.InStep.relates source openings log index).playDue _ _ inStep
  · intro stage other inStep
    refine (inStep.forTracks _ ?_ reads).bind ?_
    · intro performer other log index inStep
      dsimp only
      rw [inStep.alike.active]
      split
      · exact Except.follows_ok (inStep.moveDials tick)
      · exact Except.follows_ok inStep
    · intro stage other inStep
      refine Except.follows_ok ⟨inStep.memory, inStep.ascending, inStep.tracks, ?_, ?_, ?_⟩
      · dsimp only
        rw [moveMaster_nameless, moveMaster_nameless, inStep.shared.alike]
      · dsimp only
        rw [(moveMaster_shared ..).1]
        exact inStep.shared.mine
      · dsimp only
        rw [(moveMaster_shared ..).1]
        exact inStep.shared.theirs

/-- What is read of the tracks is the same if nothing that tells two of them apart is read. -/
theorem InStep.map_eq {α : Type} (inStep : stage.InStep source openings other) (read : Track → α)
    (same : ∀ track other : Track, track.InStep source stage.memory.2 other →
      read other = read track) : other.tracks.map read = stage.tracks.map read := by
  have equal : List.Forall₂ (· = ·) (stage.tracks.map read) (other.tracks.map read) :=
    List.forall₂_map_left_iff.mpr (List.forall₂_map_right_iff.mpr
      (inStep.tracks.imp fun track other inStep => (same track other inStep).symm))
  rw [List.forall₂_eq_eq_eq] at equal
  exact equal.symm

/-- The stage without the names of its tracks and events. -/
def nameless (stage : Stage (Unit × List Visit)) : Stage (Unit × List Visit) :=
  ⟨stage.tracks.map Track.nameless, stage.shared.nameless, stage.memory⟩

theorem InStep.alike (inStep : stage.InStep source openings other) :
    other.nameless = stage.nameless := by
  unfold nameless
  rw [inStep.map_eq Track.nameless fun _ _ inStep => inStep.alike, inStep.shared.alike,
    inStep.memory]

theorem isActive_nameless (stage : Stage (Unit × List Visit)) :
    stage.nameless.isActive = stage.isActive := by
  unfold isActive nameless
  rw [List.any_map]
  rfl

theorem idleTicks_nameless (tick : Nat) (stage : Stage (Unit × List Visit)) :
    idleTicks tick stage.nameless = idleTicks tick stage := by
  unfold idleTicks nextRamp nameless
  dsimp only
  rw [List.filterMap_map, List.filterMap_map]
  rfl

theorem pass_index (ticks : Nat) (stage : Stage (Unit × List Visit)) :
    (stage.pass ticks).tracks.map Track.index = stage.tracks.map Track.index := by
  unfold Stage.pass
  rw [List.map_map]
  refine List.map_congr_left fun track _ => ?_
  simp only [Function.comp]
  split <;> rfl

theorem InStep.pass (inStep : stage.InStep source openings other) (ticks : Nat) :
    (stage.pass ticks).InStep source openings (other.pass ticks) := by
  refine ⟨inStep.memory, (pass_index ticks stage).symm ▸ inStep.ascending, ?_, inStep.shared⟩
  refine List.forall₂_map_left_iff.mpr (List.forall₂_map_right_iff.mpr ?_)
  refine inStep.tracks.imp fun track other inStep => ?_
  refine inStep.act (fun track => if track.active then
    { track with cursor := { track.cursor with delay := track.cursor.delay - ticks } }
    else track) ?_ ?_ ?_
  · intro track
    dsimp only
    rw [show track.nameless.active = track.active from rfl]
    split <;> rfl
  · intro track
    dsimp only
    split <;> rfl
  · intro track
    dsimp only
    split <;> rfl

theorem InStep.playTogether (reads : setting.source = source) (tick : Nat)
    (inStep : stage.InStep source openings other) :
    (stage.playTogether format.logged setting limits idleTicks tick).Follows
      (InStep source openings)
      (other.playTogether format.logged setting limits idleTicks tick) := by
  induction left : Tick.last - tick using Nat.strongRecOn generalizing tick stage other with
  | ind left ih =>
    unfold Stage.playTogether
    refine (inStep.playTick reads).bind fun stage other inStep => ?_
    rw [← isActive_nameless other, ← idleTicks_nameless tick other, inStep.alike,
      isActive_nameless, idleTicks_nameless]
    split
    · dsimp only
      split
      · exact ih _ (by omega) _ (inStep.pass _) rfl
      · exact inStep.finishAll reads
    · exact Except.follows_ok inStep

/-- Two plays keep in step to their end. -/
theorem InStep.play (reads : setting.source = source)
    (inStep : stage.InStep source openings other) :
    (stage.play format.logged setting limits).Follows (InStep source openings)
      (other.play format.logged setting limits) := by
  unfold Stage.play
  split
  · exact inStep.playTogether reads 0
  · exact inStep.playInTurn reads

end Stage
end Sequencer
