import Sequencer.Proofs.Among.Rows
import Sequencer.Proofs.InTurn.Run
import Sequencer.Proofs.Schedule
import Sequencer.Proofs.Stable

/-! Tracks that keep time, beside the same tracks in turn. If none of them slides, each comes to the
same, and what they share differs only in the order in which tracks got to a tick. -/
namespace Sequencer

open Player

def Track.outcome (track : Track) : Track :=
  { track with cursor := { track.cursor with delay := 0 }, timedNotes := [], openNotes := [] }

theorem Player.Home.outcome {solo real : Player} (home : solo.Home real) :
    real.track.outcome = solo.track.outcome := by
  obtain ⟨delay, same⟩ := home.twins.track
  rw [same]
  rfl

def Shared.rowsOf (shared : Shared) (track : Nat) : List Row :=
  shared.rows.filter fun row => row.track? = some track

variable {limits : Limits} {start : Player} {starts : List Player} {log log' : List Visit}
  {shared shared' : Shared} {track track' : Track} {tracks tracks' : List Track}

/-- A player that may keep time or not. -/
structure Player.Steady (player : Player) : Prop where
  fresh : player.Fresh
  still : player.track.dials.Still

/-- A track comes to the same end in both ways. -/
theorem Voice.alike (steady : start.Steady) (bounded : limits.maxSteps ≤ 65536)
    (quiet : ∀ visit ∈ log, visit.isSlide start.setting.source = false)
    (voice : Voice (Closed limits start) start log shared track)
    (voice' : Voice (Closed limits start.inTurn) start.inTurn log' shared' track') :
    track'.outcome = track.outcome ∧
      visitsOf log' start.track.index = visitsOf log start.track.index ∧
      shared'.rowsOf start.track.index = shared.rowsOf start.track.index := by
  obtain ⟨solo, ⟨ends, _⟩, continues, home⟩ := voice
  obtain ⟨solo', ⟨ends', _⟩, _, home'⟩ := voice'
  have alone : Ends limits start.inTurn (visitsOf log start.track.index) solo.inTurn :=
    ends.inTurn steady.fresh bounded steady.still fun visit member =>
      quiet visit (List.mem_filter.mp member).1
  have fresh : start.inTurn.Fresh :=
    ⟨⟨steady.fresh.safe.timed, steady.fresh.safe.opened⟩, steady.fresh.steps, steady.fresh.guard,
      steady.fresh.time, steady.fresh.active⟩
  obtain ⟨visits, rfl⟩ := ends'.unique fresh (.inl (Nat.le_trans bounded (by decide))) rfl alone
  refine ⟨home'.outcome.trans home.outcome.symm, visits, ?_⟩
  have rows := home'.rows.symm.trans home.rows
  unfold Shared.rowsOf
  rw [← continues.index]
  exact rows

theorem Voices.alike (steady : ∀ start ∈ starts, start.Steady) (bounded : limits.maxSteps ≤ 65536)
    (quiet : ∀ start ∈ starts, ∀ visit ∈ log, visit.isSlide start.setting.source = false)
    (voices : Voices (Closed limits) log shared starts tracks)
    (voices' : Voices (Closed limits) log' shared' (starts.map inTurn) tracks') :
    tracks'.map Track.outcome = tracks.map Track.outcome ∧ ∀ start ∈ starts,
      visitsOf log' start.track.index = visitsOf log start.track.index ∧
      shared'.rowsOf start.track.index = shared.rowsOf start.track.index := by
  induction voices generalizing tracks' with
  | nil =>
    cases voices'
    exact ⟨rfl, fun _ member => absurd member List.not_mem_nil⟩
  | @cons start _ starts _ first rest ih =>
    cases voices' with
    | cons first' rest' =>
      obtain ⟨outcome, own⟩ := first.alike (steady start List.mem_cons_self) bounded
        (quiet start List.mem_cons_self) first'
      obtain ⟨outcomes, others⟩ := ih
        (fun start member => steady start (List.mem_cons_of_mem _ member))
        (fun start member => quiet start (List.mem_cons_of_mem _ member)) rest'
      refine ⟨by rw [List.map_cons, List.map_cons, outcome, outcomes], ?_⟩
      intro other member
      rcases List.mem_cons.mp member with rfl | member
      · exact own
      · exact others other member

theorem Shared.visit_of_row {source : Source}
    (journal : shared.tags = log.filterMap (Visit.tag? source)) {row : Row}
    (member : row ∈ shared.rows) : ∃ visit ∈ log, row.track? = some visit.track := by
  have tagged : (row.start, row.place) ∈ shared.tags := by
    rw [Shared.tags_eq_rows]
    exact List.mem_map.mpr ⟨row, member, rfl⟩
  rw [journal] at tagged
  obtain ⟨visit, there, tag⟩ := List.mem_filterMap.mp tagged
  refine ⟨visit, there, ?_⟩
  unfold Visit.tag? at tag
  split at tag
  · have place : row.place = some visit.place := (congrArg Prod.snd (Option.some.inj tag)).symm
    rw [Row.track?, place]
    rfl
  · cases tag

/-- Rows of one tick stand in the order of their tracks, like the visits that have made them. -/
theorem Shared.rows_ranked {source : Source}
    (journal : shared.tags = log.filterMap (Visit.tag? source))
    (merged : log.Pairwise fun first second =>
      first.tick = second.tick → first.track ≤ second.track) :
    shared.rows.Pairwise fun first second =>
      first.start = second.start → first.track?.getD 0 ≤ second.track?.getD 0 := by
  have ranked : shared.tags.Pairwise fun first second =>
      first.1 = second.1 →
        (first.2.map Place.track).getD 0 ≤ (second.2.map Place.track).getD 0 := by
    rw [journal]
    refine merged.filterMap _ fun first second ordered tag here tag' there same => ?_
    unfold Visit.tag? at here there
    split at here
    · split at there
      · cases here
        cases there
        exact ordered same
      · cases there
    · cases here
  rw [Shared.tags_eq_rows] at ranked
  exact List.pairwise_map.mp ranked

/-- Two stages have come to the same, whatever the order of their tracks was. -/
structure Stage.Alike (first second : Stage (Unit × List Visit)) : Prop where
  tracks : second.tracks.map Track.outcome = first.tracks.map Track.outcome
  visits : ∀ tick, (second.memory.2.filter fun visit => visit.tick = tick) =
    first.memory.2.filter fun visit => visit.tick = tick
  rows : (second.shared.rows.mergeSort fun a b => a.start ≤ b.start) =
    first.shared.rows.mergeSort fun a b => a.start ≤ b.start

theorem Stage.Played.visitsOf_nil {setting : Setting} {opening : Shared}
    {stage : Stage (Unit × List Visit)} (played : stage.Played setting opening limits starts)
    {other : Nat} (apart : ∀ start ∈ starts, start.track.index ≠ other) :
    visitsOf stage.memory.2 other = [] := by
  refine visitsOf_other fun visit member same => ?_
  obtain ⟨start, known, index⟩ := played.inside visit member
  exact apart start known (index.symm.trans same)

theorem Stage.Played.rowsOf_nil {setting : Setting} {opening : Shared}
    {stage : Stage (Unit × List Visit)} (played : stage.Played setting opening limits starts)
    {other : Nat} (apart : ∀ start ∈ starts, start.track.index ≠ other) :
    stage.shared.rowsOf other = [] := by
  refine List.filter_eq_nil_iff.mpr fun row member same => ?_
  obtain ⟨visit, there, known⟩ := Shared.visit_of_row played.ensemble.journal member
  obtain ⟨start, known', index⟩ := played.inside visit there
  rw [of_decide_eq_true same] at known
  exact apart start known' (index.symm.trans (Option.some.inj known).symm)

theorem Stage.Played.filter_rank {setting : Setting} {opening : Shared}
    {stage : Stage (Unit × List Visit)} (played : stage.Played setting opening limits starts)
    (rank : Nat) : (stage.shared.rows.filter fun row => row.track?.getD 0 = rank) =
      stage.shared.rowsOf rank := by
  refine List.filter_congr fun row member => ?_
  obtain ⟨visit, _, known⟩ := Shared.visit_of_row played.ensemble.journal member
  simp [known]

theorem Stage.Played.alike {setting setting' : Setting} {opening opening' : Shared}
    {stage stage' : Stage (Unit × List Visit)} (bounded : limits.maxSteps ≤ 65536)
    (steady : ∀ start ∈ starts, start.Steady)
    (quiet : ∀ start ∈ starts, ∀ visit ∈ stage.memory.2,
      visit.isSlide start.setting.source = false)
    (played : stage.Played setting opening limits starts)
    (played' : stage'.Played setting' opening' limits (starts.map inTurn)) :
    stage.Alike stage' := by
  obtain ⟨outcomes, own⟩ :=
    played.ensemble.voices.alike steady bounded quiet played'.ensemble.voices
  have absent {other : Nat} (apart : ∀ start ∈ starts, start.track.index ≠ other) :
      ∀ start ∈ starts.map inTurn, start.track.index ≠ other := by
    intro start member
    obtain ⟨earlier, known, rfl⟩ := List.mem_map.mp member
    exact apart earlier known
  have parts (other : Nat) : visitsOf stage'.memory.2 other = visitsOf stage.memory.2 other ∧
      stage'.shared.rowsOf other = stage.shared.rowsOf other := by
    by_cases known : ∃ start ∈ starts, start.track.index = other
    · obtain ⟨start, member, rfl⟩ := known
      exact own start member
    · have apart : ∀ start ∈ starts, start.track.index ≠ other :=
        fun start member same => known ⟨start, member, same⟩
      rw [played.visitsOf_nil apart, played'.visitsOf_nil (absent apart), played.rowsOf_nil apart,
        played'.rowsOf_nil (absent apart)]
      exact ⟨rfl, rfl⟩
  refine ⟨outcomes, fun tick => ?_, List.mergeSort_eq_of_filters fun tick => ?_⟩
  · exact List.filter_eq_of_ranks played'.merged played.merged (fun other => (parts other).1) tick
  · refine List.filter_eq_of_ranks
      (Shared.rows_ranked played'.ensemble.journal played'.merged)
      (Shared.rows_ranked played.ensemble.journal played.merged) (fun rank => ?_) tick
    rw [played'.filter_rank, played.filter_rank, (parts rank).2]

theorem MidiTrack.finalize_congr {first second : MidiTrack}
    (unended : ∀ event ∈ first.events.toList, MidiTrack.isEnd event = false)
    (unended' : ∀ event ∈ second.events.toList, MidiTrack.isEnd event = false)
    (parts : ∀ tick, (first.events.toList.filter fun event => event.tick = tick) =
      second.events.toList.filter fun event => event.tick = tick) :
    first.finalize = second.finalize := by
  have none {midi : MidiTrack} (ends : ∀ event ∈ midi.events.toList, isEnd event = false) :
      midi.events.toList.find? isEnd = none ∧
        (midi.events.toList.filter fun event => !isEnd event) = midi.events.toList := by
    refine ⟨List.find?_eq_none.mpr fun event member => ?_, List.filter_eq_self.mpr
      fun event member => ?_⟩
    · simp [ends event member]
    · simp [ends event member]
  have sorted := List.mergeSort_eq_of_filters parts
  unfold finalize
  rw [(none unended).1, (none unended').1, (none unended).2, (none unended').2, sorted]

/-- The messages that visits write for the conductor are in the order of their ticks as the
visits are. -/
theorem filter_conducted (setting : Setting) (tick : Nat) (visits : List Visit) :
    ((visits.filterMap (Visit.conducted? setting)).filter fun event => event.tick = tick) =
      (visits.filter fun visit => visit.tick = tick).filterMap (Visit.conducted? setting) := by
  induction visits with
  | nil => rfl
  | cons visit rest ih =>
    have same : ∀ event ∈ visit.conducted? setting, event.tick = visit.tick := by
      intro event written
      unfold Visit.conducted? at written
      split at written
      · obtain ⟨message, _, rfl⟩ := Option.map_eq_some_iff.mp written
        rfl
      · cases written
    rw [List.filterMap_cons, List.filter_cons]
    cases written : visit.conducted? setting with
    | none =>
      dsimp only
      rw [ih]
      split
      · rw [List.filterMap_cons, written]
      · rfl
    | some event =>
      dsimp only
      rw [List.filter_cons, ih, same event written]
      split
      · rw [List.filterMap_cons, written]
      · rfl

end Sequencer
