import Sequencer.Proofs.Lines
import Sequencer.Proofs.Lockstep

/-! What a sequence has been through. Its store remembers the events of all earlier passes, but which
passes those were makes no difference to any event. A pass does after one history what it does after
any other. -/
namespace Sequencer

/-- The track without what was measured of it. -/
def Track.unmeasured (track : Track) : Track :=
  { track with measuredTrips := 0, measuredTicks := 0 }

theorem Track.InStep.unmeasured {source : Source} {log : List Visit} {track other : Track}
    (inStep : track.InStep source log other) : other.unmeasured = track.unmeasured :=
  calc other.unmeasured = { other.nameless with index := other.index } := rfl
    _ = { track.nameless with index := track.index } := by rw [inStep.alike, inStep.index]
    _ = track.unmeasured := rfl

theorem Track.unmeasured_conclude (pass : Pass) {track other : Track}
    (same : other.unmeasured = track.unmeasured) :
    (other.conclude pass).unmeasured = (track.conclude pass).unmeasured := by
  cases pass with
  | listing | length => exact same
  | midi => exact congrArg (fun track : Track => { track with midi := {} }) same

namespace Sequence

/-- What is left of an opened sequence after any passes: its header, how its tracks begin, and a
store in which each event is that of its track's first visit. -/
structure Descends (source : Source) (sequence opened : Sequence Unit) : Prop extends
    Intact source sequence where
  header : sequence.header = opened.header
  origins : sequence.tracks.map origin = opened.tracks.map origin
  charted : sequence.arena.Charted source opened.tracks

variable {source : Source} {opened sequence first second : Sequence Unit} {pass : Pass}
  {stopTime : Nat} {stage stage' : Stage (Unit × List Visit)} {transposes : Transposes}

theorem Descends.indices (descends : sequence.Descends source opened) :
    sequence.tracks.map Track.index = opened.tracks.map Track.index := by
  have firsts := congrArg (List.map Prod.fst) descends.origins
  rw [List.map_map, List.map_map] at firsts
  exact firsts

theorem Descends.ascends (descends : sequence.Descends source opened) :
    opened.tracks.Pairwise fun first second => first.index < second.index := by
  have indices := List.pairwise_map.mpr descends.ascending
  rw [descends.indices] at indices
  exact List.pairwise_map.mp indices

theorem openTrack_nameless (header : Header) (writes : Bool) {track other : Track}
    (offset : other.startOffset = track.startOffset)
    (channel : other.startChannel = track.startChannel) :
    (openTrack header writes other).nameless = (openTrack header writes track).nameless := by
  simp [openTrack, Track.reset, Track.nameless, Track.withGuise, offset, channel]

theorem openTrack_inStep (header : Header) (writes : Bool) {track other : Track}
    (same : origin other = origin track) :
    (openTrack header writes track).InStep source [] (openTrack header writes other) := by
  simp only [origin, Prod.mk.injEq] at same
  obtain ⟨index, offset, channel⟩ := same
  exact ⟨openTrack_nameless header writes offset channel, index, rfl⟩

theorem openStage_nameless (header : second.header = first.header)
    (options : second.options = first.options) (pass : Pass) :
    (second.openStage pass).shared.nameless = (first.openStage pass).shared.nameless := by
  unfold openStage
  rw [header, options]
  split <;> rfl

theorem Descends.mem_opened (descends : sequence.Descends source opened) {track : Track}
    (member : track ∈ sequence.tracks) : ∃ before ∈ opened.tracks, origin before = origin track := by
  have known := List.mem_map_of_mem (f := origin) member
  rw [descends.origins] at known
  exact List.mem_map.mp known

/-- The visits of a pass are those of the free runs of the tracks. -/
theorem Descends.follows (descends : sequence.Descends source opened)
    (passes : sequence.Passes pass stopTime stage transposes) :
    Arena.Follows source opened.tracks stage.memory.2 where
  inside := fun visit member => by
    obtain ⟨start, began, owner⟩ := passes.played.inside visit member
    obtain ⟨track, there, same⟩ := origin_of_mem_starts began
    obtain ⟨before, known, same'⟩ := descends.mem_opened there
    exact ⟨before, known, by rw [owner]; exact congrArg Prod.fst (same'.trans same.symm)⟩
  leads := fun track member => by
    have known := List.mem_map_of_mem (f := origin) member
    rw [← descends.origins, ← passes.origins descends.toIntact] at known
    obtain ⟨ended, there, same⟩ := List.mem_map.mp known
    obtain ⟨i, found⟩ := List.getElem?_of_mem there
    obtain ⟨before, start, solo, _, ending⟩ := passes.ended descends.toIntact found
    have follows := ending.follows.decoded
    simp only [origin, Prod.mk.injEq] at same
    rw [descends.reads] at follows
    rw [← same.1, Track.opening, ← same.2.1]
    exact ⟨sequence.options.maxDepth, Position.leads_of_freeRun follows⟩

theorem Descends.conclude (descends : sequence.Descends source opened)
    (passes : sequence.Passes pass stopTime stage transposes)
    (charted : stage.shared.arena.Charted source opened.tracks) :
    (sequence.conclude pass stage.unlogged transposes).Descends source opened where
  toIntact := passes.intact descends.toIntact
  header := (conclude_fixed ..).2.2.2.trans descends.header
  origins := (passes.conclude_origins descends.toIntact).trans descends.origins
  charted := by
    rw [conclude_arena]
    exact charted

theorem descends_fresh (source : Source) (header : Header) (pointers : List TrackPointer) :
    (fresh RefSeq.format () source header pointers).Descends source
      (fresh RefSeq.format () source header pointers) :=
  ⟨intact_fresh source header pointers, rfl, rfl, Arena.charted_empty source _⟩

theorem descends_ofSource (accepted : ofSource RefSeq.format () source = .ok opened) :
    opened.Descends source opened := by
  obtain ⟨header, pointers, _, _, rfl⟩ := fresh_of_accepted accepted
  exact descends_fresh source header pointers

theorem Descends.withOptions (descends : sequence.Descends source opened) (options : Options)
    (bounded : options.maxSteps ≤ Tick.last) :
    (sequence.withOptions options).Descends source opened :=
  ⟨⟨⟨descends.format, descends.reads, descends.ascending, descends.sound, descends.faithful⟩,
    bounded⟩, descends.header, descends.origins, descends.charted⟩

/-- Sequences that were opened alike and have the same options. -/
structure Siblings (source : Source) (opened first second : Sequence Unit) : Prop where
  mine : first.Descends source opened
  theirs : second.Descends source opened
  options : second.options = first.options

theorem Siblings.header (siblings : Siblings source opened first second) :
    second.header = first.header := siblings.theirs.header.trans siblings.mine.header.symm

/-- Nothing tells two stages apart that are opened for the same pass. -/
theorem Siblings.openStage (siblings : Siblings source opened first second) (pass : Pass) :
    ((first.openStage pass).logged []).InStep source (first.arena, second.arena)
      ((second.openStage pass).logged []) := by
  have origins : second.tracks.map origin = first.tracks.map origin :=
    siblings.theirs.origins.trans siblings.mine.origins.symm
  refine ⟨rfl, ?_, ?_, openStage_nameless siblings.header siblings.options pass, ?_, ?_⟩
  · change ((first.openStage pass).tracks.map Track.index).Pairwise (· < ·)
    rw [openStage_openTrack, List.map_map]
    exact List.pairwise_map.mpr siblings.mine.ascending
  · change List.Forall₂ _ (first.openStage pass).tracks (second.openStage pass).tracks
    rw [openStage_openTrack, openStage_openTrack, siblings.header, siblings.options]
    refine List.forall₂_map_left_iff.mpr (List.forall₂_map_right_iff.mpr ?_)
    have equal := List.forall₂_eq_eq_eq ▸ origins.symm
    have pairs := List.forall₂_map_right_iff.mp (List.forall₂_map_left_iff.mp equal)
    exact pairs.imp fun track other same => openTrack_inStep _ _ same.symm
  · rw [show first.arena = (first.openStage pass).shared.arena from
      (openStage_shared first pass).1.symm]
    exact .opening
  · rw [show second.arena = (second.openStage pass).shared.arena from
      (openStage_shared second pass).1.symm]
    exact .opening

/-- One pass over two sequences that has come to the same in both. -/
structure PassesAlike (source : Source) (opened first second : Sequence Unit) (pass : Pass)
    (stopTime : Nat) (stage stage' : Stage (Unit × List Visit)) (transposes : Transposes) :
    Prop where
  done : ((first.openStage pass).logged []).play RefSeq.format.logged (first.setting pass)
    (first.limits stopTime) = .ok stage
  mine : first.Passes pass stopTime stage transposes
  theirs : second.Passes pass stopTime stage' transposes
  inStep : stage.InStep source (first.arena, second.arena) stage'
  lines : stage'.shared.lines = stage.shared.lines
  charted : stage.shared.arena.Charted source opened.tracks
  charted' : stage'.shared.arena.Charted source opened.tracks

/-- Siblings play a pass alike. -/
theorem Siblings.passes (siblings : Siblings source opened first second) (pass : Pass)
    (stopTime : Nat) : ∃ stage stage' transposes,
      PassesAlike source opened first second pass stopTime stage stage' transposes := by
  obtain ⟨descends, descends', options⟩ := siblings
  have setting : second.setting pass = first.setting pass := by
    unfold Sequence.setting
    rw [descends.reads, descends'.reads, descends.header, descends'.header, options]
  have limits : second.limits stopTime = first.limits stopTime := by
    unfold Sequence.limits
    rw [options]
  -- Each of them plays without a fault; in lockstep the second one comes to the same stage.
  obtain ⟨stage, done, played⟩ := descends.plays pass stopTime (.inl descends.bounded)
  obtain ⟨stage', done', played'⟩ := descends'.plays pass stopTime (.inl descends'.bounded)
  obtain ⟨other, beside, inStep⟩ :=
    (Siblings.openStage ⟨descends, descends', options⟩ pass).play descends.reads stage done
  rw [← setting, ← limits] at beside
  cases done'.symm.trans beside
  obtain ⟨transposes, found, passes⟩ := descends.passes_of_played done played
  obtain ⟨transposes', found', passes'⟩ := descends'.passes_of_played done' played'
  -- Both stores are made by one log, so that they hold the same events.
  have follows := descends.follows passes
  have charted := inStep.shared.mine.charted descends.charted follows
  have charted' := inStep.shared.theirs.charted descends'.charted follows
  have tags : stage'.shared.tags = stage.shared.tags := by
    rw [played'.ensemble.journal, played.ensemble.journal, inStep.memory, setting]
  have lines := Shared.lines_eq inStep.shared.alike tags (charted.agrees charted' descends.ascends)
  rw [Transposes.ofTimeline_of_lines lines] at found'
  cases found.symm.trans found'
  exact ⟨stage, stage', transposes, done, passes, passes', inStep, lines, charted, charted'⟩

/-- The same pass over two sequences has come to the same, whatever was measured of their tracks
before. -/
structure Reproduces (pass : Pass) (first second : Sequence Unit) : Prop where
  tracks : second.tracks.map Track.unmeasured = first.tracks.map Track.unmeasured
  lines : second.stage.shared.lines = first.stage.shared.lines
  named : ∀ line ∈ first.stage.shared.lines, line.event.isSome
  orders : second.timeline.byStart = first.timeline.byStart ∧
    second.timeline.byStop = first.timeline.byStop
  length : pass = .length → second.length = first.length
  transposes : ∃ transposes, first.transposes = some transposes ∧
    second.transposes = some transposes
  midi : pass = .midi → ∃ output, first.midi = some output ∧ second.midi = some output

theorem conclude_lines (sequence : Sequence Unit) (pass : Pass) (stage : Stage Unit)
    (transposes : Transposes) :
    (sequence.conclude pass stage transposes).stage.shared.lines = stage.shared.lines := by
  cases pass <;> rfl

theorem conclude_orders (sequence : Sequence Unit) (pass : Pass) (stage : Stage Unit)
    (transposes : Transposes) :
    (sequence.conclude pass stage transposes).timeline = stage.shared.timeline.settle := by
  cases pass <;> rfl

theorem conclude_transposes (sequence : Sequence Unit) (pass : Pass) (stage : Stage Unit)
    (transposes : Transposes) :
    (sequence.conclude pass stage transposes).transposes = some transposes := by
  cases pass <;> rfl

theorem midiOutput_eq_of_inStep {openings : Arena × Arena}
    (inStep : stage.InStep source openings stage') (header : Header) (transposes : Transposes) :
    midiOutput header transposes stage'.unlogged = midiOutput header transposes stage.unlogged := by
  have tracks := inStep.map_eq
    (fun track => (track.midi.transpose transposes.allAt).finalize) fun track other inStep => by
      rw [inStep.midi]
  unfold midiOutput Stage.unlogged Stage.withMemory
  dsimp only
  rw [inStep.shared.conductor, tracks]

theorem PassesAlike.reproduces
    (alike : PassesAlike source opened first second pass stopTime stage stage' transposes)
    (header : second.header = first.header) :
    (first.conclude pass stage.unlogged transposes).Reproduces pass
      (second.conclude pass stage'.unlogged transposes) where
  tracks := by
    rw [conclude_tracks, conclude_tracks, List.map_map, List.map_map]
    exact alike.inStep.map_eq _ fun _ _ inStep => Track.unmeasured_conclude pass inStep.unmeasured
  lines := by
    rw [conclude_lines, conclude_lines]
    exact alike.lines
  named := fun line member => by
    rw [conclude_lines] at member
    obtain ⟨entry, there, rfl⟩ := List.mem_map.mp member
    obtain ⟨index, found⟩ := List.getElem?_of_mem there
    rw [Array.getElem?_toList] at found
    obtain ⟨_, event, found', known⟩ := alike.mine.played.ensemble.resolved.event
      (Array.getElem?_eq_some_iff.mp found).1
    cases found.symm.trans found'
    exact Option.isSome_of_mem known
  orders := by
    rw [conclude_orders, conclude_orders]
    exact Shared.orders_of_lines alike.lines
  length := by
    rintro rfl
    have totals (stage : Stage (Unit × List Visit)) :
        (measure stage.unlogged).tracks.map Track.totalTicks =
          stage.tracks.map Track.totalTicks := List.map_map ..
    have same := alike.inStep.map_eq Track.totalTicks fun _ _ inStep => inStep.total
    rw [← totals, ← totals] at same
    exact congrArg (fun totals : List Nat => totals.foldl max 0) same
  transposes := ⟨transposes, conclude_transposes .., conclude_transposes ..⟩
  midi := by
    rintro rfl
    refine ⟨_, rfl, congrArg some ?_⟩
    exact (congrArg (midiOutput · transposes stage'.unlogged) header).trans
      (midiOutput_eq_of_inStep alike.inStep first.header transposes)

/-- A pass over siblings comes to the same in both, and leaves them siblings. -/
theorem Siblings.runPass (siblings : Siblings source opened first second) (pass : Pass)
    (stopTime : Nat) : ∃ next next', first.runPass pass stopTime = .ok next ∧
      second.runPass pass stopTime = .ok next' ∧ Siblings source opened next next' ∧
      next.Reproduces pass next' := by
  obtain ⟨stage, stage', transposes, alike⟩ := siblings.passes pass stopTime
  refine ⟨_, _, alike.mine.run, alike.theirs.run, ⟨siblings.mine.conclude alike.mine alike.charted,
    siblings.theirs.conclude alike.theirs alike.charted', ?_⟩, alike.reproduces siblings.header⟩
  rw [(conclude_fixed ..).2.2.1, (conclude_fixed ..).2.2.1]
  exact siblings.options

theorem conclude_of_runPass {next : Sequence Unit}
    (run : sequence.runPass pass stopTime = .ok next) :
    ∃ stage transposes, next = sequence.conclude pass stage transposes := by
  obtain ⟨stage, _, closed⟩ := Except.bind_eq_ok.mp run
  rw [closePass_eq] at closed
  obtain ⟨transposes, _, rfl⟩ := Except.map_eq_ok.mp closed
  exact ⟨stage, transposes, rfl⟩

theorem runPass_options {next : Sequence Unit}
    (run : sequence.runPass pass stopTime = .ok next) : next.options = sequence.options := by
  obtain ⟨stage, transposes, rfl⟩ := conclude_of_runPass run
  exact (conclude_fixed ..).2.2.1

/-- Only the length pass measures. -/
theorem runPass_midi_length {next : Sequence Unit}
    (run : sequence.runPass .midi stopTime = .ok next) : next.length = sequence.length := by
  obtain ⟨stage, transposes, rfl⟩ := conclude_of_runPass run
  rfl

theorem load_options {next : Sequence Unit} (loads : sequence.load = .ok next) :
    next.options = sequence.options := by
  obtain ⟨listed, first, loads⟩ := Except.bind_eq_ok.mp loads
  obtain ⟨measured, second, third⟩ := Except.bind_eq_ok.mp loads
  rw [runPass_options third, runPass_options second, runPass_options first]

theorem Siblings.load (siblings : Siblings source opened first second) :
    ∃ next next', first.load = .ok next ∧ second.load = .ok next' ∧
      Siblings source opened next next' ∧ next.Reproduces .midi next' ∧
      next'.length = next.length := by
  obtain ⟨listed, listed', lists, lists', siblings, _⟩ := siblings.runPass .listing 0
  obtain ⟨measured, measured', measures, measures', siblings, same⟩ := siblings.runPass .length 0
  have length := same.length rfl
  obtain ⟨played, played', plays, plays', siblings, same⟩ := siblings.runPass .midi measured.length
  refine ⟨played, played', ?_, ?_, siblings, same, ?_⟩
  · exact Except.bind_eq_ok.mpr ⟨_, lists, Except.bind_eq_ok.mpr ⟨_, measures, plays⟩⟩
  · rw [← length] at plays'
    exact Except.bind_eq_ok.mpr ⟨_, lists', Except.bind_eq_ok.mpr ⟨_, measures', plays'⟩⟩
  · rw [runPass_midi_length plays', length, runPass_midi_length plays]

/-- What can be asked of a sequence. The limit of instructions is a number of 32 bits. -/
inductive Call
  | setOptions (options : Options) (bounded : options.maxSteps ≤ Tick.last)
  | setLoopCount (loopCount : Nat)
  | runPass (pass : Pass) (stopTime : Nat)
  | load

def call (sequence : Sequence Unit) : Call → Except Fault (Sequence Unit)
  | .setOptions options _ => .ok (sequence.withOptions options)
  | .setLoopCount loopCount => .ok (sequence.withLoopCount loopCount)
  | .runPass pass stopTime => sequence.runPass pass stopTime
  | .load => sequence.load

def calls (sequence : Sequence Unit) (history : List Call) : Except Fault (Sequence Unit) :=
  history.foldlM call sequence

theorem calls_append (sequence : Sequence Unit) (earlier later : List Call) :
    sequence.calls (earlier ++ later) = (do (← sequence.calls earlier).calls later) :=
  List.foldlM_append ..

theorem Descends.alone (descends : sequence.Descends source opened) :
    Siblings source opened sequence sequence := ⟨descends, descends, rfl⟩

theorem Descends.call (descends : sequence.Descends source opened) (call : Call) :
    (sequence.call call).Yields fun next => next.Descends source opened := by
  cases call with
  | setOptions options bounded => exact Except.yields_ok (descends.withOptions options bounded)
  | setLoopCount loopCount =>
    exact Except.yields_ok
      (descends.withOptions { sequence.options with loopCount } descends.bounded)
  | runPass pass stopTime =>
    obtain ⟨next, _, done, _, siblings, _⟩ := descends.alone.runPass pass stopTime
    exact ⟨next, done, siblings.mine⟩
  | load =>
    obtain ⟨next, _, done, _, siblings, _⟩ := descends.alone.load
    exact ⟨next, done, siblings.mine⟩

theorem Descends.calls (descends : sequence.Descends source opened) (history : List Call) :
    (sequence.calls history).Yields fun next => next.Descends source opened := by
  induction history generalizing sequence with
  | nil => exact Except.yields_ok descends
  | cons call history ih => exact (descends.call call).bind fun _ next => ih next

/-- What a pass comes to does not depend on what came before it, and loading again comes to the
same. -/
theorem runPass_forgets (accepted : ofSource RefSeq.format () source = .ok opened)
    (earlier other : List Call) (options : Options) (bounded : options.maxSteps ≤ Tick.last)
    (pass : Pass) (stopTime : Nat) :
    (∃ first second,
      opened.calls (earlier ++ [.setOptions options bounded, .runPass pass stopTime]) = .ok first ∧
      opened.calls (other ++ [.setOptions options bounded, .runPass pass stopTime]) = .ok second ∧
      first.Reproduces pass second) ∧
    ∃ loaded again, opened.calls (earlier ++ [.load]) = .ok loaded ∧ loaded.load = .ok again ∧
      loaded.Reproduces .midi again ∧ again.length = loaded.length := by
  obtain ⟨first, done, descends⟩ := (descends_ofSource accepted).calls earlier
  obtain ⟨second, done', descends'⟩ := (descends_ofSource accepted).calls other
  constructor
  · have siblings : Siblings source opened (first.withOptions options)
        (second.withOptions options) :=
      ⟨descends.withOptions options bounded, descends'.withOptions options bounded, rfl⟩
    obtain ⟨next, next', run, run', _, same⟩ := siblings.runPass pass stopTime
    refine ⟨next, next', ?_, ?_, same⟩
    · rw [calls_append, done]
      exact Except.bind_eq_ok.mpr ⟨_, rfl, Except.bind_eq_ok.mpr ⟨_, rfl,
        Except.bind_eq_ok.mpr ⟨_, run, rfl⟩⟩⟩
    · rw [calls_append, done']
      exact Except.bind_eq_ok.mpr ⟨_, rfl, Except.bind_eq_ok.mpr ⟨_, rfl,
        Except.bind_eq_ok.mpr ⟨_, run', rfl⟩⟩⟩
  · obtain ⟨loaded, _, loads, _, siblings, _⟩ := descends.alone.load
    obtain ⟨_, again, loads', loads'', _, same, length⟩ :=
      Siblings.load ⟨descends, siblings.mine, load_options loads⟩
    cases loads.symm.trans loads'
    refine ⟨loaded, again, ?_, loads'', same, length⟩
    rw [calls_append, done]
    exact Except.bind_eq_ok.mpr ⟨_, rfl, Except.bind_eq_ok.mpr ⟨_, loads, rfl⟩⟩

/-- A track that repeats a note, first in octave 4 and then in octave 6. -/
def climbing : Source :=
  #[0x52, 0x53, 0x45, 0x51, 1, 0, 0, 0, 0, 0, 1, 0, 14, 0,
    0x13, 0, 100, 4, 0, 0x01, 4, 0, 0x14, 6, 0x50, 14, 0]

theorem runPass_forgets_climbing : ∃ opened,
    ofSource RefSeq.format () climbing = .ok opened ∧ ∃ bounded : 100 ≤ Tick.last,
    (∃ first second,
      opened.calls ([] ++ [.setOptions { maxSteps := 100 } bounded, .runPass .midi 32]) =
        .ok first ∧
      opened.calls ([.load, .runPass .length 7] ++
        [.setOptions { maxSteps := 100 } bounded, .runPass .midi 32]) = .ok second ∧
      first.Reproduces .midi second) ∧
    ∃ loaded again, opened.calls ([] ++ [.load]) = .ok loaded ∧ loaded.load = .ok again ∧
      loaded.Reproduces .midi again ∧ again.length = loaded.length :=
  ⟨_, rfl, by decide, runPass_forgets
    (show ofSource RefSeq.format () climbing = .ok _ from rfl) [] [.load, .runPass .length 7]
      { maxSteps := 100 } (by decide) .midi 32⟩

end Sequence
end Sequencer
