import Sequencer.Proofs.Histories
import Sequencer.Proofs.InTurn.Stage

/-! Tracks that play in turn are isolated. Whatever stands beside a track in its sequence, and
wherever it stands itself, it does the same: it decodes the same, enters the same events and writes
the same messages. -/
namespace Sequencer

/-- The visit as that of another track. -/
def Visit.ofTrack (track : Nat) (visit : Visit) : Visit := { visit with track }

namespace Player

variable {limits : Limits} {start start' player player' last : Player} {visits : List Visit}

theorem Alike.visit (alike : player.Alike player') :
    player'.track.visit = player.track.visit.ofTrack player'.track.index := by
  unfold Track.visit
  rw [alike.cursor, alike.time]
  rfl

theorem Alike.mayStep (alike : player.Alike player') (may : player.MayStep limits) :
    player'.MayStep limits where
  time := (alike.reads_track (Track.timeIsUp · limits.stopTime) fun _ => rfl).trans may.time
  steps := alike.steps.symm ▸ may.steps

theorem Alike.punctual (alike : start.Alike start') {count : Nat}
    (punctual : start.Punctual count) : start'.Punctual count := by
  have position := alike.reads_track Track.position fun _ => rfl
  unfold Punctual dueAfter at punctual ⊢
  rw [alike.setting, position]
  exact punctual

/-- Players that are alike run alike, each with the visits of its own track. -/
theorem Runs.alike (runs : Runs limits start visits player) (alike : start.Alike start') :
    ∃ player', Runs limits start' (visits.map (Visit.ofTrack start'.track.index)) player' ∧
      player.Alike player' ∧ player'.track.index = start'.track.index := by
  induction runs with
  | start => exact ⟨start', .start, alike, rfl⟩
  | @step visits player next runs may punctual advanced ih =>
    obtain ⟨player', runs', same, index⟩ := ih
    obtain ⟨⟨_, next'⟩, advanced', rfl, alike'⟩ := same.advance _ advanced
    refine ⟨next', ?_, alike', (advance_guise advanced').index.trans index⟩
    have stepped := runs'.step (same.mayStep may)
      ((List.length_map ..).symm ▸ alike.punctual punctual) advanced'
    rw [same.visit, index] at stepped
    rw [List.map_append]
    exact stepped
  | @glide visits player runs together tick early ih =>
    obtain ⟨player', runs', same, index⟩ := ih
    exact ⟨_, runs'.glide (same.setting.symm ▸ together) tick (same.time ▸ early), same.moveDials tick,
      (moveDials_guise player' tick).index.trans index⟩

theorem Ends.alike (ends : Ends limits start visits last) (alike : start.Alike start') :
    ∃ last', Ends limits start' (visits.map (Visit.ofTrack start'.track.index)) last' ∧
      last.Alike last' := by
  cases ends with
  | @refused visits player next last runs may punctual advanced finished =>
    obtain ⟨player', runs', same, index⟩ := runs.alike alike
    obtain ⟨⟨_, next'⟩, advanced', rfl, alike'⟩ := same.advance _ advanced
    obtain ⟨last', finished', ending⟩ := alike'.finish _ finished
    refine ⟨last', ?_, ending⟩
    have refused := Ends.refused runs' (same.mayStep may)
      ((List.length_map ..).symm ▸ alike.punctual punctual) advanced' finished'
    rw [same.visit, index] at refused
    rw [List.map_append]
    exact refused
  | stopped runs stopped finished =>
    obtain ⟨player', runs', same, index⟩ := runs.alike alike
    obtain ⟨last', finished', ending⟩ := same.finish _ finished
    refine ⟨last', .stopped runs' ?_ finished', ending⟩
    rcases stopped with cannot | late
    · exact .inl fun may => cannot (same.symm.mayStep may)
    · rw [← List.length_map (Visit.ofTrack start'.track.index)] at late
      exact .inr fun punctual => late (alike.symm.punctual punctual)

end Player

def Row.ofTrack (track : Nat) (row : Row) : Row :=
  { row with place := row.place.map fun place => { place with track } }

def Row.tag (row : Row) : Nat × Option Place := (row.start, row.place)

theorem Row.eq_of_maps {rows rows' : List Row} (tags : rows'.map Row.tag = rows.map Row.tag)
    (durations : rows'.map Row.duration = rows.map Row.duration) : rows' = rows := by
  have both := congrArg₂ List.zip tags durations
  rw [List.zip_map', List.zip_map'] at both
  rw [← List.map_id rows', ← List.map_id rows]
  refine List.map_eq_of_map both fun row _ row' _ same => ?_
  obtain ⟨start, duration, place⟩ := row
  obtain ⟨start', duration', place'⟩ := row'
  cases same
  rfl

theorem Visit.tag_ofTrack (source : Source) (track : Nat) (visit : Visit) :
    (visit.ofTrack track).tag? source = (visit.tag? source).map fun tag =>
      (tag.1, tag.2.map fun place => { place with track }) := by
  unfold Visit.tag? Visit.ofTrack
  split <;> rfl

namespace Shared

variable {source : Source} {log log' : List Visit} {shared shared' : Shared} {track track' : Nat}

/-- The entries of a track are those of its visits. -/
theorem tags_rowsOf (journal : shared.tags = log.filterMap (Visit.tag? source)) (track : Nat) :
    (shared.rowsOf track).map Row.tag = (visitsOf log track).filterMap (Visit.tag? source) := by
  have mapped : (shared.rowsOf track).map Row.tag =
      shared.tags.filter fun tag => tag.2.map Place.track = some track := by
    rw [tags_eq_rows, List.filter_map]
    rfl
  rw [mapped, journal, visitsOf, List.filter_filterMap, List.filterMap_filter]
  refine List.filterMap_congr fun visit _ => ?_
  unfold Visit.tag?
  split <;> by_cases own : visit.track = track <;> simp [own, Visit.place]

/-- Rows of the same lengths for the same visits are the same rows. -/
theorem rowsOf_ofTrack (journal : shared.tags = log.filterMap (Visit.tag? source))
    (journal' : shared'.tags = log'.filterMap (Visit.tag? source))
    (visits : visitsOf log' track' = (visitsOf log track).map (Visit.ofTrack track'))
    (lasting : (shared'.rowsOf track').map Row.duration = (shared.rowsOf track).map Row.duration) :
    shared'.rowsOf track' = (shared.rowsOf track).map (Row.ofTrack track') := by
  have tags : (shared'.rowsOf track').map Row.tag =
      ((shared.rowsOf track).map (Row.ofTrack track')).map Row.tag :=
    calc (shared'.rowsOf track').map Row.tag
      _ = (visitsOf log track).filterMap fun visit => (visit.ofTrack track').tag? source := by
        rw [tags_rowsOf journal', visits, List.filterMap_map]
        rfl
      _ = ((visitsOf log track).filterMap (Visit.tag? source)).map fun tag =>
            (tag.1, tag.2.map fun place => { place with track := track' }) := by
        rw [List.map_filterMap]
        exact List.filterMap_congr fun visit _ => visit.tag_ofTrack source track'
      _ = _ := by
        rw [← tags_rowsOf journal, List.map_map, List.map_map]
        rfl
  have durations : (shared'.rowsOf track').map Row.duration =
      ((shared.rowsOf track).map (Row.ofTrack track')).map Row.duration := by
    rw [lasting, List.map_map]
    rfl
  exact Row.eq_of_maps tags durations

/-- The rows of a player that has the timeline to itself. -/
theorem durations_of_alike {solo solo' : Player} (alike : solo.Alike solo') :
    solo'.shared.rows.map Row.duration = solo.shared.rows.map Row.duration := by
  unfold rows
  rw [List.map_map, List.map_map]
  exact durations_of_nameless alike.shared

end Shared

/-- The line without the track of its event. -/
def Line.untracked (line : Line) : Line :=
  { line with event := line.event.map fun event => { event with track := 0 } }

def Line.row (line : Line) : Row := ⟨line.start, line.duration, line.event.map Event.place⟩

/-- Events of a track that are charted from where it starts. -/
def Arena.ChartedFrom (source : Source) (start : Position) (track : Nat) (arena : Arena) : Prop :=
  ∀ (id : Nat) (event : Event), arena.get? id = some event → event.track = track →
    event.Charted source start

namespace Shared

variable {source : Source} {start : Position} {shared shared' : Shared} {track track' : Nat}

/-- The entries of a track in the order in which it played them: their starts, their durations,
and of their events the kinds, the offsets and the lengths. -/
def linesOf (shared : Shared) (track : Nat) : List Line :=
  (shared.lines.filter fun line => line.row.track? = some track).map Line.untracked

theorem rowsOf_lines (shared : Shared) (track : Nat) : shared.rowsOf track =
    (shared.lines.filter fun line => line.row.track? = some track).map Line.row := by
  have rows : shared.rows = shared.lines.map Line.row := by
    rw [lines, List.map_map]
    rfl
  rw [rowsOf, rows, List.filter_map]
  rfl

theorem event_of_line {line : Line}
    (member : line ∈ shared.lines.filter fun line => line.row.track? = some track) :
    ∃ id event, shared.arena.get? id = some event ∧ line.event = some event ∧
      event.track = track := by
  obtain ⟨there, own⟩ := List.mem_filter.mp member
  obtain ⟨entry, _, rfl⟩ := List.mem_map.mp there
  have own := of_decide_eq_true own
  cases known : shared.eventOf? entry with
  | none => simp [Line.row, Row.track?, known] at own
  | some event =>
    refine ⟨entry.event, event, known, rfl, ?_⟩
    simpa [Line.row, Row.track?, known, Event.place] using own

theorem linesOf_ofTrack (charted : shared.arena.ChartedFrom source start track)
    (charted' : shared'.arena.ChartedFrom source start track')
    (rows : shared'.rowsOf track' = (shared.rowsOf track).map (Row.ofTrack track')) :
    shared'.linesOf track' = shared.linesOf track := by
  rw [rowsOf_lines, rowsOf_lines, List.map_map] at rows
  refine List.map_eq_of_map rows fun line member line' member' row => ?_
  obtain ⟨id, event, stored, named, own⟩ := event_of_line member
  obtain ⟨id', event', stored', named', own'⟩ := event_of_line member'
  obtain ⟨tick, lasting, _⟩ := line
  obtain ⟨tick', lasting', _⟩ := line'
  cases named
  cases named'
  simp only [Line.row, Function.comp, Row.ofTrack, Option.map_some, Row.mk.injEq,
    Option.some.injEq, Event.place, Place.mk.injEq] at row
  obtain ⟨rfl, rfl, _, offset⟩ := row
  have same := (charted id event stored own).unique (charted' id' event' stored' own') offset
  have untracked : { event' with track := 0 } = { event with track := 0 } :=
    congrArg (fun event : Event => { event with track := 0 }) same
  exact congrArg (fun event => Line.mk _ _ (some event)) untracked

end Shared

/-- The format of a source whose header and tracks are given. -/
def RefSeq.formatOf (header : Header) (pointers : List TrackPointer) : Format Unit :=
  { format with header := fun _ => .ok header, pointers := fun _ => .ok pointers }

theorem RefSeq.maps_formatOf (header : Header) (pointers : List TrackPointer) :
    (formatOf header pointers).Maps id format :=
  fun _ _ => congrFun Except.map_id _

/-- Two tracks have come the same way: they took as many steps, last as long, have gone as often
around a cycle, have their dials at the same levels and have written the same messages. -/
structure Track.SameCourse (track other : Track) : Prop where
  steps : other.steps = track.steps
  total : other.totalTicks = track.totalTicks
  trips : other.guard.trips = track.guard.trips
  dials : other.dials = track.dials
  midi : other.midi = track.midi

namespace Sequence

/-- The tracks at their ends, before the pass is closed. -/
def playedStage (sequence : Sequence Unit) (pass : Pass) (stopTime : Nat) :
    Except Fault (Stage Unit) :=
  (sequence.openStage pass).play sequence.format (sequence.setting pass)
    (sequence.limits stopTime)

/-- What a pass makes of the track at a position: how the track has ended, and its entries. The
messages of the track are those of the output before these are transposed with all others. -/
structure TrackAfter (sequence : Sequence Unit) (pass : Pass) (stopTime position : Nat)
    (track : Track) (lines : List Line) (played : Sequence Unit) : Prop where
  run : sequence.runPass pass stopTime = .ok played
  ended : ∃ stage, sequence.playedStage pass stopTime = .ok stage ∧
    stage.tracks[position]? = some track
  kept : played.tracks[position]? = some (track.conclude pass)
  lines : played.stage.shared.linesOf position = lines
  written : pass = .midi → ∃ output transposes, played.midi = some output ∧
    played.transposes = some transposes ∧
    output.tracks[position]? = some (track.midi.transpose transposes.allAt).finalize

variable {source : Source} {opened first second sequence played : Sequence Unit} {pass : Pass}
  {stopTime position : Nat} {stage stage' : Stage (Unit × List Visit)}
  {transposes : Transposes} {before before' track track' : Track} {start start' solo solo' : Player}
  {lines : List Line}

/-- Only decoding matters of a format once its tracks are known. -/
theorem TrackAfter.of_maps (maps : sequence.format.Maps id RefSeq.format)
    (after : (sequence.withMemory id RefSeq.format).TrackAfter pass stopTime position track lines
      played) : ∃ played, sequence.TrackAfter pass stopTime position track lines played := by
  obtain ⟨runs, ⟨stage, done, found⟩, kept, lines, written⟩ := after
  rw [← withMemory_runPass maps] at runs
  obtain ⟨played, run, rfl⟩ := Except.map_eq_ok.mp runs
  have plays := Stage.withMemory_play maps (sequence.setting pass) (sequence.limits stopTime)
    (sequence.openStage pass)
  rw [show (sequence.openStage pass).withMemory id =
    (sequence.withMemory id RefSeq.format).openStage pass from withMemory_openStage ..] at plays
  obtain ⟨stage, played', rfl⟩ := Except.map_eq_ok.mp (plays.trans done)
  exact ⟨played, run, ⟨stage, played', found⟩, kept, lines, written⟩

/-- Two tracks that start at one offset and on one channel start alike. -/
theorem starts_alike (setting : second.setting pass = first.setting pass)
    (header : second.header = first.header) (options : second.options = first.options)
    (member : start ∈ first.starts pass) (member' : start' ∈ second.starts pass)
    (offset : start'.track.startOffset = start.track.startOffset)
    (channel : start'.track.startChannel = start.track.startChannel) : start.Alike start' := by
  obtain ⟨track, _, rfl⟩ := mem_starts_openTrack member
  obtain ⟨track', _, rfl⟩ := mem_starts_openTrack member'
  have offset : track'.startOffset = track.startOffset := offset
  have channel : track'.startChannel = track.startChannel := channel
  have shared := openStage_nameless header options pass
  unfold Player.Alike Player.nameless
  dsimp only
  rw [setting, header, options, openTrack_nameless _ _ offset channel]
  exact congrArg (Player.mk _ _) shared

/-- A track that starts as another one of another sequence comes to the same end. -/
theorem Ended.alike (ended : first.Ended pass stopTime stage before track start solo)
    (ended' : second.Ended pass stopTime stage' before' track' start' solo')
    (limits : second.limits stopTime = first.limits stopTime) (alike : start.Alike start')
    (alone : start'.setting.tickSync = false)
    (countable : (second.limits stopTime).Countable start'.setting.loopRule) :
    solo.Alike solo' ∧ visitsOf stage'.memory.2 start'.track.index =
      (visitsOf stage.memory.2 start.track.index).map (Visit.ofTrack start'.track.index) := by
  obtain ⟨last, ends, same⟩ := ended.ends.alike alike
  have fresh := Player.fresh_of_opening (mem_starts ended'.began).2.1
  have ends' := ended'.ends
  rw [← limits] at ends
  obtain ⟨visits, rfl⟩ := ends.unique fresh countable alone ends'
  exact ⟨same, visits.symm⟩

theorem Ended.rows (ended : sequence.Ended pass stopTime stage before track start solo) :
    stage.shared.rowsOf start.track.index = solo.shared.rows := by
  have index := congrArg Track.index ended.closes.identity
  have own : solo.track.index = start.track.index := index
  have rows := ended.home.rows
  rw [own] at rows
  exact rows.symm

/-- The entries of both tracks are of the same instructions. -/
theorem Ended.rows_alike (ended : first.Ended pass stopTime stage before track start solo)
    (ended' : second.Ended pass stopTime stage' before' track' start' solo')
    (journal : stage.shared.tags = stage.memory.2.filterMap (Visit.tag? source))
    (journal' : stage'.shared.tags = stage'.memory.2.filterMap (Visit.tag? source))
    (alike : solo.Alike solo') (visits : visitsOf stage'.memory.2 start'.track.index =
      (visitsOf stage.memory.2 start.track.index).map (Visit.ofTrack start'.track.index)) :
    stage'.shared.rowsOf start'.track.index =
      (stage.shared.rowsOf start.track.index).map (Row.ofTrack start'.track.index) := by
  refine Shared.rowsOf_ofTrack journal journal' visits ?_
  rw [ended.rows, ended'.rows]
  exact Shared.durations_of_alike alike

theorem sameCourse_of_alike (home : solo.Home ⟨start.setting, track, stage.shared⟩)
    (home' : solo'.Home ⟨start'.setting, track', stage'.shared⟩) (alike : solo.Alike solo') :
    track.SameCourse track' := by
  have same : track'.outcome.nameless = track.outcome.nameless := by
    have left := home.outcome
    have right := home'.outcome
    dsimp only at left right
    rw [left, right]
    have ends := congrArg Track.outcome alike.track
    exact ends
  have steps := congrArg Track.steps same
  have total := congrArg Track.totalTicks same
  have trips := congrArg (fun track : Track => track.guard.trips) same
  have dials := congrArg Track.dials same
  have midi := congrArg Track.midi same
  exact ⟨steps, total, trips, dials, midi⟩

theorem PassesAlike.trackAfter
    (alike : PassesAlike source opened sequence second pass stopTime stage stage' transposes)
    (plain : sequence.format = RefSeq.format) (found : stage.tracks[position]? = some track) :
    sequence.TrackAfter pass stopTime position track (stage.shared.linesOf position)
      (sequence.conclude pass stage.unlogged transposes) where
  run := alike.mine.run
  ended := by
    have plays := Stage.withMemory_play RefSeq.format.maps_unlogged (sequence.setting pass)
      (sequence.limits stopTime) ((sequence.openStage pass).logged [])
    rw [alike.done] at plays
    refine ⟨stage.unlogged, ?_, found⟩
    rw [playedStage, plain]
    exact plays.symm
  kept := by
    rw [conclude_tracks, List.getElem?_map]
    exact congrArg (Option.map (Track.conclude pass)) found
  lines := by
    unfold Shared.linesOf
    rw [conclude_lines]
    rfl
  written := by
    rintro rfl
    refine ⟨_, transposes, rfl, rfl, ?_⟩
    change (stage.tracks.map _)[position]? = _
    rw [List.getElem?_map, found]
    rfl

variable {header : Header} {pointers pointers' : List TrackPointer} {pointer : TrackPointer}
  {i j : Nat}

theorem chartedFrom_fresh {arena : Arena} (found : pointers[i]? = some pointer)
    (charted : arena.Charted source (fresh RefSeq.format () source header pointers).tracks) :
    arena.ChartedFrom source ⟨⟨pointer.offset, [], []⟩, 0⟩ i := by
  intro id event stored own
  obtain ⟨track, member, index, first⟩ := charted id event stored
  obtain ⟨k, inside, rfl⟩ := List.mem_mapIdx.mp member
  have here : k = i := index.trans own
  subst here
  rw [List.getElem?_eq_getElem inside] at found
  cases found
  exact first

variable {options : Options}

theorem ended_fresh (bounded : options.maxSteps ≤ Tick.last) (found : pointers[i]? = some pointer)
    (passes : ((fresh RefSeq.format () source header pointers).withOptions options).Passes pass
      stopTime stage transposes) :
    ∃ track start solo, stage.tracks[i]? = some track ∧
      ((fresh RefSeq.format () source header pointers).withOptions options).Ended pass stopTime
        stage (Track.starting i pointer.offset pointer.channel) track start solo := by
  have intact := ((descends_fresh source header pointers).withOptions options bounded).toIntact
  have there : ((fresh RefSeq.format () source header pointers).withOptions options).tracks[i]? =
      some (Track.starting i pointer.offset pointer.channel) := by
    refine (List.getElem?_mapIdx ..).trans ?_
    rw [found]
    rfl
  have inside : i < stage.tracks.length := by
    rw [passes.length_eq]
    exact (List.getElem?_eq_some_iff.mp there).1
  have track := List.getElem?_eq_getElem inside
  obtain ⟨before, start, solo, known, ended⟩ := passes.ended intact track
  cases known.symm.trans there
  exact ⟨_, start, solo, track, ended⟩

theorem trackAfter_formatOf
    (after : ((fresh RefSeq.format () source header pointers).withOptions options).TrackAfter pass
      stopTime position track lines played) :
    ∃ played, ((fresh (RefSeq.formatOf header pointers) () source header pointers).withOptions
      options).TrackAfter pass stopTime position track lines played := by
  refine TrackAfter.of_maps ?_ after
  exact RefSeq.maps_formatOf header pointers

/-- What stands beside a track in its sequence, and where it stands itself, is of no account. -/
theorem tracks_isolated
    (accepted : ofSource (RefSeq.formatOf header pointers) () source = .ok first)
    (accepted' : ofSource (RefSeq.formatOf header pointers') () source = .ok second)
    (alone : header.tickSync = false) (found : pointers[i]? = some pointer)
    (found' : pointers'[j]? = some pointer) (options : Options)
    (bounded : options.maxSteps ≤ Tick.last) (pass : Pass) (stopTime : Nat) :
    ∃ track track' lines played played',
      (first.withOptions options).TrackAfter pass stopTime i track lines played ∧
      (second.withOptions options).TrackAfter pass stopTime j track' lines played' ∧
      track.SameCourse track' := by
  obtain ⟨_, _, ⟨⟩, ⟨⟩, rfl⟩ := fresh_of_accepted accepted
  obtain ⟨_, _, ⟨⟩, ⟨⟩, rfl⟩ := fresh_of_accepted accepted'
  have descends := (descends_fresh source header pointers).withOptions options bounded
  have descends' := (descends_fresh source header pointers').withOptions options bounded
  obtain ⟨stage, _, transposes, passes⟩ := descends.alone.passes pass stopTime
  obtain ⟨stage', _, transposes', passes'⟩ := descends'.alone.passes pass stopTime
  obtain ⟨track, start, solo, here, ended⟩ := ended_fresh bounded found passes.mine
  obtain ⟨track', start', solo', here', ended'⟩ := ended_fresh bounded found' passes'.mine
  have setting := (mem_starts ended'.began).1
  have origin := ended.origin
  have origin' := ended'.origin
  simp only [Sequence.origin, Prod.mk.injEq] at origin origin'
  have alike : start.Alike start' := by
    refine starts_alike ?_ ?_ ?_ ended.began ended'.began
      (origin'.2.1.trans origin.2.1.symm) (origin'.2.2.trans origin.2.2.symm) <;> rfl
  -- Each track does what its player does on its own, and these two are alike.
  obtain ⟨ends, visits⟩ := ended.alike ended' rfl alike (setting ▸ alone) (.inl bounded)
  have rows := ended.rows_alike ended' passes.mine.played.ensemble.journal
    passes'.mine.played.ensemble.journal ends visits
  rw [show start.track.index = i from origin.1, show start'.track.index = j from origin'.1] at rows
  have lines := Shared.linesOf_ofTrack (chartedFrom_fresh found passes.charted)
    (chartedFrom_fresh found' passes'.charted) rows
  have after := passes'.trackAfter rfl here'
  rw [lines] at after
  obtain ⟨played, mine⟩ := trackAfter_formatOf (passes.trackAfter rfl here)
  obtain ⟨played', theirs⟩ := trackAfter_formatOf after
  exact ⟨track, track', stage.shared.linesOf i, played, played', mine, theirs,
    sameCourse_of_alike ended.home ended'.home ends⟩

/-- A note, beside a byte that is no instruction. -/
def lone : Source := #[0x12, 60, 100, 4, 0, 0x01, 4, 0, 0x00, 0xFF]

theorem tracks_isolated_lone : ∃ first second,
    ofSource (RefSeq.formatOf {} [⟨0, 2⟩]) () lone = .ok first ∧
    ofSource (RefSeq.formatOf {} [⟨9, 0⟩, ⟨0, 2⟩]) () lone = .ok second ∧
    ({} : Header).tickSync = false ∧ 100 ≤ Tick.last ∧
    ∃ track track' lines played played',
      (first.withOptions { maxSteps := 100 }).TrackAfter .midi 0 0 track lines played ∧
      (second.withOptions { maxSteps := 100 }).TrackAfter .midi 0 1 track' lines played' ∧
      track.SameCourse track' :=
  ⟨_, _, rfl, rfl, rfl, by decide, tracks_isolated
    (show ofSource (RefSeq.formatOf {} [⟨0, 2⟩]) () lone = .ok _ from rfl)
    (show ofSource (RefSeq.formatOf {} [⟨9, 0⟩, ⟨0, 2⟩]) () lone = .ok _ from rfl)
    rfl rfl rfl { maxSteps := 100 } (by decide) .midi 0⟩

end Sequence
end Sequencer
