import Sequencer.Proofs.Ramps
import Sequencer.Proofs.RefSeq.Readings

/-! Where the messages for a level come from. An instruction sets the level at once, or lets it slide;
some have a message for its controller without changing the level. The clock moves a level along the
ramp of the latest slide, as long as nothing has set it since. -/
namespace Sequencer

/-- Whether a message is for the controller of a level. -/
def MidiMessage.sets (dial : Dial) : MidiMessage → Bool
  | .control number _ => number = dial.controller
  | _ => false

/-- The messages for the controller of a level. -/
def MidiTrack.levels (dial : Dial) (midi : MidiTrack) : List MidiEvent :=
  midi.events.toList.filter fun event => event.message.sets dial

theorem MidiTrack.Extends.levels {before after : MidiTrack} {new : List MidiEvent}
    (extends' : before.Extends new after) (dial : Dial) : after.levels dial =
      before.levels dial ++ new.filter fun event => event.message.sets dial := by
  refine extends'.filter fun message sets => ?_
  cases message <;> first | rfl | cases sets

namespace Visit

/-- The instruction sets the level at once. -/
def SetsLevel (source : Source) (dial : Dial) (visit : Visit) : Prop :=
  ∃ value, RefSeq.kindAt? source visit.offset = some (.level dial value)

/-- The instruction lets the level slide. -/
def Slides (source : Source) (dial : Dial) (visit : Visit) : Prop :=
  ∃ target duration, RefSeq.kindAt? source visit.offset = some (.slide dial target duration)

theorem SetsLevel.not_slides {source : Source} {dial : Dial} {visit : Visit}
    (sets : visit.SetsLevel source dial) : ¬ visit.Slides source dial := by
  rintro ⟨target, duration, slides⟩
  obtain ⟨value, known⟩ := sets
  cases known.symm.trans slides

end Visit

/-- A visit, with the value that the level of the track has then. -/
structure LevelVisit where
  visit : Visit
  level : UInt8
deriving DecidableEq, Repr

namespace LevelVisit

variable {source : Source} {dial : Dial} {entry : LevelVisit} {event : MidiEvent} {ramp : Ramp}

/-- The instruction lets the level slide along the ramp. -/
def Leads (source : Source) (dial : Dial) (entry : LevelVisit) (ramp : Ramp) : Prop :=
  ∃ target duration,
    RefSeq.kindAt? source entry.visit.offset = some (.slide dial target duration) ∧
    ramp = .between .level entry.visit.tick duration entry.level.toNat target.toNat

/-- The message is what the instruction has for the level: that of a tick of the slide, or one of its
own tick. -/
inductive Gives (source : Source) (dial : Dial) (entry : LevelVisit) (event : MidiEvent) : Prop
  | level {value : UInt8} (known : RefSeq.kindAt? source entry.visit.offset = some (.level dial value))
      (now : event.tick = entry.visit.tick) (message : event.message = .control dial.controller value)
  | slide {ramp : Ramp} (leads : entry.Leads source dial ramp)
      (inside : ramp.contains event.tick = true)
      (message : event.message =
        .control dial.controller (UInt8.ofNat (ramp.valueAt event.tick)))
  | other {kind : EventKind} (known : RefSeq.kindAt? source entry.visit.offset = some kind)
      (now : event.tick = entry.visit.tick) (message : event.message ∈ kind.messages)

theorem Leads.slides (leads : entry.Leads source dial ramp) : entry.visit.Slides source dial := by
  obtain ⟨target, duration, known, _⟩ := leads
  exact ⟨target, duration, known⟩

theorem Gives.now_or_slides (gives : entry.Gives source dial event) :
    event.tick = entry.visit.tick ∨ entry.visit.Slides source dial := by
  cases gives with
  | level known now message => exact .inl now
  | slide leads inside message => exact .inr leads.slides
  | other known now message => exact .inl now

theorem Gives.now_of_setsLevel (gives : entry.Gives source dial event)
    (sets : entry.visit.SetsLevel source dial) : event.tick = entry.visit.tick :=
  gives.now_or_slides.resolve_right sets.not_slides

end LevelVisit

/-- Where a message for a level comes from, if a track has come to these visits. What has set the
level at a tick before that of the message, is before the instruction that gives the message; but when
tracks do not keep time together, a slide is written ahead. -/
inductive MidiEvent.Stems (source : Source) (together : Bool) (dial : Dial)
    (entries : List LevelVisit) (event : MidiEvent) : Prop
  | opening (first : event.tick = 0)
  | given {n : Nat} {entry : LevelVisit} (decoded : entries[n]? = some entry)
      (gives : entry.Gives source dial event)
      (current : ∀ m set, entries[m]? = some set → set.visit.SetsLevel source dial →
        set.visit.tick < event.tick → m < n ∨ together = false ∧ entry.visit.Slides source dial)

theorem Dial.controller_inj {dial other : Dial} (same : dial.controller = other.controller) :
    dial = other := by
  cases dial <;> cases other <;> first | rfl | cases same

namespace Player

variable {start player next last : Player} {source : Source} {dial : Dial} {event : MidiEvent}
  {kind : EventKind} {more : Bool}

theorem sets_control {other : Dial} {value : UInt8}
    (sets : (MidiMessage.control other.controller value).sets dial = true) : other = dial :=
  Dial.controller_inj (of_decide_eq_true sets)

/-- What the next step reads, with the level before it. -/
def levelVisit (player : Player) (dial : Dial) : LevelVisit :=
  ⟨player.track.visit, (player.track.dials.get dial).level⟩

/-- What an instruction writes for a level is one of its messages. -/
theorem gives_of_written (known : RefSeq.kindAt? source player.track.visit.offset = some kind)
    (member : event ∈ player.written kind) (sets : event.message.sets dial = true) :
    (player.levelVisit dial).Gives source dial event := by
  cases writes_of_mem member with
  | strike same =>
    subst same
    cases sets
  | level kind same =>
    subst kind same
    cases sets_control sets
    exact .level known rfl rfl
  | @slide _ target duration change kind alone along same =>
    subst kind same
    cases sets_control sets
    obtain ⟨inside, value⟩ := Ramp.mem_changes along
    refine .slide ⟨target, duration, known, rfl⟩ inside ?_
    exact congrArg (fun value => MidiMessage.control dial.controller (UInt8.ofNat value)) value
  | other there same =>
    subst same
    exact .other known rfl there

/-- Tracks that keep time together write nothing ahead. -/
theorem written_now (together : player.setting.tickSync = true)
    (member : event ∈ player.written kind) : event.tick = player.track.time := by
  cases writes_of_mem member with
  | strike same | level _ same | other _ same =>
    subst same
    rfl
  | slide _ alone => cases alone.symm.trans together

/-- An instruction that sets the level takes its ramp off, and a slide puts its own there. -/
theorem mem_steer {stance : Stance} {ramp : Ramp}
    (moves : ramp ∈ (player.steer stance kind).ramps dial) :
    ramp ∈ stance.ramps dial ∧ (∀ value, kind ≠ .level dial value) ∨
      ∃ target duration, kind = .slide dial target duration ∧
        ramp = player.levelRamp dial target duration := by
  cases kind with
  | level changed value =>
    change ramp ∈ (if dial = changed then none else stance.ramps dial) at moves
    split at moves
    · cases moves
    · rename_i apart
      refine .inl ⟨moves, fun value' same => ?_⟩
      cases same
      exact apart rfl
  | slide changed target duration =>
    simp only [steer] at moves
    split at moves
    · by_cases same : dial = changed
      · subst same
        simp only [Stance.setRamp, if_true, Option.mem_def, Option.some.injEq] at moves
        exact .inr ⟨target, duration, rfl, moves.symm⟩
      · simp only [Stance.setRamp, same, if_false] at moves
        exact .inl ⟨moves, by rintro _ ⟨⟩⟩
    · exact .inl ⟨moves, by rintro _ ⟨⟩⟩
  | masterSlide target duration =>
    simp only [steer] at moves
    split at moves <;> exact .inl ⟨moves, by rintro _ ⟨⟩⟩
  | _ => exact .inl ⟨moves, by rintro _ ⟨⟩⟩

/-- The player moves a level on a ramp that it has had before, or on that of a slide. -/
theorem ramp_of_advance (advanced : player.advance = .ok (more, next)) {ramp : Ramp}
    (moves : ramp ∈ next.track.ramps dial) :
    ramp ∈ player.track.ramps dial ∧ ¬ player.track.visit.SetsLevel player.setting.source dial ∨
      (player.levelVisit dial).Leads player.setting.source dial ramp := by
  have stance := congrArg (Stance.ramps · dial) (advance_stance advanced)
  rw [show next.track.ramps dial = next.stance.ramps dial from rfl, stance, steered] at moves
  rcases read : player.reads with ⟨result, stop⟩
  have known := kindAt_of_read read
  rw [read] at moves
  have silent (none : RefSeq.kindAt? player.setting.source player.track.cursor.offset = none) :
      ¬ player.track.visit.SetsLevel player.setting.source dial := by
    rintro ⟨value, sets⟩
    cases none.symm.trans sets
  cases result with
  | error error => exact .inl ⟨moves, silent known⟩
  | ok instruction =>
    cases instruction with
    | octaveNote | cut | unknown => exact .inl ⟨moves, silent known⟩
    | event kind =>
      rcases mem_steer moves with ⟨kept, other⟩ | ⟨target, duration, rfl, same⟩
      · refine .inl ⟨kept, ?_⟩
        rintro ⟨value, sets⟩
        cases known.symm.trans sets
        exact other value rfl
      · exact .inr ⟨target, duration, known, same⟩

theorem ramp_of_moveDials {tick : Nat} {ramp : Ramp}
    (moves : ramp ∈ (player.moveDials tick).track.ramps dial) : ramp ∈ player.track.ramps dial := by
  rw [show (player.moveDials tick).track.ramps dial = (player.moveDials tick).stance.ramps dial
    from rfl, moveDials_stance] at moves
  exact Ramp.mem_of_mem_after moves

theorem mem_glided {tick : Nat} (member : event ∈ player.glided tick dial) :
    ∃ ramp ∈ player.track.ramps dial, ramp.changesAt tick = true ∧ event.tick = tick ∧
      event.message = .control dial.controller (UInt8.ofNat (ramp.valueAt tick)) := by
  unfold glided at member
  split at member
  · cases member
  · rename_i ramp moves
    split at member
    · rename_i changes
      cases List.mem_singleton.mp member
      exact ⟨ramp, moves, changes, rfl, rfl⟩
    · cases member

/-- What the clock writes is for the level that it moves. -/
theorem glided_sets (player : Player) (tick : Nat) (dial other : Dial) :
    (player.glided tick other).filter (fun event => event.message.sets dial) =
      if other = dial then player.glided tick dial else [] := by
  unfold glided
  by_cases same : other = dial
  · subst same
    rw [if_pos rfl]
    split
    · rfl
    · split
      · simp [MidiMessage.sets]
      · rfl
  · rw [if_neg same]
    split
    · rfl
    · split
      · have apart : other.controller ≠ dial.controller :=
          fun equal => same (Dial.controller_inj equal)
        simp [MidiMessage.sets, apart]
      · rfl

theorem glided_all (player : Player) (tick : Nat) (dial : Dial) :
    (player.glided tick .volume ++ player.glided tick .expression ++ player.glided tick .pan).filter
      (fun event => event.message.sets dial) = player.glided tick dial := by
  rw [List.filter_append, List.filter_append, glided_sets, glided_sets, glided_sets]
  cases dial <;> simp

/-- The messages for a level that a step adds are those that its instruction has for it. -/
theorem Reads.mem_levels (reads : player.Reads next)
    (member : event ∈ next.track.midi.levels dial) :
    event ∈ player.track.midi.levels dial ∨ ∃ kind,
      RefSeq.kindAt? player.setting.source player.track.visit.offset = some kind ∧
      event ∈ player.written kind ∧ event.message.sets dial = true := by
  rw [reads.midi.levels, List.mem_append] at member
  refine member.imp_right fun member => ?_
  obtain ⟨member, sets⟩ := List.mem_filter.mp member
  cases recorded : player.reading.kind? player.setting.source with
  | none =>
    rw [recorded] at member
    cases member
  | some kind =>
    rw [recorded] at member
    cases known : RefSeq.kindAt? player.setting.source player.track.visit.offset with
    | some kind' =>
      have same : player.reading.kind? player.setting.source = some kind' :=
        RefSeq.kind_of_kindAt known
      cases recorded.symm.trans same
      exact ⟨kind, rfl, member, sets⟩
    | none =>
      rcases RefSeq.kind_of_kindAt_none known recorded with ⟨_, _, _, rfl⟩ | ⟨_, rfl⟩
      · cases List.mem_singleton.mp member
        cases sets
      · cases member

end Player

namespace MidiEvent

variable {source : Source} {together : Bool} {dial : Dial} {entries : List LevelVisit}
  {entry : LevelVisit} {event : MidiEvent}

/-- An instruction gives its own messages, and has nothing after its tick if it sets the level. -/
theorem stems_last (gives : entry.Gives source dial event) :
    event.Stems source together dial (entries ++ [entry]) := by
  have last : (entries ++ [entry])[entries.length]? = some entry := by simp
  refine .given last gives fun m set there sets before => ?_
  rcases List.getElem?_concat there with there | ⟨_, rfl⟩
  · exact .inl (List.getElem?_eq_some_iff.mp there).1
  · exact absurd (gives.now_of_setsLevel sets) (Nat.ne_of_gt before)

/-- With a later instruction the messages of a slide may be behind what sets the level. -/
theorem Stems.push (stems : event.Stems source together dial entries)
    (past : ∀ earlier ∈ entries, earlier.visit.tick ≤ entry.visit.tick)
    (early : together = true → event.tick ≤ entry.visit.tick) :
    event.Stems source together dial (entries ++ [entry]) := by
  cases stems with
  | opening first => exact .opening first
  | @given n giver decoded gives current =>
    have inside := (List.getElem?_eq_some_iff.mp decoded).1
    refine .given ((List.getElem?_append_left inside).trans decoded) gives ?_
    intro m set there sets before
    rcases List.getElem?_concat there with there | ⟨_, rfl⟩
    · exact current m set there sets before
    · refine .inr ⟨?_, gives.now_or_slides.resolve_left fun now => ?_⟩
      · exact Bool.eq_false_iff.mpr fun same => Nat.not_le.mpr before (early same)
      · rw [now] at before
        exact absurd (past giver (List.mem_of_getElem? decoded)) (Nat.not_le.mpr before)

end MidiEvent

namespace Player

variable {start player next last : Player} {dial : Dial} {visits : List Visit}
  {entries : List LevelVisit} {limits : Limits} {event : MidiEvent} {more : Bool}

/-- The messages for a level come from the visits. If it moves on a ramp, then on that of a slide after
which nothing has set it. Tracks that keep time together have written no message ahead. -/
structure Levelled (start : Player) (dial : Dial) (visits : List Visit) (entries : List LevelVisit)
    (player : Player) : Prop where
  setting : player.setting = start.setting
  visited : entries.map LevelVisit.visit = visits
  tied : player.Tied
  stems : ∀ event ∈ player.track.midi.levels dial,
    event.Stems start.setting.source start.setting.tickSync dial entries
  leads : ∀ ramp ∈ player.track.ramps dial, ∃ (n : Nat) (entry : LevelVisit),
    entries[n]? = some entry ∧ entry.Leads start.setting.source dial ramp ∧
    ∀ (m : Nat) (set : LevelVisit), entries[m]? = some set →
      set.visit.SetsLevel start.setting.source dial → m < n
  early : start.setting.tickSync = true → ∀ event ∈ player.track.midi.levels dial,
    event.tick ≤ player.track.time

theorem Levelled.writes (levelled : start.Levelled dial visits entries player)
    (writes : start.writing = true) : player.writing = true := by
  unfold writing
  rw [levelled.setting]
  exact writes

theorem Levelled.stems_advance (levelled : start.Levelled dial visits entries player)
    (past : ∀ visit ∈ visits, visit.tick ≤ player.track.time) (reads : player.Reads next) :
    ∀ event ∈ next.track.midi.levels dial, event.Stems start.setting.source start.setting.tickSync
      dial (entries ++ [player.levelVisit dial]) := by
  intro event member
  rcases reads.mem_levels member with member | ⟨kind, known, member, sets⟩
  · refine (levelled.stems event member).push (fun entry there => past entry.visit ?_)
      fun together => levelled.early together event member
    rw [← levelled.visited]
    exact List.mem_map_of_mem there
  · rw [levelled.setting] at known
    exact MidiEvent.stems_last (gives_of_written known member sets)

/-- A slide that is read, and the ramp of an earlier one unless its level is set, have nothing after
them that sets the level. -/
theorem Levelled.leads_advance (levelled : start.Levelled dial visits entries player)
    (advanced : player.advance = .ok (more, next)) : ∀ ramp ∈ next.track.ramps dial,
      ∃ (n : Nat) (entry : LevelVisit), (entries ++ [player.levelVisit dial])[n]? = some entry ∧
        entry.Leads start.setting.source dial ramp ∧
        ∀ (m : Nat) (set : LevelVisit), (entries ++ [player.levelVisit dial])[m]? = some set →
          set.visit.SetsLevel start.setting.source dial → m < n := by
  intro ramp moves
  have leads := ramp_of_advance advanced moves
  rw [levelled.setting] at leads
  rcases leads with ⟨moves, unset⟩ | leads
  · obtain ⟨n, entry, decoded, leads, latest⟩ := levelled.leads ramp moves
    have inside := (List.getElem?_eq_some_iff.mp decoded).1
    refine ⟨n, entry, (List.getElem?_append_left inside).trans decoded, leads, ?_⟩
    intro m set there sets
    rcases List.getElem?_concat there with there | ⟨_, rfl⟩
    · exact latest m set there sets
    · exact absurd sets unset
  · refine ⟨entries.length, player.levelVisit dial, by simp, leads, ?_⟩
    intro m set there sets
    rcases List.getElem?_concat there with there | ⟨_, rfl⟩
    · exact (List.getElem?_eq_some_iff.mp there).1
    · exact absurd leads.slides sets.not_slides

theorem Levelled.early_advance (levelled : start.Levelled dial visits entries player)
    (later : player.track.time ≤ next.track.time) (reads : player.Reads next)
    (together : start.setting.tickSync = true) :
    ∀ event ∈ next.track.midi.levels dial, event.tick ≤ next.track.time := by
  intro event member
  rcases reads.mem_levels member with member | ⟨kind, _, member, _⟩
  · exact Nat.le_trans (levelled.early together event member) later
  · rw [written_now (levelled.setting ▸ together) member]
    exact later

theorem Levelled.visited_advance (levelled : start.Levelled dial visits entries player) :
    (entries ++ [player.levelVisit dial]).map LevelVisit.visit =
      visits ++ [player.track.visit] := by
  rw [List.map_append, levelled.visited]
  rfl

theorem Levelled.advance (levelled : start.Levelled dial visits entries player)
    (writes : start.writing = true) (past : ∀ visit ∈ visits, visit.tick ≤ player.track.time)
    (later : player.track.time ≤ next.track.time) (advanced : player.advance = .ok (more, next)) :
    start.Levelled dial (visits ++ [player.track.visit]) (entries ++ [player.levelVisit dial])
      next :=
  have reads := advance_reads levelled.tied (levelled.writes writes) advanced
  { setting := reads.setting.trans levelled.setting
    visited := levelled.visited_advance
    tied := reads.tied
    stems := levelled.stems_advance past reads
    leads := levelled.leads_advance advanced
    early := levelled.early_advance later reads }

/-- The clock moves a level along the ramp of the latest slide. -/
theorem Levelled.glide (levelled : start.Levelled dial visits entries player)
    (writes : start.writing = true) {tick : Nat} (early : tick ≤ player.track.time) :
    start.Levelled dial visits entries (player.moveDials tick) := by
  have adds := moveDials_adds levelled.tied (levelled.writes writes) tick
  have levels : (player.moveDials tick).track.midi.levels dial =
      player.track.midi.levels dial ++ player.glided tick dial := by
    rw [adds.midi.levels, glided_all]
  refine ⟨adds.setting.trans levelled.setting, levelled.visited, adds.tied, ?_,
    fun ramp moves => levelled.leads ramp (ramp_of_moveDials moves), ?_⟩
  · intro event member
    rw [levels, List.mem_append] at member
    rcases member with member | member
    · exact levelled.stems event member
    · obtain ⟨ramp, moves, changes, now, message⟩ := mem_glided member
      obtain ⟨n, entry, decoded, leads, latest⟩ := levelled.leads ramp moves
      rw [← now] at changes message
      exact .given decoded (.slide leads (Ramp.contains_of_changesAt changes) message)
        fun m set there sets _ => .inl (latest m set there sets)
  · intro together event member
    rw [levels, List.mem_append] at member
    rw [adds.time]
    rcases member with member | member
    · exact levelled.early together event member
    · obtain ⟨_, _, _, now, _⟩ := mem_glided member
      rw [now]
      exact early

/-- The clock of a track does not go back behind what the track has decoded. -/
theorem Traces.past (traces : start.Traces visits player) (fresh : start.Fresh) :
    ∀ visit ∈ visits, visit.tick ≤ player.track.time := by
  have within : start.track.position.tick ≤ Tick.last := by
    change start.track.time ≤ Tick.last
    rw [fresh.time]
    exact Nat.zero_le _
  have ascending : (start.track.position.freeRun start.setting.source start.setting.maxDepth
      (visits.length + 1)).Pairwise fun first second => first.2 ≤ second.2 :=
    Position.freeRun_ascending within _
  rw [← traces.visited] at ascending
  have ordered := List.pairwise_append.mp (List.pairwise_map.mp ascending)
  exact fun visit member => ordered.2.2 visit member _ List.mem_cons_self

/-- What a track that is played on its own has at its start. -/
structure LevelStart (start : Player) (dial : Dial) : Prop where
  fresh : start.Fresh
  tied : start.Tied
  writes : start.writing = true
  opening : ∀ event ∈ start.track.midi.levels dial, event.tick = 0
  still : start.track.ramps dial = none

theorem Runs.levelled (begins : start.LevelStart dial)
    (countable : limits.Countable start.setting.loopRule)
    (runs : Runs limits start visits player) :
    ∃ entries, start.Levelled dial visits entries player := by
  induction runs with
  | start =>
    refine ⟨[], rfl, rfl, begins.tied, fun event member => .opening (begins.opening event member),
      ?_, ?_⟩
    · rw [begins.still]
      exact fun ramp none => absurd none (Option.not_mem_none ramp)
    · intro _ event member
      rw [begins.opening event member]
      exact Nat.zero_le _
  | step runs may punctual advanced ih =>
    obtain ⟨entries, levelled⟩ := ih
    have past := (runs.traces begins.fresh countable).past begins.fresh
    have later := ((runs.step may punctual advanced).traces begins.fresh countable).past
      begins.fresh _ (List.mem_append_right _ List.mem_cons_self)
    exact ⟨_, levelled.advance begins.writes past later advanced⟩
  | glide runs together tick early ih =>
    obtain ⟨entries, levelled⟩ := ih
    exact ⟨entries, levelled.glide begins.writes early⟩

theorem levels_finish (tied : player.Tied) (writes : player.writing = true)
    (finished : player.finish = .ok last) :
    last.track.midi.levels dial = player.track.midi.levels dial := by
  have adds := finish_adds tied writes last finished
  rw [adds.midi.levels]
  exact List.append_nil _

/-- The messages for a level of a track that has ended come from its visits. -/
theorem Ends.levelled (begins : start.LevelStart dial)
    (countable : limits.Countable start.setting.loopRule)
    (ends : Ends limits start visits last) :
    ∃ entries : List LevelVisit, entries.map LevelVisit.visit = visits ∧
      ∀ event ∈ last.track.midi.levels dial,
        event.Stems start.setting.source start.setting.tickSync dial entries := by
  cases ends with
  | @refused visits player next _ runs may punctual advanced finished =>
    obtain ⟨entries, levelled⟩ := runs.levelled begins countable
    have past := (runs.traces begins.fresh countable).past begins.fresh
    have reads := advance_reads levelled.tied (levelled.writes begins.writes) advanced
    have writes : next.writing = true := by
      rw [writing, reads.setting]
      exact levelled.writes begins.writes
    refine ⟨_, levelled.visited_advance, ?_⟩
    rw [levels_finish reads.tied writes finished]
    exact levelled.stems_advance past reads
  | stopped runs stopped finished =>
    obtain ⟨entries, levelled⟩ := runs.levelled begins countable
    refine ⟨entries, levelled.visited, ?_⟩
    rw [levels_finish levelled.tied (levelled.writes begins.writes) finished]
    exact levelled.stems

end Player
end Sequencer
