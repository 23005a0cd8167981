import Sequencer.Proofs.Passes
import Sequencer.Proofs.Unrolled

/-! The length pass over a structured program. It decodes the unrolling, and its timeline lists the
unrolling with the ticks that the rests and holds come to. -/
namespace Sequencer

open RefSeq (format Program Code Item)

/-- The start of an entry and the offset of its event, unless that is one of control flow. -/
def Shared.noted? (shared : Shared) (index : Nat) : Option (Nat × Nat) := do
  let entry ← shared.timeline.entries[index]?
  let event ← shared.eventOf? entry
  if event.kind.isControlFlow then none else some (entry.start, event.offset)

/-- The entries of the timeline other than those of control flow, as they are read. -/
def Sequence.noted (sequence : Sequence Unit) : List (Nat × Nat) :=
  sequence.timeline.byStart.toList.filterMap sequence.stage.shared.noted?

/-- The instruction at an offset makes an entry that is not one of control flow. -/
def RefSeq.isNoted (source : Source) (offset : Nat) : Bool :=
  RefSeq.isRecorded source offset && !(RefSeq.kindAt? source offset).any EventKind.isControlFlow

def Row.noted? (source : Source) (row : Row) : Option (Nat × Nat) := do
  let place ← row.place
  if (RefSeq.kindAt? source place.offset).any EventKind.isControlFlow then none
  else some (row.start, place.offset)

namespace Shared

variable {source : Source} {shared : Shared} {visits : List Visit}

theorem noted_eq_rows (faithful : shared.arena.Faithful source) :
    shared.timeline.order.filterMap shared.noted? =
      (shared.rows.mergeSort fun a b => a.start ≤ b.start).filterMap (Row.noted? source) := by
  have noted (index : Nat) : shared.noted? index =
      ((shared.timeline.entries[index]?).map shared.rowOf).bind (Row.noted? source) := by
    unfold noted?
    cases shared.timeline.entries[index]? with
    | none => rfl
    | some entry =>
      simp only [Option.map_some, Option.bind_eq_bind, Option.bind_some, rowOf]
      cases found : shared.eventOf? entry with
      | none => rfl
      | some event =>
        simp only [Option.bind_some, faithful.directs found]
        rfl
  rw [show shared.noted? = _ from funext noted]
  exact shared.order_filterMap (Row.noted? source)

theorem rows_filterMap_noted (journal : shared.tags = visits.filterMap (Visit.tag? source)) :
    shared.rows.filterMap (Row.noted? source) =
      (visits.filter fun visit => RefSeq.isNoted source visit.offset).map fun visit =>
        (visit.tick, visit.offset) := by
  rw [tags_eq_rows] at journal
  have tagged := congrArg (List.filterMap fun tag : Nat × Option Place =>
    Row.noted? source ⟨tag.1, 0, tag.2⟩) journal
  rw [List.filterMap_map, List.filterMap_filterMap] at tagged
  rw [← List.filterMap_eq_map, List.filterMap_filter]
  refine tagged.trans (congrArg (List.filterMap · visits) (funext fun visit => ?_))
  unfold Visit.tag? RefSeq.isNoted
  by_cases recorded : RefSeq.isRecorded source visit.offset = true
  · by_cases directs : (RefSeq.kindAt? source visit.offset).any EventKind.isControlFlow = true
    · simp [recorded, directs, Row.noted?, Visit.place]
    · simp [recorded, directs, Row.noted?, Visit.place]
  · simp [recorded]

/-- Visits whose ticks do not go back leave rows that stand in order. -/
theorem sorted_of_journal (journal : shared.tags = visits.filterMap (Visit.tag? source))
    (ascending : visits.Pairwise fun first second => first.tick ≤ second.tick) :
    (shared.rows.mergeSort fun a b => a.start ≤ b.start) = shared.rows := by
  have ordered := Visit.tags_ascending source ascending
  rw [← journal] at ordered
  rw [tags_eq_rows] at ordered
  refine List.mergeSort_of_pairwise ((List.pairwise_map.mp ordered).imp ?_)
  intro first second le
  exact decide_eq_true le

end Shared

/-- The visits of a single track that decodes some items. -/
def RefSeq.Item.visits (items : List Item) : List Visit :=
  (Item.timed 0 items).map fun (tick, item) => ⟨0, item.offset, tick⟩

namespace RefSeq.Item

variable {source : Source} {ticksPerQuarter : UInt16} {items : List Item}

theorem tick_le_of_mem_timed {tick : Nat} {timed : Nat × Item}
    (member : timed ∈ Item.timed tick items) : tick ≤ timed.1 := by
  induction items generalizing tick with
  | nil => cases member
  | cons item rest ih =>
    rcases List.mem_cons.mp member with rfl | member
    · exact Nat.le_refl _
    · exact Nat.le_trans (Nat.le_add_right _ _) (ih member)

theorem timed_ascending (tick : Nat) (items : List Item) :
    (Item.timed tick items).Pairwise fun first second => first.1 ≤ second.1 := by
  induction items generalizing tick with
  | nil => exact .nil
  | cons item rest ih =>
    refine .cons (fun later member => ?_) (ih _)
    exact Nat.le_trans (Nat.le_add_right _ _) (tick_le_of_mem_timed member)

theorem map_snd_timed (tick : Nat) (items : List Item) :
    (Item.timed tick items).map Prod.snd = items := by
  induction items generalizing tick with
  | nil => rfl
  | cons item rest ih => rw [timed, List.map_cons, ih]

theorem mem_of_mem_timed {tick : Nat} {timed : Nat × Item}
    (member : timed ∈ Item.timed tick items) : timed.2 ∈ items := by
  rw [← map_snd_timed tick items]
  exact List.mem_map_of_mem member

theorem isNoted_of_names {item : Item} (names : item.Names source ticksPerQuarter) :
    RefSeq.isNoted source item.offset = item.isNoted := by
  obtain ⟨instruction, stop, read, means⟩ := names
  obtain ⟨offset, statement⟩ := item
  simp only [RefSeq.isNoted, RefSeq.isRecorded, RefSeq.kindAt?, read]
  cases statement with
  | none =>
    obtain ⟨kind, rfl, directs⟩ := means
    simp [directs, isNoted]
  | some statement =>
    cases means
    cases statement <;> rfl

/-- The items that are noted, with their ticks. -/
def noted (items : List Item) : List (Nat × Nat) :=
  ((Item.timed 0 items).filter fun timed => timed.2.isNoted).map fun (tick, item) =>
    (tick, item.offset)

theorem noted_visits (names : ∀ item ∈ items, item.Names source ticksPerQuarter) :
    ((Item.visits items).filter fun visit => RefSeq.isNoted source visit.offset).map
      (fun visit => (visit.tick, visit.offset)) = Item.noted items := by
  rw [visits, List.filter_map, List.map_map, noted]
  congr 1
  exact List.filter_congr fun timed member => isNoted_of_names (names _ (mem_of_mem_timed member))

end RefSeq.Item

namespace Sequence

/-- The length pass of a sequence with a single track decodes the items and ends with the last of
them. -/
structure Unrolls (sequence : Sequence Unit) (items : List Item) (played : Sequence Unit) :
    Prop where
  run : sequence.runPass .length 0 = .ok played
  visits : sequence.visits .length 0 = .ok (Item.visits items)
  noted : played.noted = Item.noted items
  tracks : ∃ track, played.tracks = [track] ∧ track.guard.trips = 0 ∧
    track.totalTicks = Item.total items

variable {source : Source} {sequence : Sequence Unit} {ticksPerQuarter : UInt16} {start : Nat}
  {channel : UInt8} {items : List Item} {pass : Pass} {stage : Stage (Unit × List Visit)}
  {transposes : Transposes}

/-- A pass without a limit of time decodes just the items of a single track. -/
theorem Passes.decodes (passes : sequence.Passes pass 0 stage transposes)
    (intact : sequence.Intact source) (single : sequence.tracks.map origin = [(0, start, channel)])
    (performs : Position.Performs source sequence.options.maxDepth ticksPerQuarter
      ⟨⟨start, [], []⟩, 0⟩ items)
    (budget : items.length ≤ sequence.options.maxSteps) (within : Item.total items ≤ Tick.last) :
    stage.memory.2 = Item.visits items ∧ ∃ track, stage.tracks = [track] ∧
      track.guard.trips = 0 ∧ track.totalTicks = Item.total items := by
  have length := congrArg List.length single
  rw [List.length_map, ← passes.length_eq] at length
  obtain ⟨track, only⟩ := List.length_eq_one_iff.mp length
  obtain ⟨before, began, solo, there, ended⟩ :=
    passes.ended intact (show stage.tracks[0]? = some track by rw [only]; rfl)
  have origins : origin before ∈ sequence.tracks.map origin :=
    List.mem_map_of_mem (List.mem_of_getElem? there)
  rw [single] at origins
  have origin := ended.origin_eq.trans (List.mem_singleton.mp origins)
  have index : track.index = 0 := congrArg Prod.fst origin
  have opening : track.opening = ⟨⟨start, [], []⟩, 0⟩ :=
    congrArg (fun origin : Nat × Nat × UInt8 => (⟨⟨origin.2.1, [], []⟩, 0⟩ : Position)) origin
  obtain ⟨decoded, endless, _, ending⟩ := ended.follows
  have alone : ∀ visit ∈ stage.memory.2, visit.track = 0 := by
    intro visit member
    obtain ⟨start, known, same⟩ := passes.played.inside visit member
    obtain ⟨before, first, origin⟩ := origin_of_mem_starts known
    have origins := List.mem_map_of_mem (f := Sequence.origin) first
    rw [single, ← origin] at origins
    exact same.trans (congrArg Prod.fst (List.mem_singleton.mp origins))
  rw [opening, intact.reads] at endless ending
  rw [index, visitsOf_own alone, opening, intact.reads] at decoded
  rw [index, visitsOf_own alone] at ending
  obtain ⟨uncounted, all, total⟩ := ending.performs endless performs budget (by simpa using within)
  rw [all, performs.freeRun] at decoded
  have named := congrArg (List.map fun visit => (⟨0, visit.1, visit.2⟩ : Visit)) decoded
  rw [List.map_map, List.map_map] at named
  refine ⟨?_, track, only, uncounted, total.trans (Nat.zero_add _)⟩
  refine Eq.trans ?_ named
  refine (List.map_id _).symm.trans (List.map_congr_left fun visit member => ?_)
  rw [← alone visit member]
  rfl

theorem Intact.unrolls (intact : sequence.Intact source)
    (single : sequence.tracks = [Track.starting 0 start channel])
    (performs : Position.Performs source sequence.options.maxDepth ticksPerQuarter
      ⟨⟨start, [], []⟩, 0⟩ items)
    (budget : items.length ≤ sequence.options.maxSteps) (within : Item.total items ≤ Tick.last) :
    ∃ played, sequence.Unrolls items played := by
  obtain ⟨stage, transposes, passes⟩ := intact.passes .length 0
  have origins : sequence.tracks.map origin = [(0, start, channel &&& 0x0F)] := by
    rw [single]
    rfl
  obtain ⟨visits, track, only, uncounted, total⟩ :=
    passes.decodes intact origins performs budget within
  refine ⟨_, passes.run, visits ▸ passes.visits, ?_, track.conclude .length, ?_, uncounted, total⟩
  · have journal := passes.played.ensemble.journal
    have faithful := passes.played.ensemble.faithful
    rw [show (sequence.setting .length).source = source from intact.reads] at journal faithful
    rw [visits] at journal
    have ascending : (Item.visits items).Pairwise fun first second =>
        first.tick ≤ second.tick :=
      List.pairwise_map.mpr (Item.timed_ascending 0 items)
    have noted : stage.shared.timeline.order.filterMap stage.shared.noted? = Item.noted items := by
      rw [Shared.noted_eq_rows faithful, Shared.sorted_of_journal journal ascending,
        Shared.rows_filterMap_noted journal, Item.noted_visits performs.names]
    exact noted
  · rw [conclude_tracks]
    exact congrArg (List.map (Track.conclude .length)) only

end Sequence

/-- A structured program plays as it is unrolled: the length pass decodes the body of each loop once
for each round, and the subroutine of each call, and the timeline has their ticks. -/
theorem RefSeq.Program.length_unrolls {program : Program} {file : RefSeq.Assembled}
    {options : Options} (assembled : RefSeq.assemble program.statements = .ok file)
    (within : program.main.Within program.subroutines options.maxDepth options.maxDepth)
    (bounded : options.maxSteps ≤ Tick.last) : ∃ sequence items,
      Sequence.ofSource format () file.bytes = .ok sequence ∧
      program.unroll file.labels options.maxDepth = some items ∧
      (items.length ≤ options.maxSteps → Item.total items ≤ Tick.last →
        ∃ played, (sequence.withOptions options).Unrolls items played) := by
  have stands := standsIn_of_assemble assembled
  obtain ⟨sequence, accepted, _, single⟩ := stands.opened
  have labelled : ∀ name code, program.subroutines.lookup name = some code →
      ∃ offset, file.labels.lookup name = some offset := by
    intro name code known
    obtain ⟨_, offset, found, _⟩ := stands.subroutines name code known
    exact ⟨offset, found⟩
  obtain ⟨before, expanded⟩ := unrolls_of_within within labelled Program.start
  have unrolled : program.unroll file.labels options.maxDepth =
      some (before ++ [⟨Program.start + program.main.size, none⟩]) := by
    simp [Program.unroll, expanded]
  refine ⟨sequence, _, accepted, unrolled, fun budget late => ?_⟩
  have intact := ((Sequence.Reachable.opened accepted).configured options bounded).intact
  exact intact.unrolls single (stands.performs unrolled late) budget late

/-- Two rounds that call a subroutine, which has a loop of its own. -/
def RefSeq.rounds : Program where
  main := .plain (.rest 1) (.loop 2 (by decide) (.call "riff" (.plain .cut .done)) .done)
  subroutines := [("riff", .plain (.note 60 100 2) (.loop 3 (by decide)
    (.plain (.hold 2) .done) .done))]

theorem RefSeq.Program.length_unrolls_rounds : ∃ file sequence items played,
    RefSeq.assemble RefSeq.rounds.statements = .ok file ∧
    Sequence.ofSource format () file.bytes = .ok sequence ∧
    RefSeq.rounds.unroll file.labels 2 = some items ∧
    Item.noted items = [(0, 14), (1, 25), (1, 32), (3, 32), (5, 32), (7, 25), (7, 32), (9, 32),
      (11, 32)] ∧
    (sequence.withOptions { maxDepth := 2 }).Unrolls items played := by
  have within : RefSeq.rounds.main.Within RefSeq.rounds.subroutines 2 2 :=
    .plain (.loop (.call rfl (.plain (.loop (.plain .done) .done)) (.plain .done)) .done)
  have assembled : RefSeq.assemble RefSeq.rounds.statements = .ok _ := rfl
  obtain ⟨sequence, items, accepted, unrolled, all⟩ :=
    @length_unrolls _ _ { maxDepth := 2 } assembled within (by decide)
  have listed : RefSeq.rounds.unroll [("riff", 25)] 2 = some _ := rfl
  cases listed.symm.trans unrolled
  obtain ⟨played, unrolls⟩ := all (by decide) (by decide)
  exact ⟨_, sequence, _, played, assembled, accepted, unrolled, rfl, unrolls⟩

end Sequencer
