import Sequencer.Proofs.Among.Home
import Sequencer.Proofs.RefSeq.Operands
import Sequencer.Proofs.Score.Perform
import Sequencer.Proofs.Settled
import Sequencer.Proofs.Solo

/-! The score along a run. When a track has ended, all entries that its instructions have made for
notes are whole. -/
namespace Sequencer

open RefSeq (longest)

def RefSeq.startsNote (source : Source) (offset : Nat) : Bool :=
  match RefSeq.instruction source offset with
  | (.ok (.event kind), _) => kind.startsNote
  | (.ok (.octaveNote ..), _) => true
  | _ => false

namespace Shared

def eventAt? (shared : Shared) (index : Nat) : Option Event :=
  shared.timeline.entries[index]?.bind shared.eventOf?

/-- The indices of the entries that were made for notes. -/
def noteIndices (source : Source) (shared : Shared) : List Nat :=
  (List.range shared.timeline.size).filter fun index =>
    (shared.eventAt? index).any fun event => RefSeq.startsNote source event.offset

variable {shared before after : Shared}

theorem eventAt_eq (shared : Shared) (index : Nat) : shared.eventAt? index =
    shared.timeline.skeleton[index]?.bind fun (_, id) => shared.arena.get? id := by
  unfold eventAt? Timeline.skeleton
  rw [List.getElem?_map, Array.getElem?_toList]
  cases shared.timeline.entries[index]? <;> rfl

theorem noteIndices_congr (arena : after.arena = before.arena)
    (skeleton : after.timeline.skeleton = before.timeline.skeleton) (source : Source) :
    after.noteIndices source = before.noteIndices source := by
  have size : after.timeline.size = before.timeline.size := by
    rw [← Timeline.length_skeleton, skeleton, Timeline.length_skeleton]
  unfold noteIndices
  rw [size]
  refine List.filter_congr fun index _ => ?_
  rw [eventAt_eq, eventAt_eq, skeleton, arena]

theorem noteIndices_enter (sound : shared.arena.Sound) (resolved : shared.Resolved)
    (source : Source) (tick : Nat) (event : Event) :
    (shared.enter tick event).noteIndices source = shared.noteIndices source ++
      if RefSeq.startsNote source event.offset then [shared.timeline.size] else [] := by
  have size : (shared.enter tick event).timeline.size = shared.timeline.size + 1 :=
    Array.size_push ..
  have earlier : ∀ index < shared.timeline.size,
      (shared.enter tick event).eventAt? index = shared.eventAt? index := by
    intro index inside
    obtain ⟨entry, stored, found, there⟩ := resolved.event inside
    have kept : (shared.enter tick event).timeline.entries[index]? = some entry :=
      (Array.getElem?_push_lt inside).trans ((Array.getElem?_eq_getElem _).symm.trans found)
    rw [eventAt?, eventAt?, kept, found, Option.bind_some, Option.bind_some, there]
    exact Arena.get_store_of_get there
  have last : (shared.enter tick event).eventAt? shared.timeline.size =
      some ((shared.arena.eventAt? event.place).getD event) := by
    have new : (shared.enter tick event).timeline.entries[shared.timeline.size]? =
        some ⟨tick, event.kind.duration, shared.arena.storedId event⟩ := Array.getElem?_push_size
    rw [eventAt?, new]
    exact Arena.get_storedId sound event
  have offset : ((shared.arena.eventAt? event.place).getD event).offset = event.offset :=
    congrArg Place.offset (Arena.place_getD_eventAt sound event)
  unfold noteIndices
  rw [size, List.range_succ, List.filter_append]
  congr 1
  · refine List.filter_congr fun index member => ?_
    rw [earlier index (List.mem_range.mp member)]
  · rw [List.filter_cons, List.filter_nil, last, Option.any_some, offset]

end Shared

theorem Score.add {channel : UInt8} {now : Nat} {sheet : Sheet} {known : List Nat}
    {opened : List OpenNote} {labelled : Labelled}
    (score : Score channel now sheet known opened labelled) (entry : Entry) :
    Score channel now ⟨sheet.timeline.add entry, sheet.midi⟩ known opened labelled where
  messages := score.messages
  notes := score.notes
  labels := score.labels
  voices := fun index member => (score.voices index member).imp_right fun ⟨entry, found, whole⟩ =>
    ⟨entry, Timeline.getElem_add found _, whole⟩
  begun := fun note member => by
    obtain ⟨⟨index, entry, velocity, own, found, rest⟩, early⟩ := score.begun note member
    exact ⟨⟨index, entry, velocity, own, Timeline.getElem_add found _, rest⟩, early⟩
  apart := score.apart

namespace Player

variable {known : List Nat} {player next : Player} {labelled : Labelled}

theorem Scored.noted (scored : player.Scored known labelled) (stop : Nat) (kind : EventKind) :
    (player.noted stop kind).Scored known labelled where
  writing := scored.writing
  score := scored.score.add _
  timed := fun note member => by
    obtain ⟨index, entry, position, event, key, own, found, rest⟩ := scored.timed note member
    exact ⟨index, entry, position, event, key, own, Timeline.getElem_add found _, rest⟩

theorem startsNote_of_read {result : Except ReadError RefSeq.Instruction} {stop : Nat}
    (read : player.reads = (result, stop)) :
    RefSeq.startsNote player.setting.source player.track.cursor.offset =
      match result with
      | .ok (.event kind) => kind.startsNote
      | .ok (.octaveNote ..) => true
      | _ => false := by
  unfold RefSeq.startsNote
  rw [show RefSeq.instruction player.setting.source player.track.cursor.offset = (result, stop)
    from read]
  cases result with
  | error error => rfl
  | ok instruction => cases instruction <;> rfl

/-- The entries that are known after the next step. -/
def nextKnown (known : List Nat) (player : Player) : List Nat :=
  known ++ if RefSeq.startsNote player.setting.source player.track.cursor.offset then
    [player.shared.timeline.size] else []

theorem Scored.event {instruction : RefSeq.Instruction} {stop : Nat} {kind : EventKind}
    {more : Bool} (scored : player.Scored known labelled)
    (within : player.track.time + longest ≤ Tick.last)
    (read : player.reads = (.ok instruction, stop))
    (recorded : instruction.kind? player.track = some kind)
    (performed : (player.noted stop kind).perform kind
      (some player.shared.timeline.nextIndex) = .ok (more, next)) :
    next.Notated (player.nextKnown known) := by
  have starts : RefSeq.startsNote player.setting.source player.track.cursor.offset =
      kind.startsNote := by
    rw [startsNote_of_read read]
    cases instruction <;> cases recorded <;> rfl
  have bound : kind.duration ≤ longest := by
    have ticks := RefSeq.ticks_le read
    cases instruction <;> cases recorded <;> exact ticks
  have notated := (scored.noted stop kind).perform
    (fun member => Nat.lt_irrefl _ (scored.score.inside member)) Array.getElem?_push_size rfl rfl
    (Nat.le_trans (Nat.add_le_add_left bound _) within) performed
  unfold nextKnown
  rw [starts]
  unfold knownAfter at notated
  cases plays : kind.startsNote with
  | true =>
    rw [plays] at notated
    exact notated
  | false =>
    rw [plays] at notated
    simpa using notated

/-- A step keeps the score. An instruction that starts a note adds its entry to it. -/
theorem Scored.advance {more : Bool} (scored : player.Scored known labelled)
    (within : player.track.time + longest ≤ Tick.last)
    (advanced : player.advance = .ok (more, next)) : next.Notated (player.nextKnown known) := by
  have silent {result : Except ReadError RefSeq.Instruction} {stop : Nat}
      (read : player.reads = (result, stop)) (other : (match result with
        | .ok (.event kind) => kind.startsNote
        | .ok (.octaveNote ..) => true
        | _ => false) = false) (notated : next.Notated known) :
      next.Notated (player.nextKnown known) := by
    rw [nextKnown, startsNote_of_read read, other]
    simpa using notated
  cases advance_iff.mp advanced with
  | @unreadable error stop read =>
    exact silent read rfl ⟨labelled, scored.plain rfl rfl (Nat.le_refl _) rfl rfl rfl⟩
  | @unknown opcode stop read => exact silent read rfl ⟨labelled, scored.noted stop _⟩
  | @cut stop _ read limited =>
    have reading : (player.readTo stop).Scored known labelled :=
      scored.plain rfl rfl (Nat.le_refl _) rfl rfl rfl
    obtain ⟨_, same, notated⟩ := reading.limitNotes player.track.time
    cases same.symm.trans limited
    exact silent read rfl notated
  | event read recorded performed => exact scored.event within read recorded performed

/-- The player has its notes as messages, each with its entry in the timeline. -/
structure Engraved (player : Player) : Prop where
  sound : player.shared.arena.Sound
  resolved : player.shared.Resolved
  notated : player.Notated (player.shared.noteIndices player.setting.source)

theorem Engraved.withNotes (engraved : player.Engraved) (setting : next.setting = player.setting)
    (arena : next.shared.arena = player.shared.arena)
    (skeleton : next.shared.timeline.skeleton = player.shared.timeline.skeleton)
    (notated : next.Notated (player.shared.noteIndices player.setting.source)) :
    next.Engraved where
  sound := arena ▸ engraved.sound
  resolved := by
    unfold Shared.Resolved
    rw [Shared.tags_congr arena skeleton]
    exact engraved.resolved
  notated := by
    rw [setting, Shared.noteIndices_congr arena skeleton]
    exact notated

theorem entered_noteIndices (sound : player.shared.arena.Sound)
    (resolved : player.shared.Resolved) : player.entered.noteIndices player.setting.source =
      player.nextKnown (player.shared.noteIndices player.setting.source) := by
  unfold nextKnown
  cases read : player.reads with
  | mk result stop =>
    cases recording : player.recording? with
    | none =>
      rw [entered, recording, startsNote_of_read read]
      unfold recording? at recording
      rw [read] at recording
      cases result with
      | error error => simp
      | ok instruction =>
        cases instruction with
        | cut => simp
        | event | octaveNote | unknown => cases recording
    | some event =>
      have offset : event.offset = player.track.cursor.offset := by
        unfold recording? at recording
        split at recording
        · cases recording
        · obtain ⟨kind, _, rfl⟩ := Option.map_eq_some_iff.mp recording
          rfl
      rw [entered_of_recording recording, Shared.noteIndices_enter sound resolved, offset]

theorem entered_resolved (sound : player.shared.arena.Sound)
    (resolved : player.shared.Resolved) : player.entered.Resolved := by
  cases recording : player.recording? with
  | none =>
    rw [entered, recording]
    exact resolved
  | some event =>
    rw [entered_of_recording recording]
    intro tag member
    rw [Shared.tags_enter sound resolved] at member
    rcases List.mem_append.mp member with member | member
    · exact resolved tag member
    · cases List.mem_singleton.mp member
      rfl

theorem Engraved.advance {more : Bool} (engraved : player.Engraved)
    (counts : player.track.guard.trips < Tick.last)
    (within : player.track.time + longest ≤ Tick.last)
    (advanced : player.advance = .ok (more, next)) : next.Engraved := by
  obtain ⟨labelled, scored⟩ := engraved.notated
  obtain ⟨_, done, advances, _⟩ := scored.safe.advance_yields counts
  cases done.symm.trans advanced
  constructor
  · rw [advances.arena]
    exact (entered_keeps engraved.sound).2.1
  · unfold Shared.Resolved
    rw [Shared.tags_congr advances.arena advances.skeleton]
    exact entered_resolved engraved.sound engraved.resolved
  · rw [advances.setting, Shared.noteIndices_congr advances.arena advances.skeleton,
      entered_noteIndices engraved.sound engraved.resolved]
    exact scored.advance within advanced

theorem Engraved.moveDials (engraved : player.Engraved) (tick : Nat) :
    (player.moveDials tick).Engraved := by
  obtain ⟨labelled, scored⟩ := engraved.notated
  have sounds := scored.safe.moveDials_sounds tick
  exact engraved.withNotes sounds.retains.setting sounds.retains.arena sounds.retains.skeleton
    (scored.moveDials tick)

theorem Engraved.finish (engraved : player.Engraved) (finished : player.finish = .ok next) :
    next.Engraved ∧ next.track.openNotes = [] := by
  obtain ⟨labelled, scored⟩ := engraved.notated
  obtain ⟨_, same, notated, opened⟩ := scored.finish
  cases same.symm.trans finished
  obtain ⟨_, same, setting, _, shared, skeleton, _⟩ := scored.safe.finish_yields
  cases same.symm.trans finished
  have arena := congrArg Shared.arena shared
  exact ⟨engraved.withNotes setting arena skeleton notated, opened⟩

variable {limits : Limits} {start last : Player} {visits : List Visit}

/-- The clock of a run is not at its end as long as another instruction may be decoded. -/
theorem Traces.early (traces : start.Traces visits player) (atStart : start.track.time = 0)
    (bounded : limits.maxSteps ≤ 65536) (may : player.MayStep limits) :
    player.track.time + longest ≤ Tick.last := by
  have bound := Position.after_tick_le traces.reached
  have steps := may.steps
  rw [traces.steps] at steps
  change player.track.time ≤ start.track.time + longest * visits.length at bound
  unfold longest at bound ⊢
  unfold Tick.last
  omega

theorem Runs.engraved (fresh : start.Fresh) (bounded : limits.maxSteps ≤ 65536)
    (engraved : start.Engraved) (runs : Runs limits start visits player) : player.Engraved := by
  have countable : limits.Countable start.setting.loopRule :=
    .inl (Nat.le_trans bounded (by decide))
  induction runs with
  | start => exact engraved
  | step runs may punctual advanced ih =>
    have traces := runs.traces fresh countable
    exact ih.advance (traces.counts countable may) (traces.early fresh.time bounded may) advanced
  | glide runs together tick early ih => exact ih.moveDials tick

theorem Ends.engraved (fresh : start.Fresh) (bounded : limits.maxSteps ≤ 65536)
    (engraved : start.Engraved) (ends : Ends limits start visits last) :
    last.Engraved ∧ last.track.openNotes = [] := by
  have countable : limits.Countable start.setting.loopRule :=
    .inl (Nat.le_trans bounded (by decide))
  cases ends with
  | refused runs may punctual advanced finished =>
    have traces := runs.traces fresh countable
    have further := (runs.engraved fresh bounded engraved).advance (traces.counts countable may)
      (traces.early fresh.time bounded may) advanced
    exact further.finish finished
  | stopped runs stopped finished =>
    exact (runs.engraved fresh bounded engraved).finish finished

end Player
end Sequencer
