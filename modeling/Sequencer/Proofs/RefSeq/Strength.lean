import Sequencer.Proofs.Player.Strength
import Sequencer.Proofs.SingleTicks

/-! How strong the messages of a RefSeq track are. A track is loud if one of the instructions that it
has decoded gives a strength that is too high, and the timeline has an entry for each of them. -/
namespace Sequencer

/-- The velocity or the level that the instruction at an offset gives. -/
def RefSeq.strengthAt (source : Source) (offset : Nat) : UInt8 :=
  match RefSeq.instruction source offset with
  | (.ok (.event kind), _) => kind.strength
  | (.ok (.octaveNote _ velocity _), _) => velocity
  | _ => 0

/-- Some visit decodes an instruction whose strength is too high. -/
def RefSeq.Loud (source : Source) (visits : List Visit) : Prop :=
  ∃ visit ∈ visits, 127 < RefSeq.strengthAt source visit.offset

theorem RefSeq.loud_append (source : Source) (visits : List Visit) (visit : Visit) :
    RefSeq.Loud source (visits ++ [visit]) ↔
      RefSeq.Loud source visits ∨ 127 < RefSeq.strengthAt source visit.offset := by
  simp [RefSeq.Loud, or_and_right, exists_or]

namespace Player

variable {loud : Prop} {player next start last : Player} {more : Bool} {limits : Limits}
  {visits : List Visit}

theorem strengthAt_of_read {result : Except ReadError RefSeq.Instruction} {stop : Nat}
    (read : player.reads = (result, stop)) :
    RefSeq.strengthAt player.setting.source player.track.cursor.offset =
      match result with
      | .ok (.event kind) => kind.strength
      | .ok (.octaveNote _ velocity _) => velocity
      | _ => 0 := by
  unfold RefSeq.strengthAt
  rw [show RefSeq.instruction player.setting.source player.track.cursor.offset = (result, stop)
    from read]
  cases result with
  | error error => rfl
  | ok instruction => cases instruction <;> rfl

theorem Carries.advance (carries : player.Carries loud)
    (advanced : player.advance = .ok (more, next)) : next.Carries
      (loud ∨ 127 < RefSeq.strengthAt player.setting.source player.track.cursor.offset) := by
  have plain {other : Player} (carries : other.Carries loud)
      (silent : RefSeq.strengthAt player.setting.source player.track.cursor.offset = 0) :
      other.Carries
        (loud ∨ 127 < RefSeq.strengthAt player.setting.source player.track.cursor.offset) := by
    refine carries.of_iff ?_
    rw [silent]
    exact (or_iff_left (by decide)).symm
  have reading (stop : Nat) : (player.readTo stop).Carries loud :=
    ⟨carries.writing, carries.channel, carries.keys, carries.midi⟩
  have noted (stop : Nat) (kind : EventKind) : (player.noted stop kind).Carries loud :=
    ⟨carries.writing, carries.channel, carries.keys, carries.midi⟩
  cases advance_iff.mp advanced with
  | @unreadable error stop read => exact plain (reading stop) (strengthAt_of_read read)
  | @unknown opcode stop read => exact plain (noted stop _) (strengthAt_of_read read)
  | @cut stop _ read limited =>
    exact plain ((reading stop).limitNotes player.track.time _ limited) (strengthAt_of_read read)
  | @event instruction stop kind _ _ read known performed =>
    have given : RefSeq.strengthAt player.setting.source player.track.cursor.offset =
        kind.strength := by
      rw [strengthAt_of_read read]
      cases instruction <;> cases known <;> rfl
    rw [given]
    exact (noted stop kind).perform kind _ _ performed

theorem scale_of_owned {source : Source} (owned : player.stance.Owned source) (dial : Dial) :
    ∀ ramp ∈ (player.track.dials.get dial).ramp, ramp.scale = .level := by
  intro ramp moves
  obtain ⟨offset, tick, level, made⟩ := owned.ramps dial ramp moves
  obtain ⟨kind, _, made⟩ := Option.bind_eq_some_iff.mp made
  cases kind <;> cases made <;> rfl

/-- The track has only ramps of its file, and is as loud as what it has decoded. -/
structure Voiced (start : Player) (visits : List Visit) (player : Player) : Prop where
  owned : player.stance.Owned start.setting.source
  carries : player.Carries (RefSeq.Loud start.setting.source visits)

theorem Voiced.advance (voiced : start.Voiced visits player)
    (advanced : player.advance = .ok (more, next)) :
    start.Voiced (visits ++ [player.track.visit]) next := by
  obtain ⟨owned, carries⟩ := voiced
  have reads : player.setting.source = start.setting.source := owned.reads
  constructor
  · rw [advance_stance advanced, ← reads]
    exact steered_owned (reads ▸ owned)
  · refine (carries.advance advanced).of_iff ?_
    rw [reads]
    exact (RefSeq.loud_append start.setting.source visits player.track.visit).symm

theorem Voiced.finish (voiced : start.Voiced visits player) (finished : player.finish = .ok last) :
    start.Voiced visits last := by
  refine ⟨?_, voiced.carries.finish last finished⟩
  rw [finish_stance finished]
  exact voiced.owned.ended

theorem Runs.voiced (voiced : start.Voiced [] start) (runs : Runs limits start visits player) :
    start.Voiced visits player := by
  induction runs with
  | start => exact voiced
  | step runs may punctual advanced ih => exact ih.advance advanced
  | glide runs together tick early ih =>
    exact ⟨moveDials_owned ih.owned tick, ih.carries.moveDials (scale_of_owned ih.owned) tick⟩

/-- A track that has ended is as loud as what it has decoded. -/
theorem Ends.voiced (voiced : start.Voiced [] start) (ends : Ends limits start visits last) :
    start.Voiced visits last := by
  cases ends with
  | refused runs may punctual advanced finished =>
    exact ((runs.voiced voiced).advance advanced).finish finished
  | stopped runs stopped finished => exact (runs.voiced voiced).finish finished

end Player

variable {source : Source} {shared : Shared} {log : List Visit} {track : Nat}

theorem Arena.Faithful.strength {arena : Arena} (faithful : arena.Faithful source) {id : Nat}
    {event : Event} (found : arena.get? id = some event) :
    event.kind.strength = RefSeq.strengthAt source event.offset := by
  obtain ⟨player, reads, recording⟩ := faithful id event found
  subst reads
  unfold Player.recording? at recording
  split at recording
  · cases recording
  · rename_i instruction stop read
    obtain ⟨kind, recorded, rfl⟩ := Option.map_eq_some_iff.mp recording
    rw [Player.strengthAt_of_read read]
    cases instruction with
    | cut => cases recorded
    | event | octaveNote | unknown =>
      cases recorded
      rfl

/-- An entry of the track was made for an instruction whose strength is too high. -/
def Shared.Loud (shared : Shared) (track : Nat) : Prop :=
  ∃ entry ∈ shared.timeline.entries.toList, ∃ event, shared.arena.get? entry.event = some event ∧
    event.track = track ∧ 127 < event.kind.strength

theorem RefSeq.isRecorded_of_strengthAt {offset : Nat}
    (strong : 127 < RefSeq.strengthAt source offset) : RefSeq.isRecorded source offset = true := by
  have silent : ¬ (127 : UInt8) < 0 := by decide
  unfold RefSeq.strengthAt at strong
  unfold RefSeq.isRecorded
  cases read : RefSeq.instruction source offset with
  | mk result stop =>
    rw [read] at strong
    cases result with
    | error error => exact absurd strong silent
    | ok instruction =>
      cases instruction with
      | cut => exact absurd strong silent
      | event | octaveNote | unknown => rfl

theorem Shared.mem_tags {tick : Nat} {place : Option Place} :
    (tick, place) ∈ shared.tags ↔ ∃ entry ∈ shared.timeline.entries.toList,
      entry.start = tick ∧ (shared.arena.get? entry.event).map Event.place = place := by
  simp [tags, Timeline.skeleton]

/-- The timeline has an entry for each visit that makes a track loud, and for no other instruction
that would. -/
theorem loud_of_journal (journal : shared.tags = log.filterMap (Visit.tag? source))
    (faithful : shared.arena.Faithful source) :
    RefSeq.Loud source (visitsOf log track) ↔ shared.Loud track := by
  constructor
  · rintro ⟨visit, member, strong⟩
    obtain ⟨there, own⟩ := List.mem_filter.mp member
    have tagged : (visit.tick, some visit.place) ∈ shared.tags := by
      rw [journal]
      refine List.mem_filterMap.mpr ⟨visit, there, ?_⟩
      rw [Visit.tag?, if_pos (RefSeq.isRecorded_of_strengthAt strong)]
    obtain ⟨entry, inside, _, known⟩ := Shared.mem_tags.mp tagged
    obtain ⟨event, found, place⟩ := Option.map_eq_some_iff.mp known
    refine ⟨entry, inside, event, found, ?_, ?_⟩
    · exact (congrArg Place.track place).trans (of_decide_eq_true own)
    · rw [faithful.strength found, show event.offset = visit.offset from congrArg Place.offset place]
      exact strong
  · rintro ⟨entry, inside, event, found, own, strong⟩
    have tagged : (entry.start, some event.place) ∈ shared.tags :=
      Shared.mem_tags.mpr ⟨entry, inside, rfl, congrArg (Option.map Event.place) found⟩
    rw [journal] at tagged
    obtain ⟨visit, there, tag⟩ := List.mem_filterMap.mp tagged
    unfold Visit.tag? at tag
    split at tag
    · have place : visit.place = event.place :=
        Option.some.inj (congrArg Prod.snd (Option.some.inj tag))
      refine ⟨visit, List.mem_filter.mpr ⟨there, decide_eq_true ?_⟩, ?_⟩
      · exact (congrArg Place.track place).trans own
      · rw [show visit.offset = event.offset from congrArg Place.offset place,
          ← faithful.strength found]
        exact strong
    · cases tag

end Sequencer
