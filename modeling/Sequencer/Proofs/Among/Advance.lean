import Sequencer.Proofs.Among.Player

/-! The step of a track among others. It reads the same instruction as the track on its own, and
carries it out in the same way. -/
namespace Sequencer.Player

open RefSeq (instruction)

variable {own : List Nat} {before : Shared} {solo real solo' real' : Player}

theorem Mirrors.setting (mirrors : Mirrors own before solo real) :
    real.setting = solo.setting := mirrors.twins.setting

theorem Mirrors.take (mirrors : Mirrors own before solo real) (turn : Turn) (delay : Nat) :
    (solo.take turn).Follows (fun mine theirs => theirs.1 = mine.1 ∧
      Mirrors own before mine.2 theirs.2) (real.take (turn.delayed delay)) := by
  obtain ⟨_, same⟩ := mirrors.real_eq
  cases turn with
  | halt => exact Except.follows_ok ⟨rfl, mirrors⟩
  | onward cursor =>
    refine Except.follows_ok ⟨rfl, ?_⟩
    refine mirrors.plain ⟨rfl, rfl, rfl⟩ ⟨rfl, rfl, rfl⟩ ⟨mirrors.setting, delay, ?_⟩
    rw [same]
    rfl
  | transfer cursor destination =>
    intro result done
    obtain ⟨⟨allowed, guard⟩, arrived, done⟩ := Except.bind_eq_ok.mp done
    cases done
    have arrived' : real.track.guard.arrive real.setting.loopRule
        (Cursor.junction { cursor with delay } destination) real.track.time =
          .ok (allowed, guard) := by
      rw [mirrors.setting, mirrors.time, same]
      exact arrived
    refine ⟨(allowed, real.withTrack { real.track with
      cursor := if allowed then { cursor with offset := destination, delay }
        else { cursor with delay }, guard }), ?_, rfl, ?_⟩
    · simp only [Player.take, Turn.delayed, arrived']
      cases allowed <;> rfl
    · refine mirrors.plain ⟨rfl, rfl, rfl⟩ ⟨rfl, rfl, rfl⟩
        ⟨mirrors.setting, delay, ?_⟩
      rw [same]
      cases allowed <;> rfl

/-- What comes of an instruction, for a track on its own and for the same among others. -/
def Agree (own : List Nat) (before : Shared) (mine theirs : Bool × Player) : Prop :=
  theirs.1 = mine.1 ∧ Mirrors own before mine.2 theirs.2

theorem Mirrors.goOn (mirrors : Mirrors own before solo real) :
    solo.goOn.Follows (Agree own before) real.goOn := Except.follows_ok ⟨rfl, mirrors⟩

theorem goOn_follows {x y : Except Fault Player} (follows : x.Follows (Mirrors own before) y) :
    (x >>= Player.goOn).Follows (Agree own before) (y >>= Player.goOn) :=
  follows.bind fun _ _ mirrors => mirrors.goOn

theorem Mirrors.turn (mirrors : Mirrors own before solo real) {kind : EventKind}
    (directs : kind.isControlFlow = true) (entry entry' : Option Nat) :
    (solo.perform kind entry).Follows (Agree own before) (real.perform kind entry') := by
  obtain ⟨delay, same⟩ := mirrors.twins.track
  have turn : real.track.cursor.turn real.setting.maxDepth kind =
      (solo.track.cursor.turn solo.setting.maxDepth kind).delayed delay := by
    rw [mirrors.setting, same]
    exact Cursor.turn_delay ..
  rw [perform_of_isControlFlow directs, perform_of_isControlFlow directs, turn]
  exact mirrors.take _ _

theorem Mirrors.perform (mirrors : Mirrors own before solo real) (kind : EventKind)
    (entry : Option Nat) : (solo.perform kind entry).Follows (Agree own before)
      (real.perform kind (entry.map (relabel own))) := by
  cases kind with
  | noteOn key velocity => exact goOn_follows (mirrors.startNote key velocity entry)
  | noteOff key => exact goOn_follows (mirrors.endNote key)
  | note key velocity duration =>
    exact goOn_follows (mirrors.startTimedNote key velocity duration entry)
  | rest ticks => exact (mirrors.wait ticks).goOn
  | hold ticks =>
    have extended := mirrors.extendNotes (Tick.later solo.track.time ticks)
    change Except.Follows _ (_ >>= _) (real.extendNotes (Tick.later real.track.time ticks) >>= _)
    rw [mirrors.time]
    exact extended.bind fun _ _ mirrors => (mirrors.wait ticks).goOn
  | level dial value => exact (mirrors.setLevel dial value).goOn
  | slide dial target duration => exact (mirrors.slideLevel dial target duration).goOn
  | masterLevel value =>
    exact (mirrors.still (setMasterLevel_still ..) (setMasterLevel_still ..)).goOn
  | masterSlide target duration =>
    exact (mirrors.still (slideMasterLevel_still ..) (slideMasterLevel_still ..)).goOn
  | tempo bpm => exact (mirrors.still (setTempo_still ..) (setTempo_still ..)).goOn
  | tempoSlide target duration =>
    exact (mirrors.still (slideTempo_still ..) (slideTempo_still ..)).goOn
  | timeSignature numerator denominator ticksPerQuarter =>
    exact (mirrors.still (conduct_still ..) (conduct_still ..)).goOn
  | transpose scope semitones =>
    cases scope with
    | all => exact (mirrors.emitAll []).goOn
    | own =>
      exact (mirrors.register (fun track => { track with transpose := semitones })
        (fun _ => rfl) fun _ delay => ⟨delay, rfl⟩).goOn
  | octave number =>
    exact (mirrors.register (fun track => { track with octave := number })
      (fun _ => rfl) fun _ delay => ⟨delay, rfl⟩).goOn
  | keyCorrection semitones =>
    exact (mirrors.register (fun track => { track with keyCorrection := semitones })
      (fun _ => rfl) fun _ delay => ⟨delay, rfl⟩).goOn
  | drum key =>
    exact (mirrors.register (fun track => { track with drum := key })
      (fun _ => rfl) fun _ delay => ⟨delay, rfl⟩).goOn
  | jump | call | ret | loopStart | loopEnd | loopForever | trackEnd =>
    exact mirrors.turn rfl _ _
  | _ => exact (mirrors.emitAll _).goOn

theorem Mirrors.readTo (mirrors : Mirrors own before solo real) (stop : Nat) :
    Mirrors own before (solo.readTo stop) (real.readTo stop) :=
  mirrors.register (fun track => { track with
    steps := track.steps + 1, cursor := { track.cursor with offset := stop } })
    (fun _ => rfl) fun _ delay => ⟨delay, rfl⟩

theorem Mirrors.index (mirrors : Mirrors own before solo real) :
    real.track.index = solo.track.index := by
  obtain ⟨delay, same⟩ := mirrors.real_eq
  rw [same]
  rfl

theorem Mirrors.offset (mirrors : Mirrors own before solo real) :
    real.track.cursor.offset = solo.track.cursor.offset := by
  obtain ⟨delay, same⟩ := mirrors.real_eq
  rw [same]
  rfl

/-- The event that a player records for the bytes from its cursor up to `stop`. -/
def recordedAs (player : Player) (stop : Nat) (kind : EventKind) : Event :=
  ⟨kind, player.track.index, player.track.cursor.offset, stop - player.track.cursor.offset⟩

theorem noted_shared_enter (player : Player) (stop : Nat) (kind : EventKind) :
    (player.noted stop kind).shared =
      player.shared.enter player.track.time (player.recordedAs stop kind) := rfl

theorem Mirrors.recordedAs (mirrors : Mirrors own before solo real) (stop : Nat)
    (kind : EventKind) : real.recordedAs stop kind = solo.recordedAs stop kind := by
  unfold Player.recordedAs
  rw [mirrors.index, mirrors.offset]

/-- Both players record an instruction, each as the next entry of its timeline. -/
theorem Mirrors.noted (mirrors : Mirrors own real.shared solo real) (safe : solo.Safe)
    (stop : Nat) (kind : EventKind) : Mirrors (own ++ [real.shared.timeline.size])
      (real.noted stop kind).shared (solo.noted stop kind) (real.noted stop kind) := by
  refine ⟨⟨mirrors.setting, ?_⟩, ?_, ?_, .refl _ _, rfl⟩
  · obtain ⟨delay, same⟩ := (mirrors.readTo stop).twins.track
    refine ⟨delay, ?_⟩
    have reading := safe.readTo stop
    have appended := Track.relabel_append mirrors.timeline.size reading.timed reading.opened
      real.shared.timeline.size delay
    rw [← appended] at same
    exact same
  · rw [noted_shared_enter, noted_shared_enter]
    exact ⟨mirrors.arenas.1.store _, mirrors.arenas.2.store _⟩
  · rw [noted_shared_enter, noted_shared_enter, mirrors.recordedAs, mirrors.time]
    refine mirrors.timeline.add ?_ (Arena.samePlace_storedId mirrors.arenas.1 mirrors.arenas.2
      (solo.recordedAs stop kind))
    rintro a b ⟨event, event', mine, theirs, same⟩
    exact ⟨event, event', Arena.get_store_of_get mine, Arena.get_store_of_get theirs, same⟩

theorem Mirrors.rebase (mirrors : Mirrors own before solo real) :
    Mirrors own real.shared solo real :=
  ⟨mirrors.twins, mirrors.arenas, mirrors.timeline, .refl _ _, rfl⟩

/-- The index of the entry that the next step adds to the timeline, if it adds one. -/
def adding (player : Player) : List Nat :=
  player.recording?.toList.map fun _ => player.shared.timeline.size

theorem adding_of_read {instruction : RefSeq.Instruction} {stop : Nat} {kind : EventKind}
    {player : Player} (read : player.reads = (.ok instruction, stop))
    (recorded : instruction.recorded? player.track = some kind) :
    player.adding = [player.shared.timeline.size] := by
  rw [adding, recording_of_read read recorded]
  rfl

/-- An instruction that is not recorded adds no entry. -/
theorem adding_of_silent {result : Except ReadError RefSeq.Instruction} {stop : Nat}
    {player : Player} (read : player.reads = (result, stop))
    (silent : ∀ instruction, result = .ok instruction →
      instruction.recorded? player.track = none) : player.adding = [] := by
  rw [adding, recording?, read]
  cases result with
  | error error => rfl
  | ok instruction => simp [silent instruction rfl]

theorem noted_entries (player : Player) (stop : Nat) (kind : EventKind) {index : Nat}
    (inside : index < player.shared.timeline.size) :
    (player.noted stop kind).shared.timeline.entries[index]? =
      player.shared.timeline.entries[index]? :=
  (Array.getElem?_push_lt inside).trans (Array.getElem?_eq_getElem _).symm

/-- What a step says for a track on its own and among others: the same of going on. Entries
that are not the track's own stay. -/
structure Steps (own : List Nat) (real : Player) (mine theirs : Bool × Player) : Prop where
  more : theirs.1 = mine.1
  mirrors : Mirrors (own ++ real.adding) theirs.2.shared mine.2 theirs.2
  others : ∀ index < real.shared.timeline.size, index ∉ own →
    theirs.2.shared.timeline.entries[index]? = real.shared.timeline.entries[index]?

theorem Mirrors.reads (mirrors : Mirrors own before solo real) : real.reads = solo.reads := by
  unfold Player.reads
  rw [mirrors.setting, mirrors.offset]

theorem Mirrors.kind? (mirrors : Mirrors own before solo real)
    (instruction : RefSeq.Instruction) :
    instruction.kind? real.track = instruction.kind? solo.track := by
  obtain ⟨delay, same⟩ := mirrors.real_eq
  rw [same]
  cases instruction <;> rfl

theorem Mirrors.advance (mirrors : Mirrors own real.shared solo real) (safe : solo.Safe) :
    solo.advance.Follows (Steps own real) real.advance := by
  have reads := mirrors.reads
  rintro ⟨more, next⟩ done
  cases advance_iff.mp done with
  | @unreadable error stop read =>
    have none := adding_of_silent (reads.trans read) fun _ known => by cases known
    refine ⟨_, advance_iff.mpr (.unreadable (reads.trans read)), rfl, ?_, fun _ _ _ => rfl⟩
    rw [none, List.append_nil]
    exact mirrors.readTo stop
  | @unknown opcode stop read =>
    refine ⟨_, advance_iff.mpr (.unknown (reads.trans read)), rfl, ?_, fun index inside _ =>
      noted_entries real stop _ inside⟩
    rw [adding_of_read (reads.trans read) rfl]
    exact mirrors.noted safe stop _
  | @cut stop _ read limited =>
    obtain ⟨next', limited', ended⟩ :=
      (mirrors.readTo stop).limitNotes solo.track.time _ limited
    have none := adding_of_silent (reads.trans read) fun _ known => by cases known; rfl
    have time : real.track.time = solo.track.time := mirrors.time
    rw [← time] at limited'
    refine ⟨(true, next'), advance_iff.mpr (.cut (reads.trans read) limited'), rfl, ?_,
      fun index _ other => ended.spares.others index other⟩
    rw [none, List.append_nil]
    exact ended.rebase
  | @event instruction stop kind _ _ read known performed =>
    have known' := (mirrors.kind? instruction).trans known
    have recorded : instruction.recorded? real.track = some kind := by
      cases instruction <;> first | exact known' | cases known'
    obtain ⟨⟨_, next'⟩, performed', rfl, ended⟩ :=
      (mirrors.noted safe stop kind).perform kind _ _ performed
    rw [Option.map_some, Timeline.nextIndex, ← mirrors.timeline.size, relabel_last] at performed'
    refine ⟨_, advance_iff.mpr (.event (reads.trans read) known' performed'), rfl, ?_, ?_⟩
    · rw [adding_of_read (reads.trans read) recorded]
      exact ended.rebase
    · intro index inside other
      refine (ended.spares.others index ?_).trans (noted_entries real stop kind inside)
      intro member
      rcases List.mem_append.mp member with member | member
      · exact other member
      · cases List.mem_singleton.mp member
        exact Nat.lt_irrefl _ inside

end Sequencer.Player
