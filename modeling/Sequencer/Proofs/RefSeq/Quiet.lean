import Sequencer.Proofs.RefSeq.Control

/-! Steps that start no slide. No level comes to move by itself, and what the step writes for the
conductor depends on its instruction and its tick alone. -/
namespace Sequencer

namespace EventKind

/-- Whether a level or the tempo begins to glide. -/
def isSlide : EventKind → Bool
  | .slide .. | .masterSlide .. | .tempoSlide .. => true
  | _ => false

/-- The message that an instruction has for the conductor, if it is no slide. -/
def conducted? : EventKind → Option MidiMessage
  | .masterLevel value => some (.masterVolume (masterVolume14 value))
  | .tempo bpm => some (.tempo (microsOfBpm bpm))
  | .timeSignature numerator denominator _ => some (metreMessage numerator denominator)
  | _ => none

end EventKind

/-- The instruction at an offset, if it is one that does not depend on the track's octave. -/
def RefSeq.kindAt? (source : Source) (offset : Nat) : Option EventKind :=
  match RefSeq.instruction source offset with
  | (.ok (.event kind), _) => some kind
  | _ => none

theorem RefSeq.kindAt_outside {source : Source} {offset : Nat} (outside : source.size ≤ offset) :
    RefSeq.kindAt? source offset = none := by
  have past : source[offset]? = none := Array.getElem?_eq_none outside
  have unread : RefSeq.instruction source offset =
      (.error (.outOfRange offset 1 source.size none), offset) := by
    simp only [RefSeq.instruction, bind, RefSeq.Reader.bind, RefSeq.Reader.byte,
      RefSeq.Reader.ofWidth, Source.byteAt, past]
  rw [RefSeq.kindAt?, unread]

/-- Whether a slide is decoded. -/
def Visit.isSlide (source : Source) (visit : Visit) : Bool :=
  (RefSeq.kindAt? source visit.offset).any EventKind.isSlide

/-- What a visit that is no slide writes for the conductor. -/
def Visit.conducted? (setting : Setting) (visit : Visit) : Option MidiEvent :=
  if setting.pass = .midi then
    ((RefSeq.kindAt? setting.source visit.offset).bind EventKind.conducted?).map fun message =>
      ⟨visit.tick, 0, message, none⟩
  else none

/-- No dial moves by itself. -/
def Dials.Still (dials : Dials) : Prop := ∀ dial, (dials.get dial).ramp = none

theorem Dials.Still.set {dials : Dials} (still : dials.Still) (dial : Dial) (level : UInt8) :
    (dials.set dial ⟨level, none⟩).Still := by
  intro other
  have kept := still other
  cases dial <;> cases other <;> first | exact kept | rfl

namespace Player

/-- The message as one of the conductor, if the pass writes any. -/
def conducted (player : Player) (message : Option MidiMessage) : List MidiEvent :=
  if player.writing then message.toList.map fun message => ⟨player.now, 0, message, none⟩ else []

/-- Nothing comes to move, and the conductor gets a message if there is one. -/
structure Quiet (player : Player) (message : Option MidiMessage) (next : Player) : Prop where
  dials : player.track.dials.Still → next.track.dials.Still
  master : player.shared.masterRamp = none → next.shared.masterRamp = none
  conductor : next.shared.conductor.events.toList =
    player.shared.conductor.events.toList ++ player.conducted message

variable {player next : Player} {kind : EventKind} {more : Bool}

@[simp] theorem conducted_none (player : Player) : player.conducted none = [] := by
  unfold conducted
  split <;> rfl

theorem quiet_of_same (dials : next.track.dials = player.track.dials)
    (shared : next.shared.untimed = player.shared.untimed) : player.Quiet none next := by
  refine ⟨fun still => by rw [dials]; exact still, fun none => ?_, ?_⟩
  · have same := congrArg Shared.masterRamp shared
    exact Eq.trans same none
  · have same := congrArg (fun shared : Shared => shared.conductor.events.toList) shared
    rw [conducted_none, List.append_nil]
    exact same

theorem Rescores.quiet (rescores : player.Rescores next) : player.Quiet none next := by
  have dials := congrArg Track.dials rescores.track
  exact quiet_of_same dials rescores.shared

theorem Quiet.trans {message : Option MidiMessage} {last : Player}
    (first : player.Quiet none next) (second : next.Quiet message last)
    (now : next.now = player.now) (writing : next.writing = player.writing) :
    player.Quiet message last where
  dials := fun still => second.dials (first.dials still)
  master := fun none => second.master (first.master none)
  conductor := by
    rw [second.conductor, first.conductor, conducted_none, List.append_nil, conducted, conducted,
      now, writing]

theorem conduct_quiet (player : Player) (message : MidiMessage) :
    player.Quiet (some message) (player.conduct player.now message) := by
  unfold conduct
  split
  · rename_i writing
    refine ⟨id, id, ?_⟩
    rw [conducted, if_pos writing]
    simp [MidiTrack.push]
  · rename_i silent
    refine ⟨id, id, ?_⟩
    rw [conducted, if_neg silent]
    simp

theorem conduct_shared_quiet (player : Player) (shared : Shared) (message : MidiMessage)
    (ramp : player.shared.masterRamp = none → shared.masterRamp = none)
    (conductor : shared.conductor = player.shared.conductor) : player.Quiet (some message)
      (conduct { player with shared } player.now message) := by
  have conducted := conduct_quiet { player with shared } message
  refine ⟨conducted.dials, fun none => conducted.master (ramp none), ?_⟩
  rw [← conductor]
  exact conducted.conductor

theorem setLevel_quiet (player : Player) (dial : Dial) (value : UInt8) :
    player.Quiet none (player.setLevel dial value) := by
  have set : Quiet player none { player with
      track := { player.track with dials := player.track.dials.set dial ⟨value, none⟩ } } :=
    ⟨fun still => still.set dial value, id, by simp⟩
  exact set.trans (emit_rescores ..).quiet rfl rfl

theorem take_quiet {turn : Turn} (taken : player.take turn = .ok (more, next)) :
    player.Quiet none next := by
  cases turn with
  | halt =>
    cases taken
    exact quiet_of_same rfl rfl
  | onward cursor =>
    cases taken
    exact quiet_of_same rfl rfl
  | transfer cursor destination =>
    obtain ⟨⟨allowed, guard⟩, _, done⟩ := Except.bind_eq_ok.mp taken
    cases done
    exact quiet_of_same rfl rfl

theorem emitAll_quiet (player : Player) (messages : List MidiMessage) :
    player.Quiet none (player.emitAll messages) := by
  have rescores (messages : List MidiMessage) (player : Player) :
      player.Rescores (player.emitAll messages) := by
    induction messages generalizing player with
    | nil => exact .refl player
    | cons message rest ih => exact (emit_rescores player player.now message none).trans (ih _)
  exact (rescores messages player).quiet

theorem quiet_of_goOn {x : Except Fault Player}
    (yields : x.Yields fun next => player.Rescores next ∧ next.Safe)
    (done : (x >>= goOn) = .ok (more, next)) : player.Quiet none next := by
  obtain ⟨found, rfl, rescores, _⟩ := yields
  cases done
  exact rescores.quiet

theorem Safe.perform_quiet (safe : player.Safe) (plain : kind.isSlide = false)
    {entry : Option Nat} (inside : ∀ index ∈ entry, index < player.shared.timeline.size)
    (done : player.perform kind entry = .ok (more, next)) :
    player.Quiet kind.conducted? next := by
  have goes {last : Player} {message : Option MidiMessage} (quiet : player.Quiet message last)
      (done : last.goOn = .ok (more, next)) : player.Quiet message next := by
    cases done
    exact quiet
  cases kind with
  | noteOn key velocity => exact quiet_of_goOn (startNote_safe safe key velocity inside) done
  | noteOff key => exact quiet_of_goOn (endNote_safe safe key) done
  | note key velocity duration =>
    exact quiet_of_goOn (startTimedNote_safe safe key velocity duration inside) done
  | rest ticks =>
    cases done
    exact quiet_of_same rfl rfl
  | hold ticks =>
    obtain ⟨held, extended, done⟩ := Except.bind_eq_ok.mp done
    obtain ⟨_, same, rescores, _⟩ :=
      extendNotes_safe safe (Tick.later player.track.time ticks)
    cases same.symm.trans extended
    cases done
    have quiet := rescores.quiet
    exact ⟨quiet.dials, quiet.master, quiet.conductor⟩
  | level dial value => exact goes (setLevel_quiet ..) done
  | slide | masterSlide | tempoSlide => cases plain
  | masterLevel value =>
    cases done
    exact conduct_shared_quiet player
      { player.shared with masterVolume := value, masterRamp := none } _ (fun _ => rfl) rfl
  | tempo bpm =>
    cases done
    exact conduct_shared_quiet player { player.shared with tempo := bpm } _ id rfl
  | timeSignature numerator denominator ticksPerQuarter =>
    exact goes (conduct_quiet player _) done
  | transpose scope semitones =>
    cases scope with
    | all => exact goes (emitAll_quiet player _) done
    | own =>
      cases done
      exact quiet_of_same rfl rfl
  | octave | keyCorrection | drum =>
    cases done
    exact quiet_of_same rfl rfl
  | jump | call | ret | loopStart | loopEnd | loopForever | trackEnd =>
    exact take_quiet ((perform_of_isControlFlow rfl player entry).symm.trans done)
  | _ => exact goes (emitAll_quiet player _) done

theorem noted_quiet (player : Player) (stop : Nat) (kind : EventKind) :
    player.Quiet none (player.noted stop kind) :=
  ⟨id, id, by simp [noted, record, readTo, count, seek, withTrack]⟩

theorem kindAt_of_read {result : Except ReadError RefSeq.Instruction} {stop : Nat}
    (read : player.reads = (result, stop)) :
    RefSeq.kindAt? player.setting.source player.track.cursor.offset =
      match result with
      | .ok (.event kind) => some kind
      | _ => none := by
  unfold RefSeq.kindAt?
  rw [show RefSeq.instruction player.setting.source player.track.cursor.offset = (result, stop)
    from read]
  cases result with
  | error error => rfl
  | ok instruction => cases instruction <;> rfl

/-- A step that starts no slide. -/
theorem Safe.advance_quiet (safe : player.Safe)
    (plain : player.track.visit.isSlide player.setting.source = false)
    (advanced : player.advance = .ok (more, next)) :
    player.Quiet ((RefSeq.kindAt? player.setting.source player.track.cursor.offset).bind
      EventKind.conducted?) next := by
  cases advance_iff.mp advanced with
  | unreadable read =>
    rw [kindAt_of_read read]
    exact quiet_of_same rfl rfl
  | unknown read =>
    rw [kindAt_of_read read]
    exact noted_quiet ..
  | @cut stop _ read limited =>
    rw [kindAt_of_read read]
    obtain ⟨_, same, rescores, _⟩ := limitNotes_safe (safe.readTo stop) player.track.time
    cases same.symm.trans limited
    have quiet := rescores.quiet
    exact ⟨quiet.dials, quiet.master, quiet.conductor⟩
  | @event instruction stop kind _ _ read known performed =>
    rw [kindAt_of_read read]
    cases instruction with
    | event kind' =>
      cases known
      have plain : kind.isSlide = false := by
        unfold Visit.isSlide at plain
        rw [show player.track.visit.offset = player.track.cursor.offset from rfl, kindAt_of_read read]
          at plain
        exact plain
      exact (noted_quiet player stop kind).trans ((safe.noted stop kind).perform_quiet plain
        (noted_entry player stop kind) performed) rfl rfl
    | octaveNote semitone velocity duration =>
      cases known
      exact (noted_quiet player stop _).trans ((safe.noted stop _).perform_quiet rfl
        (noted_entry player stop _) performed) rfl rfl
    | cut => cases known
    | unknown opcode => cases known

end Player
end Sequencer
