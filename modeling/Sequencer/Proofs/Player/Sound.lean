import Sequencer.Proofs.Player.Perform
import Sequencer.Proofs.Score.Labels

/-! What players sound like: their notes, and the messages on their tracks. Instructions that neither
start nor end notes, and take no time, add messages to it, or to what the conductor has, and change
nothing else of it. -/
namespace Sequencer

theorem Ramp.valueAt_le {ramp : Ramp} (level : ramp.scale = .level) (tick : Nat) :
    ramp.valueAt tick ≤ 127 := by
  unfold valueAt
  rw [level]
  exact Number.Binary64.nearest_le 127 _

/-- A ramp has at each change the value of some tick. -/
theorem Ramp.exists_valueAt_of_mem_changes {ramp : Ramp} {change : Nat × Nat}
    (member : change ∈ ramp.changes) : ∃ tick, change.2 = ramp.valueAt tick := by
  unfold changes firstChanges at member
  generalize ramp.start = tick at member
  generalize ramp.duration + 1 = limit at member
  induction limit generalizing tick with
  | zero => exact absurd member List.not_mem_nil
  | succ limit ih =>
    unfold changesFrom at member
    rcases List.mem_cons.mp member with rfl | member
    · exact ⟨tick, rfl⟩
    · split at member
      · exact absurd member List.not_mem_nil
      · exact ih _ member

theorem Dials.mem_ramp_of_set {dials : Dials} {dial other : Dial} {state : DialState} {ramp : Ramp}
    (kept : ∀ ramp ∈ state.ramp, ramp ∈ (dials.get dial).ramp)
    (member : ramp ∈ ((dials.set dial state).get other).ramp) : ramp ∈ (dials.get other).ramp := by
  cases dial <;> cases other <;> first | exact member | exact kept ramp member

namespace EventKind

/-- Whether notes have a part in an instruction: it starts or ends them, or lets them sound. -/
def touchesNotes : EventKind → Bool
  | .noteOn .. | .noteOff _ | .note .. | .rest _ | .hold _ => true
  | _ => false

/-- The messages that an instruction without notes writes on its track are all fine. -/
def WritesOnly (fine : MidiMessage → Prop) : EventKind → Prop
  | .level dial value => fine (.control dial.controller value)
  | .slide dial .. => ∀ value ≤ 127, fine (.control dial.controller (UInt8.ofNat value))
  | kind => ∀ message ∈ kind.messages, fine message

/-- The messages that an instruction has for the conductor are all fine. -/
def ConductsOnly (fine : MidiMessage → Prop) : EventKind → Prop
  | .masterLevel value => fine (.masterVolume (masterVolume14 value))
  | .masterSlide .. => ∀ value, fine (.masterVolume (masterVolume14 value))
  | .tempo bpm => fine (.tempo (microsOfBpm bpm))
  | .tempoSlide .. => ∀ bpm, fine (.tempo (microsOfBpm bpm))
  | .timeSignature numerator denominator _ => fine (metreMessage numerator denominator)
  | _ => True

theorem conductsOnly_any (kind : EventKind) : kind.ConductsOnly fun _ => True := by
  cases kind <;> simp [ConductsOnly]

theorem writesOnly_any (kind : EventKind) : kind.WritesOnly fun _ => True := by
  cases kind <;> simp [WritesOnly]

/-- What starts and ends notes is not among the messages of other instructions. -/
theorem writesOnly_others (kind : EventKind) :
    kind.WritesOnly fun message => message.isNote = false := by
  cases kind with
  | level => rfl
  | slide => exact fun _ _ => rfl
  | _ => simp [WritesOnly, messages, MidiMessage.isNote]

end EventKind

namespace Player

theorem mem_ramp_of_moveDial {player : Player} {tick : Nat} {dial other : Dial} {ramp : Ramp}
    (member : ramp ∈ ((player.moveDial tick dial).track.dials.get other).ramp) :
    ramp ∈ (player.track.dials.get other).ramp := by
  have dials (message : MidiMessage) :
      (player.emit tick message none).track.dials = player.track.dials := by
    unfold emit
    split <;> rfl
  unfold moveDial at member
  dsimp only at member
  split at member
  · exact member
  · rename_i moving moves
    have left : ∀ ramp ∈ if moving.stop ≤ tick then none else some moving,
        ramp ∈ (player.track.dials.get dial).ramp := by
      intro ramp member
      rw [moves]
      split at member
      · cases member
      · exact member
    split at member
    · rw [dials] at member
      exact Dials.mem_ramp_of_set left member
    · exact Dials.mem_ramp_of_set left member

/-- What is heard of two players so far is the same, and so is how they go on. -/
structure SameSound (player next : Player) : Prop where
  setting : next.setting = player.setting
  active : next.track.active = player.track.active
  channel : next.track.channel = player.track.channel
  time : next.track.time = player.track.time
  openNotes : next.track.openNotes = player.track.openNotes
  timedNotes : next.track.timedNotes = player.track.timedNotes
  sheet : next.sheet = player.sheet

/-- A property of what a player sounds like, and of what the conductor has, that is kept when a fine
message is written to the one or the other. -/
structure AboutMessages (fine conducts : MidiMessage → Prop) (holds : Player → Prop) : Prop where
  same : ∀ {player next}, holds player → player.SameSound next →
    next.shared.conductor = player.shared.conductor → holds next
  emit : ∀ {player}, holds player → ∀ tick message, fine message →
    holds (player.emit tick message none)
  conduct : ∀ {player}, holds player → ∀ tick message, conducts message →
    holds (player.conduct tick message)

/-- A property of what a player sounds like, whatever the conductor is told. -/
structure AboutSound (fine : MidiMessage → Prop) (holds : Player → Prop) : Prop where
  same : ∀ {player next}, holds player → player.SameSound next → holds next
  emit : ∀ {player}, holds player → ∀ tick message, fine message →
    holds (player.emit tick message none)

theorem AboutSound.messages {fine : MidiMessage → Prop} {holds : Player → Prop}
    (about : AboutSound fine holds) : AboutMessages fine (fun _ => True) holds where
  same := fun kept sound _ => about.same kept sound
  emit := about.emit
  conduct := fun kept tick message _ => by
    unfold Player.conduct
    split
    · exact about.same kept ⟨rfl, rfl, rfl, rfl, rfl, rfl, rfl⟩
    · exact kept

namespace AboutMessages

variable {fine conducts : MidiMessage → Prop} {holds : Player → Prop} {player next : Player}
  {kind : EventKind} {entry : Option Nat} {more : Bool}
variable (about : AboutMessages fine conducts holds)
include about

omit about in
theorem foldl {α : Type} {act : Player → α → Player} {items : List α}
    (each : ∀ player, holds player → ∀ item ∈ items, holds (act player item))
    (kept : holds player) : holds (items.foldl act player) := by
  induction items generalizing player with
  | nil => exact kept
  | cons item rest ih =>
    exact ih (fun player kept other member => each player kept other (List.mem_cons_of_mem _ member))
      (each player kept item List.mem_cons_self)

theorem emitAll {messages : List MidiMessage} (all : ∀ message ∈ messages, fine message)
    (kept : holds player) : holds (player.emitAll messages) :=
  foldl (fun _ kept message member => about.emit kept _ _ (all message member)) kept

theorem conductAll (kept : holds player) (message : Nat → MidiMessage)
    (changes : List (Nat × Nat)) (all : ∀ change ∈ changes, conducts (message change.2)) :
    holds (if player.writing then
      changes.foldl (fun player (change : Nat × Nat) =>
        player.conduct change.1 (message change.2)) player
      else player) := by
  split
  · exact foldl (fun _ kept change member => about.conduct kept _ _ (all change member)) kept
  · exact kept

theorem setDial (kept : holds player) (dial : Dial) (state : DialState) :
    holds { player with
      track := { player.track with dials := player.track.dials.set dial state } } :=
  about.same kept ⟨rfl, rfl, rfl, rfl, rfl, rfl, rfl⟩ rfl

theorem slideLevel (kept : holds player) (dial : Dial) (target : UInt8) (duration : Nat)
    (levels : ∀ value ≤ 127, fine (.control dial.controller (UInt8.ofNat value))) :
    holds (player.slideLevel dial target duration) := by
  unfold Player.slideLevel
  split
  · exact about.setDial kept ..
  · refine about.setDial ?_ dial _
    dsimp only
    split
    · refine foldl (fun player kept change member => about.emit kept _ _ (levels _ ?_)) kept
      obtain ⟨tick, value⟩ := Ramp.exists_valueAt_of_mem_changes member
      rw [value]
      exact Ramp.valueAt_le rfl tick
    · exact kept

theorem moveDial (kept : holds player) (tick : Nat) (dial : Dial)
    (moves : ∀ ramp ∈ (player.track.dials.get dial).ramp,
      fine (.control dial.controller (UInt8.ofNat (ramp.valueAt tick)))) :
    holds (player.moveDial tick dial) := by
  unfold Player.moveDial
  dsimp only
  split
  · exact kept
  · rename_i ramp moving
    split
    · exact about.setDial (about.emit kept _ _ (moves ramp moving)) ..
    · exact about.setDial kept ..

theorem moveDials (kept : holds player) (tick : Nat)
    (moves : ∀ dial, ∀ ramp ∈ (player.track.dials.get dial).ramp,
      fine (.control dial.controller (UInt8.ofNat (ramp.valueAt tick)))) :
    holds (player.moveDials tick) := by
  have volume := about.moveDial kept tick .volume (moves .volume)
  have expression := about.moveDial volume tick .expression fun ramp member =>
    moves .expression ramp (mem_ramp_of_moveDial member)
  exact about.moveDial expression tick .pan fun ramp member =>
    moves .pan ramp (mem_ramp_of_moveDial (mem_ramp_of_moveDial member))

theorem slideMasterLevel (kept : holds player) (target : UInt8) (duration : Nat)
    (levels : ∀ value, conducts (.masterVolume (masterVolume14 value))) :
    holds (player.slideMasterLevel target duration) := by
  unfold Player.slideMasterLevel
  split
  · exact about.same kept ⟨rfl, rfl, rfl, rfl, rfl, rfl, rfl⟩ rfl
  · let ramp := Ramp.between .level player.now duration player.shared.masterVolume.toNat target.toNat
    have told := about.conductAll kept
      (fun value => .masterVolume (masterVolume14 (UInt8.ofNat value))) ramp.changes
      fun _ _ => levels _
    exact about.same told ⟨rfl, rfl, rfl, rfl, rfl, rfl, rfl⟩ rfl

theorem slideTempo (kept : holds player) (target : Float) (duration : Nat)
    (tempos : ∀ bpm, conducts (.tempo (microsOfBpm bpm))) :
    holds (player.slideTempo target duration) := by
  let ramp : Ramp := ⟨.tempo, player.now, duration, player.shared.tempo, target⟩
  have told := about.conductAll kept (fun micros => .tempo micros) ramp.changes
    fun change member => by
      obtain ⟨tick, value⟩ := Ramp.exists_valueAt_of_mem_changes member
      rw [value]
      exact tempos _
  exact about.same told ⟨rfl, rfl, rfl, rfl, rfl, rfl, rfl⟩ rfl

theorem take (kept : holds player) {turn : Turn}
    (taken : player.take turn = .ok (more, next)) : holds next := by
  cases turn with
  | halt =>
    cases taken
    exact kept
  | onward cursor =>
    cases taken
    exact about.same kept ⟨rfl, rfl, rfl, rfl, rfl, rfl, rfl⟩ rfl
  | transfer cursor destination =>
    obtain ⟨⟨allowed, guard⟩, _, done⟩ := Except.bind_eq_ok.mp taken
    cases done
    exact about.same kept ⟨rfl, rfl, rfl, rfl, rfl, rfl, rfl⟩ rfl

/-- An instruction that notes have no part in keeps what is known of the sound. -/
theorem perform (kept : holds player) (untouched : kind.touchesNotes = false)
    (writes : kind.WritesOnly fine) (tells : kind.ConductsOnly conducts)
    (done : player.perform kind entry = .ok (more, next)) :
    holds next := by
  have goes {last : Player} (kept : holds last) (done : last.goOn = .ok (more, next)) :
      holds next := by
    cases done
    exact kept
  cases kind with
  | noteOn | noteOff | note | rest | hold => cases untouched
  | level dial value => exact goes (about.emit (about.setDial kept ..) _ _ writes) done
  | slide dial target duration => exact goes (about.slideLevel kept _ _ _ writes) done
  | masterLevel value =>
    refine goes (about.conduct (about.same kept ?_ ?_) _ _ tells) done
    · exact ⟨rfl, rfl, rfl, rfl, rfl, rfl, rfl⟩
    · rfl
  | masterSlide target duration => exact goes (about.slideMasterLevel kept _ _ tells) done
  | tempo bpm =>
    refine goes (about.conduct (about.same kept ?_ ?_) _ _ tells) done
    · exact ⟨rfl, rfl, rfl, rfl, rfl, rfl, rfl⟩
    · rfl
  | tempoSlide target duration => exact goes (about.slideTempo kept _ _ tells) done
  | timeSignature numerator denominator ticksPerQuarter =>
    exact goes (about.conduct kept _ _ tells) done
  | transpose scope semitones =>
    cases scope with
    | all => exact goes (about.emitAll writes kept) done
    | own =>
      cases done
      exact about.same kept ⟨rfl, rfl, rfl, rfl, rfl, rfl, rfl⟩ rfl
  | octave | keyCorrection | drum =>
    cases done
    exact about.same kept ⟨rfl, rfl, rfl, rfl, rfl, rfl, rfl⟩ rfl
  | jump | call | ret | loopStart | loopEnd | loopForever | trackEnd =>
    exact about.take kept ((perform_of_isControlFlow rfl player entry).symm.trans done)
  | _ => exact goes (about.emitAll writes kept) done

end AboutMessages
end Player
end Sequencer
