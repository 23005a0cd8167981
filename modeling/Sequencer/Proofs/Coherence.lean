import Sequencer.Proofs.Midway
import Sequencer.Proofs.Player.Nesting
import Sequencer.Proofs.Player.Orderly
import Sequencer.RefSeq.Decoder

/-! What holds of each track at any time of a pass: what its notes say of themselves agrees with what
is written for them, and it is in no more calls and loops than may be open. It holds when a pass
begins, where there are no notes, and each thing that can happen to a track leaves it so, for the track
and for the others that share the timeline. -/
namespace Sequencer

namespace Player

/-- What the notes of a player say agrees with the timeline and the messages. -/
structure Coherent (player : Player) : Prop where
  /-- Ties and cuts act on notes of one tick. -/
  together : ∀ note ∈ player.track.timedNotes, ∀ other ∈ player.track.timedNotes,
    note.tracked = true → other.tracked = true → note.start = other.start
  ordered : ∀ note ∈ player.track.timedNotes, note.start ≤ note.stop
  noteOffs : player.setting.pass = .midi → ∀ note ∈ player.track.timedNotes,
    player.track.midi.EndsAt note.stop note.noteOff
  /-- No key is held open twice. -/
  keys : (player.track.openNotes.map OpenNote.key).Nodup
  /-- No entry belongs to two notes. -/
  entries : player.track.entries.Nodup
  timed : ∀ note ∈ player.track.timedNotes,
    player.shared.timeline.BeginsAt note.start note.entry
  opened : ∀ note ∈ player.track.openNotes,
    player.shared.timeline.BeginsAt note.start note.entry
  calls : player.track.cursor.calls.length ≤ player.setting.maxDepth
  loops : player.track.cursor.loops.length ≤ player.setting.maxDepth

/-- What is kept from step to step, from which the rest follows. -/
structure Kept (player : Player) : Prop where
  tidy : player.Tidy
  orderly : player.Orderly
  nested : player.Nested

variable {player next : Player}

theorem Kept.coherent (kept : player.Kept) : player.Coherent where
  together := kept.orderly.together
  ordered := kept.tidy.track.ordered
  noteOffs := fun midi note member =>
    (kept.orderly.timed note member).noteOff (decide_eq_true midi)
  keys := kept.orderly.keys
  entries := kept.tidy.track.entries.nodup
  timed := fun note member => (kept.orderly.timed note member).entry
  opened := kept.orderly.opened
  calls := kept.nested.calls
  loops := kept.nested.loops

theorem Kept.proceeds (kept : player.Kept) (acts : player.Acts next) : player.Proceeds next := by
  cases acts with
  | order done => exact kept.nested.apply kept.tidy _ _ done
  | pace steps delay => exact ⟨rfl, List.prefix_rfl, kept.nested.calls, kept.nested.loops⟩
  | glide tick => exact kept.nested.retains (kept.tidy.safe.moveDials_sounds tick).retains
  | finish done => exact kept.nested.finish kept.tidy _ done

theorem Kept.orderly_acts (kept : player.Kept) (acts : player.Acts next) : next.Orderly := by
  cases acts with
  | order done => exact kept.orderly.apply kept.tidy _ _ done
  | pace steps delay => exact kept.orderly.alike rfl (.refl _) rfl rfl
  | glide tick => exact kept.orderly.moveDials tick
  | finish done => exact kept.orderly.finish kept.tidy _ done

theorem Kept.acts (kept : player.Kept) (acts : player.Acts next) : next.Kept where
  tidy := (kept.tidy.acts acts).tidy
  orderly := kept.orderly_acts acts
  nested := (kept.proceeds acts).nested

/-- A player is kept where another one goes on with the timeline. -/
theorem Kept.beside (kept : player.Kept) (acts : player.Acts next) {track : Track}
    (other : Kept ⟨player.setting, track, player.shared⟩) :
    Kept ⟨player.setting, track, next.shared⟩ where
  tidy := by
    have tends := kept.tidy.acts acts
    exact ⟨other.tidy.track.grow tends.grown, tends.tidy.unsettled⟩
  orderly := other.orderly.alike rfl ⟨(kept.proceeds acts).entries, List.prefix_rfl⟩ rfl rfl
  nested := other.nested

/-- The master level has no part in it. -/
theorem Kept.lead {setting : Setting} {track : Track} {shared : Shared}
    (kept : Kept ⟨setting, track, shared⟩) (writing : Bool) (tick : Nat) :
    Kept ⟨setting, track, Stage.moveMaster writing tick shared⟩ := by
  have timeline := Stage.moveMaster_timeline writing tick shared
  obtain ⟨tidy, orderly, nested⟩ := kept
  constructor
  · exact ⟨timeline ▸ tidy.track, timeline ▸ tidy.unsettled⟩
  · refine orderly.alike rfl ?_ rfl rfl
    rw [Player.sheet, Player.sheet, timeline]
    exact .refl _
  · exact nested

end Player

namespace Sequence

variable {σ : Type} {sequence : Sequence σ} {pass : Pass} {tracks : List Track} {shared : Shared}

theorem openStage_kept (sequence : Sequence σ) (pass : Pass) :
    ∀ track ∈ (sequence.openStage pass).tracks,
      Player.Kept ⟨sequence.setting pass, track, (sequence.openStage pass).shared⟩ := by
  intro track member
  obtain ⟨_, timed, opened, calls, loops⟩ := sequence.openStage_silent pass track member
  constructor
  · exact sequence.openStage_tidy pass track member
  · constructor <;> simp [timed, opened]
  · constructor <;> simp [calls, loops]

/-- No note has an entry of a note of another track. -/
theorem Midway.apart (midway : sequence.Midway pass tracks shared) :
    tracks.Pairwise fun track other => track.entries.Disjoint other.entries := by
  induction midway with
  | opened =>
    apply List.pairwise_of_forall_mem_list
    intro track member other _ index own
    obtain ⟨_, timed, opened, _⟩ := sequence.openStage_silent pass track member
    rw [Track.entries, timed, opened] at own
    exact absurd own List.not_mem_nil
  | @acts earlier later track shared next midway acts ih =>
    obtain ⟨before, rest, across⟩ := List.pairwise_append.mp ih
    obtain ⟨here, after⟩ := List.pairwise_cons.mp rest
    obtain ⟨tidyBefore, tidyRest⟩ := List.forall_mem_append.mp midway.tidy
    obtain ⟨tidy, tidyAfter⟩ := List.forall_mem_cons.mp tidyRest
    -- An entry of the track that acts was its own, or is newer than any that another track has.
    have free {other : Track} (tidyOther : Player.Tidy ⟨sequence.setting pass, other, shared⟩)
        (apart : track.entries.Disjoint other.entries) :
        next.track.entries.Disjoint other.entries := by
      intro index own theirs
      rcases List.mem_cons.mp (tidy.acts_occupies acts own) with rfl | earlier
      · exact Nat.lt_irrefl _ (tidyOther.track.entries.inside _ theirs)
      · exact apart earlier theirs
    apply List.pairwise_append.mpr
    refine ⟨before, List.pairwise_cons.mpr ⟨?_, after⟩, ?_⟩
    · intro other member
      exact free (tidyAfter other member) (here other member)
    · intro other member
      obtain ⟨own, others⟩ := List.forall_mem_cons.mp (across other member)
      have apart := free (tidyBefore other member) (List.disjoint_symm own)
      exact List.forall_mem_cons.mpr ⟨List.disjoint_symm apart, others⟩
  | leads _ _ ih => exact ih

/-- At any time of a pass, whatever was ordered of its tracks before, each of them is coherent, and
no two of them share an entry. -/
theorem midway_coherent (midway : sequence.Midway pass tracks shared) :
    (∀ track ∈ tracks, Player.Coherent ⟨sequence.setting pass, track, shared⟩) ∧
      tracks.Pairwise fun track other => track.entries.Disjoint other.entries := by
  refine ⟨?_, midway.apart⟩
  intro track member
  apply Player.Kept.coherent
  refine midway.keeps (sequence.openStage_kept pass) ?_ ?_ ?_ track member
  · intro player next kept acts
    exact ⟨(kept.proceeds acts).setting, kept.acts acts⟩
  · intro player next kept acts track other
    exact kept.beside acts other
  · intro setting track shared writing tick kept
    exact kept.lead writing tick

/-- The first track is in a call and in a loop, with two notes of a chord that are tied over, an
earlier one, and one that is held open. The second one has a note of the same key. -/
theorem midway_coherent_duo : ∃ opened,
    ofSource RefSeq.format () #[0x52, 0x53, 0x45, 0x51, 1, 0, 0, 0, 0, 0, 2, 0, 16, 0, 17, 0, 0, 0] =
      .ok opened ∧
    ∃ first second shared, opened.Midway .midi [first, second] shared ∧
      first.timedNotes = [⟨60, 0, 8, some 0, some 4, false⟩, ⟨64, 4, 20, none, some 6, true⟩,
        ⟨67, 4, 20, some 2, some 8, true⟩] ∧
      first.openNotes = [⟨48, 48, 4, some 3, some 4⟩] ∧
      first.cursor.calls = [17] ∧ first.cursor.loops = [⟨16, 3⟩] ∧
      second.timedNotes = [⟨60, 0, 6, some 1, some 4, true⟩] ∧
      Player.Coherent ⟨opened.setting .midi, first, shared⟩ ∧
      first.entries.Disjoint second.entries := by
  let opened : { opened // ofSource RefSeq.format () #[0x52, 0x53, 0x45, 0x51, 1, 0, 0, 0, 0, 0, 2,
    0, 16, 0, 17, 0, 0, 0] = .ok opened } := ⟨_, rfl⟩
  have begun : opened.val.Midway .midi [_, _] _ := .opened
  have noted := begun.orders [] [_] (.record ⟨16, 1⟩ (.note 60 100 8)) rfl
  have beside := noted.orders [_] [] (.record ⟨17, 1⟩ (.note 60 100 6)) rfl
  have later := beside.orders [] [_] (.play (.rest 4)) rfl
  have chord := later.orders [] [_] (.play (.note 64 90 8)) rfl
  have chord := chord.orders [] [_] (.record ⟨16, 1⟩ (.note 67 90 6)) rfl
  have held := chord.orders [] [_] (.record ⟨16, 1⟩ (.noteOn 48 80)) rfl
  have tied := held.orders [] [_] (.extendNotes 20) rfl
  have looped := tied.orders [] [_] (.play (.loopStart 3)) rfl
  have called := looped.orders [] [_] (.play (.call 16 17)) rfl
  have settled := midway_coherent called
  exact ⟨_, opened.property, _, _, _, called, rfl, rfl, rfl, rfl, rfl,
    settled.1 _ List.mem_cons_self, List.rel_of_pairwise_cons settled.2 List.mem_cons_self⟩

end Sequence
end Sequencer
