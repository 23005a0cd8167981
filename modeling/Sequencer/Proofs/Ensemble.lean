import Sequencer.Proofs.Stints

/-! All tracks of a pass together. Each has a voice of its own: what it has decoded and written is
what it does on its own. Tracks that play one after another keep all voices. -/
namespace Sequencer

def visitsOf (log : List Visit) (track : Nat) : List Visit :=
  log.filter fun visit => visit.track = track

theorem visitsOf_append (log new : List Visit) (track : Nat) :
    visitsOf (log ++ new) track = visitsOf log track ++ visitsOf new track :=
  List.filter_append ..

theorem visitsOf_own {new : List Visit} {track : Nat} (own : ∀ visit ∈ new, visit.track = track) :
    visitsOf new track = new :=
  List.filter_eq_self.mpr fun visit member => decide_eq_true (own visit member)

theorem visitsOf_other {new : List Visit} {track : Nat}
    (other : ∀ visit ∈ new, visit.track ≠ track) : visitsOf new track = [] :=
  List.filter_eq_nil_iff.mpr fun visit member => by simpa using other visit member

theorem visitsOf_push (log : List Visit) (visit : Visit) (track : Nat) :
    visitsOf (log ++ [visit]) track =
      if visit.track = track then visitsOf log track ++ [visit] else visitsOf log track := by
  rw [visitsOf_append]
  by_cases own : visit.track = track <;> simp [visitsOf, own]

/-- A track that does among the others what a player does on its own. -/
def Voice (holds : List Visit → Player → Track → Prop) (start : Player) (log : List Visit)
    (shared : Shared) (track : Track) : Prop :=
  ∃ solo : Player, holds (visitsOf log start.track.index) solo track ∧
    start.Continues solo ∧ solo.Home ⟨start.setting, track, shared⟩

/-- The voices of the tracks, each with the player that it started as. -/
inductive Voices (holds : Player → List Visit → Player → Track → Prop) (log : List Visit)
    (shared : Shared) : List Player → List Track → Prop
  | nil : Voices holds log shared [] []
  | cons {start : Player} {track : Track} {starts : List Player} {tracks : List Track}
      (first : Voice (holds start) start log shared track)
      (rest : Voices holds log shared starts tracks) :
      Voices holds log shared (start :: starts) (track :: tracks)

/-- The voices of all tracks, and what they have shared since the `opening`: an entry and a place
in the store for each visit that makes one, and the messages of the conductor. -/
structure Ensemble (setting : Setting) (opening : Shared)
    (holds : Player → List Visit → Player → Track → Prop) (starts : List Player) (log : List Visit)
    (tracks : List Track) (shared : Shared) : Prop where
  journal : shared.tags = log.filterMap (Visit.tag? setting.source)
  sound : shared.arena.Sound
  faithful : shared.arena.Faithful setting.source
  lists : opening.arena.Lists setting.source log shared.arena
  conducts : (∀ visit ∈ log, visit.isSlide setting.source = false) → shared.masterRamp = none ∧
    shared.conductor.events.toList =
      opening.conductor.events.toList ++ log.filterMap (Visit.conducted? setting)
  voices : Voices holds log shared starts tracks

variable {holds weak : List Visit → Player → Track → Prop}
  {before after : Player → List Visit → Player → Track → Prop} {each : Visit → Prop}
  {source : Source} {setting : Setting} {opening : Shared} {start : Player}
  {starts : List Player} {log new : List Visit} {shared shared' : Shared}
  {track : Track} {tracks : List Track}

theorem Voice.keep (voice : Voice holds start log shared track)
    (keeps : Shared.Keeps start.track.index shared shared')
    (others : ∀ visit ∈ new, visit.track ≠ start.track.index) :
    Voice holds start (log ++ new) shared' track := by
  obtain ⟨solo, held, continues, home⟩ := voice
  refine ⟨solo, ?_, continues, home.keep (continues.index ▸ keeps)⟩
  rw [visitsOf_append, visitsOf_other others, List.append_nil]
  exact held

theorem Voices.keep (voices : Voices before log shared starts tracks)
    (keeps : ∀ start ∈ starts, Shared.Keeps start.track.index shared shared')
    (others : ∀ start ∈ starts, ∀ visit ∈ new, visit.track ≠ start.track.index) :
    Voices before (log ++ new) shared' starts tracks := by
  induction voices with
  | nil => exact .nil
  | cons first rest ih =>
    refine .cons (first.keep (keeps _ List.mem_cons_self) (others _ List.mem_cons_self)) ?_
    exact ih (fun start member => keeps start (List.mem_cons_of_mem _ member))
      fun start member => others start (List.mem_cons_of_mem _ member)

theorem resolved_of_journal (journal : shared.tags = log.filterMap (Visit.tag? source)) :
    shared.Resolved := by
  intro tag member
  rw [journal] at member
  obtain ⟨visit, _, tagged⟩ := List.mem_filterMap.mp member
  unfold Visit.tag? at tagged
  split at tagged
  · cases tagged
    rfl
  · cases tagged

theorem Ensemble.resolved (ensemble : Ensemble setting opening before starts log tracks shared) :
    shared.Resolved := resolved_of_journal ensemble.journal

theorem Ensemble.withVoices (ensemble : Ensemble setting opening before starts log tracks shared)
    {tracks' : List Track} (voices : Voices after log shared starts tracks') :
    Ensemble setting opening after starts log tracks' shared :=
  ⟨ensemble.journal, ensemble.sound, ensemble.faithful, ensemble.lists, ensemble.conducts, voices⟩

theorem Ensemble.shared_plays (ensemble : Ensemble setting opening before starts log tracks shared)
    {track : Nat} (plays : Shared.Plays setting track new shared shared')
    {starts' : List Player} {tracks' : List Track}
    (voices : Voices after (log ++ new) shared' starts' tracks') :
    Ensemble setting opening after starts' (log ++ new) tracks' shared' where
  journal := by rw [plays.tags, ensemble.journal, List.filterMap_append]
  sound := (plays.keeps (track + 1) (Nat.succ_ne_self track)).sound ensemble.sound
  faithful := plays.faithful ensemble.faithful
  lists := ensemble.lists.trans plays.lists
  conducts := fun quiet => by
    obtain ⟨still, messages⟩ := ensemble.conducts fun visit member =>
      quiet visit (List.mem_append_left _ member)
    have further := plays.conducts fun visit member => quiet visit (List.mem_append_right _ member)
    refine ⟨further.master still, ?_⟩
    rw [further.conductor, messages, List.filterMap_append, List.append_assoc]
  voices := voices

/-- What the tracks in turn have come to. -/
structure Round (setting : Setting) (opening : Shared)
    (after : Player → List Visit → Player → Track → Prop) (each : Visit → Prop)
    (starts : List Player) (log : List Visit) (shared : Shared) (new : List Visit)
    (stage : Stage (Unit × List Visit)) : Prop where
  logged : stage.memory.2 = log ++ new
  ensemble : Ensemble setting opening after starts (log ++ new) stage.tracks stage.shared
  all : ∀ visit ∈ new, each visit
  sorted : new.Pairwise fun first second => first.track ≤ second.track
  inside : ∀ visit ∈ new, ∃ start ∈ starts, visit.track = start.track.index
  keeps : ∀ other, (∀ start ∈ starts, start.track.index ≠ other) →
    Shared.Keeps other shared stage.shared

/-- No track plays. -/
theorem Round.nil {tracks : List Track} {memory : Unit × List Visit} (logged : memory.2 = log)
    (ensemble : Ensemble setting opening before [] log tracks shared) :
    Round setting opening after each [] log shared [] ⟨tracks, shared, memory⟩ := by
  obtain ⟨journal, sound, faithful, lists, conducts, voices⟩ := ensemble
  cases voices
  refine ⟨by simp [logged], ?_, by simp, by simp, by simp, fun other _ => .refl other shared⟩
  rw [List.append_nil]
  exact ⟨journal, sound, faithful, lists, conducts, .nil⟩

/-- One track plays, then those behind it. -/
theorem Round.cons {start : Player} {track : Track} {new later : List Visit} {middle : Shared}
    {stage : Stage (Unit × List Visit)}
    (distinct : ∀ other ∈ starts, start.track.index < other.track.index)
    (plays : Shared.Plays setting start.track.index new shared middle)
    (all : ∀ visit ∈ new, each visit)
    (voice : Voice (after start) start (log ++ new) middle track)
    (round : Round setting opening after each starts (log ++ new) middle later stage) :
    Round setting opening after each (start :: starts) log shared (new ++ later)
      { stage with tracks := track :: stage.tracks } := by
  have apart : ∀ visit ∈ later, visit.track ≠ start.track.index := by
    intro visit member
    obtain ⟨other, known, same⟩ := round.inside visit member
    rw [same]
    exact Nat.ne_of_gt (distinct other known)
  have kept := voice.keep (round.keeps _ fun other known =>
    Nat.ne_of_gt (distinct other known)) apart
  have ensemble := round.ensemble
  rw [List.append_assoc] at kept ensemble
  refine ⟨?_, ⟨ensemble.journal, ensemble.sound, ensemble.faithful, ensemble.lists,
    ensemble.conducts, .cons kept ensemble.voices⟩, List.forall_mem_append.mpr ⟨all, round.all⟩, ?_,
    List.forall_mem_append.mpr ⟨?_, ?_⟩, ?_⟩
  · rw [round.logged, List.append_assoc]
  · refine List.pairwise_append.mpr ⟨?_, round.sorted, ?_⟩
    · refine List.pairwise_of_forall_mem_list fun first here second there => ?_
      exact Nat.le_of_eq ((plays.index first here).trans (plays.index second there).symm)
    · intro first here second there
      obtain ⟨other, known, same⟩ := round.inside second there
      rw [plays.index first here, same]
      exact Nat.le_of_lt (distinct other known)
  · exact fun visit member => ⟨start, List.mem_cons_self, plays.index visit member⟩
  · intro visit member
    obtain ⟨other, known, same⟩ := round.inside visit member
    exact ⟨other, List.mem_cons_of_mem _ known, same⟩
  · intro other apart
    refine (plays.keeps other (Ne.symm (apart start List.mem_cons_self))).trans ?_
    exact round.keeps other fun start member => apart start (List.mem_cons_of_mem _ member)

namespace Stage

/-- Tracks that play in turn keep all voices, if each keeps its own. -/
theorem eachTrack_round {play : LoggedPerformer → Except Fault LoggedPerformer}
    (alike : ∀ start ∈ starts, start.setting = setting)
    (ascending : starts.Pairwise fun first second => first.track.index < second.track.index)
    (stint : ∀ start ∈ starts, ∀ visits log solo real, before start visits solo real.track →
      start.Continues solo → solo.Home real → real.shared.Resolved →
      (play ⟨real, ((), log)⟩).Yields
        (Stint (after start) each start visits log real.shared))
    (ensemble : Ensemble setting opening before starts log tracks shared) :
    (eachTrack play setting tracks shared ((), log)).Yields fun stage =>
      ∃ new, Round setting opening after each starts log shared new stage := by
  induction starts generalizing tracks log shared with
  | nil =>
    cases ensemble.voices
    exact Except.yields_ok ⟨[], .nil rfl ensemble⟩
  | cons start starts ih =>
    cases ensemble.voices with
    | @cons _ track _ tracks first rest =>
      obtain ⟨solo, held, continues, home⟩ := first
      have own := alike start List.mem_cons_self
      subst own
      obtain ⟨distinct, ascending⟩ := List.pairwise_cons.mp ascending
      have played := stint start List.mem_cons_self _ log solo _ held continues home
        ensemble.resolved
      apply played.bind
      rintro ⟨⟨setting', track, shared'⟩, ⟨⟩, log'⟩
        ⟨new, solo, logged, held, all, continues, home, plays⟩
      have setting' : setting' = start.setting := home.setting.trans continues.setting
      subst setting'
      cases logged
      have restKeeps (other : Player) (member : other ∈ starts) :
          Shared.Keeps other.track.index shared shared' :=
        plays.keeps _ (Nat.ne_of_gt (distinct other member))
      have restOthers (other : Player) (member : other ∈ starts) (visit : Visit)
          (visited : visit ∈ new) : visit.track ≠ other.track.index := by
        rw [plays.index visit visited]
        exact Nat.ne_of_lt (distinct other member)
      have others := ih (fun other member => alike other (List.mem_cons_of_mem _ member)) ascending
        (fun other member => stint other (List.mem_cons_of_mem _ member))
        (ensemble.shared_plays plays (rest.keep restKeeps restOthers))
      apply others.bind
      rintro ⟨tracks, shared'', ⟨⟩, log''⟩ ⟨later, round⟩
      have voice : Voice (after start) start (log ++ new) shared' track := by
        refine ⟨solo, ?_, continues, home⟩
        rw [visitsOf_append, visitsOf_own plays.index]
        exact held
      exact Except.yields_ok ⟨new ++ later, .cons distinct plays all voice round⟩

end Stage
end Sequencer
