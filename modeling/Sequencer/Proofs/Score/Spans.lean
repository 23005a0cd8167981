import Sequencer.Proofs.NoteReadings
import Sequencer.Proofs.Player.Aside

/-! How long notes last. A note ends when the next one of its key starts, at the latest. A note that
ends by itself may be tied over once more after that, if the next one is a note that is ended by an
instruction: such a note does not keep ties from the notes before it. -/
namespace Sequencer

/-- Where an entry stops, on a clock that does not go past its last tick. -/
def Entry.within (entry : Entry) : Nat := Tick.later entry.start entry.duration

namespace Reading

variable {source : Source}

def key? (source : Source) (reading : Reading) : Option UInt8 :=
  (reading.struck? source).map Prod.fst

/-- Whether a note starts that ends by itself. -/
def startsTimed (source : Source) (reading : Reading) : Bool :=
  match reading.kind? source with
  | some (.note ..) => true
  | _ => false

/-- Whether a note starts that another instruction ends. -/
def startsOpen (source : Source) (reading : Reading) : Bool :=
  match reading.kind? source with
  | some (.noteOn ..) => true
  | _ => false

/-- Whether notes are tied over. -/
def ties (source : Source) (reading : Reading) : Bool :=
  match reading.kind? source with
  | some (.hold _) => true
  | _ => false

def isCut (source : Source) (reading : Reading) : Bool :=
  match RefSeq.instruction source reading.visit.offset with
  | (.ok .cut, _) => true
  | _ => false

/-- Whether ties do not act any more on a note that started at a tick. -/
def releases (source : Source) (tick : Nat) (reading : Reading) : Bool :=
  reading.isCut source || reading.startsTimed source && reading.visit.tick ≠ tick

/-- A tie that comes after the second note acts on the first one. Between them nothing keeps it from
doing so. -/
structure Revives (source : Source) (note next : Reading) (between later : List Reading) : Prop where
  timed : note.startsTimed source = true
  opens : next.startsOpen source = true
  tied : ∃ before tie rest, later = before ++ tie :: rest ∧ tie.ties source = true ∧
    ∀ other ∈ between ++ next :: before, other.releases source note.visit.tick = false

/-- A note that stops there has stopped when the next one of its key starts, or is tied over. -/
def Apart (source : Source) (note : Reading) (after : List Reading) (stop : Nat) : Prop :=
  ∀ between next later, after = between ++ next :: later → next.key? source = note.key? source →
    note.visit.tick < next.visit.tick →
      stop ≤ next.visit.tick ∨ note.Revives source next between later

variable {note next new : Reading} {between later after : List Reading} {stop earlier : Nat}

theorem key_of_struck {key velocity : UInt8}
    (struck : note.struck? source = some (key, velocity)) : note.key? source = some key := by
  rw [key?, struck]
  rfl

theorem Revives.push (revives : note.Revives source next between later) (new : Reading) :
    note.Revives source next between (later ++ [new]) where
  timed := revives.timed
  opens := revives.opens
  tied := by
    obtain ⟨before, tie, rest, rfl, ties, held⟩ := revives.tied
    exact ⟨before, tie, rest ++ [new], by simp, ties, held⟩

theorem Apart.sooner (apart : note.Apart source after stop) (le : earlier ≤ stop) :
    note.Apart source after earlier :=
  fun between next later split key behind =>
    (apart between next later split key behind).imp_left (Nat.le_trans le)

theorem apart_nil (note : Reading) (stop : Nat) : note.Apart source [] stop :=
  fun between next later split => by simp at split

/-- No other note of the key has started yet. -/
theorem apart_of_none (none : ∀ other ∈ after, other.key? source ≠ note.key? source) (stop : Nat) :
    note.Apart source after stop := by
  rintro between next later rfl key
  exact absurd key (none next (by simp))

theorem Apart.push (apart : note.Apart source after stop)
    (stops : new.key? source = note.key? source → note.visit.tick < new.visit.tick →
      stop ≤ new.visit.tick) : note.Apart source (after ++ [new]) stop := by
  intro between next later split key behind
  rcases List.split_push split with ⟨rest, rfl, own⟩ | ⟨rfl, rfl, _⟩
  · exact (apart between next rest own key behind).imp_right fun revives => revives.push new
  · exact .inl (stops key behind)

/-- A note that can be tied over is revived by a tie, or no other note of its key has started. -/
theorem apart_of_tie (struck : (note.struck? source).isSome = true)
    (timed : note.startsTimed source = true)
    (held : ∀ other ∈ after, other.releases source note.visit.tick = false)
    (ties : new.ties source = true) (stop : Nat) : note.Apart source (after ++ [new]) stop := by
  intro between next later split key behind
  obtain ⟨⟨own, velocity⟩, struck⟩ := Option.isSome_iff_exists.mp struck
  rw [key_of_struck struck] at key
  obtain ⟨⟨own', velocity'⟩, struck', same⟩ := Option.map_eq_some_iff.mp key
  obtain ⟨kind, known, strikes⟩ := Option.bind_eq_some_iff.mp struck'
  rcases List.split_push split with ⟨rest, rfl, rfl⟩ | ⟨rfl, rfl, _⟩
  · refine .inr ⟨timed, ?_, rest, new, [], rfl, ties, fun other member => held other ?_⟩
    · have kept := held next (by simp)
      unfold releases startsTimed at kept
      unfold startsOpen
      rw [known] at kept ⊢
      cases kind with
      | noteOn => rfl
      | note =>
        simp only [Bool.true_and, Bool.or_eq_false_iff, decide_eq_false_iff_not, ne_eq,
          not_not] at kept
        exact absurd kept.2 (Nat.ne_of_gt behind)
      | _ => cases strikes
    · simp only [List.mem_append, List.mem_cons] at member ⊢
      tauto
  · unfold Reading.ties at ties
    rw [known] at ties
    cases kind with
    | noteOn | note => cases ties
    | _ => cases strikes

end Reading

/-- The note is among the readings, with its entry at the index and the others after it. -/
structure Stands (source : Source) (readings : List Reading) (index : Nat) (note : Reading)
    (after : List Reading) : Prop where
  split : ∃ before, readings = before ++ note :: after ∧
    RefSeq.entryAfter source (before.map Reading.visit) = index
  starts : (note.struck? source).isSome = true

/-- The number of entries that readings make. -/
def entriesOf (source : Source) (readings : List Reading) : Nat :=
  RefSeq.entryAfter source (readings.map Reading.visit)

variable {source : Source} {readings after : List Reading} {index : Nat} {note new : Reading}

theorem entriesOf_push (readings : List Reading) (new : Reading) :
    entriesOf source (readings ++ [new]) = entriesOf source readings +
      if RefSeq.isRecorded source new.visit.offset then 1 else 0 := by
  rw [entriesOf, List.map_append]
  cases recorded : RefSeq.isRecorded source new.visit.offset with
  | true => exact RefSeq.entryAfter_recorded _ recorded
  | false => exact RefSeq.entryAfter_unrecorded _ recorded

theorem isRecorded_of_struck (starts : (note.struck? source).isSome = true) :
    RefSeq.isRecorded source note.visit.offset = true :=
  RefSeq.isRecorded_of_startsNote ((RefSeq.isSome_struck note).symm.trans starts)

theorem Stands.inside (stands : Stands source readings index note after) :
    index < entriesOf source readings := by
  obtain ⟨before, rfl, rfl⟩ := stands.split
  have recorded := RefSeq.tag_of_recorded (isRecorded_of_struck stands.starts)
  simp [entriesOf, RefSeq.entryAfter, recorded]

theorem Stands.mem (stands : Stands source readings index note after) : note ∈ readings := by
  obtain ⟨before, rfl, _⟩ := stands.split
  simp

theorem stands_push (stands : Stands source (readings ++ [new]) index note after) :
    (∃ rest, after = rest ++ [new] ∧ Stands source readings index note rest) ∨
      after = [] ∧ note = new ∧ index = entriesOf source readings := by
  obtain ⟨⟨before, split, there⟩, starts⟩ := stands
  rcases List.split_push split with ⟨rest, rfl, own⟩ | ⟨rfl, rfl, rfl⟩
  · exact .inl ⟨rest, rfl, ⟨before, own, there⟩, starts⟩
  · exact .inr ⟨rfl, rfl, there.symm⟩

/-- What a player knows of a note that stands among the readings. Its key has not been read again. -/
structure OpenNote.Fits (source : Source) (note : OpenNote) (reading : Reading)
    (after : List Reading) : Prop where
  key : reading.key? source = some note.key
  start : note.start = reading.visit.tick
  last : ∀ other ∈ after, other.key? source ≠ some note.key

/-- What a player knows of a note that ends by itself. -/
structure TimedNote.Fits (source : Source) (note : TimedNote) (reading : Reading)
    (after : List Reading) : Prop where
  key : reading.key? source = some note.key
  start : note.start = reading.visit.tick
  timed : reading.startsTimed source = true
  tied : note.tracked = true → ∀ other ∈ after, other.releases source reading.visit.tick = false
  apart : reading.Apart source after note.stop

/-- The entry of a note is that of a reading that the note fits. -/
structure Known (source : Source) (readings : List Reading) (entry : Option Nat)
    (fits : Reading → List Reading → Prop) : Prop where
  inside : ∀ index ∈ entry, index < entriesOf source readings
  fits : ∀ index ∈ entry, ∀ reading after, Stands source readings index reading after →
    fits reading after

/-- An entry of a note that has stopped, or that the player still has. -/
structure Spanned (source : Source) (time : Nat) (opened : List OpenNote) (timed : List TimedNote)
    (index : Nat) (reading : Reading) (after : List Reading) (entry : Entry) : Prop where
  start : entry.start = reading.visit.tick
  apart : reading.Apart source after entry.within
  bound : entry.within ≤ time ∨ (∃ note ∈ opened, note.entry = some index) ∨
    ∃ note ∈ timed, note.entry = some index ∧ entry.within ≤ note.stop

theorem entriesOf_le_push (readings : List Reading) (new : Reading) :
    entriesOf source readings ≤ entriesOf source (readings ++ [new]) := by
  rw [entriesOf_push]
  exact Nat.le_add_right _ _

theorem entriesOf_lt_push (starts : (new.struck? source).isSome = true) :
    entriesOf source readings < entriesOf source (readings ++ [new]) := by
  rw [entriesOf_push, isRecorded_of_struck starts]
  exact Nat.lt_succ_self _

/-- A reading later, the player still knows the reading that it knew of the note. -/
theorem Known.push {entry : Option Nat} {fits : Reading → List Reading → Prop}
    (known : Known source readings entry fits)
    (further : ∀ reading rest, fits reading rest → fits reading (rest ++ [new])) :
    Known source (readings ++ [new]) entry fits where
  inside := fun index own =>
    Nat.lt_of_lt_of_le (known.inside index own) (entriesOf_le_push readings new)
  fits := fun index own reading after stands => by
    rcases stands_push stands with ⟨rest, rfl, earlier⟩ | ⟨_, _, rfl⟩
    · exact further reading rest (known.fits index own reading rest earlier)
    · exact absurd (known.inside _ own) (Nat.lt_irrefl _)

/-- The note of the last reading has the last entry. -/
theorem known_push {entry : Option Nat} {fits : Reading → List Reading → Prop}
    (starts : (new.struck? source).isSome = true)
    (own : entry = some (entriesOf source readings)) (fresh : fits new []) :
    Known source (readings ++ [new]) entry fits where
  inside := fun index known => by
    cases own.symm.trans known
    exact entriesOf_lt_push starts
  fits := fun index known reading after stands => by
    cases own.symm.trans known
    rcases stands_push stands with ⟨_, _, earlier⟩ | ⟨rfl, rfl, _⟩
    · exact absurd earlier.inside (Nat.lt_irrefl _)
    · exact fresh

theorem OpenNote.Fits.push {known : OpenNote} (fits : known.Fits source note after)
    (other : new.key? source ≠ some known.key) : known.Fits source note (after ++ [new]) where
  key := fits.key
  start := fits.start
  last := fun reading there => by
    rcases List.mem_append.mp there with there | there
    · exact fits.last reading there
    · cases List.mem_singleton.mp there
      exact other

theorem TimedNote.Fits.push {known : TimedNote} (fits : known.Fits source note after)
    (released : known.tracked = true → new.releases source known.start = false)
    (ended : new.key? source = some known.key → known.start < new.visit.tick →
      known.stop ≤ new.visit.tick) : known.Fits source note (after ++ [new]) where
  key := fits.key
  start := fits.start
  timed := fits.timed
  tied := fun tracked reading there => by
    rcases List.mem_append.mp there with there | there
    · exact fits.tied tracked reading there
    · cases List.mem_singleton.mp there
      rw [← fits.start]
      exact released tracked
  apart := fits.apart.push fun same before =>
    ended (same.trans fits.key) (fits.start ▸ before)

/-- The readings as the notes of a timeline and of a player. -/
structure Held (source : Source) (readings : List Reading) (time : Nat) (timeline : Timeline)
    (opened : List OpenNote) (timed : List TimedNote) : Prop where
  early : ∀ reading ∈ readings, reading.visit.tick ≤ time
  openNotes : ∀ note ∈ opened, Known source readings note.entry (note.Fits source)
  timedNotes : ∀ note ∈ timed, Known source readings note.entry (note.Fits source)
  entries : ∀ index reading after, Stands source readings index reading after →
    ∃ entry, timeline.entries[index]? = some entry ∧
      Spanned source time opened timed index reading after entry

namespace Held

variable {time : Nat} {timeline next : Timeline} {opened opened' : List OpenNote}
  {timed timed' : List TimedNote}

theorem later (held : Held source readings time timeline opened timed) {time' : Nat}
    (le : time ≤ time') : Held source readings time' timeline opened timed where
  early := fun reading member => Nat.le_trans (held.early reading member) le
  openNotes := held.openNotes
  timedNotes := held.timedNotes
  entries := fun index reading after stands => by
    obtain ⟨entry, found, start, apart, bound⟩ := held.entries index reading after stands
    exact ⟨entry, found, start, apart, bound.imp_left fun ended => Nat.le_trans ended le⟩

theorem add (held : Held source readings time timeline opened timed) (entry : Entry) :
    Held source readings time (timeline.add entry) opened timed where
  early := held.early
  openNotes := held.openNotes
  timedNotes := held.timedNotes
  entries := fun index reading after stands => by
    obtain ⟨known, found, spanned⟩ := held.entries index reading after stands
    exact ⟨known, Timeline.getElem_add found entry, spanned⟩

theorem reopen (held : Held source readings time timeline opened timed)
    (same : ∀ note, note ∈ opened' ↔ note ∈ opened) :
    Held source readings time timeline opened' timed where
  early := held.early
  openNotes := fun note member => held.openNotes note ((same note).mp member)
  timedNotes := held.timedNotes
  entries := fun index reading after stands => by
    obtain ⟨entry, found, start, apart, bound⟩ := held.entries index reading after stands
    refine ⟨entry, found, start, apart, bound.imp_right (Or.imp_left ?_)⟩
    rintro ⟨note, member, own⟩
    exact ⟨note, (same note).mpr member, own⟩

/-- Notes may be forgotten that have stopped, and may be tied no more. -/
theorem keep (held : Held source readings time timeline opened timed)
    (kept : ∀ note ∈ timed', ∃ earlier ∈ timed, note = earlier ∨ note = earlier.untrack)
    (rest : ∀ note ∈ timed, note.stop ≤ time ∨ ∃ left ∈ timed', left.entry = note.entry ∧
      left.stop = note.stop) : Held source readings time timeline opened timed' where
  early := held.early
  openNotes := held.openNotes
  timedNotes := fun note member => by
    obtain ⟨earlier, there, rfl | rfl⟩ := kept note member
    · exact held.timedNotes _ there
    · obtain ⟨inside, fits⟩ := held.timedNotes earlier there
      refine ⟨inside, fun index own reading after stands => ?_⟩
      have known := fits index own reading after stands
      exact { known with tied := fun tracked => by cases tracked }
  entries := fun index reading after stands => by
    obtain ⟨entry, found, start, apart, bound⟩ := held.entries index reading after stands
    refine ⟨entry, found, start, apart, ?_⟩
    rcases bound with ended | opened | ⟨note, there, own, within⟩
    · exact .inl ended
    · exact .inr (.inl opened)
    · rcases rest note there with stopped | ⟨left, member, same, stop⟩
      · exact .inl (Nat.le_trans within stopped)
      · exact .inr (.inr ⟨left, member, same.trans own, stop ▸ within⟩)

/-- Nothing of a key sounds any more. -/
theorem silent (held : Held source readings time timeline opened timed) {key : UInt8}
    (closed : ∀ note ∈ opened, note.key ≠ key)
    (ended : ∀ note ∈ timed, note.key = key → note.start < time → note.stop ≤ time)
    {entry : Entry} (stands : Stands source readings index note after)
    (found : timeline.entries[index]? = some entry) (own : note.key? source = some key)
    (before : note.visit.tick < time) : entry.within ≤ time := by
  obtain ⟨entry', found', _, _, bound⟩ := held.entries index note after stands
  cases found.symm.trans found'
  rcases bound with passed | ⟨other, there, known⟩ | ⟨other, there, known, within⟩
  · exact passed
  · have fits := (held.openNotes other there).fits index known note after stands
    cases own.symm.trans fits.key
    exact absurd rfl (closed other there)
  · have fits := (held.timedNotes other there).fits index known note after stands
    cases own.symm.trans fits.key
    exact Nat.le_trans within (ended other there rfl (by rw [fits.start]; exact before))

/-- An instruction is read, and starts `fresh` notes if it starts any. What it starts ends the notes
of its key, and what it lets go of is tied no more. -/
theorem push (held : Held source readings time timeline opened timed)
    (now : new.visit.tick = time) (fresh : List OpenNote) (freshTimed : List TimedNote)
    (opens : ∀ note ∈ fresh, note.entry = some (entriesOf source readings) ∧
      new.key? source = some note.key ∧ note.start = time)
    (starts : ∀ note ∈ freshTimed, note.entry = some (entriesOf source readings) ∧
      new.key? source = some note.key ∧ note.start = time ∧ new.startsTimed source = true)
    (entry : (new.struck? source).isSome = true → ∃ entry,
      timeline.entries[entriesOf source readings]? = some entry ∧ entry.start = time ∧
      ((∃ note, note ∈ fresh) ∨ ∃ note ∈ freshTimed, entry.within ≤ note.stop))
    (struck : (∃ note, note ∈ fresh) ∨ (∃ note, note ∈ freshTimed) →
      (new.struck? source).isSome = true)
    (closed : ∀ key, new.key? source = some key → ∀ note ∈ opened, note.key ≠ key)
    (ended : ∀ key, new.key? source = some key → ∀ note ∈ timed, note.key = key →
      note.start < time → note.stop ≤ time)
    (released : ∀ note ∈ timed, note.tracked = true → new.releases source note.start = false) :
    Held source (readings ++ [new]) time timeline (opened ++ fresh) (timed ++ freshTimed) := by
  constructor
  · intro reading member
    rcases List.mem_append.mp member with member | member
    · exact held.early reading member
    · rw [List.mem_singleton.mp member]
      exact Nat.le_of_eq now
  · intro note member
    rcases List.mem_append.mp member with member | member
    · exact (held.openNotes note member).push fun reading rest fits =>
        fits.push fun same => closed note.key same note member rfl
    · obtain ⟨own, key, start⟩ := opens note member
      exact known_push (struck (.inl ⟨note, member⟩)) own
        ⟨key, start.trans now.symm, fun _ there => absurd there List.not_mem_nil⟩
  · intro note member
    rcases List.mem_append.mp member with member | member
    · refine (held.timedNotes note member).push fun reading rest fits =>
        fits.push (released note member) fun same before => ?_
      rw [now] at before ⊢
      exact ended note.key same note member rfl before
    · obtain ⟨own, key, start, timed⟩ := starts note member
      exact known_push (struck (.inr ⟨note, member⟩)) own
        ⟨key, start.trans now.symm, timed, fun _ _ there => absurd there List.not_mem_nil,
          Reading.apart_nil _ _⟩
  · intro index reading after stands
    rcases stands_push stands with ⟨rest, rfl, earlier⟩ | ⟨rfl, rfl, rfl⟩
    · obtain ⟨entry, found, start, apart, bound⟩ := held.entries index reading rest earlier
      refine ⟨entry, found, start, apart.push ?_, ?_⟩
      · intro same before
        obtain ⟨struck, known⟩ := Option.isSome_iff_exists.mp earlier.starts
        have own : reading.key? source = some struck.1 := Reading.key_of_struck known
        rw [now] at before ⊢
        exact held.silent (closed _ (same.trans own)) (ended _ (same.trans own)) earlier found own
          before
      · rcases bound with passed | ⟨note, there, own⟩ | ⟨note, there, own, within⟩
        · exact .inl passed
        · exact .inr (.inl ⟨note, List.mem_append_left _ there, own⟩)
        · exact .inr (.inr ⟨note, List.mem_append_left _ there, own, within⟩)
    · obtain ⟨entry, found, start, still⟩ := entry stands.starts
      refine ⟨entry, found, start.trans now.symm, Reading.apart_nil _ _, .inr ?_⟩
      rcases still with ⟨note, there⟩ | ⟨note, there, within⟩
      · exact .inl ⟨note, List.mem_append_right _ there, (opens note there).1⟩
      · exact .inr ⟨note, List.mem_append_right _ there, (starts note there).1, within⟩

/-- An instruction that starts no note. -/
theorem read (held : Held source readings time timeline opened timed)
    (now : new.visit.tick = time) (silent : new.struck? source = none)
    (released : ∀ note ∈ timed, note.tracked = true → new.releases source note.start = false) :
    Held source (readings ++ [new]) time timeline opened timed := by
  have none (key : UInt8) : new.key? source ≠ some key := by
    rw [Reading.key?, silent]
    exact fun same => by cases same
  have pushed := held.push now [] [] (fun _ member => absurd member List.not_mem_nil)
    (fun _ member => absurd member List.not_mem_nil)
    (by rw [silent]; exact fun starts => by cases starts)
    (by rintro (⟨_, member⟩ | ⟨_, member⟩) <;> exact absurd member List.not_mem_nil)
    (fun key same => absurd same (none key)) (fun key same => absurd same (none key)) released
  rwa [List.append_nil, List.append_nil] at pushed

end Held

/-- The timelines differ at most in how long one entry lasts. -/
def Timeline.Lasts (before after : Timeline) (entry : Option Nat) (duration : Nat) : Prop :=
  ∀ index, after.entries[index]? = before.entries[index]?.map fun known =>
    if entry = some index then known.lasting duration else known

/-- The timelines have the same entries from some index on. -/
def Timeline.SameFrom (first : Nat) (before after : Timeline) : Prop :=
  ∀ index, first ≤ index → after.entries[index]? = before.entries[index]?

theorem Timeline.SameFrom.trans {first : Nat} {before middle after : Timeline}
    (left : Timeline.SameFrom first before middle) (right : Timeline.SameFrom first middle after) :
    Timeline.SameFrom first before after :=
  fun index le => (right index le).trans (left index le)

theorem Timeline.Lasts.sameFrom {before after : Timeline} {entry : Option Nat} {duration first : Nat}
    (lasts : before.Lasts after entry duration) (inside : ∀ index ∈ entry, index < first) :
    Timeline.SameFrom first before after := by
  intro index le
  have other : entry ≠ some index := fun own => absurd (inside index own) (Nat.not_lt.mpr le)
  simp [lasts index, other]

theorem Sheet.setDuration_lasts (sheet : Sheet) (entry : Option Nat) (duration : Nat) :
    (sheet.setDuration entry duration).Ensures fun next =>
      sheet.timeline.Lasts next.timeline entry duration := by
  cases entry with
  | none =>
    refine Except.ensures_ok fun index => ?_
    simp
  | some own =>
    rintro next done
    obtain ⟨timeline, set, same⟩ := Except.bind_eq_ok.mp done
    cases same
    have inside : own < sheet.timeline.size := by
      unfold Timeline.setDuration at set
      split at set
      · assumption
      · cases set
    obtain ⟨_, done, entries⟩ := Timeline.setDuration_entries inside duration
    cases done.symm.trans set
    intro index
    rw [entries, Array.getElem?_modify]
    by_cases here : own = index
    · simp [here]
    · simp [here]

theorem OpenNote.close_lasts (note : OpenNote) (writing : Bool) (channel : UInt8) (tick : Nat)
    (sheet : Sheet) : (note.close writing channel tick sheet).Ensures fun next =>
      sheet.timeline.Lasts next.timeline note.entry (tick - note.start) := by
  refine (Sheet.setDuration_lasts sheet note.entry _).bind fun ended lasts => ?_
  cases writing <;> exact Except.ensures_ok lasts

theorem TimedNote.endAt_lasts (note : TimedNote) (tick : Nat) (sheet : Sheet) :
    (note.endAt tick sheet).Ensures fun (ended, next) =>
      ended = { note with stop := max tick note.start } ∧
        sheet.timeline.Lasts next.timeline note.entry (max tick note.start - note.start) := by
  refine (Sheet.setDuration_lasts sheet note.entry _).bind fun timed lasts => ?_
  refine (Sheet.setTick_timeline timed note.noteOff _).bind fun next same => ?_
  exact Except.ensures_ok ⟨rfl, same ▸ lasts⟩

theorem Entry.within_lasting (entry : Entry) {stop : Nat} (late : entry.start ≤ stop) :
    (entry.lasting (stop - entry.start)).within ≤ stop := by
  unfold within lasting Tick.later
  dsimp only
  omega

namespace Held

variable {time : Nat} {timeline next : Timeline} {opened opened' : List OpenNote}
  {timed timed' : List TimedNote}

/-- A note is ended. It has stopped then, or is still among the notes that end by themselves. -/
theorem last (held : Held source readings time timeline opened timed) {entry : Option Nat}
    {start stop : Nat} (lasts : timeline.Lasts next entry (stop - start))
    (ends : ∀ index ∈ entry, ∀ reading after, Stands source readings index reading after →
      start = reading.visit.tick ∧ start ≤ stop ∧ reading.Apart source after stop)
    (own : ∀ index ∈ entry, stop ≤ time ∨ ∃ note ∈ timed', note.entry = some index ∧
      stop ≤ note.stop)
    (openNotes : ∀ note ∈ opened', note ∈ opened)
    (others : ∀ note ∈ opened, note ∈ opened' ∨ note.entry = entry)
    (timedNotes : ∀ note ∈ timed', Known source readings note.entry (note.Fits source))
    (rest : ∀ note ∈ timed, note ∈ timed' ∨ note.entry = entry) :
    Held source readings time next opened' timed' where
  early := held.early
  openNotes := fun note member => held.openNotes note (openNotes note member)
  timedNotes := timedNotes
  entries := fun index reading after stands => by
    obtain ⟨known, found, begins, apart, bound⟩ := held.entries index reading after stands
    by_cases here : entry = some index
    · obtain ⟨begin, late, ended⟩ := ends index here reading after stands
      have within : (known.lasting (stop - start)).within ≤ stop := by
        have same : start = known.start := begin.trans begins.symm
        subst same
        exact known.within_lasting late
      refine ⟨known.lasting (stop - start), ?_, begins, ended.sooner within, ?_⟩
      · rw [lasts index, found, Option.map_some, if_pos here]
      · rcases own index here with passed | ⟨note, member, same, later⟩
        · exact .inl (Nat.le_trans within passed)
        · exact .inr (.inr ⟨note, member, same, Nat.le_trans within later⟩)
    · refine ⟨known, ?_, begins, apart, ?_⟩
      · rw [lasts index, found, Option.map_some, if_neg here]
      · rcases bound with passed | ⟨note, there, same⟩ | ⟨note, there, same, within⟩
        · exact .inl passed
        · refine .inr (.inl ⟨note, (others note there).resolve_right ?_, same⟩)
          exact fun own => here (own.symm.trans same)
        · refine .inr (.inr ⟨note, (rest note there).resolve_right ?_, same, within⟩)
          exact fun own => here (own.symm.trans same)

/-- Open notes are closed now. -/
theorem closeAll (writing : Bool) (channel : UInt8) (sheet : Sheet) {tick : Nat}
    {closing : List OpenNote} (now : ∀ note ∈ closing, tick = time)
    (held : Held source readings time sheet.timeline (closing ++ opened) timed) :
    (OpenNote.closeAll writing channel tick sheet closing).Ensures fun next =>
      Held source readings time next.timeline opened timed ∧
        Timeline.SameFrom (entriesOf source readings) sheet.timeline next.timeline := by
  induction closing generalizing sheet with
  | nil => exact Except.ensures_ok ⟨held, fun _ _ => rfl⟩
  | cons note rest ih =>
    have known := held.openNotes note List.mem_cons_self
    refine (note.close_lasts writing channel tick sheet).bind fun middle lasts => ?_
    have closed : Held source readings time middle.timeline (rest ++ opened) timed := by
      refine held.last lasts ?_ ?_ ?_ ?_ held.timedNotes fun _ => .inl
      · intro index own reading after stands
        have fits := known.fits index own reading after stands
        refine ⟨fits.start, ?_, Reading.apart_of_none ?_ tick⟩
        · rw [fits.start, now note List.mem_cons_self]
          exact held.early reading stands.mem
        · intro other there
          rw [fits.key]
          exact fits.last other there
      · exact fun _ _ => .inl (Nat.le_of_eq (now note List.mem_cons_self))
      · exact fun other member => List.mem_cons_of_mem _ member
      · intro other member
        rcases List.mem_cons.mp member with rfl | member
        · exact .inr rfl
        · exact .inl member
    refine Except.Ensures.mono (ih _ (fun other member => now other (List.mem_cons_of_mem _ member))
      closed) fun next ⟨held, same⟩ => ?_
    exact ⟨held, (lasts.sameFrom known.inside).trans same⟩

/-- One of the notes that end by themselves is ended at a tick, if it is chosen. -/
theorem endIf {done rest : List TimedNote} {note : TimedNote} {chosen : TimedNote → Bool}
    {tick : Nat} {sheet : Sheet}
    (held : Held source readings time sheet.timeline opened (done ++ note :: rest))
    (apart : chosen note = true → ∀ index ∈ note.entry, ∀ reading after,
      Stands source readings index reading after →
        reading.Apart source after (max tick note.start)) :
    (note.endIf chosen tick sheet).Ensures fun (ended, next) =>
      ended = note.ended chosen tick ∧
      Held source readings time next.timeline opened (done ++ ended :: rest) ∧
        Timeline.SameFrom (entriesOf source readings) sheet.timeline next.timeline := by
  have known := held.timedNotes note (by simp)
  unfold TimedNote.endIf TimedNote.ended
  split
  · rename_i picked
    refine Except.Ensures.mono (note.endAt_lasts tick sheet) fun ⟨ended, next⟩ ⟨same, lasts⟩ => ?_
    subst same
    refine ⟨rfl, held.last lasts ?_ ?_ (fun _ => id) (fun _ => .inl) ?_ ?_,
      lasts.sameFrom known.inside⟩
    · intro index own reading after stands
      exact ⟨(known.fits index own reading after stands).start, Nat.le_max_right ..,
        apart picked index own reading after stands⟩
    · exact fun index own => .inr ⟨{ note with stop := max tick note.start }, by simp, own,
        Nat.le_refl _⟩
    · intro other member
      rcases List.mem_append.mp member with member | member
      · exact held.timedNotes other (List.mem_append_left _ member)
      · rcases List.mem_cons.mp member with rfl | member
        · refine ⟨known.inside, fun index own reading after stands => ?_⟩
          have fits := known.fits index own reading after stands
          exact { fits with apart := apart picked index own reading after stands }
        · exact held.timedNotes other (List.mem_append_right _ (List.mem_cons_of_mem _ member))
    · intro other member
      simp only [List.mem_append, List.mem_cons] at member ⊢
      rcases member with member | rfl | member
      · exact .inl (.inl member)
      · exact .inr rfl
      · exact .inl (.inr (.inr member))
  · exact Except.ensures_ok ⟨rfl, held, fun _ _ => rfl⟩

/-- The chosen ones of the notes that end by themselves are ended at a tick. -/
theorem endAll (done : List TimedNote) {chosen : TimedNote → Bool} {tick : Nat} {sheet : Sheet}
    {notes : List TimedNote}
    (held : Held source readings time sheet.timeline opened (done ++ notes))
    (apart : ∀ note ∈ notes, chosen note = true → ∀ index ∈ note.entry, ∀ reading after,
      Stands source readings index reading after →
        reading.Apart source after (max tick note.start)) :
    (TimedNote.endAll chosen tick sheet notes).Ensures fun (ended, next) =>
      ended = notes.map (TimedNote.ended chosen tick) ∧
      Held source readings time next.timeline opened (done ++ ended) ∧
        Timeline.SameFrom (entriesOf source readings) sheet.timeline next.timeline := by
  induction notes generalizing done sheet with
  | nil => exact Except.ensures_ok ⟨rfl, held, fun _ _ => rfl⟩
  | cons note rest ih =>
    have first := held.endIf (apart note List.mem_cons_self)
    rw [TimedNote.endAll_cons]
    refine first.bind fun ⟨ended, middle⟩ ⟨same, held, kept⟩ => ?_
    rintro ⟨result, next⟩ finished
    obtain ⟨⟨others, last⟩, went, outcome⟩ := Except.map_eq_ok.mp finished
    cases outcome
    have held : Held source readings time middle.timeline opened ((done ++ [ended]) ++ rest) := by
      simpa using held
    obtain ⟨all, held, kept'⟩ := ih _ held
      (fun other member => apart other (List.mem_cons_of_mem _ member)) _ went
    refine ⟨?_, ?_, kept.trans kept'⟩
    · rw [List.map_cons, same, all]
    · simpa using held

end Held
end Sequencer
