import Sequencer.Fault

/-! Computations that may fail: what a result says of the parts that it was computed from. -/
namespace Except

variable {ε α β γ δ : Type}

theorem bind_eq_ok {x : Except ε α} {next : α → Except ε β} {result : β} :
    (x >>= next) = .ok result ↔ ∃ a, x = .ok a ∧ next a = .ok result := by
  cases x with
  | error error => simp [bind, Except.bind]
  | ok a => simp [bind, Except.bind]

theorem map_eq_ok {x : Except ε α} {f : α → β} {result : β} :
    x.map f = .ok result ↔ ∃ a, x = .ok a ∧ f a = result := by
  cases x with
  | error error => simp [Except.map]
  | ok a => simp [Except.map]

theorem mapError_eq_ok {x : Except ε α} {f : ε → δ} {a : α} : x.mapError f = .ok a ↔ x = .ok a := by
  cases x with
  | error error => constructor <;> rintro ⟨⟩
  | ok b => constructor <;> (rintro ⟨⟩; rfl)

theorem eq_ok_of_toOption {x : Except ε α} {a : α} (found : x.toOption = some a) : x = .ok a := by
  cases x with
  | error error => cases found
  | ok b =>
    cases found
    rfl

/-- A computation succeeds, and its result has a property. -/
def Yields (property : α → Prop) (x : Except ε α) : Prop := ∃ a, x = .ok a ∧ property a

theorem yields_ok {property : α → Prop} {a : α} (holds : property a) :
    Yields property (.ok a : Except ε α) := ⟨a, rfl, holds⟩

theorem Yields.bind {first : α → Prop} {last : β → Prop} {x : Except ε α}
    {next : α → Except ε β} (yields : x.Yields first)
    (rest : ∀ a, first a → (next a).Yields last) : (x >>= next).Yields last := by
  obtain ⟨a, rfl, holds⟩ := yields
  exact rest a holds

theorem Yields.map {first : α → Prop} {last : β → Prop} {x : Except ε α} {f : α → β}
    (yields : x.Yields first) (rest : ∀ a, first a → last (f a)) : (x.map f).Yields last := by
  obtain ⟨a, rfl, holds⟩ := yields
  exact yields_ok (rest a holds)

theorem Yields.mono {weak strong : α → Prop} {x : Except ε α} (yields : x.Yields strong)
    (imply : ∀ a, strong a → weak a) : x.Yields weak := by
  obtain ⟨a, rfl, holds⟩ := yields
  exact ⟨a, rfl, imply a holds⟩

/-- Whatever a computation results in has a property. It may as well fail. -/
def Ensures (property : α → Prop) (x : Except ε α) : Prop := ∀ a, x = .ok a → property a

theorem ensures_ok {property : α → Prop} {a : α} (holds : property a) :
    Ensures property (.ok a : Except ε α) := by
  rintro _ ⟨⟩
  exact holds

theorem Ensures.bind {first : α → Prop} {last : β → Prop} {x : Except ε α}
    {next : α → Except ε β} (ensures : x.Ensures first)
    (rest : ∀ a, first a → (next a).Ensures last) : (x >>= next).Ensures last := by
  intro result done
  obtain ⟨a, found, done⟩ := bind_eq_ok.mp done
  exact rest a (ensures a found) result done

theorem Ensures.mono {weak strong : α → Prop} {x : Except ε α} (ensures : x.Ensures strong)
    (imply : ∀ a, strong a → weak a) : x.Ensures weak :=
  fun a found => imply a (ensures a found)

theorem Yields.ensures {property : α → Prop} {x : Except ε α} (yields : x.Yields property) :
    x.Ensures property := by
  obtain ⟨a, rfl, holds⟩ := yields
  exact ensures_ok holds

/-- What the first computation results in, the second one results in as well, up to a relation. -/
def Follows (related : α → β → Prop) (x : Except ε α) (y : Except ε β) : Prop :=
  ∀ a, x = .ok a → ∃ b, y = .ok b ∧ related a b

theorem follows_ok {related : α → β → Prop} {a : α} {b : β} (holds : related a b) :
    Follows related (.ok a : Except ε α) (.ok b : Except ε β) := by
  rintro _ ⟨⟩
  exact ⟨b, rfl, holds⟩

/-- Two computations that come to the same, up to what two maps forget. -/
theorem follows_of_map {f : α → γ} {g : β → γ} {x : Except ε α} {y : Except ε β}
    (same : x.map f = y.map g) : x.Follows (fun a b => g b = f a) y := by
  rintro a rfl
  exact map_eq_ok.mp same.symm

theorem Follows.mono {strong weak : α → β → Prop} {x : Except ε α} {y : Except ε β}
    (follows : x.Follows strong y) (imply : ∀ a b, strong a b → weak a b) : x.Follows weak y := by
  intro a found
  obtain ⟨b, there, holds⟩ := follows a found
  exact ⟨b, there, imply a b holds⟩

theorem Follows.bind {first : α → β → Prop} {last : γ → δ → Prop} {x : Except ε α}
    {y : Except ε β} {next : α → Except ε γ} {next' : β → Except ε δ}
    (follows : x.Follows first y) (rest : ∀ a b, first a b → (next a).Follows last (next' b)) :
    (x >>= next).Follows last (y >>= next') := by
  intro result done
  obtain ⟨a, found, done⟩ := bind_eq_ok.mp done
  obtain ⟨b, rfl, holds⟩ := follows a found
  exact rest a b holds result done

theorem Follows.map {first : α → β → Prop} {last : γ → δ → Prop} {x : Except ε α}
    {y : Except ε β} {f : α → γ} {g : β → δ} (follows : x.Follows first y)
    (rest : ∀ a b, first a b → last (f a) (g b)) : (x.map f).Follows last (y.map g) := by
  intro result done
  obtain ⟨a, found, rfl⟩ := map_eq_ok.mp done
  obtain ⟨b, rfl, holds⟩ := follows a found
  exact ⟨g b, rfl, rest a b holds⟩

/-- Two computations keep in step if their first parts do, and what follows a result of the
first. -/
theorem map_bind_of_map {f : α → γ} {g : β → δ} {x : Except ε α} {y : Except ε γ}
    {next : α → Except ε β} {next' : γ → Except ε δ} (first : x.map f = y)
    (rest : ∀ a, (next a).map g = next' (f a)) : (x >>= next).map g = y >>= next' := by
  subst first
  cases x with
  | error error => rfl
  | ok a => exact rest a

end Except
