import Mathlib.Data.List.Forall2
import Mathlib.Data.List.Pairwise

/-! Lists: what stands at an index, where a list is split, and what is kept by filters, by maps and
in pairs. -/
namespace List

variable {α β γ δ : Type}

theorem getElem?_concat {xs : List α} {last x : α} {index : Nat}
    (there : (xs ++ [last])[index]? = some x) :
    xs[index]? = some x ∨ index = xs.length ∧ x = last := by
  rcases Nat.lt_or_ge index xs.length with inside | behind
  · rw [getElem?_append_left inside] at there
    exact .inl there
  · rw [getElem?_append_right behind] at there
    obtain ⟨none, same⟩ := getElem?_eq_some_iff.mp there
    rw [length_singleton] at none
    refine .inr ⟨by omega, ?_⟩
    rw [← same]
    exact getElem_singleton _

theorem getElem?_of_prefix {xs ys : List α} (grown : xs <+: ys) {index : Nat} {x : α}
    (found : xs[index]? = some x) : ys[index]? = some x := by
  obtain ⟨inside, rfl⟩ := getElem?_eq_some_iff.mp found
  exact prefix_iff_getElem?.mp grown index inside

theorem map_getElem?_range (xs : List α) :
    (range xs.length).map (fun index => xs[index]?) = xs.map some := by
  apply ext_getElem?
  intro index
  rw [getElem?_map, getElem?_map]
  by_cases inside : index < xs.length
  · simp [inside]
  · simp [Nat.le_of_not_lt inside]

theorem map_getElem?_filter_range (xs : List α) (p : α → Bool) :
    ((range xs.length).filter fun index => xs[index]?.any p).map (fun index => xs[index]?) =
      (xs.filter p).map some := by
  have mapped := filter_map (f := fun index => xs[index]?) (p := fun x => x.any p)
    (l := range xs.length)
  rw [map_getElem?_range, filter_map] at mapped
  exact mapped.symm

theorem map_getElem?_filter (xs : List α) (p : α → Bool) :
    ((xs.zipIdx.filter fun item => p item.1).map Prod.snd).map (fun index => xs[index]?) =
      (xs.filter p).map some := by
  have named : ((xs.zipIdx.filter fun item => p item.1).map fun item => xs[item.2]?) =
      (xs.zipIdx.filter fun item => p item.1).map fun item => some item.1 := by
    refine map_congr_left fun item member => ?_
    exact mem_zipIdx_iff_getElem?.mp (mem_filter.mp member).1
  have kept : (xs.zipIdx.filter fun item => p item.1).map Prod.fst = xs.filter p := by
    have mapped := filter_map (f := Prod.fst) (p := p) (l := xs.zipIdx)
    rw [zipIdx_map_fst] at mapped
    exact mapped.symm
  rw [map_map, ← kept, map_map]
  exact named

theorem filter_modify {p : α → Bool} {f : α → α} {xs : List α} {x : α}
    (out : p x = false) (out' : p (f x) = false) {index : Nat} (there : xs[index]? = some x) :
    (xs.modify index f).filter p = xs.filter p := by
  induction xs generalizing index with
  | nil => cases there
  | cons first rest ih =>
    cases index with
    | zero =>
      cases there
      simp [out, out']
    | succ index => simp [filter_cons, ih there]

theorem filterMap_push (f : α → Option β) (xs : List α) (x : α) :
    (xs ++ [x]).filterMap f = xs.filterMap f ++ (f x).toList := by
  rw [filterMap_append]
  cases known : f x <;> simp [known]

theorem split_push {xs before after : List α} {x y : α}
    (split : xs ++ [y] = before ++ x :: after) :
    (∃ rest, after = rest ++ [y] ∧ xs = before ++ x :: rest) ∨
      after = [] ∧ x = y ∧ xs = before := by
  rcases eq_nil_or_concat after with rfl | ⟨rest, last, rfl⟩
  · obtain ⟨same, ends⟩ := append_inj' split rfl
    exact .inr ⟨rfl, (cons.inj ends).1.symm, same⟩
  · rw [concat_eq_append] at split ⊢
    have longer : xs ++ [y] = (before ++ x :: rest) ++ [last] := by
      rw [split, append_assoc, cons_append]
    obtain ⟨same, ends⟩ := append_inj' longer rfl
    refine .inl ⟨rest, ?_, same⟩
    rw [(cons.inj ends).1]

/-- What a list has at an index comes from an element with so many such elements before it. -/
theorem split_of_filterMap {f : α → Option β} {xs : List α} {index : Nat} {y : β}
    (found : (xs.filterMap f)[index]? = some y) : ∃ before x after, xs = before ++ x :: after ∧
      f x = some y ∧ (before.filterMap f).length = index := by
  induction xs generalizing index with
  | nil => cases found
  | cons x xs ih =>
    rw [filterMap_cons] at found
    cases known : f x with
    | none =>
      rw [known] at found
      obtain ⟨before, x', after, rfl, maps, length⟩ := ih found
      exact ⟨x :: before, x', after, rfl, maps, by rw [filterMap_cons, known]; exact length⟩
    | some y' =>
      rw [known] at found
      cases index with
      | zero =>
        cases found
        exact ⟨[], x, xs, rfl, known, rfl⟩
      | succ index =>
        obtain ⟨before, x', after, rfl, maps, length⟩ := ih found
        refine ⟨x :: before, x', after, rfl, maps, ?_⟩
        rw [filterMap_cons, known]
        exact congrArg Nat.succ length

/-- Where elements do not go back, one that is not at or before another comes after it. -/
theorem split_behind {r : α → α → Prop} {xs before before' after after' : List α} {x y : α}
    (ordered : xs.Pairwise r) (refl : ∀ z, r z z) (split : xs = before ++ x :: after)
    (split' : xs = before' ++ y :: after') (behind : ¬ r y x) :
    ∃ between, after = between ++ y :: after' := by
  subst split
  rcases append_eq_append_iff.mp split' with ⟨rest, _, same⟩ | ⟨rest, same, same'⟩
  · cases rest with
    | nil =>
      cases same
      exact absurd (refl x) behind
    | cons first rest =>
      cases same
      exact ⟨rest, rfl⟩
  · cases rest with
    | nil =>
      cases same'
      exact absurd (refl x) behind
    | cons first rest =>
      cases same'
      rw [same, append_assoc] at ordered
      have later := (pairwise_append.mp ordered).2.1
      refine absurd ((pairwise_cons.mp later).1 x ?_) behind
      simp

/-- Only one element has a place that no two of them share. -/
theorem eq_of_nodup_filterMap {place : α → Option β} {xs : List α}
    (nodup : (xs.filterMap place).Nodup) {x y : α} (here : x ∈ xs) (there : y ∈ xs) {z : β}
    (own : place x = some z) (other : place y = some z) : x = y := by
  have apart : Std.Symm fun a b => ∀ p, place a = some p → ∀ q, place b = some q → p ≠ q :=
    ⟨fun _ _ apart p known q known' same => apart q known' p known same.symm⟩
  by_contra differ
  exact (pairwise_filterMap.mp nodup).forall here there differ z own z other rfl

theorem Forall₂.at {R : α → β → Prop} {xs : List α} {ys : List β} (pairs : Forall₂ R xs ys)
    {index : Nat} {x : α} {y : β} (here : xs[index]? = some x) (there : ys[index]? = some y) :
    R x y := by
  obtain ⟨inside, rfl⟩ := getElem?_eq_some_iff.mp here
  obtain ⟨inside', rfl⟩ := getElem?_eq_some_iff.mp there
  exact pairs.get inside inside'

theorem forall₂_filterMap {R : β → γ → Prop} {f : α → β} {g : α → Option γ}
    {xs : List α} (each : ∀ x ∈ xs, ∃ y, g x = some y ∧ R (f x) y) :
    Forall₂ R (xs.map f) (xs.filterMap g) := by
  induction xs with
  | nil => exact .nil
  | cons x xs ih =>
    obtain ⟨y, known, here⟩ := each x mem_cons_self
    rw [filterMap_cons_some known]
    exact .cons here (ih fun x member => each x (mem_cons_of_mem _ member))

/-- Lists that two maps send to the same list are sent to the same list by any maps that tell no
more of their members. -/
theorem map_eq_of_map {f : α → γ} {f' : β → γ} {g : α → δ} {g' : β → δ}
    {xs : List α} {ys : List β} (same : ys.map f' = xs.map f)
    (imply : ∀ x ∈ xs, ∀ y ∈ ys, f' y = f x → g' y = g x) : ys.map g' = xs.map g := by
  rw [← forall₂_eq_eq_eq, forall₂_map_left_iff, forall₂_map_right_iff] at same ⊢
  obtain ⟨length, zipped⟩ := forall₂_iff_zip.mp same
  refine forall₂_iff_zip.mpr ⟨length, fun member => ?_⟩
  obtain ⟨inside', inside⟩ := of_mem_zip member
  exact imply _ inside _ inside' (zipped member)

section Numbers

variable {numbers : List Nat} {number least last : Nat}

theorem exists_min?_le (member : number ∈ numbers) :
    ∃ least, numbers.min? = some least ∧ least ≤ number := by
  obtain ⟨least, found⟩ := Option.isSome_iff_exists.mp (isSome_min?_of_mem member)
  exact ⟨least, found, (le_min?_iff found).mp (Nat.le_refl _) _ member⟩

theorem le_foldl_max (known : number ≤ least ∨ number ∈ numbers) :
    number ≤ numbers.foldl max least := by
  rw [foldl_max]
  rcases known with le | member
  · exact Nat.le_trans le (Nat.le_max_left ..)
  · obtain ⟨greatest, found⟩ := Option.isSome_iff_exists.mp (isSome_max?_of_mem member)
    rw [found]
    exact Nat.le_trans ((max?_eq_some_iff.mp found).2 number member) (Nat.le_max_right ..)

theorem getD_max? (latest : ∀ number ∈ numbers, number ≤ last)
    (reached : last ∈ numbers ∨ last = 0) : numbers.max?.getD 0 = last := by
  cases known : numbers.max? with
  | none =>
    rw [max?_eq_none_iff.mp known] at reached
    exact (reached.resolve_left not_mem_nil).symm
  | some greatest =>
    obtain ⟨member, upper⟩ := max?_eq_some_iff.mp known
    refine Nat.le_antisymm (latest greatest member) ?_
    rcases reached with there | rfl
    · exact upper last there
    · exact Nat.zero_le _

end Numbers

section Sorted

variable {key : α → Nat} {xs : List α}

theorem takeWhile_eq_filter_le (sorted : xs.Pairwise fun a b => key a ≤ key b) (bound : Nat) :
    (xs.takeWhile fun x => key x ≤ bound) = xs.filter fun x => key x ≤ bound := by
  induction xs with
  | nil => rfl
  | cons x xs ih =>
    obtain ⟨least, sorted⟩ := pairwise_cons.mp sorted
    by_cases low : key x ≤ bound
    · simp [low, ih sorted]
    · have above : ∀ y ∈ xs, bound < key y := by
        intro y member
        have := least y member
        omega
      simpa [low, filter_eq_nil_iff] using above

theorem dropWhile_eq_filter_gt (sorted : xs.Pairwise fun a b => key a ≤ key b) (bound : Nat) :
    (xs.dropWhile fun x => key x ≤ bound) = xs.filter fun x => bound < key x := by
  induction xs with
  | nil => rfl
  | cons x xs ih =>
    obtain ⟨least, sorted⟩ := pairwise_cons.mp sorted
    by_cases low : key x ≤ bound
    · simp [low, ih sorted]
    · have above : ∀ y ∈ xs, bound < key y := by
        intro y member
        have := least y member
        omega
      have here : bound < key x := by omega
      have all : (xs.filter fun x => bound < key x) = xs :=
        filter_eq_self.mpr fun y member => by simpa using above y member
      simp [low, here, all]

end Sorted

end List

theorem Array.appendList_assoc {α : Type} (xs : Array α) (first second : List α) :
    xs ++ first ++ second = xs ++ (first ++ second) := by
  apply Array.toList_inj.mp
  simp
