/-! Stable sorting. What stands in order already keeps its order, so that a list that is sorted in
two steps is known from its parts. -/
namespace List

variable {α β : Type} {le : α → α → Bool}

theorem filter_mergeSort (trans : ∀ a b c, le a b → le b c → le a c)
    (total : ∀ a b, le a b || le b a) {p : α → Bool} {xs : List α}
    (ordered : (xs.filter p).Pairwise fun a b => le a b) :
    (xs.mergeSort le).filter p = xs.filter p := by
  have kept := (sublist_mergeSort trans total ordered (filter_sublist (p := p))).filter p
  rw [filter_filter] at kept
  simp only [Bool.and_self] at kept
  have sizes := ((mergeSort_perm xs le).filter p).length_eq
  exact (kept.eq_of_length sizes.symm).symm

/-- Lists that are sorted by a key are equal if they have the same elements of each key in the
same order. -/
theorem eq_of_filters {key : α → Nat} {xs ys : List α}
    (sorted : xs.Pairwise fun a b => key a ≤ key b) (sorted' : ys.Pairwise fun a b => key a ≤ key b)
    (parts : ∀ k, (xs.filter fun a => key a = k) = ys.filter fun a => key a = k) : xs = ys := by
  induction xs generalizing ys with
  | nil =>
    cases ys with
    | nil => rfl
    | cons y ys =>
      have part := parts (key y)
      simp at part
  | cons x xs ih =>
    cases ys with
    | nil =>
      have part := parts (key x)
      simp at part
    | cons y ys =>
      obtain ⟨least, sorted⟩ := pairwise_cons.mp sorted
      have least' := (pairwise_cons.mp sorted').1
      have mine := parts (key x)
      have theirs := parts (key y)
      have here : x ∈ (x :: xs).filter fun a => key a = key x := by simp
      have there : y ∈ (y :: ys).filter fun a => key a = key y := by simp
      rw [mine] at here
      rw [← theirs] at there
      have le : key y ≤ key x := by
        rcases mem_cons.mp (mem_filter.mp here).1 with same | member
        · exact Nat.le_of_eq (congrArg key same.symm)
        · exact least' x member
      have ge : key x ≤ key y := by
        rcases mem_cons.mp (mem_filter.mp there).1 with same | member
        · exact Nat.le_of_eq (congrArg key same.symm)
        · exact least y member
      have keys := Nat.le_antisymm ge le
      simp only [filter_cons, keys, decide_true, if_true] at theirs
      obtain ⟨same, rest⟩ := cons.inj theirs
      subst same
      refine congrArg (x :: ·) (ih sorted (pairwise_cons.mp sorted').2 fun k => ?_)
      by_cases own : key x = k
      · subst own
        exact rest
      · have part := parts k
        simpa [filter_cons, own] using part

section Key

variable (key : α → Nat) (xs : List α)

theorem ascending_mergeSort :
    (xs.mergeSort fun a b => key a ≤ key b).Pairwise fun a b => key a ≤ key b := by
  refine (pairwise_mergeSort (fun a b c => ?_) (fun a b => ?_) xs).imp of_decide_eq_true
  · simpa only [decide_eq_true_eq] using Nat.le_trans
  · simpa only [Bool.or_eq_true, decide_eq_true_eq] using Nat.le_total (key a) (key b)

/-- Elements of one key keep their order. -/
theorem filter_mergeSort_key (k : Nat) : ((xs.mergeSort fun a b => key a ≤ key b).filter
    fun a => key a = k) = xs.filter fun a => key a = k := by
  apply filter_mergeSort
  · simpa only [decide_eq_true_eq] using fun _ _ _ => Nat.le_trans
  · simpa only [Bool.or_eq_true, decide_eq_true_eq] using fun _ _ => Nat.le_total _ _
  · refine pairwise_of_forall_mem_list fun a here b there => ?_
    have same := of_decide_eq_true (mem_filter.mp here).2
    have same' := of_decide_eq_true (mem_filter.mp there).2
    simp [same, same']

end Key

/-- Sorting by a key looks at the elements of each key apart. -/
theorem mergeSort_eq_of_filters {key : α → Nat} {xs ys : List α}
    (parts : ∀ k, (xs.filter fun a => key a = k) = ys.filter fun a => key a = k) :
    (xs.mergeSort fun a b => key a ≤ key b) = ys.mergeSort fun a b => key a ≤ key b := by
  refine eq_of_filters (ascending_mergeSort key xs) (ascending_mergeSort key ys) fun k => ?_
  rw [filter_mergeSort_key, filter_mergeSort_key, parts]

/-- Lists that rank the elements of one key are known from the elements of each rank. -/
theorem filter_eq_of_ranks {key rank : α → Nat} {xs ys : List α}
    (ranked : xs.Pairwise fun a b => key a = key b → rank a ≤ rank b)
    (ranked' : ys.Pairwise fun a b => key a = key b → rank a ≤ rank b)
    (parts : ∀ r, (xs.filter fun a => rank a = r) = ys.filter fun a => rank a = r) (k : Nat) :
    (xs.filter fun a => key a = k) = ys.filter fun a => key a = k := by
  have sorted {zs : List α} (ranked : zs.Pairwise fun a b => key a = key b → rank a ≤ rank b) :
      (zs.filter fun a => key a = k).Pairwise fun a b => rank a ≤ rank b := by
    refine (ranked.filter _).imp_of_mem fun {a b} here there le => le ?_
    have same := of_decide_eq_true (mem_filter.mp here).2
    have same' := of_decide_eq_true (mem_filter.mp there).2
    exact same.trans same'.symm
  refine eq_of_filters (sorted ranked) (sorted ranked') fun r => ?_
  have swap (zs : List α) : ((zs.filter fun a => key a = k).filter fun a => rank a = r) =
      (zs.filter fun a => rank a = r).filter fun a => key a = k := by
    rw [filter_filter, filter_filter]
    exact filter_congr fun _ _ => Bool.and_comm ..
  rw [swap, swap, parts]

end List
