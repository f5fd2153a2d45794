import Mathlib.Data.List.Perm.Subperm
import Mathlib.Order.Basic

/-!
# Sorting by a comparator

A comparator says by its sign which of two elements comes first. It is
consistent on a list if it orders what stands at different places of it. What a
sort makes of a list is only known for a consistent comparator; then it is in
order, and if no two elements tie, a second sort finds nothing to do
(`sort_sort`).
-/

namespace IotHome.Lib

open List

variable {α : Type}

/-- The sign says for any two of the list which comes first, and for any three
so that they can be put in a row. -/
structure Consistent (cmp : α → α → Int) (l : List α) : Prop where
  antisymm : ∀ a b, [a, b] <+~ l → (cmp a b).sign = -(cmp b a).sign
  trans : ∀ a b c, [a, b, c] <+~ l → cmp a b ≤ 0 → cmp b c ≤ 0 →
    cmp a c ≤ 0

/-- No two of the list tie. -/
def NoTies (cmp : α → α → Int) (l : List α) : Prop :=
  ∀ a b, [a, b] <+~ l → cmp a b ≠ 0

/-- A sort in place, as far as it is known. -/
structure ArraySort (α : Type) where
  sort : (α → α → Int) → List α → List α
  perm : ∀ cmp l, sort cmp l ~ l
  inOrder : ∀ cmp l, Consistent cmp l →
    (sort cmp l).Pairwise fun a b => cmp a b ≤ 0

variable {cmp : α → α → Int} {l l' : List α}

theorem Consistent.subperm (h : Consistent cmp l) (hsub : l' <+~ l) :
    Consistent cmp l' :=
  ⟨fun a b hab => h.antisymm a b (hab.trans hsub),
    fun a b c habc => h.trans a b c (habc.trans hsub)⟩

theorem NoTies.subperm (h : NoTies cmp l) (hsub : l' <+~ l) : NoTies cmp l' :=
  fun a b hab => h a b (hab.trans hsub)

theorem subperm_pair {a b : α} (ha : a ∈ l) (hb : b ∈ l) (hne : a ≠ b) :
    [a, b] <+~ l :=
  List.subperm_of_subset (by simp [hne]) (by simp [ha, hb])

/-- What is in order is where a sort leaves it. -/
theorem eq_of_inOrder (hcmp : Consistent cmp l) (hties : NoTies cmp l)
    (hl : l.Pairwise fun a b => cmp a b ≤ 0)
    (hl' : l'.Pairwise fun a b => cmp a b ≤ 0) (hperm : l' ~ l) : l' = l := by
  refine List.Perm.eq_of_pairwise ?_ hl' hl hperm
  intro a b ha hb hab hba
  by_contra hne
  have hpair : [a, b] <+~ l := subperm_pair (hperm.mem_iff.1 ha) hb hne
  have hsign := hcmp.antisymm a b hpair
  have htie := hties a b hpair
  have hlt : cmp a b < 0 := by omega
  rw [Int.sign_eq_neg_one_of_neg hlt] at hsign
  have hpos : 0 < cmp b a := Int.sign_eq_one_iff_pos.1 (by omega)
  omega

namespace ArraySort

variable (engine : ArraySort α)

/-- A list that is in order stays as it is. -/
theorem sort_eq_self (hcmp : Consistent cmp l) (hties : NoTies cmp l)
    (hl : l.Pairwise fun a b => cmp a b ≤ 0) : engine.sort cmp l = l :=
  eq_of_inOrder hcmp hties hl (engine.inOrder cmp l hcmp) (engine.perm cmp l)

theorem sort_sort (hcmp : Consistent cmp l) (hties : NoTies cmp l) :
    engine.sort cmp (engine.sort cmp l) = engine.sort cmp l := by
  have hsub := (engine.perm cmp l).subperm
  exact engine.sort_eq_self (hcmp.subperm hsub) (hties.subperm hsub)
    (engine.inOrder cmp l hcmp)

end ArraySort

/-! ## A sort by insertion -/

/-- Before the first that is to come behind it. -/
def insertBy (cmp : α → α → Int) (x : α) : List α → List α
  | [] => [x]
  | y :: ys => if cmp x y < 0 then x :: y :: ys else y :: insertBy cmp x ys

def insertionSort (cmp : α → α → Int) (l : List α) : List α :=
  l.foldl (fun sorted x => insertBy cmp x sorted) []

theorem insertBy_perm (x : α) (ys : List α) :
    insertBy cmp x ys ~ x :: ys := by
  induction ys with
  | nil => exact List.Perm.refl _
  | cons y ys ih =>
      rw [insertBy]
      split
      · exact List.Perm.refl _
      · exact (ih.cons y).trans (List.Perm.swap x y ys)

theorem foldl_insertBy_perm (l sorted : List α) :
    l.foldl (fun sorted x => insertBy cmp x sorted) sorted ~ sorted ++ l := by
  induction l generalizing sorted with
  | nil => rw [List.append_nil]; exact List.Perm.refl _
  | cons x l ih =>
      refine (ih _).trans ?_
      exact ((insertBy_perm x sorted).append_right l).trans
        List.perm_middle.symm

theorem insertBy_inOrder {x : α} {ys : List α}
    (hcmp : Consistent cmp (x :: ys))
    (hys : ys.Pairwise fun a b => cmp a b ≤ 0) :
    (insertBy cmp x ys).Pairwise fun a b => cmp a b ≤ 0 := by
  induction ys with
  | nil => exact List.pairwise_singleton _ _
  | cons y ys ih =>
      rw [List.pairwise_cons] at hys
      rw [insertBy]
      split
      · next hlt =>
          refine List.pairwise_cons.2 ⟨?_, List.pairwise_cons.2 hys⟩
          intro z hz
          rcases List.mem_cons.1 hz with rfl | hz
          · omega
          · refine hcmp.trans x y z ?_ (by omega) (hys.1 z hz)
            have hsub : [y, z] <+ y :: ys :=
              (List.singleton_sublist.2 hz).cons_cons y
            exact (hsub.cons_cons x).subperm
      · next hge =>
          have hyx : cmp y x ≤ 0 := by
            have hsign := hcmp.antisymm x y
              (((List.nil_sublist ys).cons_cons y).cons_cons x).subperm
            by_contra hpos
            rw [Int.sign_eq_one_of_pos (by omega : 0 < cmp y x)] at hsign
            have := Int.sign_eq_neg_one_iff_neg.1 hsign
            omega
          have hrest : Consistent cmp (x :: ys) :=
            hcmp.subperm ((List.sublist_cons_self y ys).cons_cons x).subperm
          refine List.pairwise_cons.2 ⟨?_, ih hrest hys.2⟩
          intro z hz
          rcases List.mem_cons.1 ((insertBy_perm x ys).mem_iff.1 hz) with
            rfl | hz
          · exact hyx
          · exact hys.1 z hz

theorem foldl_insertBy_inOrder (l : List α) : ∀ sorted : List α,
    Consistent cmp (sorted ++ l) →
    sorted.Pairwise (fun a b => cmp a b ≤ 0) →
    (l.foldl (fun sorted x => insertBy cmp x sorted) sorted).Pairwise
      fun a b => cmp a b ≤ 0 := by
  induction l with
  | nil => exact fun _ _ hsorted => hsorted
  | cons x l ih =>
      intro sorted hcmp hsorted
      have hperm : insertBy cmp x sorted ++ l ~ sorted ++ x :: l :=
        ((insertBy_perm x sorted).append_right l).trans List.perm_middle.symm
      have hfront : x :: sorted <+~ sorted ++ x :: l :=
        ((List.sublist_append_left (x :: sorted) l).subperm).trans
          List.perm_middle.symm.subperm
      exact ih _ (hcmp.subperm hperm.subperm)
        (insertBy_inOrder (hcmp.subperm hfront) hsorted)

def ArraySort.insertion : ArraySort α where
  sort := insertionSort
  perm _ l := foldl_insertBy_perm l []
  inOrder _ l hcmp := foldl_insertBy_inOrder l [] hcmp List.Pairwise.nil

end IotHome.Lib
