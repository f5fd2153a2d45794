import Mathlib.Data.Finset.Card
import Mathlib.Data.Set.Finite.List
import Mathlib.Data.Fintype.EquivFin
import Mathlib.Logic.Relation
import Mathlib.Order.WellFounded

/-!
# Visits that remember

A depth-first visit of a graph whose vertices may fail to open. A vertex that
has been remembered is not entered again; which ones are remembered is a
matter of the vertex, and one is never forgotten. A vertex that is not
remembered is entered each time it is met, so a circle of such vertices is
followed for ever.

`visit_iff` says when a visit comes to its end, whatever the order of the
children: everything that can be reached opens, it is finitely much, and no
circle in it is without a remembered vertex.
-/

namespace IotHome.Lib.Traversal

open Relation

variable {α : Type}
variable (opened : α → Option (List α)) (marked : α → Bool)

/-- What is remembered when a vertex is entered. -/
def remember (seen : List α) (v : α) : List α :=
  if marked v then v :: seen else seen

/-- The visit of a vertex, and what has been remembered after it. -/
def visit [DecidableEq α] : (depth : Nat) → (seen : List α) → α →
    Option (List α)
  | 0, _, _ => none
  | depth + 1, seen, v =>
      if v ∈ seen then some seen
      else (opened v).bind fun children =>
        children.foldlM (visit depth) (remember marked seen v)

/-- `c` is met when `w` is entered. -/
def Child (w c : α) : Prop :=
  ∃ children, opened w = some children ∧ c ∈ children

/-- `c` is met when `w` is entered, and `w` is not remembered. -/
def Nested (w c : α) : Prop := marked w = false ∧ Child opened w c

/-- What a visit needs to come to its end. -/
structure Visitable (v : α) : Prop where
  opens : ∀ w, ReflTransGen (Child opened) v w → (opened w).isSome
  finite : {w | ReflTransGen (Child opened) v w}.Finite
  noCircle : ∀ w, ReflTransGen (Child opened) v w →
    ¬ TransGen (Nested opened marked) w w

variable {opened marked}

/-! ## Vertices in a chain -/

theorem acc_of_marked {w : α} (h : marked w = true) :
    Acc (flip (Nested opened marked)) w :=
  ⟨w, fun _ hnested => by
    have hfalse : marked w = false := hnested.1
    rw [h] at hfalse
    cases hfalse⟩

theorem not_transGen_of_acc {w : α} (h : Acc (flip (Nested opened marked)) w) :
    ¬ TransGen (Nested opened marked) w w := by
  intro hcircle
  have hacc := h.transGen
  have hloop : TransGen (flip (Nested opened marked)) w w :=
    transGen_swap.2 hcircle
  induction hacc with
  | intro w _ ih => exact ih w hloop (h.inv_of_transGen hloop) hcircle hloop

theorem Visitable.acc {v w : α} (h : Visitable opened marked v)
    (hw : ReflTransGen (Child opened) v w) :
    Acc (flip (Nested opened marked)) w := by
  let Reached := {w // ReflTransGen (Child opened) v w}
  let below : Reached → Reached → Prop := fun c w =>
    TransGen (Nested opened marked) w.1 c.1
  have : Finite Reached := h.finite
  have : IsTrans Reached below := ⟨fun _ _ _ hab hbc => hbc.trans hab⟩
  have : Std.Irrefl below := ⟨fun w => h.noCircle w.1 w.2⟩
  have wf : WellFounded below := Finite.wellFounded_of_trans_of_irrefl below
  suffices ∀ x : Reached, Acc (flip (Nested opened marked)) x.1 from
    this ⟨w, hw⟩
  intro x
  induction x using wf.induction with
  | _ x ih =>
      exact ⟨x.1, fun c hnested =>
        ih ⟨c, x.2.tail hnested.2⟩ (.single hnested)⟩

/-! ## What a visit has gone through -/

/-- What the visits of `vs` have gone through, beside what had been
remembered before them. -/
structure Covers (opened : α → Option (List α)) (marked : α → Bool)
    (seen vs seen' trail : List α) : Prop where
  visited : ∀ v ∈ vs, v ∈ trail
  marks : ∀ u ∈ seen', marked u = true ∧ (u ∈ seen ∨ u ∈ trail)
  opens : ∀ w ∈ trail, w ∈ seen ∨
    ∃ children, opened w = some children ∧ ∀ c ∈ children, c ∈ trail
  chains : ∀ w ∈ trail, Acc (flip (Nested opened marked)) w

theorem Covers.nil {seen : List α} (h : ∀ u ∈ seen, marked u = true) :
    Covers opened marked seen [] seen [] :=
  ⟨by simp, fun u hu => ⟨h u hu, .inl hu⟩, by simp, by simp⟩

theorem Covers.append {seen mid seen' vs ws trail trail' : List α}
    (h : Covers opened marked seen vs mid trail)
    (h' : Covers opened marked mid ws seen' trail') :
    Covers opened marked seen (vs ++ ws) seen' (trail ++ trail') where
  visited v hv := by
    rw [List.mem_append] at hv ⊢
    exact hv.imp (h.visited v) (h'.visited v)
  marks u hu := by
    obtain ⟨hmark, hmid | htrail⟩ := h'.marks u hu
    · have hbefore := (h.marks u hmid).2
      simp only [List.mem_append]
      tauto
    · simp [hmark, htrail]
  opens w hw := by
    have grow : ∀ {part}, part ⊆ trail ++ trail' →
        (∃ children, opened w = some children ∧ ∀ c ∈ children, c ∈ part) →
        ∃ children, opened w = some children ∧
          ∀ c ∈ children, c ∈ trail ++ trail' :=
      fun hsub ⟨children, hopen, hin⟩ =>
        ⟨children, hopen, fun c hc => hsub (hin c hc)⟩
    have first : w ∈ trail → w ∈ seen ∨ ∃ children, opened w = some children ∧
        ∀ c ∈ children, c ∈ trail ++ trail' := fun hin =>
      (h.opens w hin).imp_right (grow (List.subset_append_left _ _))
    rcases List.mem_append.1 hw with hin | hin
    · exact first hin
    · rcases h'.opens w hin with hmid | hchildren
      · exact ((h.marks w hmid).2).elim .inl first
      · exact .inr (grow (List.subset_append_right _ _) hchildren)
  chains w hw := (List.mem_append.1 hw).elim (h.chains w) (h'.chains w)

theorem marked_remember {seen : List α} {v : α}
    (h : ∀ u ∈ seen, marked u = true) :
    ∀ u ∈ remember marked seen v, marked u = true := by
  intro u hu
  rw [remember] at hu
  split_ifs at hu with hmark
  · rcases List.mem_cons.1 hu with rfl | hin
    · exact hmark
    · exact h u hin
  · exact h u hu

theorem mem_remember {seen : List α} {u v : α}
    (h : u ∈ remember marked seen v) : u = v ∨ u ∈ seen := by
  rw [remember] at h
  split_ifs at h
  · exact List.mem_cons.1 h
  · exact .inr h

theorem subset_remember (marked : α → Bool) (seen : List α) (v : α) :
    seen ⊆ remember marked seen v := by
  rw [remember]
  split_ifs
  · exact List.subset_cons_self v seen
  · exact List.Subset.refl seen

theorem Covers.enter {seen seen' children trail : List α} {v : α}
    (hopen : opened v = some children)
    (h : Covers opened marked (remember marked seen v) children seen' trail) :
    Covers opened marked seen [v] seen' (v :: trail) where
  visited u hu := by
    rw [List.mem_singleton.1 hu]
    exact List.mem_cons_self
  marks u hu := by
    obtain ⟨hmark, hbefore | htrail⟩ := h.marks u hu
    · rcases mem_remember hbefore with rfl | hin
      · exact ⟨hmark, .inr List.mem_cons_self⟩
      · exact ⟨hmark, .inl hin⟩
    · exact ⟨hmark, .inr (List.mem_cons_of_mem _ htrail)⟩
  opens w hw := by
    have self : ∃ cs, opened v = some cs ∧ ∀ c ∈ cs, c ∈ v :: trail :=
      ⟨children, hopen, fun c hc => List.mem_cons_of_mem _ (h.visited c hc)⟩
    rcases List.mem_cons.1 hw with rfl | hin
    · exact .inr self
    · rcases h.opens w hin with hbefore | ⟨cs, hcs, hsub⟩
      · rcases mem_remember hbefore with rfl | hseen
        · exact .inr self
        · exact .inl hseen
      · exact .inr ⟨cs, hcs, fun c hc => List.mem_cons_of_mem _ (hsub c hc)⟩
  chains w hw := by
    rcases List.mem_cons.1 hw with rfl | hin
    · refine ⟨w, fun c hnested => ?_⟩
      obtain ⟨-, cs, hcs, hc⟩ := hnested
      obtain rfl := Option.some.inj (hopen.symm.trans hcs)
      exact h.chains c (h.visited c hc)
    · exact h.chains w hin

theorem exists_trail_foldlM {visitChild : List α → α → Option (List α)}
    (ih : ∀ seen v seen', visitChild seen v = some seen' →
      (∀ u ∈ seen, marked u = true) →
      ∃ trail, Covers opened marked seen [v] seen' trail)
    {children seen seen' : List α}
    (h : children.foldlM visitChild seen = some seen')
    (hseen : ∀ u ∈ seen, marked u = true) :
    ∃ trail, Covers opened marked seen children seen' trail := by
  induction children generalizing seen with
  | nil =>
      obtain rfl := Option.some.inj h
      exact ⟨[], .nil hseen⟩
  | cons c children ihChildren =>
      obtain ⟨mid, hc, hrest⟩ := Option.bind_eq_some_iff.1 h
      obtain ⟨trail, hfirst⟩ := ih seen c mid hc hseen
      obtain ⟨trail', hthen⟩ :=
        ihChildren hrest fun u hu => (hfirst.marks u hu).1
      exact ⟨trail ++ trail', hfirst.append hthen⟩

theorem Covers.visitable {v : α} {seen' trail : List α}
    (h : Covers opened marked [] [v] seen' trail) :
    Visitable opened marked v := by
  have reached : ∀ w, ReflTransGen (Child opened) v w → w ∈ trail := by
    intro w hw
    induction hw with
    | refl => exact h.visited v (List.mem_singleton_self v)
    | tail _ hchild ih =>
        obtain ⟨children, hopen, hmem⟩ := hchild
        obtain ⟨cs, hcs, hsub⟩ := (h.opens _ ih).resolve_left (by simp)
        obtain rfl := Option.some.inj (hopen.symm.trans hcs)
        exact hsub _ hmem
  refine ⟨fun w hw => ?_, ?_, fun w hw => ?_⟩
  · obtain ⟨cs, hcs, -⟩ := (h.opens w (reached w hw)).resolve_left (by simp)
    simp [hcs]
  · exact (List.finite_toSet trail).subset reached
  · exact not_transGen_of_acc (h.chains w (reached w hw))

/-! ## Depth -/

theorem foldlM_mono {f g : List α → α → Option (List α)}
    (h : ∀ seen v seen', f seen v = some seen' → g seen v = some seen')
    {children seen seen' : List α} (hf : children.foldlM f seen = some seen') :
    children.foldlM g seen = some seen' := by
  induction children generalizing seen with
  | nil => exact hf
  | cons c children ih =>
      obtain ⟨mid, hc, hrest⟩ := Option.bind_eq_some_iff.1 hf
      rw [List.foldlM_cons, h seen c mid hc]
      exact ih hrest

variable [DecidableEq α]

theorem visit_succ {depth : Nat} {seen seen' : List α} {v : α}
    (h : visit opened marked depth seen v = some seen') :
    visit opened marked (depth + 1) seen v = some seen' := by
  induction depth generalizing seen seen' v with
  | zero => cases h
  | succ depth ih =>
      rw [visit] at h ⊢
      split_ifs at h ⊢
      · exact h
      · obtain ⟨children, hopen, hfold⟩ := Option.bind_eq_some_iff.1 h
        rw [hopen]
        exact foldlM_mono (fun _ _ _ hvisit => ih hvisit) hfold

/-- A visit that has come to its end is the same with more depth. -/
theorem visit_mono {depth depth' : Nat} (hle : depth ≤ depth')
    {seen seen' : List α} {v : α}
    (h : visit opened marked depth seen v = some seen') :
    visit opened marked depth' seen v = some seen' := by
  induction hle with
  | refl => exact h
  | step _ ih => exact visit_succ ih

theorem exists_trail {depth : Nat} {seen seen' : List α} {v : α}
    (h : visit opened marked depth seen v = some seen')
    (hseen : ∀ u ∈ seen, marked u = true) :
    ∃ trail, Covers opened marked seen [v] seen' trail := by
  induction depth generalizing seen seen' v with
  | zero => cases h
  | succ depth ih =>
      rw [visit] at h
      split_ifs at h with hmem
      · obtain rfl := Option.some.inj h
        exact ⟨[v], by simp, fun u hu => ⟨hseen u hu, .inl hu⟩,
          by simp [hmem], by simpa using acc_of_marked (hseen v hmem)⟩
      · obtain ⟨children, hopen, hfold⟩ := Option.bind_eq_some_iff.1 h
        obtain ⟨trail, hcovers⟩ := exists_trail_foldlM
          (fun _ _ _ hvisit => ih hvisit) hfold (marked_remember hseen)
        exact ⟨v :: trail, hcovers.enter hopen⟩

theorem marked_of_visit {depth : Nat} {seen seen' : List α} {v : α}
    (h : visit opened marked depth seen v = some seen')
    (hseen : ∀ u ∈ seen, marked u = true) : ∀ u ∈ seen', marked u = true := by
  obtain ⟨trail, hcovers⟩ := exists_trail h hseen
  exact fun u hu => (hcovers.marks u hu).1

/-! ## Visits that come to their end -/

theorem exists_foldlM {children seen : List α}
    (h : ∀ c ∈ children, ∀ mid, seen ⊆ mid →
      ∃ depth seen', visit opened marked depth mid c = some seen' ∧
        mid ⊆ seen') :
    ∃ depth seen', children.foldlM (visit opened marked depth) seen =
      some seen' ∧ seen ⊆ seen' := by
  induction children generalizing seen with
  | nil => exact ⟨0, seen, rfl, List.Subset.refl _⟩
  | cons c children ih =>
      obtain ⟨depth, mid, hc, hgrow⟩ :=
        h c List.mem_cons_self seen (List.Subset.refl _)
      obtain ⟨depth', seen', hrest, hgrow'⟩ := @ih mid
        fun c' hc' mid' hmid' =>
          h c' (List.mem_cons_of_mem _ hc') mid'
            (List.Subset.trans hgrow hmid')
      refine ⟨max depth depth', seen', ?_,
        List.Subset.trans hgrow hgrow'⟩
      rw [List.foldlM_cons, visit_mono (le_max_left _ _) hc]
      exact foldlM_mono
        (fun _ _ _ hvisit => visit_mono (le_max_right _ _) hvisit) hrest

/-- How much of `region` has not been remembered. -/
def unseen (region : Finset α) (seen : List α) : Nat :=
  (region \ seen.toFinset).card

theorem unseen_le (region : Finset α) {seen seen' : List α}
    (h : seen ⊆ seen') : unseen region seen' ≤ unseen region seen :=
  Finset.card_le_card (Finset.sdiff_subset_sdiff (Finset.Subset.refl _)
    fun u hu => by simpa using h (by simpa using hu))

theorem unseen_cons_lt {region : Finset α} {seen : List α} {v : α}
    (hv : v ∈ region) (hnew : v ∉ seen) :
    unseen region (v :: seen) < unseen region seen := by
  refine Finset.card_lt_card ⟨Finset.sdiff_subset_sdiff
    (Finset.Subset.refl _) (by simp), fun hsub => ?_⟩
  have hin : v ∈ region \ seen.toFinset := by simp [hv, hnew]
  simpa using hsub hin

theorem exists_visit {region : Finset α}
    (closed : ∀ w ∈ region,
      ∃ children, opened w = some children ∧ ∀ c ∈ children, c ∈ region)
    (chains : ∀ w ∈ region, Acc (flip (Nested opened marked)) w)
    (n : Nat) {v : α} (hv : v ∈ region) (seen : List α)
    (hn : unseen region seen ≤ n) :
    ∃ depth seen', visit opened marked depth seen v = some seen' ∧
      seen ⊆ seen' := by
  -- outside, over what is left to remember; inside, along a chain of
  -- vertices that are not remembered
  induction n using Nat.strongRecOn generalizing v seen with
  | ind n ihUnseen =>
      have hacc := chains v hv
      induction hacc generalizing seen with
      | intro v _ ihChain =>
          by_cases hmem : v ∈ seen
          · exact ⟨1, seen, if_pos hmem, List.Subset.refl seen⟩
          · obtain ⟨children, hopen, hsub⟩ := closed v hv
            have hchildren : ∃ depth seen',
                children.foldlM (visit opened marked depth)
                  (remember marked seen v) = some seen' ∧
                remember marked seen v ⊆ seen' := by
              refine exists_foldlM fun c hc mid hmid => ?_
              have hle := unseen_le region hmid
              cases hmark : marked v with
              | true =>
                  rw [remember, hmark, if_pos rfl] at hle
                  have hlt := unseen_cons_lt hv hmem
                  exact ihUnseen (unseen region mid) (by omega) (hsub c hc) mid
                    (le_refl _)
              | false =>
                  have hless := unseen_le region
                    (subset_remember marked seen v)
                  exact ihChain c ⟨hmark, children, hopen, hc⟩ (hsub c hc) mid
                    (by omega)
            obtain ⟨depth, seen', hfold, hgrow⟩ := hchildren
            refine ⟨depth + 1, seen', ?_,
              List.Subset.trans (subset_remember marked seen v) hgrow⟩
            rw [visit, if_neg hmem, hopen]
            exact hfold

/-- A visit comes to its end, with depth enough, exactly if everything that
can be reached opens, is finitely much, and has no circle without a remembered
vertex. -/
theorem visit_iff {v : α} :
    (∃ depth seen', visit opened marked depth [] v = some seen') ↔
      Visitable opened marked v := by
  refine ⟨fun ⟨depth, seen', h⟩ => ?_, fun h => ?_⟩
  · obtain ⟨trail, hcovers⟩ := exists_trail h (by simp)
    exact hcovers.visitable
  · have closed : ∀ w ∈ h.finite.toFinset, ∃ children,
        opened w = some children ∧ ∀ c ∈ children, c ∈ h.finite.toFinset := by
      intro w hw
      have hreach : ReflTransGen (Child opened) v w := by simpa using hw
      obtain ⟨children, hopen⟩ := Option.isSome_iff_exists.1 (h.opens w hreach)
      exact ⟨children, hopen, fun c hc => by
        simpa using hreach.tail ⟨children, hopen, hc⟩⟩
    obtain ⟨depth, seen', hvisit, -⟩ := exists_visit closed
      (fun w hw => h.acc (by simpa using hw)) _ (v := v)
      (by simp [ReflTransGen.refl]) [] (le_refl _)
    exact ⟨depth, seen', hvisit⟩

end IotHome.Lib.Traversal
