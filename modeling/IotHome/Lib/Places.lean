import Mathlib.Data.List.Sigma
import Mathlib.Data.Set.Card
import Mathlib.Data.Set.Finite.List
import Mathlib.Logic.Relation

/-!
# The places of a graph without circles

A graph whose vertices have their children in an order. A place is a way down
from a vertex, by the numbers of the children taken, so a vertex has as many
places below another as there are ways to it. Without circles there is a rank
that falls at every step (`exists_rank`), and all places are listed by a walk
that goes as deep as the rank is high.

`nodup_met_iff`: the walk meets no marked vertex twice just if no marked
vertex has two places.
-/

namespace IotHome.Lib.Places

open Relation

variable {α : Type}

/-- `c` is a child of `w`. -/
def Below (children : α → List α) (w c : α) : Prop := c ∈ children w

/-- What is found at a place. -/
def follow (children : α → List α) : α → List Nat → Option α
  | v, [] => some v
  | v, i :: path => do
      let c ← (children v)[i]?
      follow children c path

variable (children : α → List α) (marked : α → Bool)

/-- The places of marked vertices, with what is there. -/
def places : (depth : Nat) → α → List (List Nat × α)
  | 0, _ => []
  | depth + 1, v =>
      (if marked v then [([], v)] else []) ++
        (children v).zipIdx.flatMap fun child =>
          (places depth child.1).map fun place =>
            (child.2 :: place.1, place.2)

/-- The marked vertices that are met. -/
def met (depth : Nat) (v : α) : List α :=
  (places children marked depth v).map Prod.snd

/-- A number that falls at every step. -/
def Ranks (rank : α → Nat) : Prop :=
  ∀ w c, c ∈ children w → rank c < rank w

variable {children marked}

theorem met_succ (depth : Nat) (v : α) :
    met children marked (depth + 1) v =
      (if marked v then [v] else []) ++
        (children v).flatMap (met children marked depth) := by
  have hall : (children v).flatMap (met children marked depth) =
      (children v).zipIdx.flatMap fun child =>
        met children marked depth child.1 := by
    rw [← List.flatMap_map Prod.fst, List.zipIdx_map_fst]
  rw [hall, met, places, List.map_append, List.map_flatMap]
  congr 1
  · split_ifs <;> rfl
  · simp only [met, List.map_map]
    rfl

/-! ## Ranks -/

theorem Ranks.lt {rank : α → Nat} (h : Ranks children rank) {v c : α}
    (hbelow : TransGen (Below children) v c) : rank c < rank v := by
  induction hbelow with
  | single hc => exact h _ _ hc
  | tail _ hc ih => exact (h _ _ hc).trans ih

theorem Ranks.acyclic {rank : α → Nat} (h : Ranks children rank) (v : α) :
    ¬ TransGen (Below children) v v :=
  fun hcircle => Nat.lt_irrefl _ (h.lt hcircle)

/-- Where finitely much is below each vertex, and none is below itself, the
number of those below falls at every step. -/
theorem exists_rank
    (finite : ∀ v, {c | TransGen (Below children) v c}.Finite)
    (acyclic : ∀ v, ¬ TransGen (Below children) v v) :
    ∃ rank, Ranks children rank := by
  refine ⟨fun v => {c | TransGen (Below children) v c}.ncard,
    fun w c hc => Set.ncard_lt_ncard ⟨fun d hd => ?_, fun hsub => ?_⟩
      (finite w)⟩
  · exact TransGen.head hc hd
  · exact acyclic c (hsub (TransGen.single hc))

/-! ## The places are those that can be followed -/

theorem mem_places_nil {depth : Nat} {v e : α} :
    ([], e) ∈ places children marked (depth + 1) v ↔
      v = e ∧ marked e = true := by
  rw [places, List.mem_append]
  cases hmark : marked v with
  | true =>
      simp only [if_true, List.mem_singleton, Prod.mk.injEq, true_and,
        List.mem_flatMap, List.mem_map, reduceCtorEq, false_and, and_false,
        exists_false, or_false]
      exact ⟨fun heq => ⟨heq.symm, heq ▸ hmark⟩, fun heq => heq.1.symm⟩
  | false =>
      simp only [Bool.false_eq_true, if_false, List.not_mem_nil, false_or,
        List.mem_flatMap, List.mem_map, Prod.mk.injEq, reduceCtorEq,
        false_and, and_false, exists_false, false_iff]
      intro ⟨heq, hmark'⟩
      rw [← heq, hmark] at hmark'
      cases hmark'

theorem mem_places_cons {depth i : Nat} {path : List Nat} {v e : α} :
    (i :: path, e) ∈ places children marked (depth + 1) v ↔
      ∃ c, (children v)[i]? = some c ∧
        (path, e) ∈ places children marked depth c := by
  have hself : (i :: path, e) ∉
      (if marked v then [([], v)] else [] : List (List Nat × α)) := by
    split_ifs <;> simp
  rw [places, List.mem_append, or_iff_right hself, List.mem_flatMap]
  constructor
  · intro ⟨child, hchild, hmem⟩
    obtain ⟨place, hplace, heq⟩ := List.mem_map.1 hmem
    obtain ⟨hcons, rfl⟩ := Prod.mk.inj heq
    obtain ⟨rfl, rfl⟩ := List.cons.inj hcons
    exact ⟨child.1, List.mem_zipIdx_iff_getElem?.1 hchild, hplace⟩
  · intro ⟨c, hc, hplace⟩
    exact ⟨(c, i), List.mem_zipIdx_iff_getElem?.2 hc,
      List.mem_map.2 ⟨(path, e), hplace, rfl⟩⟩

theorem mem_places {rank : α → Nat} (hrank : Ranks children rank)
    {depth : Nat} {v : α} (h : rank v < depth) {path : List Nat} {e : α} :
    (path, e) ∈ places children marked depth v ↔
      follow children v path = some e ∧ marked e = true := by
  induction depth generalizing v path with
  | zero => omega
  | succ depth ih =>
      cases path with
      | nil => rw [mem_places_nil, follow, Option.some_inj]
      | cons i path =>
          rw [mem_places_cons, follow]
          cases hchild : (children v)[i]? with
          | none => simp
          | some c =>
              have hlt := hrank v c (List.mem_of_getElem? hchild)
              have hrest := @ih c (by omega) path
              simp [hrest]

theorem nodup_places (depth : Nat) (v : α) :
    (places children marked depth v).Nodup := by
  induction depth generalizing v with
  | zero => exact List.nodup_nil
  | succ depth ih =>
      rw [places, List.nodup_append]
      refine ⟨by split_ifs <;> simp, List.nodup_flatMap.2 ⟨?_, ?_⟩, ?_⟩
      · intro child _
        refine (ih child.1).map fun p q hpq => ?_
        obtain ⟨hcons, hend⟩ := Prod.mk.inj hpq
        exact Prod.ext (List.cons.inj hcons).2 hend
      · have hpairs := List.nodup_zipIdx_map_snd (children v)
        rw [List.Nodup, List.pairwise_map] at hpairs
        refine hpairs.imp fun {a b} hne place ha hb => ?_
        obtain ⟨p, -, rfl⟩ := List.mem_map.1 ha
        obtain ⟨q, -, heq⟩ := List.mem_map.1 hb
        exact hne (List.cons.inj (Prod.mk.inj heq).1).1.symm
      · intro a ha b hb hab
        obtain ⟨child, -, hplace⟩ := List.mem_flatMap.1 hb
        obtain ⟨place, -, rfl⟩ := List.mem_map.1 hplace
        split_ifs at ha
        · rw [List.mem_singleton.1 ha] at hab
          cases hab
        · cases ha

/-- Nothing marked is met twice just if it has one place. -/
theorem nodup_met_iff {rank : α → Nat} (hrank : Ranks children rank)
    {depth : Nat} {v : α} (h : rank v < depth) :
    (met children marked depth v).Nodup ↔
      ∀ e p q, marked e = true → follow children v p = some e →
        follow children v q = some e → p = q := by
  rw [met, List.nodup_map_iff_inj_on (nodup_places depth v)]
  constructor
  · intro hinj e p q hmark hp hq
    exact congrArg Prod.fst (hinj (p, e) ((mem_places hrank h).2 ⟨hp, hmark⟩)
      (q, e) ((mem_places hrank h).2 ⟨hq, hmark⟩) rfl)
  · intro hone x hx y hy hxy
    have hx' := (mem_places hrank h).1 hx
    have hy' := (mem_places hrank h).1 hy
    rw [← hxy] at hy'
    exact Prod.ext (hone x.2 x.1 y.1 hx'.2 hx'.1 hy'.1) hxy

/-! ## A list of what has been met -/

/-- None of the vertices is met twice, or has been met before. -/
def Fresh (vs seen : List α) : Prop := vs.Nodup ∧ ∀ v ∈ vs, v ∉ seen

theorem fresh_nil (seen : List α) : Fresh [] seen :=
  ⟨List.nodup_nil, fun _ hv => absurd hv List.not_mem_nil⟩

theorem fresh_before_nil {vs : List α} : Fresh vs [] ↔ vs.Nodup :=
  and_iff_left fun _ _ => List.not_mem_nil

theorem fresh_append {vs ws seen : List α} :
    Fresh (vs ++ ws) seen ↔ Fresh vs seen ∧ Fresh ws (vs.reverse ++ seen) := by
  simp only [Fresh, List.nodup_append, List.mem_append, List.mem_reverse]
  grind

theorem fresh_cons {v : α} {vs seen : List α} :
    Fresh (v :: vs) seen ↔ v ∉ seen ∧ Fresh vs (v :: seen) := by
  simp only [Fresh, List.nodup_cons, List.mem_cons]
  grind

end IotHome.Lib.Places
