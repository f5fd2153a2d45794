import IotHome.Lib.Assoc
import Mathlib.Data.List.Basic
import Mathlib.Data.List.Induction

/-!
# Maps that are swept

Keys are taken out of an ordered map one at a time, or all those at once that
a test does not keep. Of a run of writes and sweeps what is left under a key is
the last value that was set, as long as every sweep since has kept it
(`get_afterOps`). If no sweep would keep what an earlier one has taken out,
only the last sweep counts (`get_afterOps_sweep`).
-/

namespace IotHome.Lib

variable {κ ν : Type} [DecidableEq κ]

namespace OrderedMap

omit [DecidableEq κ] in
@[ext] theorem ext {m m' : OrderedMap κ ν} (h : m.entries = m'.entries) :
    m = m' := by
  obtain ⟨entries, _⟩ := m
  obtain ⟨entries', _⟩ := m'
  cases h
  rfl

/-- To the values a write adds one, and takes at most one away. -/
theorem values_set_perm (m : OrderedMap κ ν) (k : κ) (v : ν) :
    ∃ rest, rest.Sublist m.values ∧ (m.set k v).values.Perm (v :: rest) := by
  obtain ⟨entries, nodup⟩ := m
  show ∃ rest : List ν, rest.Sublist (entries.map Prod.snd) ∧
    ((setEntry k v entries).map Prod.snd).Perm (v :: rest)
  clear nodup
  induction entries with
  | nil => exact ⟨[], .slnil, .refl _⟩
  | cons e entries ih =>
      rw [setEntry]
      split
      · exact ⟨entries.map Prod.snd, List.sublist_cons_self _ _, .refl _⟩
      · obtain ⟨rest, hsub, hperm⟩ := ih
        exact ⟨e.2 :: rest, hsub.cons_cons e.2,
          (hperm.cons e.2).trans (.swap v e.2 rest)⟩

/-- The entries that a test keeps, in their places. -/
def filter (m : OrderedMap κ ν) (keep : κ → ν → Bool) : OrderedMap κ ν :=
  ⟨m.entries.filter fun e => keep e.1 e.2,
    m.nodup.sublist (List.filter_sublist.map Prod.fst)⟩

def delete (m : OrderedMap κ ν) (k : κ) : OrderedMap κ ν :=
  m.filter fun k' _ => k' ≠ k

theorem mem_entries {m : OrderedMap κ ν} {k : κ} {v : ν} :
    (k, v) ∈ m.entries ↔ m.get k = some v :=
  ⟨m.get_of_mem, mem_of_lastFor⟩

theorem get_filter_eq_some {m : OrderedMap κ ν} {keep : κ → ν → Bool} {k : κ}
    {v : ν} :
    (m.filter keep).get k = some v ↔ m.get k = some v ∧ keep k v = true := by
  rw [← mem_entries, ← mem_entries, filter, List.mem_filter]

omit [DecidableEq κ] in
theorem filter_filter (m : OrderedMap κ ν) (keep keep' : κ → ν → Bool) :
    (m.filter keep).filter keep' =
      m.filter fun k v => keep' k v && keep k v := by
  ext1
  exact List.filter_filter

theorem foldl_delete (ks : List κ) (m : OrderedMap κ ν) :
    ks.foldl delete m = m.filter fun k _ => !decide (k ∈ ks) := by
  induction ks generalizing m with
  | nil =>
      ext1
      simp [filter]
  | cons k ks ih =>
      rw [List.foldl_cons, ih, delete, filter_filter]
      congr 1
      funext k' v
      rw [Bool.and_comm]
      simp

/-- The keys of what a test finds are taken out, and what it does not find is
left. -/
theorem foldl_delete_filter (m : OrderedMap κ ν) (found : κ → ν → Bool) :
    ((m.filter found).keys).foldl delete m =
      m.filter fun k v => !found k v := by
  rw [foldl_delete]
  ext1
  refine List.filter_congr fun e he => ?_
  have hiff : e.1 ∈ (m.filter found).keys ↔ found e.1 e.2 = true := by
    constructor
    · intro hmem
      obtain ⟨e', he', hfst⟩ := List.mem_map.1 hmem
      obtain ⟨hin, hfound⟩ := List.mem_filter.1 he'
      have hget := m.get_of_mem he
      rw [← hfst, m.get_of_mem hin, Option.some.injEq] at hget
      rw [← hfst, ← hget]
      exact hfound
    · intro hfound
      exact List.mem_map_of_mem (List.mem_filter.2 ⟨he, hfound⟩)
  rw [Bool.eq_iff_iff, Bool.not_eq_true', Bool.not_eq_true',
    decide_eq_false_iff_not, hiff, Bool.not_eq_true]

end OrderedMap

/-! ## Runs -/

inductive ExpiryOp (κ ν : Type) where
  | set (k : κ) (v : ν)
  | sweep (keep : κ → ν → Bool)

namespace ExpiryOp

def apply (m : OrderedMap κ ν) : ExpiryOp κ ν → OrderedMap κ ν
  | .set k v => m.set k v
  | .sweep keep => m.filter keep

/-- What is under the key stays there. -/
def Spares (k : κ) (v : ν) : ExpiryOp κ ν → Prop
  | .set k' _ => k' ≠ k
  | .sweep keep => keep k v = true

/-- The write of an operation, if it is one. -/
def write : ExpiryOp κ ν → Option (κ × ν)
  | .set k v => some (k, v)
  | .sweep _ => none

theorem get_apply {m : OrderedMap κ ν} {op : ExpiryOp κ ν} {k : κ} {v : ν} :
    (op.apply m).get k = some v ↔
      op = .set k v ∨ m.get k = some v ∧ op.Spares k v := by
  cases op with
  | set k' v' =>
      rw [apply, OrderedMap.get_set, Spares]
      by_cases hk : k' = k
      · simp [hk]
      · simp [hk]
  | sweep keep =>
      rw [apply, OrderedMap.get_filter_eq_some, Spares]
      simp

end ExpiryOp

/-- The map after some operations. -/
def afterOps (ops : List (ExpiryOp κ ν)) : OrderedMap κ ν :=
  ops.foldl ExpiryOp.apply .empty

theorem afterOps_concat (ops : List (ExpiryOp κ ν)) (op : ExpiryOp κ ν) :
    afterOps (ops ++ [op]) = op.apply (afterOps ops) := by
  rw [afterOps, List.foldl_append]
  rfl

/-- What is there was set last, and spared by all that came since. -/
theorem get_afterOps {ops : List (ExpiryOp κ ν)} {k : κ} {v : ν} :
    (afterOps ops).get k = some v ↔ ∃ before since,
      ops = before ++ .set k v :: since ∧ ∀ op ∈ since, op.Spares k v := by
  induction ops using List.reverseRecOn with
  | nil => simp [afterOps]
  | append_singleton ops op ih =>
      rw [afterOps_concat, ExpiryOp.get_apply, ih]
      constructor
      · rintro (rfl | ⟨⟨before, since, rfl, hspared⟩, hop⟩)
        · exact ⟨ops, [], rfl, fun op hop => (List.not_mem_nil hop).elim⟩
        · refine ⟨before, since ++ [op], ?_, fun op' hop' => ?_⟩
          · rw [List.append_assoc, List.cons_append]
          · rcases List.mem_append.1 hop' with hop' | hop'
            · exact hspared op' hop'
            · obtain rfl := List.mem_singleton.1 hop'
              exact hop
      · intro h
        obtain ⟨before, since, hsplit, hspared⟩ := h
        rcases List.eq_nil_or_concat' since with rfl | ⟨since, last, rfl⟩
        · obtain ⟨-, hlast⟩ := List.append_inj' hsplit rfl
          exact .inl (List.head_eq_of_cons_eq hlast)
        · rw [← List.cons_append, ← List.append_assoc] at hsplit
          obtain ⟨rfl, hlast⟩ := List.append_inj' hsplit rfl
          obtain rfl := List.head_eq_of_cons_eq hlast
          rw [List.forall_mem_append, List.forall_mem_singleton] at hspared
          exact .inr ⟨⟨before, since, rfl, hspared.1⟩, hspared.2⟩

/-- Only the last sweep counts if it keeps no more than those before it. -/
theorem get_afterOps_sweep {ops : List (ExpiryOp κ ν)} {keep : κ → ν → Bool}
    (h : ∀ keep', .sweep keep' ∈ ops →
      ∀ k v, keep k v = true → keep' k v = true) (k : κ) (v : ν) :
    (afterOps (ops ++ [.sweep keep])).get k = some v ↔
      lastFor k (ops.filterMap ExpiryOp.write) = some v ∧
        keep k v = true := by
  rw [afterOps_concat, ExpiryOp.apply, OrderedMap.get_filter_eq_some]
  refine and_congr_left fun hkeep => ?_
  induction ops using List.reverseRecOn with
  | nil => simp [afterOps]
  | append_singleton ops op ih =>
      have hops := ih fun keep' hmem =>
        h keep' (List.mem_append_left [op] hmem)
      rw [afterOps_concat, ExpiryOp.get_apply, hops, List.filterMap_append,
        lastFor_append]
      cases op with
      | set k' v' =>
          by_cases hk : k' = k
          · simp [ExpiryOp.write, ExpiryOp.Spares, lastFor_cons, hk]
          · simp [ExpiryOp.write, ExpiryOp.Spares, lastFor_cons, hk]
      | sweep keep' =>
          have hkeep' := h keep' (List.mem_append_right ops
            (List.mem_singleton_self _)) k v hkeep
          have hwrite : [ExpiryOp.sweep keep'].filterMap ExpiryOp.write = [] :=
            rfl
          simp [hwrite, ExpiryOp.Spares, hkeep']

end IotHome.Lib
