import Mathlib.Data.List.Basic

/-!
# Lists of writes, and maps that remember insertion order

Two shapes of association list, and the one fact that ties them together.

A *list of writes* is read last write wins: `lastFor k ws` is what a table
filled by performing `ws` from left to right holds under `k`, or `none` when
nothing was ever written there. An *ordered map* is a table that keeps each
key once, at the place where it was first set; setting a key again replaces
the value and leaves the place. `OrderedMap.get_ofWrites` says the two agree:
performing the writes and looking a key up is reading the list last write
wins.
-/

namespace IotHome.Lib

variable {κ ν μ : Type} [DecidableEq κ]

/-- What a list of writes leaves under a key: the value of the last one. -/
def lastFor (k : κ) : List (κ × ν) → Option ν
  | [] => none
  | (k', v) :: rest => (lastFor k rest).or (if k' = k then some v else none)

@[simp] theorem lastFor_nil (k : κ) :
    lastFor k ([] : List (κ × ν)) = none := rfl

theorem lastFor_cons (k k' : κ) (v : ν) (rest : List (κ × ν)) :
    lastFor k ((k', v) :: rest) =
      (lastFor k rest).or (if k' = k then some v else none) := rfl

theorem lastFor_append (k : κ) (as bs : List (κ × ν)) :
    lastFor k (as ++ bs) = (lastFor k bs).or (lastFor k as) := by
  induction as with
  | nil => simp
  | cons w as ih =>
      obtain ⟨k', v⟩ := w
      rw [List.cons_append, lastFor_cons, ih, lastFor_cons, Option.or_assoc]

/-- Where every write sets what is read under its key and nothing else, all of
them together leave what the last one for a key has set. -/
theorem read_foldl {σ β : Type} (read : σ → κ → β) (value : ν → β)
    {put : σ → κ × ν → σ}
    (h : ∀ s w k, read (put s w) k =
      if w.1 = k then value w.2 else read s k)
    (ws : List (κ × ν)) (s : σ) (k : κ) :
    read (ws.foldl put s) k = ((lastFor k ws).map value).getD (read s k) := by
  induction ws generalizing s with
  | nil => rfl
  | cons w ws ih =>
      obtain ⟨k', v⟩ := w
      rw [List.foldl_cons, ih, h, lastFor_cons]
      by_cases hk : k' = k
      · cases lastFor k ws with
        | none => simp [hk]
        | some u => simp
      · simp [hk]

/-- The last write wins: whatever stood before it is not read. -/
@[simp] theorem lastFor_concat_self (k : κ) (v : ν) (ws : List (κ × ν)) :
    lastFor k (ws ++ [(k, v)]) = some v := by
  simp [lastFor_append, lastFor_cons]

/-- A write under another key is not read either. -/
theorem lastFor_concat_ne {k k' : κ} (h : k' ≠ k) (v : ν)
    (ws : List (κ × ν)) : lastFor k (ws ++ [(k', v)]) = lastFor k ws := by
  simp [lastFor_append, lastFor_cons, h]

theorem lastFor_eq_none {k : κ} {ws : List (κ × ν)} :
    lastFor k ws = none ↔ ∀ w ∈ ws, w.1 ≠ k := by
  induction ws with
  | nil => simp
  | cons w ws ih =>
      obtain ⟨k', v⟩ := w
      rw [lastFor_cons]
      by_cases h : k' = k
      · simp [h]
      · simp [h, ih]

theorem lastFor_of_notMem {k : κ} {ws : List (κ × ν)}
    (h : k ∉ ws.map Prod.fst) : lastFor k ws = none :=
  lastFor_eq_none.2 fun _ hw hk => h (hk ▸ List.mem_map_of_mem hw)

/-- A value that is read was written. -/
theorem mem_of_lastFor {k : κ} {v : ν} {ws : List (κ × ν)}
    (h : lastFor k ws = some v) : (k, v) ∈ ws := by
  induction ws with
  | nil => simp at h
  | cons w ws ih =>
      obtain ⟨k', v'⟩ := w
      rw [lastFor_cons] at h
      cases hr : lastFor k ws with
      | some u =>
          rw [hr] at h
          have hu : u = v := by simpa using h
          exact List.mem_cons_of_mem _ (ih (by rw [hr, hu]))
      | none =>
          rw [hr] at h
          by_cases hk : k' = k
          · simp only [hk, if_true, Option.none_or, Option.some.injEq] at h
            simp [hk, h]
          · simp [hk] at h

theorem exists_lastFor {k : κ} {v : ν} {ws : List (κ × ν)}
    (h : (k, v) ∈ ws) : ∃ u, lastFor k ws = some u := by
  cases hl : lastFor k ws with
  | some u => exact ⟨u, rfl⟩
  | none => exact absurd rfl (lastFor_eq_none.1 hl _ h)

/-- With each key written once, every write is read. -/
theorem lastFor_of_mem {k : κ} {v : ν} {ws : List (κ × ν)}
    (hnd : (ws.map Prod.fst).Nodup) (h : (k, v) ∈ ws) :
    lastFor k ws = some v := by
  induction ws with
  | nil => simp at h
  | cons w ws ih =>
      obtain ⟨k', v'⟩ := w
      simp only [List.map_cons, List.nodup_cons] at hnd
      rw [lastFor_cons]
      rcases List.mem_cons.mp h with heq | hmem
      · obtain ⟨rfl, rfl⟩ := Prod.mk.inj heq
        simp [lastFor_of_notMem hnd.1]
      · rw [ih hnd.2 hmem, Option.some_or]

/-- The value read stands at the last place the key was written at. -/
theorem lastFor_eq_some {k : κ} {v : ν} {ws : List (κ × ν)} :
    lastFor k ws = some v ↔ ∃ i : Nat, ws[i]? = some (k, v) ∧
      ∀ j w, i < j → ws[j]? = some w → w.1 ≠ k := by
  induction ws with
  | nil => simp
  | cons w ws ih =>
      obtain ⟨k', v'⟩ := w
      rw [lastFor_cons]
      constructor
      · intro h
        cases hr : lastFor k ws with
        | some u =>
            rw [hr] at h
            obtain ⟨i, hi, hlast⟩ := ih.1 (hr.trans h)
            refine ⟨i + 1, hi, fun j w hj hw => ?_⟩
            cases j with
            | zero => omega
            | succ j => exact hlast j w (by omega) hw
        | none =>
            rw [hr, Option.none_or] at h
            split at h
            · next hk =>
                obtain rfl := Option.some.inj h
                refine ⟨0, by rw [hk]; rfl, fun j w hj hw => ?_⟩
                cases j with
                | zero => omega
                | succ j =>
                    exact lastFor_eq_none.1 hr w (List.mem_of_getElem? hw)
            · cases h
      · intro h'
        obtain ⟨i, hi, hlast⟩ := h'
        cases i with
        | succ i =>
            have hr : lastFor k ws = some v :=
              ih.2 ⟨i, hi, fun j w hj hw => hlast (j + 1) w (by omega) hw⟩
            rw [hr, Option.some_or]
        | zero =>
            obtain ⟨rfl, rfl⟩ := Prod.mk.inj (Option.some.inj hi)
            have hr : lastFor k' ws = none := by
              refine lastFor_eq_none.2 fun w hw => ?_
              obtain ⟨j, hj⟩ := List.mem_iff_getElem?.1 hw
              exact hlast (j + 1) w (by omega) hj
            rw [hr, if_pos rfl, Option.none_or]

/-- Reading after each value has been translated under its key. -/
theorem lastFor_mapWithKey (k : κ) (f : κ → ν → μ) (ws : List (κ × ν)) :
    lastFor k (ws.map fun w => (w.1, f w.1 w.2)) =
      (lastFor k ws).map (f k) := by
  induction ws with
  | nil => rfl
  | cons w ws ih =>
      obtain ⟨k', v⟩ := w
      rw [List.map_cons, lastFor_cons, ih, lastFor_cons]
      by_cases hk : k' = k <;> cases lastFor k ws <;> simp [hk]

theorem lastFor_map (k : κ) (f : ν → μ) (ws : List (κ × ν)) :
    lastFor k (ws.map fun w => (w.1, f w.2)) = (lastFor k ws).map f :=
  lastFor_mapWithKey k (fun _ => f) ws

/-- Reading after the keys have been renamed, none of the others to the one
that is read. -/
theorem lastFor_map_fst_of {κ' : Type} [DecidableEq κ'] {f : κ → κ'} {k : κ}
    {ws : List (κ × ν)} (hf : ∀ w ∈ ws, f w.1 = f k → w.1 = k) :
    lastFor (f k) (ws.map fun w => (f w.1, w.2)) = lastFor k ws := by
  induction ws with
  | nil => rfl
  | cons w ws ih =>
      have hw := hf w List.mem_cons_self
      have hiff : f w.1 = f k ↔ w.1 = k := ⟨hw, congrArg f⟩
      rw [List.map_cons, lastFor_cons,
        ih fun u hu => hf u (List.mem_cons_of_mem w hu), lastFor_cons]
      simp only [hiff]

theorem lastFor_map_fst {κ' : Type} [DecidableEq κ'] {f : κ → κ'}
    (hf : Function.Injective f) (k : κ) (ws : List (κ × ν)) :
    lastFor (f k) (ws.map fun w => (f w.1, w.2)) = lastFor k ws :=
  lastFor_map_fst_of fun _ _ h => hf h

/-! ## Ordered maps -/

/-- A map that lists its keys in the order in which they were first set. -/
structure OrderedMap (κ ν : Type) where
  entries : List (κ × ν)
  nodup : (entries.map Prod.fst).Nodup

namespace OrderedMap

/-- Replace the value where the key stands, or put the pair at the end. -/
def setEntry (k : κ) (v : ν) : List (κ × ν) → List (κ × ν)
  | [] => [(k, v)]
  | (k', v') :: rest =>
      if k' = k then (k', v) :: rest else (k', v') :: setEntry k v rest

theorem mem_keys_setEntry {k k' : κ} {v : ν} {es : List (κ × ν)} :
    k' ∈ (setEntry k v es).map Prod.fst ↔ k' = k ∨ k' ∈ es.map Prod.fst := by
  induction es with
  | nil => simp [setEntry]
  | cons e es ih =>
      rw [setEntry]
      split <;> rename_i h
      · simp [← h]
      · rw [List.map_cons, List.mem_cons, ih, List.map_cons, List.mem_cons]
        exact or_left_comm

theorem nodup_setEntry {k : κ} {v : ν} {es : List (κ × ν)}
    (h : (es.map Prod.fst).Nodup) : ((setEntry k v es).map Prod.fst).Nodup := by
  induction es with
  | nil => simp [setEntry]
  | cons e es ih =>
      rw [List.map_cons, List.nodup_cons] at h
      rw [setEntry]
      split <;> rename_i hk
      · rw [List.map_cons, List.nodup_cons]
        exact h
      · rw [List.map_cons, List.nodup_cons, mem_keys_setEntry]
        exact ⟨fun hmem => hmem.elim hk h.1, ih h.2⟩

theorem forall_mem_setEntry {p : ν → Prop} {k : κ} {v : ν}
    {es : List (κ × ν)} (hv : p v) (h : ∀ e ∈ es, p e.2) :
    ∀ e ∈ setEntry k v es, p e.2 := by
  induction es with
  | nil => simpa [setEntry] using hv
  | cons e es ih =>
      rw [List.forall_mem_cons] at h
      rw [setEntry]
      split
      · exact List.forall_mem_cons.2 ⟨hv, h.2⟩
      · exact List.forall_mem_cons.2 ⟨h.1, ih h.2⟩

/-- What is there after setting a key: the pair that was set, and the pairs of
the other keys. -/
theorem mem_setEntry {k k' : κ} {v v' : ν} {es : List (κ × ν)}
    (h : (k', v') ∈ setEntry k v es) (hnodup : (es.map Prod.fst).Nodup) :
    (k' = k ∧ v' = v) ∨ (k' ≠ k ∧ (k', v') ∈ es) := by
  induction es with
  | nil => simpa [setEntry] using h
  | cons e es ih =>
      rw [List.map_cons, List.nodup_cons] at hnodup
      rw [setEntry] at h
      split at h
      · next hk =>
          rcases List.mem_cons.1 h with heq | hmem
          · obtain ⟨rfl, rfl⟩ := Prod.mk.inj heq
            exact .inl ⟨hk, rfl⟩
          · refine .inr ⟨fun hkk => hnodup.1 ?_, List.mem_cons_of_mem _ hmem⟩
            rw [hk, ← hkk]
            exact List.mem_map_of_mem hmem
      · next hk =>
          rcases List.mem_cons.1 h with heq | hmem
          · refine .inr ⟨?_, heq ▸ List.mem_cons_self⟩
            rw [show k' = e.1 from congrArg Prod.fst heq]
            exact hk
          · rcases ih hmem hnodup.2 with hset | ⟨hne, hmem⟩
            · exact .inl hset
            · exact .inr ⟨hne, List.mem_cons_of_mem _ hmem⟩

/-- A key that is there keeps its place. -/
theorem setEntry_of_mem {k : κ} (v : ν) {es : List (κ × ν)}
    (hnodup : (es.map Prod.fst).Nodup) (h : k ∈ es.map Prod.fst) :
    setEntry k v es = es.map fun e => (e.1, if e.1 = k then v else e.2) := by
  induction es with
  | nil => cases h
  | cons e es ih =>
      rw [List.map_cons, List.nodup_cons] at hnodup
      rw [setEntry, List.map_cons]
      split
      · next hk =>
          have hrest : (es.map fun e => (e.1, if e.1 = k then v else e.2)) =
              es.map id := by
            refine List.map_congr_left fun x hx => ?_
            have hne : x.1 ≠ k := fun hxk =>
              hnodup.1 (hk ▸ hxk ▸ List.mem_map_of_mem hx)
            rw [if_neg hne]
            rfl
          rw [hrest, List.map_id]
      · next hk =>
          have hmem : k ∈ es.map Prod.fst := by
            rcases List.mem_cons.1 h with heq | hmem
            · exact absurd heq.symm hk
            · exact hmem
          rw [ih hnodup.2 hmem]

/-- Setting a key to what it has changes nothing. -/
theorem setEntry_eq_self {k : κ} {v : ν} {es : List (κ × ν)}
    (hnodup : (es.map Prod.fst).Nodup) (h : lastFor k es = some v) :
    setEntry k v es = es := by
  have hmem := mem_of_lastFor h
  rw [setEntry_of_mem v hnodup (List.mem_map_of_mem hmem)]
  refine (List.map_congr_left fun e he => ?_).trans (List.map_id es)
  by_cases hk : e.1 = k
  · have hv : lastFor e.1 es = some e.2 := lastFor_of_mem hnodup he
    rw [hk, h] at hv
    rw [if_pos hk, Option.some.inj hv]
    rfl
  · rw [if_neg hk]
    rfl

theorem map_setEntry (f : ν → μ) (k : κ) (v : ν)
    (es : List (κ × ν)) :
    (setEntry k v es).map (fun e => (e.1, f e.2)) =
      setEntry k (f v) (es.map fun e => (e.1, f e.2)) := by
  induction es with
  | nil => rfl
  | cons e es ih =>
      rw [List.map_cons, setEntry, setEntry]
      split
      · rfl
      · rw [List.map_cons, ih]

/-- A key that is new goes to the end. -/
theorem setEntry_of_notMem {k : κ} {v : ν} {es : List (κ × ν)}
    (h : k ∉ es.map Prod.fst) : setEntry k v es = es ++ [(k, v)] := by
  induction es with
  | nil => rfl
  | cons e es ih =>
      rw [List.map_cons, List.mem_cons, not_or] at h
      rw [setEntry, if_neg (Ne.symm h.1), ih h.2, List.cons_append]

omit [DecidableEq κ] in
theorem notMem_of_nodup_append {k : κ} {v : ν} {es rest : List (κ × ν)}
    (h : ((es ++ (k, v) :: rest).map Prod.fst).Nodup) :
    k ∉ es.map Prod.fst := by
  rw [List.map_append, List.map_cons] at h
  intro hk
  exact (List.nodup_append.1 h).2.2 k hk k List.mem_cons_self rfl

def empty : OrderedMap κ ν := ⟨[], List.nodup_nil⟩

def set (m : OrderedMap κ ν) (k : κ) (v : ν) : OrderedMap κ ν :=
  ⟨setEntry k v m.entries, nodup_setEntry m.nodup⟩

def get (m : OrderedMap κ ν) (k : κ) : Option ν := lastFor k m.entries

def keys (m : OrderedMap κ ν) : List κ := m.entries.map Prod.fst

def values (m : OrderedMap κ ν) : List ν := m.entries.map Prod.snd

/-- Perform a list of writes on the empty map. -/
def ofWrites (ws : List (κ × ν)) : OrderedMap κ ν :=
  ws.foldl (fun m w => m.set w.1 w.2) empty

theorem lastFor_setEntry (k k' : κ) (v : ν) (es : List (κ × ν))
    (hnd : (es.map Prod.fst).Nodup) :
    lastFor k (setEntry k' v es) = if k' = k then some v else lastFor k es := by
  induction es with
  | nil => simp [setEntry, lastFor_cons]
  | cons e es ih =>
      obtain ⟨k₀, v₀⟩ := e
      rw [List.map_cons, List.nodup_cons] at hnd
      rw [setEntry]
      split <;> rename_i hk
      · -- The key stands here, so by distinctness nowhere behind.
        subst hk
        rw [lastFor_cons, lastFor_cons]
        by_cases hkk : k₀ = k
        · subst hkk
          simp [lastFor_of_notMem hnd.1]
        · simp [hkk]
      · rw [lastFor_cons, ih hnd.2, lastFor_cons]
        by_cases hkk : k' = k
        · simp [hkk]
        · simp [hkk]

theorem lastFor_setEntry_ne {k k' : κ} (h : k' ≠ k) (v : ν)
    (es : List (κ × ν)) : lastFor k (setEntry k' v es) = lastFor k es := by
  induction es with
  | nil => rw [setEntry, lastFor_cons, if_neg h]; rfl
  | cons e es ih =>
      rw [setEntry]
      split <;> rename_i hk
      · rw [lastFor_cons, lastFor_cons, hk, if_neg h, if_neg h]
      · rw [lastFor_cons, lastFor_cons, ih]

theorem get_of_mem (m : OrderedMap κ ν) {k : κ} {v : ν}
    (h : (k, v) ∈ m.entries) : m.get k = some v := lastFor_of_mem m.nodup h

theorem mem_values {m : OrderedMap κ ν} {v : ν} :
    v ∈ m.values ↔ ∃ k, m.get k = some v := by
  constructor
  · intro h
    obtain ⟨⟨k, w⟩, hw, rfl⟩ := List.mem_map.1 h
    exact ⟨k, m.get_of_mem hw⟩
  · intro h
    obtain ⟨k, hk⟩ := h
    exact List.mem_map.2 ⟨(k, v), mem_of_lastFor hk, rfl⟩

/-- A map of one key holds what is under it. -/
theorem values_of_one_key {m : OrderedMap κ ν} {k : κ}
    (h : ∀ w ∈ m.entries, w.1 = k) : m.values = (m.get k).toList := by
  obtain ⟨entries, hnd⟩ := m
  cases entries with
  | nil => rfl
  | cons w rest =>
      have hw := h w List.mem_cons_self
      cases rest with
      | nil =>
          show [w.2] = (lastFor k [w]).toList
          obtain ⟨k', v⟩ := w
          rw [lastFor_cons, if_pos hw]
          rfl
      | cons u rest =>
          have hu := h u (List.mem_cons_of_mem w List.mem_cons_self)
          rw [List.map_cons, List.map_cons, hw, hu, List.nodup_cons] at hnd
          exact absurd List.mem_cons_self hnd.1

theorem get_set (m : OrderedMap κ ν) (k k' : κ) (v : ν) :
    (m.set k' v).get k = if k' = k then some v else m.get k :=
  lastFor_setEntry k k' v m.entries m.nodup

@[simp] theorem get_set_self (m : OrderedMap κ ν) (k : κ) (v : ν) :
    (m.set k v).get k = some v := by rw [get_set, if_pos rfl]

/-- Setting a key to what it has changes nothing. -/
theorem set_eq_self {m : OrderedMap κ ν} {k : κ} {v : ν}
    (h : m.get k = some v) : m.set k v = m := by
  obtain ⟨entries, nodup⟩ := m
  simp only [set, mk.injEq]
  exact setEntry_eq_self nodup h

theorem get_set_ne (m : OrderedMap κ ν) {k k' : κ} (h : k' ≠ k) (v : ν) :
    (m.set k' v).get k = m.get k := by rw [get_set, if_neg h]

/-- What is found after a write has been written, or was found before it. -/
theorem get_set_cases {m : OrderedMap κ ν} {k k' : κ} {v v' : ν}
    (h : (m.set k' v').get k = some v) :
    (k' = k ∧ v' = v) ∨ (k' ≠ k ∧ m.get k = some v) := by
  by_cases hk : k' = k
  · rw [get_set, if_pos hk] at h
    exact .inl ⟨hk, Option.some.inj h⟩
  · rw [get_set_ne m hk] at h
    exact .inr ⟨hk, h⟩

@[simp] theorem get_empty (k : κ) : (empty : OrderedMap κ ν).get k = none := rfl

theorem mem_keys_set (m : OrderedMap κ ν) (k k' : κ) (v : ν) :
    k' ∈ (m.set k v).keys ↔ k' = k ∨ k' ∈ m.keys := mem_keys_setEntry

theorem get_foldl_set (m : OrderedMap κ ν) (ws : List (κ × ν)) (k : κ) :
    (ws.foldl (fun m w => m.set w.1 w.2) m).get k =
      (lastFor k ws).or (m.get k) := by
  rw [read_foldl get some fun m w k => m.get_set k w.1 w.2]
  cases lastFor k ws with
  | none => simp
  | some v => simp

/-- Performing writes and looking up is reading them last write wins. -/
theorem get_ofWrites (ws : List (κ × ν)) (k : κ) :
    (ofWrites ws).get k = lastFor k ws := by
  rw [ofWrites, get_foldl_set, get_empty, Option.or_none]

/-- The entries after a list of writes are those of it that are read. -/
theorem mem_entries_ofWrites {ws : List (κ × ν)} {w : κ × ν} :
    w ∈ (ofWrites ws).entries ↔ lastFor w.1 ws = some w.2 := by
  rw [← get_ofWrites]
  exact ⟨fun h => get_of_mem _ h, fun h => mem_of_lastFor h⟩

/-- Keys may as well be renamed after the writes as before. -/
theorem lastFor_rename_entries {κ' : Type} [DecidableEq κ'] {f : κ → κ'}
    {ws : List (κ × ν)}
    (hf : ∀ w ∈ ws, ∀ u ∈ ws, f w.1 = f u.1 → w.1 = u.1) (k : κ') :
    lastFor k ((ofWrites ws).entries.map fun w => (f w.1, w.2)) =
      lastFor k (ws.map fun w => (f w.1, w.2)) := by
  have hmem : ∀ w ∈ (ofWrites ws).entries, w ∈ ws :=
    fun w hw => mem_of_lastFor (mem_entries_ofWrites.1 hw)
  by_cases hk : ∃ u ∈ ws, f u.1 = k
  · obtain ⟨u, hu, rfl⟩ := hk
    rw [lastFor_map_fst_of fun w hw => hf w (hmem w hw) u hu,
      lastFor_map_fst_of fun w hw => hf w hw u hu]
    exact get_ofWrites ws u.1
  · have hnone : ∀ us : List (κ × ν), (∀ u ∈ us, u ∈ ws) →
        lastFor k (us.map fun w => (f w.1, w.2)) = none := by
      intro us hus
      refine lastFor_eq_none.2 fun w hw => ?_
      obtain ⟨u, hu, rfl⟩ := List.mem_map.1 hw
      exact fun heq => hk ⟨u, hus u hu, heq⟩
    rw [hnone _ hmem, hnone ws fun u hu => hu]

theorem entries_foldl_set (ws : List (κ × ν)) (m : OrderedMap κ ν)
    (h : ((m.entries ++ ws).map Prod.fst).Nodup) :
    (ws.foldl (fun m w => m.set w.1 w.2) m).entries = m.entries ++ ws := by
  induction ws generalizing m with
  | nil => rw [List.foldl_nil, List.append_nil]
  | cons w ws ih =>
      have hset : (m.set w.1 w.2).entries = m.entries ++ [w] :=
        setEntry_of_notMem (notMem_of_nodup_append h)
      have happ : m.entries ++ w :: ws = m.entries ++ [w] ++ ws := by
        rw [List.append_assoc, List.singleton_append]
      rw [happ, ← hset] at h ⊢
      rw [List.foldl_cons]
      exact ih _ h

/-- Writes to distinct keys are the map's entries as they stand. -/
theorem entries_ofWrites {ws : List (κ × ν)} (h : (ws.map Prod.fst).Nodup) :
    (ofWrites ws).entries = ws := entries_foldl_set ws empty h

end OrderedMap

end IotHome.Lib
