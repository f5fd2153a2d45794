import IotHome.Lib.DecimalText
import IotHome.Lib.Json

/-!
# The values that are read

Whatever text a value is read from, its objects have each of their keys once
and its numbers are as the reader of numerals leaves them. The machine keeps
this of the arrays and objects that are open, and of the value that is
complete.
-/

namespace IotHome.Lib

namespace Json

/-- An object has each key once. -/
def KeysOnce : Json → Prop
  | .obj fields => (fields.map Prod.fst).Nodup
  | _ => True

/-- A value that has one text. -/
inductive Canonical : Json → Prop where
  | null : Canonical .null
  | bool (b : Bool) : Canonical (.bool b)
  | num {n : Dec} (h : n.Normal) : Canonical (.num n)
  | str (s : JsString) : Canonical (.str s)
  | arr {elems : List Json} (h : ∀ v ∈ elems, Canonical v) :
      Canonical (.arr elems)
  | obj {fields : List (JsString × Json)}
      (hnodup : (fields.map Prod.fst).Nodup)
      (h : ∀ f ∈ fields, Canonical f.2) : Canonical (.obj fields)

theorem Canonical.keysOnce {v : Json} (h : Canonical v) : v.KeysOnce := by
  cases h with
  | obj hnodup h => exact hnodup
  | _ => trivial

theorem Canonical.lastFor {fields : List (JsString × Json)}
    (h : Canonical (.obj fields)) {k : JsString} {v : Json}
    (hv : Lib.lastFor k fields = some v) : Canonical v := by
  cases h with
  | obj hnodup hfields => exact hfields _ (mem_of_lastFor hv)

theorem Canonical.elems {vs : List Json} (h : Canonical (.arr vs)) :
    ∀ v ∈ vs, Canonical v := by
  cases h with
  | arr helems => exact helems

theorem Canonical.normal {n : Dec} (h : Canonical (.num n)) : n.Normal := by
  cases h with
  | num hn => exact hn

/-- The fields of an object that is open. -/
def CanonicalFields (done : List (JsString × Json)) : Prop :=
  (done.map Prod.fst).Nodup ∧ ∀ f ∈ done, Canonical f.2

theorem canonicalFields_nil : CanonicalFields [] :=
  ⟨List.nodup_nil, fun _ hf => absurd hf List.not_mem_nil⟩

theorem CanonicalFields.setEntry {done : List (JsString × Json)}
    (h : CanonicalFields done) (key : JsString) {v : Json}
    (hv : Canonical v) :
    CanonicalFields (OrderedMap.setEntry key v done) := by
  refine ⟨OrderedMap.nodup_setEntry h.1, fun f hf => ?_⟩
  rcases OrderedMap.mem_setEntry hf h.1 with ⟨_, hset⟩ | ⟨_, hold⟩
  · rw [hset]
    exact hv
  · exact h.2 f hold

def Frame.Canonical : Frame → Prop
  | .obj done _ => CanonicalFields done
  | .arr done => ∀ v ∈ done, Json.Canonical v

def Mode.Canonical : Mode → Prop
  | .objKey done => CanonicalFields done
  | .objColon done _ => CanonicalFields done
  | .after v => Json.Canonical v
  | _ => True

structure Stack.Canonical (s : Stack) : Prop where
  frames : ∀ f ∈ s.frames, f.Canonical
  mode : s.mode.Canonical

theorem startValue_canonical {frames : List Frame} {t : Token} {s : Stack}
    (hlit : ∀ v, t = .lit v → Canonical v) (hframes : ∀ f ∈ frames, f.Canonical)
    (h : startValue frames t = some s) : s.Canonical := by
  cases t with
  | lit v =>
      obtain rfl := Option.some.inj h
      exact ⟨hframes, hlit v rfl⟩
  | str s =>
      obtain rfl := Option.some.inj h
      exact ⟨hframes, .str s⟩
  | openArr =>
      obtain rfl := Option.some.inj h
      exact ⟨hframes, trivial⟩
  | openObj =>
      obtain rfl := Option.some.inj h
      exact ⟨hframes, trivial⟩
  | closeArr => cases h
  | closeObj => cases h
  | comma => cases h
  | colon => cases h

theorem closeValue_canonical {v : Json} {frames : List Frame} {t : Token}
    {s : Stack} (hv : Canonical v) (hframes : ∀ f ∈ frames, f.Canonical)
    (h : closeValue v frames t = some s) : s.Canonical := by
  have hconcat : ∀ {done : List Json}, (∀ w ∈ done, Canonical w) →
      ∀ w ∈ done ++ [v], Canonical w := fun hdone =>
    List.forall_mem_append.2 ⟨hdone, List.forall_mem_singleton.2 hv⟩
  rw [closeValue.eq_def] at h
  split at h
  · obtain rfl := Option.some.inj h
    rw [List.forall_mem_cons] at hframes
    exact ⟨List.forall_mem_cons.2 ⟨hconcat hframes.1, hframes.2⟩, trivial⟩
  · obtain rfl := Option.some.inj h
    rw [List.forall_mem_cons] at hframes
    exact ⟨hframes.2, .arr (hconcat hframes.1)⟩
  · obtain rfl := Option.some.inj h
    rw [List.forall_mem_cons] at hframes
    exact ⟨hframes.2, hframes.1.setEntry _ hv⟩
  · obtain rfl := Option.some.inj h
    rw [List.forall_mem_cons] at hframes
    obtain ⟨hnodup, hfields⟩ := hframes.1.setEntry _ hv
    exact ⟨hframes.2, .obj hnodup hfields⟩
  · cases h

theorem Stack.Canonical.push {s s' : Stack} (hs : s.Canonical) {t : Token}
    (hlit : ∀ v, t = .lit v → Json.Canonical v) (h : s.push t = some s') :
    s'.Canonical := by
  obtain ⟨frames, mode⟩ := s
  obtain ⟨hframes, hmode⟩ := hs
  have harr : ∀ f ∈ Frame.arr [] :: frames, f.Canonical :=
    List.forall_mem_cons.2
      ⟨fun _ hv => absurd hv List.not_mem_nil, hframes⟩
  rw [Stack.push.eq_def] at h
  split at h
  · exact startValue_canonical hlit hframes h
  · obtain rfl := Option.some.inj h
    exact ⟨hframes, .arr fun _ hv => absurd hv List.not_mem_nil⟩
  · exact startValue_canonical hlit harr h
  · obtain rfl := Option.some.inj h
    exact ⟨hframes, .obj List.nodup_nil fun _ hf =>
      absurd hf List.not_mem_nil⟩
  · obtain rfl := Option.some.inj h
    exact ⟨hframes, canonicalFields_nil⟩
  · next hobjKey =>
      obtain rfl := Option.some.inj h
      simp only [] at hobjKey
      subst hobjKey
      exact ⟨hframes, hmode⟩
  · next hcolon =>
      obtain rfl := Option.some.inj h
      simp only [] at hcolon
      subst hcolon
      exact ⟨List.forall_mem_cons.2 ⟨hmode, hframes⟩, trivial⟩
  · next hafter =>
      simp only [] at hafter
      subst hafter
      exact closeValue_canonical hmode hframes h
  · cases h

theorem classify_canonical {word : JsString} {t : Token}
    (h : classify word = some t) : ∀ v, t = .lit v → Canonical v := by
  rintro v rfl
  rw [classify] at h
  split at h
  · obtain rfl := Token.lit.inj (Option.some.inj h)
    exact .null
  · split at h
    · obtain rfl := Token.lit.inj (Option.some.inj h)
      exact .bool true
    · split at h
      · obtain rfl := Token.lit.inj (Option.some.inj h)
        exact .bool false
      · obtain ⟨n, hparse, hn⟩ := Option.map_eq_some_iff.1 h
        obtain rfl := Token.lit.inj hn
        exact .num (parseNumeral_normal hparse)

theorem punctuation_ne_lit {u : UInt16} {t : Token}
    (h : punctuation u = some t) : ∀ v, t = .lit v → Canonical v := by
  rintro v rfl
  simp [punctuation, ite_eq_iff] at h

theorem start_canonical {s : Stack} (hs : s.Canonical) {u : UInt16}
    {m : Machine} (h : start s u = some m) : m.stack.Canonical := by
  rw [start] at h
  split at h
  · obtain rfl := Option.some.inj h
    exact hs
  · split at h
    · next t ht =>
        obtain ⟨s', hpush, hm⟩ := Option.bind_eq_some_iff.1 h
        obtain rfl := Option.some.inj hm
        exact hs.push (punctuation_ne_lit ht) hpush
    · split at h
      · obtain rfl := Option.some.inj h
        exact hs
      · obtain rfl := Option.some.inj h
        exact hs

theorem step_canonical {m m' : Machine} (hm : m.stack.Canonical) {u : UInt16}
    (h : m.step u = some m') : m'.stack.Canonical := by
  rw [Machine.step.eq_def] at h
  split at h
  · exact start_canonical hm h
  · split at h
    · obtain ⟨t, ht, h⟩ := Option.bind_eq_some_iff.1 h
      obtain ⟨s, hpush, h⟩ := Option.bind_eq_some_iff.1 h
      exact start_canonical (hm.push (classify_canonical ht) hpush) h
    · obtain rfl := Option.some.inj h
      exact hm
  · split at h
    · obtain ⟨s, hpush, h⟩ := Option.bind_eq_some_iff.1 h
      obtain rfl := Option.some.inj h
      exact hm.push (fun v hv => by cases hv) hpush
    · split at h
      · obtain rfl := Option.some.inj h
        exact hm
      · split at h
        · cases h
        · obtain rfl := Option.some.inj h
          exact hm
  · split at h
    · obtain rfl := Option.some.inj h
      exact hm
    · obtain ⟨e, _, h⟩ := Option.bind_eq_some_iff.1 h
      obtain rfl := Option.some.inj h
      exact hm
  · obtain ⟨d, _, h⟩ := Option.bind_eq_some_iff.1 h
    simp only [] at h
    split at h
    · obtain rfl := Option.some.inj h
      exact hm
    · obtain rfl := Option.some.inj h
      exact hm

theorem finish_canonical {m : Machine} (hm : m.stack.Canonical) {v : Json}
    (h : m.finish = some v) : Canonical v := by
  rw [Machine.finish] at h
  split at h
  · obtain ⟨s, hs, h⟩ := Option.bind_eq_some_iff.1 h
    obtain rfl := Option.some.inj hs
    beta_reduce at h
    split at h
    · next heq =>
        obtain rfl := Option.some.inj h
        rw [heq] at hm
        exact hm.mode
    · cases h
  · obtain ⟨t, ht, h⟩ := Option.bind_eq_some_iff.1 h
    obtain ⟨s, hpush, h⟩ := Option.bind_eq_some_iff.1 h
    have hs := hm.push (classify_canonical ht) hpush
    beta_reduce at h
    split at h
    · obtain rfl := Option.some.inj h
      exact hs.mode
    · cases h
  · cases h

theorem parse_canonical {text : JsString} {v : Json}
    (h : parse text = some v) : Canonical v := by
  obtain ⟨m, hm, hfinish⟩ := Option.bind_eq_some_iff.1 h
  have hrun : ∀ (units : JsString) (m₀ : Machine), m₀.stack.Canonical →
      units.foldlM Machine.step m₀ = some m → m.stack.Canonical := by
    intro units
    induction units with
    | nil =>
        intro m₀ hm₀ h
        obtain rfl := Option.some.inj h
        exact hm₀
    | cons u units ih =>
        intro m₀ hm₀ h
        rw [List.foldlM_cons] at h
        obtain ⟨m₁, hstep, hrest⟩ := Option.bind_eq_some_iff.1 h
        exact ih m₁ (step_canonical hm₀ hstep) hrest
  refine finish_canonical (hrun text _ ?_ hm) hfinish
  exact ⟨fun f hf => absurd hf List.not_mem_nil, trivial⟩

/-- What is read has each key once. -/
theorem parse_keysOnce {text : JsString} {v : Json}
    (h : parse text = some v) : v.KeysOnce := (parse_canonical h).keysOnce

end Json

end IotHome.Lib
