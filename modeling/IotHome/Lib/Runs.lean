import IotHome.Lib.Outcome

/-!
# Runs of a step relation, and what holds along them

A system is a relation `step s a s'`: in state `s` the event `a` can happen,
and leaves `s'`. `Run` strings steps together. The two rules are the ways an
invariant is used here. `Run.invariant` is the usual one, about the state
alone. `Run.history` is for an invariant that also speaks of the events that
led to the state, which is what a statement about schedules needs: it is
carried from a prefix of the run to the next longer one.

A step function that can refuse an event, or fail on it, is run by `foldlM`;
`run_iff_foldlM` and `run_iff_foldlM_option` say that the two agree.
-/

namespace IotHome.Lib

variable {σ α ε : Type} {step : σ → α → σ → Prop}

inductive Run (step : σ → α → σ → Prop) : σ → List α → σ → Prop where
  | nil (s : σ) : Run step s [] s
  | cons {s s' s'' : σ} {a : α} {as : List α} :
      step s a s' → Run step s' as s'' → Run step s (a :: as) s''

theorem Run.append {s s' s'' : σ} {as bs : List α} (h : Run step s as s')
    (h' : Run step s' bs s'') : Run step s (as ++ bs) s'' := by
  induction h with
  | nil s => exact h'
  | cons hstep _ ih => exact .cons hstep (ih h')

theorem Run.append_inv {s s'' : σ} {as bs : List α}
    (h : Run step s (as ++ bs) s'') :
    ∃ s', Run step s as s' ∧ Run step s' bs s'' := by
  induction as generalizing s with
  | nil => exact ⟨s, .nil s, h⟩
  | cons a as ih =>
      cases h with
      | cons hstep hrest =>
          obtain ⟨s', has, hbs⟩ := ih hrest
          exact ⟨s', .cons hstep has, hbs⟩

theorem Run.invariant {P : σ → Prop} {s s' : σ} {as : List α}
    (hstep : ∀ {s a s'}, P s → step s a s' → P s') (hinit : P s)
    (h : Run step s as s') : P s' := by
  induction h with
  | nil s => exact hinit
  | cons ha _ ih => exact ih (hstep hinit ha)

theorem Run.history {P : List α → σ → Prop} {s s' : σ} {as : List α}
    (hstep : ∀ {done s a s'}, P done s → step s a s' → P (done ++ [a]) s')
    (hinit : P [] s) (h : Run step s as s') : P as s' := by
  have hfrom : ∀ done, P done s → P (done ++ as) s' := by
    clear hinit
    induction h with
    | nil s => intro done hd; rwa [List.append_nil]
    | cons ha _ ih =>
        intro done hd
        have hnext := ih _ (hstep hd ha)
        rwa [List.append_assoc, List.singleton_append] at hnext
  exact hfrom [] hinit

/-- A step of a run: the events before it lead to its state. -/
def StepOf (step : σ → α → σ → Prop) (s : σ) (as : List α) (t : σ) (a : α)
    (t' : σ) : Prop :=
  ∃ before after, as = before ++ a :: after ∧ Run step s before t ∧
    step t a t'

/-- What each step of a run keeps holds wherever one of them starts. -/
theorem StepOf.invariant {P : σ → Prop} {s t t' : σ} {as : List α} {a : α}
    (hstep : ∀ {u b u'}, StepOf step s as u b u' → P u → P u') (hinit : P s)
    (h : StepOf step s as t a t') : P t := by
  obtain ⟨before, after, has, hrun, _⟩ := h
  have hinv := Run.history
    (P := fun done u => Run step s done u ∧ (done <+: as → P u)) ?_ ?_ hrun
  · exact hinv.2 ⟨a :: after, has.symm⟩
  · intro done u b u' ⟨hdone, hu⟩ hb
    refine ⟨hdone.append (.cons hb (.nil u')), fun hpre => ?_⟩
    obtain ⟨rest, hrest⟩ := hpre
    rw [List.append_assoc, List.singleton_append] at hrest
    exact hstep ⟨done, rest, hrest.symm, hdone, hb⟩ (hu ⟨_, hrest⟩)
  · exact ⟨.nil s, fun _ => hinit⟩

/-- Whatever does nothing on no events, and on others the first of them and
then the rest, is a run. -/
theorem run_iff_of {ran : List α → σ → σ → Prop}
    (hnil : ∀ s s', ran [] s s' ↔ s = s')
    (hcons : ∀ a as s s', ran (a :: as) s s' ↔ ∃ t, step s a t ∧ ran as t s')
    {s s' : σ} {as : List α} : ran as s s' ↔ Run step s as s' := by
  induction as generalizing s with
  | nil =>
      rw [hnil]
      refine ⟨fun h => h ▸ .nil s, fun h => ?_⟩
      cases h with
      | nil => rfl
  | cons a as ih =>
      rw [hcons]
      refine ⟨fun ⟨t, ha, hrest⟩ => .cons ha (ih.1 hrest), fun h => ?_⟩
      cases h with
      | cons ha hrest => exact ⟨_, ha, ih.2 hrest⟩

theorem run_iff_foldlM {f : σ → α → Except ε σ} {s s' : σ} {as : List α} :
    as.foldlM f s = .ok s' ↔
      Run (fun s a s' => f s a = .ok s') s as s' := by
  refine @run_iff_of _ _ _ (fun as s s' => as.foldlM f s = .ok s')
    (fun _ _ => ⟨Except.ok.inj, congrArg Except.ok⟩)
    (fun a as s s' => ?_) s s' as
  rw [List.foldlM_cons]
  exact bind_eq_ok

theorem run_iff_foldlM_option {f : σ → α → Option σ} {s s' : σ}
    {as : List α} :
    as.foldlM f s = some s' ↔
      Run (fun s a s' => f s a = some s') s as s' := by
  refine @run_iff_of _ _ _ (fun as s s' => as.foldlM f s = some s')
    (fun _ _ => Option.some_inj) (fun a as s s' => ?_) s s' as
  rw [List.foldlM_cons]
  exact Option.bind_eq_some_iff

/-- The steps of a run of a function are its first one and those of the
rest. -/
theorem stepOf_cons_iff {f : σ → α → Option σ} {s s₁ t t' : σ} {a b : α}
    {as : List α} (ha : f s a = some s₁) :
    StepOf (fun s a s' => f s a = some s') s (a :: as) t b t' ↔
      (t = s ∧ b = a ∧ t' = s₁) ∨
        StepOf (fun s a s' => f s a = some s') s₁ as t b t' := by
  constructor
  · rintro ⟨before, after, has, hrun, hb⟩
    cases hrun with
    | nil =>
        obtain ⟨rfl, rfl⟩ := List.cons.inj has
        exact .inl ⟨rfl, rfl, Option.some.inj (hb.symm.trans ha)⟩
    | cons hfirst hrest =>
        obtain ⟨rfl, rfl⟩ := List.cons.inj has
        obtain rfl := Option.some.inj (hfirst.symm.trans ha)
        exact .inr ⟨_, after, rfl, hrest, hb⟩
  · rintro (⟨rfl, rfl, rfl⟩ | ⟨before, after, rfl, hrun, hb⟩)
    · exact ⟨[], as, rfl, .nil _, ha⟩
    · exact ⟨a :: before, after, rfl, .cons ha hrun, hb⟩

/-- Where every step writes at most one entry to a log, the entries stand in
order just if each step writes something that all entries before it may
stand before. -/
theorem pairwise_log_iff {β : Type} {f : σ → α → Option σ} (log : σ → List β)
    (R : β → β → Prop)
    (hlog : ∀ s a s', f s a = some s' → log s' = log s ∨
      ∃ x, log s' = log s ++ [x]) {s s' : σ} {as : List α}
    (h : Run (fun s a s' => f s a = some s') s as s') :
    (log s').Pairwise R ↔ (log s).Pairwise R ∧
      ∀ t a t', StepOf (fun s a s' => f s a = some s') s as t a t' →
        ∀ x, log t' = log t ++ [x] → ∀ y ∈ log t, R y x := by
  induction h with
  | nil s =>
      refine (and_iff_left ?_).symm
      rintro t a t' ⟨before, after, hnil, _⟩
      simp at hnil
  | @cons s s₁ s' a as ha _ ih =>
      have hfirst : (log s₁).Pairwise R ↔ (log s).Pairwise R ∧
          ∀ x, log s₁ = log s ++ [x] → ∀ y ∈ log s, R y x := by
        rcases hlog s a s₁ ha with heq | ⟨x, heq⟩
        · rw [heq]
          simp
        · rw [heq, List.pairwise_append]
          simp [eq_comm]
      rw [ih, hfirst, and_assoc]
      refine and_congr_right fun _ => ?_
      simp only [stepOf_cons_iff ha]
      constructor
      · rintro ⟨hnow, hrest⟩ t b t' (⟨rfl, rfl, rfl⟩ | hstep)
        · exact hnow
        · exact hrest t b t' hstep
      · intro hall
        exact ⟨hall s a s₁ (.inl ⟨rfl, rfl, rfl⟩),
          fun t b t' hstep => hall t b t' (.inr hstep)⟩

/-- Runs of a function have one end. -/
theorem Run.det {f : σ → α → Option σ} {s t t' : σ} {as : List α}
    (h : Run (fun s a s' => f s a = some s') s as t)
    (h' : Run (fun s a s' => f s a = some s') s as t') : t = t' := by
  have ht := run_iff_foldlM_option.2 h
  have ht' := run_iff_foldlM_option.2 h'
  exact Option.some.inj (ht.symm.trans ht')

/-- A run of a function goes on from where its beginning ends. -/
theorem Run.drop {f : σ → α → Option σ} {s t u : σ} {as bs : List α}
    (h : Run (fun s a s' => f s a = some s') s as t)
    (h' : Run (fun s a s' => f s a = some s') s (as ++ bs) u) :
    Run (fun s a s' => f s a = some s') t bs u := by
  obtain ⟨t', ht, hrest⟩ := Run.append_inv h'
  rwa [Run.det h ht]

end IotHome.Lib
