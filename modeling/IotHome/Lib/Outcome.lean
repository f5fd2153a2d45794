import Mathlib.Data.List.Basic

/-!
# Computations that can fail

`Except ε` is used throughout as what it is, a result or an error. These are
its computation rules, in the form `simp` uses, and the one inversion: a
bind that gave a result did so through a result of its first half. Where the
result does not matter, `∃ a, x = .ok a` says that there is one.
-/

namespace IotHome.Lib

variable {ε α β : Type}

@[simp] theorem ok_bind (a : α) (f : α → Except ε β) :
    (Except.ok a >>= f) = f a := rfl

@[simp] theorem error_bind (e : ε) (f : α → Except ε β) :
    (Except.error e >>= f) = .error e := rfl

@[simp] theorem pure_eq_ok (a : α) : (pure a : Except ε α) = .ok a := rfl

@[simp] theorem map_ok (a : α) (f : α → β) :
    (Except.ok a : Except ε α).map f = .ok (f a) := rfl

@[simp] theorem map_error (e : ε) (f : α → β) :
    (Except.error e : Except ε α).map f = .error e := rfl

theorem bind_eq_ok {x : Except ε α} {f : α → Except ε β} {b : β} :
    (x >>= f) = .ok b ↔ ∃ a, x = .ok a ∧ f a = .ok b := by
  cases x with
  | error e => simp
  | ok a => simp

theorem map_eq_ok {x : Except ε α} {f : α → β} {b : β} :
    x.map f = .ok b ↔ ∃ a, x = .ok a ∧ f a = b := by
  cases x with
  | error e => simp
  | ok a => simp

/-- What every turn of a loop keeps holds at its end. -/
theorem foldlM_invariant {f : β → α → Except ε β} {xs : List α}
    {P : β → Prop} (hstep : ∀ b x b', P b → x ∈ xs → f b x = .ok b' → P b')
    {b b' : β} (h : xs.foldlM f b = .ok b') (hb : P b) : P b' := by
  induction xs generalizing b with
  | nil =>
      obtain rfl := Except.ok.inj h
      exact hb
  | cons x xs ih =>
      rw [List.foldlM_cons] at h
      obtain ⟨c, hc, hrest⟩ := bind_eq_ok.1 h
      exact ih (fun b y b' hP hy => hstep b y b' hP (List.mem_cons_of_mem x hy))
        hrest (hstep b x c hb List.mem_cons_self hc)

/-! ## Which computations give a result -/

theorem exists_bind_ok {x : Except ε α} {f : α → Except ε β} :
    (∃ b, (x >>= f) = .ok b) ↔ ∃ a, x = .ok a ∧ ∃ b, f a = .ok b := by
  cases x with
  | error e => simp
  | ok a => simp

theorem exists_bind_pure_ok {x : Except ε α} {f : α → β} :
    (∃ b, (x >>= fun a => pure (f a)) = .ok b) ↔ ∃ a, x = .ok a := by
  cases x with
  | error e => simp
  | ok a => simp

theorem exists_map_ok {x : Except ε α} {f : α → β} :
    (∃ b, x.map f = .ok b) ↔ ∃ a, x = .ok a := by
  cases x with
  | error e => simp
  | ok a => simp

/-- A loop whose turns cannot fail for what earlier turns did gives a result
if every turn does. -/
theorem exists_foldlM_ok {γ : Type} {g : α → Except ε γ}
    {h : β → γ → α → β} {xs : List α} {b : β} :
    (∃ r, xs.foldlM (fun b x => g x >>= fun c => pure (h b c x)) b = .ok r) ↔
      ∀ x ∈ xs, ∃ c, g x = .ok c := by
  induction xs generalizing b with
  | nil => exact ⟨fun _ _ hx => absurd hx List.not_mem_nil, fun _ => ⟨b, rfl⟩⟩
  | cons x xs ih =>
      rw [List.foldlM_cons, exists_bind_ok, List.forall_mem_cons]
      constructor
      · intro h'
        obtain ⟨b', hb', hrest⟩ := h'
        obtain ⟨c, hc, _⟩ := bind_eq_ok.1 hb'
        exact ⟨⟨c, hc⟩, ih.1 hrest⟩
      · intro h'
        obtain ⟨⟨c, hc⟩, hrest⟩ := h'
        exact ⟨h b c x, by rw [hc]; rfl, ih.2 hrest⟩

theorem exists_mapM_ok {f : α → Except ε β} {xs : List α} :
    (∃ ys, xs.mapM f = .ok ys) ↔ ∀ x ∈ xs, ∃ y, f x = .ok y := by
  induction xs with
  | nil => exact ⟨fun _ _ hx => absurd hx List.not_mem_nil, fun _ => ⟨[], rfl⟩⟩
  | cons x xs ih =>
      rw [List.mapM_cons, exists_bind_ok, List.forall_mem_cons, ← ih]
      constructor
      · intro h
        obtain ⟨y, hy, ys, hys⟩ := h
        obtain ⟨zs, hzs, _⟩ := bind_eq_ok.1 hys
        exact ⟨⟨y, hy⟩, zs, hzs⟩
      · intro h
        obtain ⟨⟨y, hy⟩, zs, hzs⟩ := h
        exact ⟨y, hy, y :: zs, by rw [hzs]; rfl⟩

theorem mapM_cons_eq_ok {f : α → Except ε β} {x : α} {xs : List α} {y : β}
    {ys : List β} :
    (x :: xs).mapM f = .ok (y :: ys) ↔ f x = .ok y ∧ xs.mapM f = .ok ys := by
  rw [List.mapM_cons]
  cases f x with
  | error e => simp
  | ok z =>
      cases xs.mapM f with
      | error e => simp
      | ok zs => simp

/-- Each result is that of one of the elements. -/
theorem exists_of_mem_mapM {f : α → Except ε β} {xs : List α} {ys : List β}
    (h : xs.mapM f = .ok ys) {y : β} (hy : y ∈ ys) : ∃ x ∈ xs, f x = .ok y := by
  induction xs generalizing ys with
  | nil =>
      obtain rfl := Except.ok.inj h
      exact absurd hy List.not_mem_nil
  | cons x xs ih =>
      rw [List.mapM_cons, bind_eq_ok] at h
      obtain ⟨z, hz, h⟩ := h
      obtain ⟨zs, hzs, h⟩ := bind_eq_ok.1 h
      obtain rfl := Except.ok.inj h
      rcases List.mem_cons.1 hy with rfl | hmem
      · exact ⟨x, List.mem_cons_self, hz⟩
      · obtain ⟨w, hw, heq⟩ := ih hzs hmem
        exact ⟨w, List.mem_cons_of_mem x hw, heq⟩

theorem mapM_eq_ok_map {f : α → Except ε β} {g : α → β} {xs : List α} :
    xs.mapM f = .ok (xs.map g) ↔ ∀ x ∈ xs, f x = .ok (g x) := by
  induction xs with
  | nil => exact ⟨fun _ _ hx => absurd hx List.not_mem_nil, fun _ => rfl⟩
  | cons x xs ih =>
      rw [List.map_cons, mapM_cons_eq_ok, ih, List.forall_mem_cons]

end IotHome.Lib
