import IotHome.Lib.Runs
import Mathlib.Data.List.Nodup

/-!
# Read, modify, write

Calls that share one content. Each reads it, edits its copy and writes the
copy back, and nothing keeps another call from reading or writing in between.
An edit can fail; then nothing is written, and the run does not go on with
that write.

If no write falls between a call's read and its own write, the run is a
serial one, in the order of the writes (`serial_of_noWriteBetween`). If one
does, the content at the end misses the edit of one of the two calls
(`not_both_in_lineage`). What a content has in it is its lineage: the calls
whose edits led to it. It does not depend on what the edits do, so it is what
the run leaves when every edit notes down its call (`lineage_of_run`).
-/

namespace IotHome.Lib

variable {σ : Type}

inductive Access where
  | read (call : Nat)
  | write (call : Nat)
  deriving DecidableEq

structure Shared (σ : Type) where
  content : σ
  copy : Nat → Option σ

def Shared.start (content : σ) : Shared σ := ⟨content, fun _ => none⟩

def accessStep (edit : Nat → σ → Option σ) (s : Shared σ) :
    Access → Option (Shared σ)
  | .read call =>
      some { s with
        copy := fun i => if i = call then some s.content else s.copy i }
  | .write call =>
      match s.copy call with
      | none => none
      | some c => (edit call c).map fun c' => { s with content := c' }

/-- One access after the other. -/
abbrev AccessRun (edit : Nat → σ → Option σ) :
    Shared σ → List Access → Shared σ → Prop :=
  Run fun s e s' => accessStep edit s e = some s'

def Access.writer? : Access → Option Nat
  | .read _ => none
  | .write call => some call

/-- The calls that wrote, in the order of their writes. -/
def writers (es : List Access) : List Nat := es.filterMap Access.writer?

/-- The calls one after the other, each with nothing in between. -/
def serial (edit : Nat → σ → Option σ) (c : σ) (calls : List Nat) : Option σ :=
  calls.foldlM (fun c call => edit call c) c

def NoWriteBetween (es : List Access) : Prop :=
  ∀ pre i mid post, es = pre ++ .read i :: (mid ++ .write i :: post) →
    ∀ j, .write j ∉ mid

/-- Every call reads once and writes once, in that order. -/
structure Schedule (es : List Access) : Prop where
  nodup : es.Nodup
  readFirst : ∀ pre i post, es = pre ++ .write i :: post → .read i ∈ pre
  writes : ∀ i, .read i ∈ es → .write i ∈ es

/-! ## What one access does -/

variable {edit : Nat → σ → Option σ}

theorem accessStep_cases {s s' : Shared σ} {e : Access}
    (h : accessStep edit s e = some s') :
    (∃ i, e = .read i ∧ s'.content = s.content ∧
      ∀ j, s'.copy j = if j = i then some s.content else s.copy j) ∨
    (∃ i c, e = .write i ∧ s.copy i = some c ∧
      edit i c = some s'.content ∧ s'.copy = s.copy) := by
  cases e with
  | read i =>
      obtain rfl := Option.some.inj h
      exact .inl ⟨i, rfl, rfl, fun _ => rfl⟩
  | write i =>
      rw [accessStep] at h
      split at h
      · cases h
      · next c hc =>
          obtain ⟨c', hc', rfl⟩ := Option.map_eq_some_iff.1 h
          exact .inr ⟨i, c, rfl, hc, hc', rfl⟩

theorem writers_concat (es : List Access) (e : Access) :
    writers (es ++ [e]) = writers es ++ e.writer?.toList := by
  rw [writers, List.filterMap_append, ← writers]
  cases e with
  | read i => rfl
  | write i => rfl

theorem mem_writers {es : List Access} {i : Nat} :
    i ∈ writers es ↔ .write i ∈ es := by
  rw [writers, List.mem_filterMap]
  constructor
  · intro h
    obtain ⟨e, he, hi⟩ := h
    cases e with
    | read j => cases hi
    | write j =>
        obtain rfl := Option.some.inj hi
        exact he
  · intro h
    exact ⟨.write i, h, rfl⟩

/-! ## Undisturbed runs are serial -/

theorem NoWriteBetween.of_append {es more : List Access}
    (h : NoWriteBetween (es ++ more)) : NoWriteBetween es := by
  intro pre i mid post heq
  refine h pre i mid (post ++ more) ?_
  rw [heq]
  simp

/-- A copy was read off the content, which it still is if nothing has been
written since. -/
def CopiesRead (done : List Access) (s : Shared σ) : Prop :=
  ∀ i c, s.copy i = some c → ∃ pre mid, done = pre ++ .read i :: mid ∧
    ((∀ j, .write j ∉ mid) → c = s.content)

theorem copiesRead_step {done : List Access} {s s' : Shared σ} {e : Access}
    (hs : CopiesRead done s) (h : accessStep edit s e = some s') :
    CopiesRead (done ++ [e]) s' := by
  intro k c hc
  rcases accessStep_cases h with ⟨i, rfl, hcontent, hcopy⟩ |
    ⟨i, _, rfl, _, _, hcopy⟩
  · rw [hcopy] at hc
    split at hc
    · next hk =>
        subst hk
        refine ⟨done, [], rfl, fun _ => ?_⟩
        rw [hcontent]
        exact (Option.some.inj hc).symm
    · obtain ⟨pre, mid, rfl, hmid⟩ := hs k c hc
      refine ⟨pre, mid ++ [.read i], by simp, fun hno => ?_⟩
      rw [hcontent]
      exact hmid fun j hj => hno j (List.mem_append_left _ hj)
  · rw [hcopy] at hc
    obtain ⟨pre, mid, rfl, _⟩ := hs k c hc
    refine ⟨pre, mid ++ [.write i], by simp, fun hno => ?_⟩
    exact absurd (List.mem_append_right _ List.mem_cons_self) (hno i)

/-- Without a write between a call's read and its own, a run leaves what the
calls leave one after the other, in the order of their writes. -/
theorem serial_of_noWriteBetween {c : σ} {es : List Access} {s : Shared σ}
    (h : AccessRun edit (.start c) es s) (hno : NoWriteBetween es) :
    serial edit c (writers es) = some s.content := by
  have hinv := Run.history
    (P := fun done s => CopiesRead done s ∧ (NoWriteBetween done →
      serial edit c (writers done) = some s.content)) ?_ ⟨?_, ?_⟩ h
  · exact hinv.2 hno
  · intro done s e s' ⟨hcopies, hserial⟩ hstep
    refine ⟨copiesRead_step hcopies hstep, fun hno => ?_⟩
    have hdone := hserial hno.of_append
    rw [writers_concat]
    rcases accessStep_cases hstep with ⟨i, rfl, hcontent, _⟩ |
      ⟨i, copy, rfl, hcopy, hedit, _⟩
    · rw [hcontent, ← hdone]
      exact congrArg _ (List.append_nil _)
    · obtain ⟨pre, mid, rfl, hmid⟩ := hcopies i copy hcopy
      have hsame := hmid (hno pre i mid [] (by simp))
      show serial edit c (_ ++ [i]) = _
      rw [serial, List.foldlM_append, ← serial, hdone]
      show ([i].foldlM (fun c call => edit call c) s.content) = _
      rw [List.foldlM_cons, ← hsame, hedit]
      rfl
  · intro i copy hcopy
    cases hcopy
  · intro _
    rfl

/-! ## Lineages -/

/-- The edit that notes down its call. -/
def noteCall (call : Nat) (done : List Nat) : Option (List Nat) :=
  some (done ++ [call])

/-- The content and the copies are what their lineages say. -/
structure Follows (edit : Nat → σ → Option σ) (c : σ) (s : Shared σ)
    (t : Shared (List Nat)) : Prop where
  content : serial edit c t.content = some s.content
  copy : ∀ i, (s.copy i = none ∧ t.copy i = none) ∨
    ∃ c' l, s.copy i = some c' ∧ t.copy i = some l ∧
      serial edit c l = some c'

theorem follows_step {c : σ} {s s' : Shared σ} {t : Shared (List Nat)}
    {e : Access} (hf : Follows edit c s t)
    (h : accessStep edit s e = some s') :
    ∃ t', accessStep noteCall t e = some t' ∧ Follows edit c s' t' := by
  rcases accessStep_cases h with ⟨i, rfl, hcontent, hcopy⟩ |
    ⟨i, c', rfl, hc', hedit, hcopy⟩
  · refine ⟨_, rfl, ⟨?_, fun k => ?_⟩⟩
    · rw [hcontent]
      exact hf.content
    · rw [hcopy]
      show _ ∨ ∃ c' l, _ ∧ (if k = i then some t.content else t.copy k) =
        some l ∧ _
      split
      · exact .inr ⟨s.content, t.content, rfl, rfl, hf.content⟩
      · next hk =>
          rcases hf.copy k with ⟨hs, ht⟩ | hsome
          · exact .inl ⟨hs, (if_neg hk).trans ht⟩
          · exact .inr hsome
  · rcases hf.copy i with ⟨hs, _⟩ | ⟨d, l, hs, ht, hserial⟩
    · rw [hc'] at hs
      cases hs
    · obtain rfl := Option.some.inj (hc'.symm.trans hs)
      refine ⟨{ t with content := l ++ [i] }, ?_, ⟨?_, fun k => ?_⟩⟩
      · rw [accessStep, ht]
        rfl
      · show serial edit c (l ++ [i]) = _
        rw [serial, List.foldlM_append, ← serial, hserial]
        show ([i].foldlM (fun c call => edit call c) c') = _
        rw [List.foldlM_cons, hedit]
        rfl
      · rw [hcopy]
        exact hf.copy k

/-- A run leaves what the calls of a lineage leave one after the other, and
the lineage is what the same accesses leave when the calls are noted down. -/
theorem lineage_of_run {c : σ} {es : List Access} {s : Shared σ}
    (h : AccessRun edit (.start c) es s) :
    ∃ t, AccessRun noteCall (.start []) es t ∧
      serial edit c t.content = some s.content := by
  have hinv := Run.history
    (P := fun done s => ∃ t, AccessRun noteCall (.start []) done t ∧
      Follows edit c s t) ?_ ?_ h
  · obtain ⟨t, hrun, hf⟩ := hinv
    exact ⟨t, hrun, hf.content⟩
  · intro done s e s' ⟨t, hrun, hf⟩ hstep
    obtain ⟨t', hstep', hf'⟩ := follows_step hf hstep
    exact ⟨t', hrun.append (.cons hstep' (.nil t')), hf'⟩
  · exact ⟨.start [], .nil _, ⟨rfl, fun _ => .inl ⟨rfl, rfl⟩⟩⟩

/-- The call is in the lineage of the content or of a copy. -/
def Noted (t : Shared (List Nat)) (i : Nat) : Prop :=
  i ∈ t.content ∨ ∃ j l, t.copy j = some l ∧ i ∈ l

/-- A lineage is made of calls that wrote. -/
theorem write_of_noted {es : List Access} {t : Shared (List Nat)}
    (h : AccessRun noteCall (.start []) es t) {i : Nat} (hi : Noted t i) :
    .write i ∈ es := by
  have hinv := Run.history
    (P := fun done t => ∀ i, Noted t i → .write i ∈ done) ?_ ?_ h
  · exact hinv i hi
  · intro done t e t' hdone hstep i hi
    rcases accessStep_cases hstep with ⟨j, rfl, hcontent, hcopy⟩ |
      ⟨j, l, rfl, hl, hedit, hcopy⟩
    · refine List.mem_append_left _ (hdone i ?_)
      rcases hi with hi | ⟨k, l, hl, hi⟩
      · rw [hcontent] at hi
        exact .inl hi
      · rw [hcopy] at hl
        split at hl
        · obtain rfl := Option.some.inj hl
          exact .inl hi
        · exact .inr ⟨k, l, hl, hi⟩
    · rcases hi with hi | ⟨k, l', hl', hi⟩
      · rw [← Option.some.inj hedit, List.mem_append,
          List.mem_singleton] at hi
        rcases hi with hi | rfl
        · exact List.mem_append_left _ (hdone i (.inr ⟨j, l, hl, hi⟩))
        · exact List.mem_append_right _ List.mem_cons_self
      · rw [hcopy] at hl'
        exact List.mem_append_left _ (hdone i (.inr ⟨k, l', hl', hi⟩))
  · intro i hi
    rcases hi with hi | ⟨j, l, hl, _⟩
    · cases hi
    · cases hl

/-- No lineage has both calls in it. -/
def Apart (j k : Nat) (t : Shared (List Nat)) : Prop :=
  ¬ (j ∈ t.content ∧ k ∈ t.content) ∧
    ∀ i l, t.copy i = some l → ¬ (j ∈ l ∧ k ∈ l)

theorem apart_step {j k : Nat} {t t' : Shared (List Nat)} {e : Access}
    (ht : Apart j k t) (h : accessStep noteCall t e = some t')
    (hj : e ≠ .write j) (hk : e ≠ .write k) : Apart j k t' := by
  obtain ⟨hcontent, hcopies⟩ := ht
  rcases accessStep_cases h with ⟨i, rfl, hsame, hcopy⟩ |
    ⟨i, l, rfl, hl, hedit, hcopy⟩
  · refine ⟨by rwa [hsame], fun m l hm => ?_⟩
    rw [hcopy] at hm
    split at hm
    · obtain rfl := Option.some.inj hm
      exact hcontent
    · exact hcopies m l hm
  · refine ⟨?_, fun m l hm => hcopies m l (hcopy ▸ hm)⟩
    rw [← Option.some.inj hedit]
    simp only [List.mem_append, List.mem_singleton]
    intro hboth
    obtain ⟨hjl, hkl⟩ := hboth
    have hij : j ≠ i := fun heq => hj (heq ▸ rfl)
    have hik : k ≠ i := fun heq => hk (heq ▸ rfl)
    exact hcopies i l hl ⟨hjl.resolve_right hij, hkl.resolve_right hik⟩

theorem apart_of_run {j k : Nat} {t t' : Shared (List Nat)}
    {es : List Access} (h : AccessRun noteCall t es t') (ht : Apart j k t)
    (hj : .write j ∉ es) (hk : .write k ∉ es) : Apart j k t' := by
  induction h with
  | nil t => exact ht
  | cons hstep _ ih =>
      rw [List.mem_cons, not_or] at hj hk
      have hnext := apart_step ht hstep (Ne.symm hj.1) (Ne.symm hk.1)
      exact ih hnext hj.2 hk.2

/-- A call that comes into no lineage before it writes leaves the calls apart
if the copy it writes lacks the other one. -/
theorem apart_of_write {j k : Nat} {t t' : Shared (List Nat)} {l : List Nat}
    (h : accessStep noteCall t (.write k) = some t')
    (hcopy : t.copy k = some l) (hj : j ∉ l) (hne : j ≠ k)
    (hk : ¬ Noted t k) : Apart j k t' := by
  rcases accessStep_cases h with ⟨i, heq, _⟩ | ⟨i, l', heq, hl, hedit, hsame⟩
  · cases heq
  · obtain rfl := Access.write.inj heq
    obtain rfl := Option.some.inj (hcopy.symm.trans hl)
    refine ⟨fun hboth => ?_, fun m l hm hboth => ?_⟩
    · rw [← Option.some.inj hedit, List.mem_append, List.mem_singleton]
        at hboth
      rcases hboth.1 with hmem | heq
      · exact hj hmem
      · exact hne heq
    · rw [hsame] at hm
      exact hk (.inr ⟨m, l, hm, hboth.2⟩)

/-- A read copies the content. -/
theorem copy_of_read {s s' : Shared σ} {i : Nat}
    (h : accessStep edit s (.read i) = some s') :
    s'.copy i = some s.content := by
  rcases accessStep_cases h with ⟨j, heq, _, hcopy⟩ | ⟨j, _, heq, _⟩
  · obtain rfl := Access.read.inj heq
    rw [hcopy, if_pos rfl]
  · cases heq

/-- A copy stays as it is until its call reads again. -/
theorem copy_of_run {s s' : Shared σ} {es : List Access} {i : Nat}
    (h : AccessRun edit s es s') (hread : .read i ∉ es) :
    s'.copy i = s.copy i := by
  induction h with
  | nil s => rfl
  | @cons s t s' e es hstep hrest ih =>
      rw [List.mem_cons, not_or] at hread
      rw [ih hread.2]
      rcases accessStep_cases hstep with ⟨j, rfl, _, hcopy⟩ |
        ⟨j, _, rfl, _, _, hcopy⟩
      · have hij : i ≠ j := fun heq => hread.1 (by rw [heq])
        rw [hcopy, if_neg hij]
      · rw [hcopy]

/-- Where a write falls between a call's read and its own, the lineage at the
end misses one of the two calls. -/
theorem not_both_in_lineage {pre mid post : List Access} {j k : Nat}
    {t : Shared (List Nat)}
    (h : AccessRun noteCall (.start [])
      (pre ++ .read k :: (mid ++ .write k :: post)) t)
    (hnodup : (pre ++ .read k :: (mid ++ .write k :: post)).Nodup)
    (hj : .write j ∈ mid) : ¬ (j ∈ t.content ∧ k ∈ t.content) := by
  have hdisj := (List.nodup_append.1 hnodup).2.2
  have hrest := (List.nodup_append.1 hnodup).2.1
  rw [List.nodup_cons] at hrest
  obtain ⟨hread, hrest⟩ := hrest
  have hmid := (List.nodup_append.1 hrest).2.2
  have hpost := (List.nodup_append.1 hrest).2.1
  rw [List.nodup_cons] at hpost
  have hjpre : .write j ∉ pre := fun hmem =>
    hdisj _ hmem (.write j) (by simp [hj]) rfl
  have hkpre : .write k ∉ pre := fun hmem =>
    hdisj _ hmem (.write k) (by simp) rfl
  have hkmid : .write k ∉ mid := fun hmem =>
    hmid _ hmem (.write k) List.mem_cons_self rfl
  have hjpost : .write j ∉ post := fun hmem =>
    hmid _ hj (.write j) (List.mem_cons_of_mem _ hmem) rfl
  have hne : j ≠ k := fun heq => hkmid (heq ▸ hj)
  -- The copy of `k` is read before `j` writes, and `k` writes it afterwards.
  obtain ⟨t₁, h₁, h⟩ := Run.append_inv h
  cases h with
  | @cons _ t₂ _ _ _ hread₂ h =>
      obtain ⟨t₃, h₃, h⟩ := Run.append_inv h
      cases h with
      | @cons _ t₄ _ _ _ hwrite₄ h₄ =>
          have hcopy : t₃.copy k = some t₁.content := by
            rw [copy_of_run h₃ fun hmem =>
              hread (List.mem_append_left _ hmem)]
            exact copy_of_read hread₂
          have hnoted : ¬ Noted t₃ k := by
            intro hk
            have hmem := write_of_noted
              (h₁.append (.cons hread₂ h₃)) hk
            rw [List.mem_append, List.mem_cons] at hmem
            rcases hmem with hmem | hmem | hmem
            · exact hkpre hmem
            · cases hmem
            · exact hkmid hmem
          have hbefore : j ∉ t₁.content := fun hmem =>
            hjpre (write_of_noted h₁ (.inl hmem))
          have happart := apart_of_write hwrite₄ hcopy hbefore hne hnoted
          exact (apart_of_run h₄ happart hjpost hpost.1).1

/-! ## Runs there are -/

/-- A schedule can be run to its end if no edit fails on what the calls make
of the content. -/
theorem exists_run {P : σ → Prop} {c : σ} {es : List Access}
    (hedit : ∀ i c, P c → ∃ c', edit i c = some c' ∧ P c') (hc : P c)
    (hread : ∀ pre i post, es = pre ++ .write i :: post → .read i ∈ pre) :
    ∃ s, AccessRun edit (.start c) es s := by
  have hfrom : ∀ (es done : List Access) (s : Shared σ),
      (∀ pre i post, done ++ es = pre ++ .write i :: post → .read i ∈ pre) →
      P s.content → (∀ i, .read i ∈ done → ∃ c, s.copy i = some c ∧ P c) →
      ∃ s', AccessRun edit s es s' := by
    intro es
    induction es with
    | nil => intro done s _ _ _; exact ⟨s, .nil s⟩
    | cons e es ih =>
        intro done s hread hs hcopies
        cases e with
        | read i =>
            obtain ⟨s', hs'⟩ := ih (done ++ [.read i])
              { s with
                copy := fun j => if j = i then some s.content else s.copy j }
              (by simpa using hread) hs (by
                intro j hj
                show ∃ c, (if j = i then some s.content else s.copy j) =
                  some c ∧ P c
                split
                · exact ⟨s.content, rfl, hs⟩
                · next hji =>
                    rw [List.mem_append, List.mem_singleton] at hj
                    rcases hj with hj | hj
                    · exact hcopies j hj
                    · exact absurd (Access.read.inj hj) hji)
            exact ⟨s', .cons rfl hs'⟩
        | write i =>
            obtain ⟨copy, hcopy, hP⟩ := hcopies i (hread done i es rfl)
            obtain ⟨c', hc', hP'⟩ := hedit i copy hP
            have hstep : accessStep edit s (.write i) =
                some { s with content := c' } := by
              rw [accessStep, hcopy]
              simp [hc']
            obtain ⟨s', hs'⟩ := ih (done ++ [.write i])
              { s with content := c' } (by simpa using hread) hP' (by
                intro j hj
                rw [List.mem_append, List.mem_singleton] at hj
                rcases hj with hj | hj
                · exact hcopies j hj
                · cases hj)
            exact ⟨s', .cons hstep hs'⟩
  exact hfrom es [] (.start c) hread hc fun i hi => absurd hi List.not_mem_nil

end IotHome.Lib
