import IotHome.Proofs.HttpFailure

/-!
# The listeners for uncaught exceptions

A request that can be opened installs a listener, and only an uncaught
exception takes it off, together with all others. So from when the request is
made there either is an exception or the listener is still there (`History`),
and a listener belongs to a request that is pending in every state of a run
exactly when each request that settles in it has seen an exception by then
(`listeners_pending_iff`).
-/

namespace IotHome.Server

open IotHome.Lib

/-- The listeners are those of pending requests, so with no request pending
an exception ends the process. -/
structure ListenersPending (node : Node) (p : Process) : Prop where
  pending : ∀ id ∈ p.listeners, p.IsPending id
  exits : p.exited = false → (∀ id, ¬ p.IsPending id) → ∀ error,
    ∃ p', p.step node (.uncaught error) = some p' ∧ p'.exited = true

/-- An exception was raised since the request was made. -/
def RaisedSince (events : List ProcessEvent) (id : Nat) : Prop :=
  ∃ before opts after error,
    events = before ++ .request id opts :: after ∧ .uncaught error ∈ after

abbrev ProcessStep (node : Node) (p : Process) (e : ProcessEvent)
    (p' : Process) : Prop := p.step node e = some p'

variable {node : Node}

theorem listenersPending_of_pending {p : Process}
    (h : ∀ id ∈ p.listeners, p.IsPending id) : ListenersPending node p := by
  refine ⟨h, fun hup hnone error => ⟨p.raise error, ?_, ?_⟩⟩
  · rw [Process.step, hup]
    rfl
  · have hnil : p.listeners = [] :=
      List.eq_nil_iff_forall_not_mem.2 fun id hid => hnone id (h id hid)
    rw [Process.raise, if_pos hnil]

/-! ## One step -/

/-- What a step does to the requests that are made and to the listeners. -/
inductive Effect (node : Node) (p p' : Process) : ProcessEvent → Prop where
  | opened (id : Nat) (opts : TRequestOpts) :
      p.requests id = none → openRequest node opts = .ok () →
      p' = { p.setRequest id .fresh with listeners := p.listeners ++ [id] } →
      Effect node p p' (.request id opts)
  | failed (id : Nat) (opts : TRequestOpts) (x : Exchange) :
      p.requests id = none → x.result.isPending = false →
      p' = p.setRequest id x → Effect node p p' (.request id opts)
  | moved (id : Nat) (e : ProcessEvent) (x y : Exchange) :
      p.requests id = some x → p' = p.setRequest id y →
      (∀ error, e ≠ .uncaught error) → (∀ i opts, e ≠ .request i opts) →
      (y.result.isPending = true → x.result.isPending = true) →
      Effect node p p' e
  | raised (error : HttpError) : p' = p.raise error →
      Effect node p p' (.uncaught error)

theorem reject_isPending {α : Type} {q : Promise α} {error : HttpError}
    (h : (q.reject error).isPending = true) : q.isPending = true := by
  cases q with
  | pending => rfl
  | resolved value => exact h
  | rejected error => exact h

theorem resolve_isPending {α : Type} {q : Promise α} {value : α}
    (h : (q.resolve value).isPending = true) : q.isPending = true := by
  cases q with
  | pending => rfl
  | resolved value => exact h
  | rejected error => exact h

theorem rejectStream_isPending {x : Exchange} {error : HttpError}
    (h : (x.rejectStream true error).result.isPending = true) :
    x.result.isPending = true := by
  rw [Exchange.rejectStream] at h
  split at h
  · exact reject_isPending h
  · exact h

theorem event_isPending {x : Exchange} {e : NetEvent}
    (h : (x.event node true e).result.isPending = true) :
    x.result.isPending = true := by
  cases e with
  | error error => exact rejectStream_isPending h
  | response => exact h
  | data chunk =>
      rw [Exchange.event] at h
      split at h
      · exact h
      · exact h
  | responseError error =>
      rw [Exchange.event] at h
      split at h
      · exact reject_isPending h
      · exact h
  | ended =>
      rw [Exchange.event] at h
      split at h
      · exact resolve_isPending h
      · exact h

theorem call_effect {p : Process} {id : Nat} {opts : TRequestOpts}
    (h : p.requests id = none) :
    Effect node p (p.call node id opts) (.request id opts) := by
  rw [Process.call]
  cases hopen : openRequest node opts with
  | ok u =>
      refine .opened id opts h hopen ?_
      rw [start_ok node hopen]
  | error error =>
      refine .failed id opts _ h ?_ rfl
      rw [start_error node hopen]
      rfl

theorem step_effect {p p' : Process} {e : ProcessEvent}
    (h : p.step node e = some p') : Effect node p p' e := by
  rw [Process.step.eq_def] at h
  split at h
  · cases h
  · cases e with
    | request id opts =>
        cases hid : p.requests id with
        | some x => simp [hid] at h
        | none =>
            have hcall : p.call node id opts = p' := by simpa [hid] using h
            rw [← hcall]
            exact call_effect hid
    | net id event =>
        obtain ⟨x, hx, rfl⟩ := Option.map_eq_some_iff.1 h
        exact .moved id _ x _ hx rfl (fun error heq => by cases heq)
          (fun i opts heq => by cases heq) event_isPending
    | timeout id =>
        obtain ⟨x, hx, rfl⟩ := Option.map_eq_some_iff.1 h
        exact .moved id _ x _ hx rfl (fun error heq => by cases heq)
          (fun i opts heq => by cases heq) rejectStream_isPending
    | uncaught error =>
        obtain rfl := Option.some.inj h
        exact .raised error rfl

/-- Only an exception that finds listeners rejects a request without an
event of its own, and it takes the listeners off. -/
theorem raise_listeners (p : Process) (error : HttpError) :
    (p.raise error).listeners = [] := by
  rw [Process.raise]
  split
  · next h => exact h
  · rfl

theorem raise_requests (p : Process) (error : HttpError) (id : Nat) :
    ((p.raise error).requests id).isSome = (p.requests id).isSome := by
  rw [Process.raise]
  split
  · rfl
  · dsimp only
    split
    · rw [Option.isSome_map]
    · rfl

/-! ## Along a run -/

theorem raisedSince_snoc {done : List ProcessEvent} {id : Nat}
    (h : RaisedSince done id) (e : ProcessEvent) :
    RaisedSince (done ++ [e]) id := by
  obtain ⟨before, opts, after, error, rfl, hmem⟩ := h
  exact ⟨before, opts, after ++ [e], error, by simp,
    List.mem_append_left _ hmem⟩

/-- A new exception counts for every request that was made. -/
theorem raisedSince_uncaught {done : List ProcessEvent} {id : Nat}
    {opts : TRequestOpts} (h : .request id opts ∈ done) (error : HttpError) :
    RaisedSince (done ++ [.uncaught error]) id := by
  obtain ⟨before, after, rfl⟩ := List.append_of_mem h
  exact ⟨before, opts, after ++ [.uncaught error], error, by simp, by simp⟩

theorem RaisedSince.made {done : List ProcessEvent} {id : Nat}
    (h : RaisedSince done id) : ∃ opts, .request id opts ∈ done := by
  obtain ⟨before, opts, after, error, rfl, _⟩ := h
  exact ⟨opts, by simp⟩

/-- With no exception last, it must have been raised before. -/
theorem raisedSince_of_snoc {done : List ProcessEvent} {id : Nat}
    {e : ProcessEvent} (h : RaisedSince (done ++ [e]) id)
    (he : ∀ error, e ≠ .uncaught error) : RaisedSince done id := by
  obtain ⟨before, opts, after, error, heq, hmem⟩ := h
  rcases List.eq_nil_or_concat after with rfl | ⟨after, last, rfl⟩
  · cases hmem
  · rw [List.concat_eq_append, ← List.cons_append, ← List.append_assoc] at heq
    obtain ⟨rfl, hlast⟩ := List.append_inj' heq rfl
    obtain rfl := List.singleton_inj.1 hlast
    rw [List.concat_eq_append, List.mem_append, List.mem_singleton] at hmem
    rcases hmem with hmem | rfl
    · exact ⟨before, opts, after, error, rfl, hmem⟩
    · exact absurd rfl (he error)

/-- What the events so far say of the requests and the listeners. -/
structure History (done : List ProcessEvent) (p : Process) : Prop where
  made : ∀ id, (p.requests id).isSome → ∃ opts, .request id opts ∈ done
  recorded : ∀ id opts, .request id opts ∈ done → (p.requests id).isSome
  installed : ∀ id, p.IsPending id → id ∈ p.listeners ∨ RaisedSince done id
  notRaised : ∀ id ∈ p.listeners, ¬ RaisedSince done id

theorem isPending_setRequest {p : Process} {id i : Nat} {x : Exchange} :
    (p.setRequest id x).IsPending i ↔
      if i = id then x.result.isPending = true else p.IsPending i := by
  by_cases h : i = id
  · simp [Process.IsPending, Process.setRequest, h]
  · simp [Process.IsPending, Process.setRequest, h]

theorem History.isSome_iff {done : List ProcessEvent} {p : Process}
    (h : History done p) (id : Nat) :
    (p.requests id).isSome ↔ ∃ opts, .request id opts ∈ done :=
  ⟨h.made id, fun ⟨opts, hmem⟩ => h.recorded id opts hmem⟩

/-- A step that makes no request and raises nothing. -/
theorem History.moved {done : List ProcessEvent} {p : Process} {id : Nat}
    {e : ProcessEvent} {x y : Exchange} (h : History done p)
    (hx : p.requests id = some x) (hraise : ∀ error, e ≠ .uncaught error)
    (hmake : ∀ i opts, e ≠ .request i opts)
    (hpending : y.result.isPending = true → x.result.isPending = true) :
    History (done ++ [e]) (p.setRequest id y) := by
  have hmem : ∀ i opts, .request i opts ∈ done ++ [e] ↔
      .request i opts ∈ done := by
    intro i opts
    simp [(hmake i opts).symm]
  have hsome : ∀ i, ((p.setRequest id y).requests i).isSome =
      (p.requests i).isSome := by
    intro i
    by_cases hi : i = id
    · simp [Process.setRequest, hi, hx]
    · simp [Process.setRequest, hi]
  refine ⟨fun i hi => ?_, fun i opts hi => ?_, fun i hi => ?_,
    fun i hi hsince => ?_⟩
  · rw [hsome] at hi
    simpa only [hmem] using h.made i hi
  · rw [hsome]
    exact h.recorded i opts ((hmem i opts).1 hi)
  · have hold : p.IsPending i := by
      rw [isPending_setRequest] at hi
      split at hi
      · next heq => exact ⟨x, heq ▸ hx, hpending hi⟩
      · exact hi
    exact (h.installed i hold).imp_right fun hs => raisedSince_snoc hs e
  · exact h.notRaised i hi (raisedSince_of_snoc hsince hraise)

/-- A request is made, with its listener or without. -/
theorem History.called {done : List ProcessEvent} {p p' : Process} {id : Nat}
    {opts : TRequestOpts} {x : Exchange} (h : History done p)
    (hnone : p.requests id = none)
    (hrequests : p'.requests = (p.setRequest id x).requests)
    (hlisteners : p'.listeners = p.listeners ++ [id] ∨
      (p'.listeners = p.listeners ∧ x.result.isPending = false)) :
    History (done ++ [.request id opts]) p' := by
  have hfresh : ¬ ∃ opts, .request id opts ∈ done := by
    rw [← h.isSome_iff, hnone]
    decide
  have hkept : ∀ i ∈ p.listeners, i ∈ p'.listeners := by
    intro i hi
    rcases hlisteners with hl | hl
    · rw [hl]
      exact List.mem_append_left _ hi
    · rwa [hl.1]
  refine ⟨fun i hi => ?_, fun i opts' hi => ?_, fun i hi => ?_,
    fun i hi hsince => ?_⟩
  · by_cases heq : i = id
    · exact ⟨opts, by simp [heq]⟩
    · rw [hrequests] at hi
      obtain ⟨opts', hmem⟩ := h.made i (by simpa [Process.setRequest, heq]
        using hi)
      exact ⟨opts', List.mem_append_left _ hmem⟩
  · rw [hrequests]
    by_cases heq : i = id
    · simp [Process.setRequest, heq]
    · have hmem : ProcessEvent.request i opts' ∈ done := by
        simpa [heq] using hi
      simpa [Process.setRequest, heq] using h.recorded i opts' hmem
  · have hi' : (p.setRequest id x).IsPending i := by
      rw [Process.IsPending, hrequests] at hi
      exact hi
    rw [isPending_setRequest] at hi'
    split at hi'
    · next heq =>
        rcases hlisteners with hl | hl
        · rw [hl, heq]
          exact .inl (List.mem_append_right _ List.mem_cons_self)
        · rw [hl.2] at hi'
          cases hi'
    · exact (h.installed i hi').imp (hkept i) fun hs => raisedSince_snoc hs _
  · have hsince := raisedSince_of_snoc hsince fun error heq => by cases heq
    have hmade := hsince.made
    have hne : i ≠ id := fun heq => hfresh (heq ▸ hmade)
    refine h.notRaised i ?_ hsince
    rcases hlisteners with hl | hl
    · rw [hl, List.mem_append, List.mem_singleton] at hi
      exact hi.resolve_right hne
    · rwa [hl.1] at hi

theorem History.step {done : List ProcessEvent} {p p' : Process}
    {e : ProcessEvent} (h : History done p) (he : Effect node p p' e) :
    History (done ++ [e]) p' := by
  cases he with
  | opened id opts hnone hopen hp' =>
      exact h.called hnone (x := .fresh) (by rw [hp']) (.inl (by rw [hp']))
  | failed id opts x hnone hx hp' =>
      exact h.called hnone (x := x) (by rw [hp']) (.inr ⟨by rw [hp']; rfl, hx⟩)
  | moved id e x y hx hp' hraise hmake hpending =>
      rw [hp']
      exact h.moved hx hraise hmake hpending
  | raised error hp' =>
      have hmem : ∀ i opts, ProcessEvent.request i opts ∈
          done ++ [.uncaught error] ↔ .request i opts ∈ done := by simp
      have hsome : ∀ i, (p'.requests i).isSome = (p.requests i).isSome :=
        fun i => by rw [hp', raise_requests]
      refine ⟨fun i hi => ?_, fun i opts hi => ?_, fun i hi => ?_,
        fun i hi => ?_⟩
      · rw [hsome] at hi
        simpa only [hmem] using h.made i hi
      · rw [hsome]
        exact h.recorded i opts ((hmem i opts).1 hi)
      · obtain ⟨x, hx, _⟩ := hi
        have hmade := h.made i (by rw [← hsome, hx]; rfl)
        obtain ⟨opts, hmem⟩ := hmade
        exact .inr (raisedSince_uncaught hmem error)
      · rw [hp', raise_listeners] at hi
        cases hi

theorem history_of_run {done : List ProcessEvent} {p : Process}
    (h : Run (ProcessStep node) .init done p) : History done p := by
  refine Run.history (P := History) (fun hp hs => hp.step (step_effect hs))
    ?_ h
  refine ⟨fun id hid => ?_, fun id opts hid => ?_, fun id hid => ?_,
    fun id hid => ?_⟩
  · cases hid
  · cases hid
  · obtain ⟨x, hx, _⟩ := hid
    cases hx
  · cases hid

/-! ## Whole runs -/

/-- The state after some of the events. -/
def ReachedBy (node : Node) (events : List ProcessEvent) (p : Process) :
    Prop :=
  ∃ after done, events = done ++ after ∧ Run (ProcessStep node) .init done p

/-- When a request settles, an exception has been raised since it was made,
if only the one that settles it. -/
def SettledAfterRaise (node : Node) (events : List ProcessEvent) : Prop :=
  ∀ done e after p p' id, events = done ++ e :: after →
    Run (ProcessStep node) .init done p → p.step node e = some p' →
    p.IsPending id → ¬ p'.IsPending id → RaisedSince (done ++ [e]) id

theorem effect_listeners {p p' : Process} {e : ProcessEvent}
    (h : Effect node p p' e) (he : ∀ error, e ≠ .uncaught error) :
    p.listeners <+: p'.listeners := by
  cases h with
  | opened id opts _ _ hp' => exact ⟨[id], by rw [hp']⟩
  | failed id opts x _ _ hp' => exact ⟨[], by rw [hp', List.append_nil]; rfl⟩
  | moved id e x y _ hp' _ _ _ =>
      exact ⟨[], by rw [hp', List.append_nil]; rfl⟩
  | raised error _ => exact absurd rfl (he error)

/-- A listener that a step leaves or installs is that of a pending request,
if the others were and no request has settled without an exception. -/
theorem pending_step {done : List ProcessEvent} {p p' : Process}
    {e : ProcessEvent} (hdone : History done p)
    (hstep : p.step node e = some p')
    (hp : ∀ id ∈ p.listeners, p.IsPending id)
    (hsettles : ∀ id, p.IsPending id → ¬ p'.IsPending id →
      RaisedSince (done ++ [e]) id) :
    ∀ id ∈ p'.listeners, p'.IsPending id := by
  intro id hid
  have heffect := step_effect hstep
  have hkept : id ∈ p.listeners → p'.IsPending id := by
    intro hold
    by_contra hnot
    exact (hdone.step heffect).notRaised id hid
      (hsettles id (hp id hold) hnot)
  cases heffect with
  | opened i opts hnone hopen hp' =>
      rw [hp', List.mem_append, List.mem_singleton] at hid
      rcases hid with hid | rfl
      · exact hkept hid
      · rw [hp']
        exact ⟨.fresh, by simp [Process.setRequest], rfl⟩
  | failed i opts x hnone hx hp' => exact hkept (by rw [hp'] at hid; exact hid)
  | moved i e x y hx hp' _ _ _ => exact hkept (by rw [hp'] at hid; exact hid)
  | raised error hp' =>
      rw [hp', raise_listeners] at hid
      cases hid

/-- The listeners are those of pending requests throughout a run exactly when
each request that settles in it has seen an exception by then. -/
theorem listeners_pending_iff (node : Node) (events : List ProcessEvent) :
    (∀ q, ReachedBy node events q → ListenersPending node q) ↔
      SettledAfterRaise node events := by
  constructor
  · intro hall done e after q q' id hevents hdone hstep hpending hsettled
    have hhistory := history_of_run hdone
    have hrun : Run (ProcessStep node) .init (done ++ [e]) q' :=
      hdone.append (.cons hstep (.nil q'))
    have hreached : ReachedBy node events q' :=
      ⟨after, done ++ [e], by rw [hevents]; simp, hrun⟩
    rcases hhistory.installed id hpending with hlistens | hsince
    · by_cases he : ∀ error, e ≠ .uncaught error
      · have hkept := (effect_listeners (step_effect hstep) he).subset hlistens
        exact absurd ((hall q' hreached).pending id hkept) hsettled
      · simp only [not_forall, not_not] at he
        obtain ⟨error, rfl⟩ := he
        obtain ⟨x, hx, _⟩ := hpending
        obtain ⟨opts, hmem⟩ := hhistory.made id (by rw [hx]; rfl)
        exact raisedSince_uncaught hmem error
    · exact raisedSince_snoc hsince e
  · intro hsettles q hq
    obtain ⟨after, done, hevents, hrun⟩ := hq
    refine listenersPending_of_pending ?_
    have hinv := Run.history (P := fun done q =>
        Run (ProcessStep node) .init done q ∧
          (done <+: events → ∀ id ∈ q.listeners, q.IsPending id))
      ?_ ⟨.nil _, fun _ id hid => by cases hid⟩ hrun
    · exact hinv.2 ⟨after, hevents.symm⟩
    · intro done q e q' hq hstep
      obtain ⟨hdone, hpending⟩ := hq
      refine ⟨hdone.append (.cons hstep (.nil q')), fun hpre => ?_⟩
      obtain ⟨rest, hrest⟩ := hpre
      rw [List.append_assoc, List.singleton_append] at hrest
      exact pending_step (history_of_run hdone) hstep
        (hpending ⟨_, hrest⟩)
        fun id => hsettles done e rest q q' id hrest.symm hdone hstep

/-- One request that is answered: its listener stays, and swallows the next
exception. -/
theorem listener_stays :
    ∃ (node : Node) (events : List ProcessEvent) (p : Process),
      Run (ProcessStep node) .init events p ∧ p.listeners = [0] ∧
      (∀ id, ¬ p.IsPending id) ∧
      ∀ error, ∃ p', p.step node (.uncaught error) = some p' ∧
        p'.exited = false := by
  have hrun := (@run_iff_foldlM_option _ _ (Process.step
    ⟨fun _ => .ok ⟨"http:", "192.168.0.7", "", "/api", ""⟩,
      fun _ _ => .ok (), fun _ => []⟩) .init _
    [.request 0 ⟨"http://192.168.0.7/api", .get⟩, .net 0 .response,
      .net 0 .ended]).1 rfl
  refine ⟨_, _, _, hrun, rfl, fun id hid => ?_, fun error => ⟨_, rfl, rfl⟩⟩
  obtain ⟨x, hx, hpending⟩ := hid
  obtain ⟨opts, hmem⟩ := (history_of_run hrun).made id (by rw [hx]; rfl)
  obtain rfl : id = 0 := by simp at hmem; exact hmem.1
  obtain rfl := Option.some.inj hx
  cases hpending

end IotHome.Server
