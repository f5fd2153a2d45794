import IotHome.Lib.Runs
import Mathlib.Data.Option.Basic

/-!
# The browsers at the home page

What `HomePage` of either server does with the front-end sockets: it keeps
the one that connected last, and sends everything to that one. Nothing is
done when a socket closes, so a closed one stays; what is sent to it is lost.
-/

namespace IotHome.Server

open IotHome.Lib

/-- Something that was sent, and the socket it went out on. -/
structure FeMessage (μ : Type) where
  content : μ
  receiver : Option Nat

/-- The sockets in the order in which they connected, each open or closed. -/
structure FrontEnd (μ : Type) where
  sockets : List Bool
  feWs : Option Nat
  sent : List (FeMessage μ)

variable {μ : Type}

def FrontEnd.empty : FrontEnd μ := ⟨[], none, []⟩

def FrontEnd.isOpen (f : FrontEnd μ) (socket : Nat) : Prop :=
  f.sockets[socket]? = some true

instance (f : FrontEnd μ) (socket : Nat) : Decidable (f.isOpen socket) :=
  inferInstanceAs (Decidable (_ = _))

/-- `this._feWs = ws`. -/
def FrontEnd.connect (f : FrontEnd μ) : FrontEnd μ :=
  { f with
    sockets := f.sockets ++ [true]
    feWs := some f.sockets.length }

def FrontEnd.close (f : FrontEnd μ) (socket : Nat) : FrontEnd μ :=
  { f with sockets := f.sockets.set socket false }

/-- `this._feWs?.send(…)`. -/
def FrontEnd.send (f : FrontEnd μ) (content : μ) : FrontEnd μ :=
  { f with
    sent := f.sent ++ [⟨content, f.feWs.filter fun k => f.isOpen k⟩] }

/-- Nothing is sent. -/
inductive FrontEnd.Quiet (f : FrontEnd μ) : FrontEnd μ → Prop where
  | same : f.Quiet f
  | connect : f.Quiet f.connect
  | close (socket : Nat) : f.Quiet (f.close socket)

/-! ## The socket that is kept -/

/-- The socket that is kept is the last one. -/
def FrontEnd.KeepsLast (f : FrontEnd μ) : Prop :=
  ∀ k, f.feWs = some k ↔ k + 1 = f.sockets.length

theorem FrontEnd.keepsLast_empty : (FrontEnd.empty : FrontEnd μ).KeepsLast := by
  intro k
  simp [empty]

theorem FrontEnd.KeepsLast.quiet {f f' : FrontEnd μ} (h : f.KeepsLast)
    (hquiet : f.Quiet f') : f'.KeepsLast := by
  cases hquiet with
  | same => exact h
  | connect =>
      intro k
      simp [FrontEnd.connect, eq_comm]
  | close socket =>
      intro k
      rw [FrontEnd.close, List.length_set]
      exact h k

theorem FrontEnd.KeepsLast.send {f : FrontEnd μ} (h : f.KeepsLast)
    (content : μ) : (f.send content).KeepsLast := h

/-! ## Who gets what is sent -/

/-- What has been sent since. -/
def FrontEnd.sentSince (f f' : FrontEnd μ) : List (FeMessage μ) :=
  f'.sent.drop f.sent.length

/-- What has been sent since went to every socket that was open. -/
def FrontEnd.ReachesAll (f f' : FrontEnd μ) : Prop :=
  ∀ m ∈ f.sentSince f', ∀ k, f.isOpen k →
    ∃ m' ∈ f.sentSince f', m'.content = m.content ∧ m'.receiver = some k

/-- No socket is open but the one that connected last. -/
def FrontEnd.OnlyLastOpen (f : FrontEnd μ) : Prop :=
  ∀ k, f.isOpen k → k + 1 = f.sockets.length

theorem FrontEnd.Quiet.sent_eq {f f' : FrontEnd μ} (h : f.Quiet f') :
    f'.sent = f.sent := by
  cases h with
  | same => rfl
  | connect => rfl
  | close socket => rfl

/-- What is sent goes to every open socket just if only the last one is
open. -/
theorem FrontEnd.KeepsLast.reachesAll_iff {f : FrontEnd μ} (h : f.KeepsLast)
    (content : μ) : f.ReachesAll (f.send content) ↔ f.OnlyLastOpen := by
  have hsent : f.sentSince (f.send content) =
      [⟨content, f.feWs.filter fun k => f.isOpen k⟩] := by
    simp [sentSince, FrontEnd.send]
  rw [ReachesAll, hsent, OnlyLastOpen]
  simp only [List.mem_singleton, forall_eq, exists_eq_left, true_and]
  refine forall₂_congr fun k hk => ?_
  rw [← h k]
  simp [hk]

/-! ## Systems with a front end -/

section

variable {σ α : Type} {step : σ → α → σ → Prop} (fe : σ → FrontEnd μ)
  (forwards : σ → α → Prop)
  (hquiet : ∀ s a s', step s a s' → ¬ forwards s a → (fe s).Quiet (fe s'))
  (hsend : ∀ s a s', step s a s' → forwards s a →
    ∃ content, fe s' = (fe s).send content)

include hquiet hsend

theorem keepsLast_of_run {s t : σ} {as : List α} (hinit : fe s = .empty)
    (h : Run step s as t) : (fe t).KeepsLast := by
  refine h.invariant (P := fun s => (fe s).KeepsLast)
    (fun {s a s'} hs ha => ?_) ?_
  · by_cases hforwards : forwards s a
    · obtain ⟨content, heq⟩ := hsend s a s' ha hforwards
      rw [heq]
      exact hs.send content
    · exact hs.quiet (hquiet s a s' ha hforwards)
  · rw [hinit]
    exact FrontEnd.keepsLast_empty

/-- Every step of a run sends to all just if no step that forwards something
has a socket open but the last. -/
theorem reachesAll_iff_of_run {s t t' : σ} {as : List α} {a : α}
    (hinit : fe s = .empty) (h : StepOf step s as t a t') :
    (fe t).ReachesAll (fe t') ↔ (forwards t a → (fe t).OnlyLastOpen) := by
  obtain ⟨before, _, _, hrun, ha⟩ := h
  by_cases hforwards : forwards t a
  · obtain ⟨content, heq⟩ := hsend t a t' ha hforwards
    have hlast := keepsLast_of_run fe forwards hquiet hsend hinit hrun
    rw [heq, hlast.reachesAll_iff]
    exact ⟨fun h _ => h, fun h => h hforwards⟩
  · refine iff_of_true (fun m hm => ?_) fun h => absurd h hforwards
    rw [FrontEnd.sentSince, (hquiet t a t' ha hforwards).sent_eq,
      List.drop_length] at hm
    cases hm

end

end IotHome.Server
