/-!
# Programs that act on something

A program that is not known, as what it does: it exits, or does an operation
and goes on with whatever came of it, which it may look at. An operation that
fails leaves what it acts on as it was. What every operation preserves holds
wherever the program exits (`Program.run_invariant`).
-/

namespace IotHome.Lib

variable {ω σ ε ρ : Type}

inductive Program (ω σ ε ρ : Type) where
  | exit (result : ρ)
  | act (op : ω) (next : Except ε σ → Program ω σ ε ρ)

namespace Program

/-- The result, and what the program leaves. -/
def run (handle : ω → σ → Except ε σ) : Program ω σ ε ρ → σ → ρ × σ
  | .exit result, s => (result, s)
  | .act op next, s =>
      match handle op s with
      | .ok s' => run handle (next (.ok s')) s'
      | .error e => run handle (next (.error e)) s

theorem run_invariant {handle : ω → σ → Except ε σ} {P : σ → Prop}
    (hstep : ∀ {op s s'}, handle op s = .ok s' → P s → P s')
    (p : Program ω σ ε ρ) : ∀ {s}, P s → P (p.run handle s).2 := by
  induction p with
  | exit result =>
      intro s hs
      exact hs
  | act op next ih =>
      intro s hs
      rw [run]
      cases hop : handle op s with
      | ok s' => exact ih (.ok s') (hstep hop hs)
      | error e => exact ih (.error e) hs

end Program

end IotHome.Lib
