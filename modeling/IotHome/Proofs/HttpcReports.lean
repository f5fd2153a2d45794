import IotHome.Proofs.HttpcLifecycle

/-!
# What the HTTP client reports

`result_fn` is called once for each request that has been started, and for no
other: a block in memory has a number that has not been reported, and what is
reported is no longer in memory. As a request is only forgotten with a
report, and each one in memory can still be called back for, none is lost;
and as each poll takes a tick off the thirty, and only what is given to
`body_fn` puts them back, none goes on for longer than that without any.
-/

namespace IotHome.Firmware

open IotHome.Lib

section

variable {c c' : LwipClient} {a q : Addr} {b b' : HttpcBlock}
  {pcb pcb' : HttpcPcb}

/-! ## The reports -/

/-- The requests that have been started are those that have been reported,
each once, and those that are in memory. -/
structure LwipClient.Numbered (c : LwipClient) : Prop where
  results_lt : ∀ n ∈ c.results.map HttpcReport.arg, n < c.started
  results_nodup : (c.results.map HttpcReport.arg).Nodup
  unreported : ∀ a b, c.block a = some b → c.starting ≠ some a →
    b.callbackArg < c.started ∧
      b.callbackArg ∉ c.results.map HttpcReport.arg
  starting_arg : ∀ a b, c.block a = some b → c.starting = some a →
    b.callbackArg = c.started
  inj : ∀ a a' b b', c.block a = some b → c.block a' = some b' →
    b.callbackArg = b'.callbackArg → a = a'
  covered : ∀ n, n < c.started → n ∈ c.results.map HttpcReport.arg ∨
    ∃ a b, c.block a = some b ∧ c.starting ≠ some a ∧ b.callbackArg = n

theorem LwipClient.start_numbered : LwipClient.start.Numbered where
  results_lt _ h := nomatch h
  results_nodup := .nil
  unreported _ _ h := nomatch h
  starting_arg _ _ h := nomatch h
  inj _ _ _ _ h := nomatch h
  covered _ h := absurd h (Nat.not_lt_zero _)

theorem LwipEvent.after_callbackArg (e : LwipEvent) (b : HttpcBlock) :
    (e.after b).callbackArg = b.callbackArg := by
  cases e <;> rfl

theorem LwipEvent.report_arg (e : LwipEvent) (b : HttpcBlock) :
    (e.report b).arg = b.callbackArg := rfl

theorem LwipClient.Numbered.withNew (h : c.Numbered)
    (hnone : c.starting = none) (ha : c.block a = none) {p : Addr} :
    (c.withNew a p q).Numbered := by
  have hblock : ∀ x b, (c.withNew a p q).block x = some b ↔
      x = a ∧ b = newBlock p q c.started ∨ x ≠ a ∧ c.block x = some b := by
    intro x b
    by_cases hx : x = a
    · simp [LwipClient.withNew, hx, eq_comm]
    · simp [LwipClient.withNew, hx]
  have hold : ∀ x b, c.block x = some b → b.callbackArg < c.started :=
    fun x b hx => (h.unreported x b hx (by simp [hnone])).1
  refine ⟨h.results_lt, h.results_nodup, ?_, ?_, ?_, ?_⟩
  · intro x b hx hstarting
    rcases (hblock x b).1 hx with ⟨rfl, rfl⟩ | ⟨_, hx⟩
    · exact absurd rfl hstarting
    · exact h.unreported x b hx (by simp [hnone])
  · intro x b hx hstarting
    rcases (hblock x b).1 hx with ⟨rfl, rfl⟩ | ⟨hne, _⟩
    · rfl
    · exact absurd (Option.some.inj hstarting).symm hne
  · intro x x' b b' hx hx' harg
    rcases (hblock x b).1 hx with ⟨rfl, rfl⟩ | ⟨_, hx₀⟩ <;>
      rcases (hblock x' b').1 hx' with ⟨rfl, rfl⟩ | ⟨_, hx₀'⟩
    · rfl
    · exact absurd harg.symm (Nat.ne_of_lt (hold x' b' hx₀'))
    · exact absurd harg (Nat.ne_of_lt (hold x b hx₀))
    · exact h.inj x x' b b' hx₀ hx₀' harg
  · intro n hn
    rcases h.covered n hn with hreported | ⟨x, b, hx, _, harg⟩
    · exact .inl hreported
    · have hne : x ≠ a := by
        intro heq
        rw [heq, ha] at hx
        cases hx
      exact .inr ⟨x, b, (hblock x b).2 (.inr ⟨hne, hx⟩),
        fun hs => hne (Option.some.inj hs).symm, harg⟩

/-- A request that has not been started goes without a report. -/
theorem LwipClient.Numbered.dropped (h : c.Numbered)
    (hstarting : c.starting = some a) {aborted : List Addr} :
    LwipClient.Numbered { c.without a b q with aborted } := by
  have hnone : (c.without a b q).starting = none := by
    simp [LwipClient.without, hstarting]
  have hold : ∀ x, x ≠ a → c.starting ≠ some x :=
    fun x hx hs => hx (Option.some.inj (hs.symm.trans hstarting))
  have hall : ∀ x b', (c.without a b q).block x = some b' →
      x ≠ a ∧ c.block x = some b' := fun x b' hx => (without_block b q).1 hx
  refine ⟨h.results_lt, h.results_nodup, ?_, ?_, ?_, ?_⟩
  · intro x b' hx _
    obtain ⟨hne, hx⟩ := hall x b' hx
    exact h.unreported x b' hx (hold x hne)
  · intro x b' hx hs
    exact absurd (hnone.symm.trans hs) (by simp)
  · intro x x' b₁ b₂ hx hx'
    exact h.inj x x' b₁ b₂ (hall x b₁ hx).2 (hall x' b₂ hx').2
  · intro n hn
    refine (h.covered n hn).imp_right fun hfound => ?_
    obtain ⟨x, b', hx, hs, harg⟩ := hfound
    have hne : x ≠ a := fun heq => hs (heq ▸ hstarting)
    exact ⟨x, b', (without_block b q).2 ⟨hne, hx⟩,
      by simp [hnone], harg⟩

/-- A request that has ended is reported. -/
theorem LwipClient.Numbered.ended (h : c.Numbered) (hu : c.InUse a b q pcb)
    (hstarting : c.starting ≠ some a) {report : HttpcReport} {closes : Bool}
    (harg : report.arg = b.callbackArg) :
    (c.ended a b q report closes).Numbered := by
  have hmap : (c.ended a b q report closes).results.map HttpcReport.arg =
      c.results.map HttpcReport.arg ++ [b.callbackArg] := by
    simp [LwipClient.ended, harg]
  have hs : ∀ x, (c.ended a b q report closes).starting = some x ↔
      c.starting = some x := by
    intro x
    simp [LwipClient.ended, LwipClient.without, hstarting]
  have hall : ∀ x b', (c.without a b q).block x = some b' →
      x ≠ a ∧ c.block x = some b' := fun x b' hx => (without_block b q).1 hx
  obtain ⟨hlt, hnew⟩ := h.unreported a b hu.block_eq hstarting
  refine ⟨?_, ?_, ?_, ?_, ?_, ?_⟩
  · intro n hn
    rw [hmap] at hn
    rcases List.mem_append.1 hn with hold | hlast
    · exact h.results_lt n hold
    · exact (List.mem_singleton.1 hlast) ▸ hlt
  · rw [hmap]
    exact List.nodup_append.2 ⟨h.results_nodup, List.pairwise_singleton _ _,
      fun x hx y hy heq => hnew (List.mem_singleton.1 hy ▸ heq ▸ hx)⟩
  · intro x b' hx hsx
    obtain ⟨hne, hx⟩ := hall x b' hx
    obtain ⟨hlt', hnot⟩ := h.unreported x b' hx (mt (hs x).2 hsx)
    refine ⟨hlt', ?_⟩
    rw [hmap]
    intro hmem
    rcases List.mem_append.1 hmem with hold | hlast
    · exact hnot hold
    · exact hne (h.inj x a b' b hx hu.block_eq (List.mem_singleton.1 hlast))
  · intro x b' hx hsx
    exact h.starting_arg x b' (hall x b' hx).2 ((hs x).1 hsx)
  · intro x x' b₁ b₂ hx hx'
    exact h.inj x x' b₁ b₂ (hall x b₁ hx).2 (hall x' b₂ hx').2
  · intro n hn
    rw [hmap]
    rcases h.covered n hn with hold | ⟨x, b', hx, hsx, rfl⟩
    · exact .inl (List.mem_append_left _ hold)
    · by_cases hxa : x = a
      · subst hxa
        obtain rfl := Option.some.inj (hx.symm.trans hu.block_eq)
        exact .inl (List.mem_append_right _ List.mem_cons_self)
      · exact .inr ⟨x, b', (without_block b q).2 ⟨hxa, hx⟩,
          mt (hs x).1 hsx, rfl⟩

/-- A request that goes on is not reported, and is started if it was not. -/
theorem LwipClient.Numbered.change (h : c.Numbered) (hu : c.InUse a b q pcb)
    (hc : Changes c c' a b b' q pcb') (harg : b'.callbackArg = b.callbackArg)
    (hstarting : c'.starting ≠ some a)
    (hstarted : c'.started =
      if c.starting = some a then c.started + 1 else c.started)
    (hresults : c'.results = c.results) : c'.Numbered := by
  have hblock : ∀ x b₁, c'.block x = some b₁ → ∃ b₀, c.block x = some b₀ ∧
      b₀.callbackArg = b₁.callbackArg := by
    intro x b₁ hx
    by_cases hxa : x = a
    · subst hxa
      obtain rfl := Option.some.inj (hx.symm.trans hc.inUse.block_eq)
      exact ⟨b, hu.block_eq, harg.symm⟩
    · exact ⟨b₁, hc.block x hxa ▸ hx, rfl⟩
  have hle : c.started ≤ c'.started := by
    rw [hstarted]
    split
    · exact Nat.le_succ _
    · exact Nat.le_refl _
  refine ⟨?_, hresults ▸ h.results_nodup, ?_, ?_, ?_, ?_⟩
  · intro n hn
    rw [hresults] at hn
    exact Nat.lt_of_lt_of_le (h.results_lt n hn) hle
  · intro x b₁ hx hs
    obtain ⟨b₀, hx₀, harg₀⟩ := hblock x b₁ hx
    rw [hresults, ← harg₀]
    by_cases hxa : c.starting = some x
    · -- It has been started now, and has the number after all others.
      have hnum := h.starting_arg x b₀ hx₀ hxa
      have hxa' : x = a := by
        by_cases hne : x = a
        · exact hne
        · exact absurd ((hc.starting x hne).2 hxa) hs
      rw [hnum, hstarted, if_pos (hxa' ▸ hxa)]
      exact ⟨Nat.lt_succ_self _,
        fun hmem => absurd (h.results_lt _ hmem) (Nat.lt_irrefl _)⟩
    · obtain ⟨hlt, hnot⟩ := h.unreported x b₀ hx₀ hxa
      exact ⟨Nat.lt_of_lt_of_le hlt hle, hnot⟩
  · intro x b₁ hx hs
    obtain ⟨b₀, hx₀, harg₀⟩ := hblock x b₁ hx
    have hne : x ≠ a := fun heq => hstarting (heq ▸ hs)
    have hs₀ := (hc.starting x hne).1 hs
    have hnot : c.starting ≠ some a :=
      fun ha => hne (Option.some.inj (hs₀.symm.trans ha))
    rw [hstarted, if_neg hnot, ← harg₀]
    exact h.starting_arg x b₀ hx₀ hs₀
  · intro x x' b₁ b₂ hx hx' heq
    obtain ⟨b₁', h₁, harg₁⟩ := hblock x b₁ hx
    obtain ⟨b₂', h₂, harg₂⟩ := hblock x' b₂ hx'
    exact h.inj x x' b₁' b₂' h₁ h₂ (harg₁.trans (heq.trans harg₂.symm))
  · intro n hn
    rw [hresults]
    have hcase : n < c.started ∨ c.starting = some a ∧ n = c.started := by
      rw [hstarted] at hn
      split at hn
      · next hs =>
          rcases Nat.lt_succ_iff_lt_or_eq.1 hn with hlt | heq
          · exact .inl hlt
          · exact .inr ⟨hs, heq⟩
      · exact .inl hn
    rcases hcase with hlt | ⟨hs, rfl⟩
    · refine (h.covered n hlt).imp_right ?_
      intro ⟨x, b₀, hx, hsx, harg₀⟩
      by_cases hxa : x = a
      · subst hxa
        obtain rfl := Option.some.inj (hx.symm.trans hu.block_eq)
        exact ⟨x, b', hc.inUse.block_eq, hstarting, harg.trans harg₀⟩
      · exact ⟨x, b₀, (hc.block x hxa).trans hx,
          mt (hc.starting x hxa).1 hsx, harg₀⟩
    · exact .inr ⟨a, b', hc.inUse.block_eq, hstarting,
        harg.trans (h.starting_arg a b hu.block_eq hs)⟩

theorem LwipClient.Numbered.effect {e : LwipEvent} {err : LwipErr}
    (h : c.Numbered) (heffect : Effect c e c' err) : c'.Numbered := by
  cases heffect with
  | refused i err aborted =>
      exact ⟨h.results_lt, h.results_nodup, h.unreported, h.starting_arg,
        h.inj, h.covered⟩
  | taken i a p q he hnone ha hp hq => exact h.withNew hnone ha
  | dropped a b q pcb lookup closes err he hstarting hu =>
      exact h.dropped hstarting
  | changed c' a b q pcb pcb' he hu hc hstarting hstarted hresults =>
      exact h.change hu hc (e.after_callbackArg b) hstarting hstarted hresults
  | ended a b q pcb closes he hu hstarting =>
      exact h.ended hu hstarting (e.report_arg b)

/-- A request that is started and not reported can be ended by lwIP. -/
theorem LwipClient.Ok.can_end (h : c.Ok) (hb : c.block a = some b)
    (hstarting : c.starting ≠ some a) :
    ∃ e q err, lwipStep c e =
      some (.ok (c.ended a b q (e.report b) true, err)) := by
  obtain ⟨q, pcb, hu⟩ := h.inUse a b hb
  by_cases hphase : pcb.phase = .fresh
  · have hwait := (h.fresh q pcb hu.live).1 hphase
    rw [hu.arg_eq] at hwait
    have hmem : a ∈ c.dns := hwait.resolve_right hstarting
    refine ⟨.dnsFound a none true, q, .ok, ?_⟩
    rw [lwipStep, if_pos hmem]
    exact congrArg some (h.dns_close hu hmem)
  · refine ⟨.error q .network, q, .ok, ?_⟩
    rw [lwipStep_callback rfl, hu.live]
    have hmay : decide (pcb.phase ≠ .fresh) = true := decide_eq_true hphase
    simp only [Option.bind_some, hmay, if_true, LwipClient.callback]
    rw [hu.arg_eq, tcpErr_eq h hu hphase]

end

theorem LwipRun.numbered {es : List LwipEvent} {c : LwipClient}
    (h : LwipRun es c) : c.Ok ∧ c.Numbered := by
  refine Run.invariant (P := fun c => c.Ok ∧ c.Numbered) ?_
    ⟨LwipClient.start_ok, LwipClient.start_numbered⟩ h
  intro c e c' ⟨hok, hnum⟩ hstep
  obtain ⟨err, heffect⟩ := hok.effect_of_step hstep
  exact ⟨hok.effect heffect, hnum.effect heffect⟩

/-- The request that has the number `n` has been started, and is in memory. -/
def LwipClient.InFlight (c : LwipClient) (n : Nat) : Prop :=
  ∃ a b, c.block a = some b ∧ c.starting ≠ some a ∧ b.callbackArg = n

/-- Of the requests that have been started, each has been reported or is in
memory, and not both; none has been reported twice, and no two in memory are
the same; and each one in memory can still be called back for and reported. -/
theorem lwip_run_reports {es : List LwipEvent} {c : LwipClient}
    (h : LwipRun es c) :
    (∀ n, n < c.started ↔
      n ∈ c.results.map HttpcReport.arg ∨ c.InFlight n) ∧
      (∀ n, c.InFlight n → n ∉ c.results.map HttpcReport.arg) ∧
      (c.results.map HttpcReport.arg).Nodup ∧
      (∀ a a' b b', c.block a = some b → c.block a' = some b' →
        b.callbackArg = b'.callbackArg → a = a') ∧
      ∀ n, c.InFlight n → ∃ e c' err report,
        lwipStep c e = some (.ok (c', err)) ∧
          c'.results = c.results ++ [report] ∧ report.arg = n := by
  obtain ⟨hok, hnum⟩ := h.numbered
  refine ⟨fun n => ⟨hnum.covered n, ?_⟩, ?_, hnum.results_nodup, hnum.inj, ?_⟩
  · intro hn
    rcases hn with hreported | ⟨a, b, hb, hs, rfl⟩
    · exact hnum.results_lt n hreported
    · exact (hnum.unreported a b hb hs).1
  · intro n ⟨a, b, hb, hs, hn⟩
    exact hn ▸ (hnum.unreported a b hb hs).2
  · intro n ⟨a, b, hb, hs, hn⟩
    obtain ⟨e, q, err, hstep⟩ := hok.can_end hb hs
    exact ⟨e, _, err, e.report b, hstep, rfl, (e.report_arg b).trans hn⟩

/-- Such a run: of three requests, the first is answered, the second does
not connect and the third is waited for. -/
theorem lwip_run_reports_three : ∃ c,
    LwipRun [.init ⟨100, 100, some 8, some (16, false), some 8, true⟩,
      .start (.known true) true, .connected 8 true true, .closed 8 false,
      .init ⟨100, 100, some 8, some (16, false), some 8, true⟩,
      .start (.known true) true, .error 8 .network,
      .init ⟨100, 100, some 8, some (16, false), some 8, true⟩,
      .start .inProgress true] c ∧
    ∀ n, n < 3 ↔ n ∈ c.results.map HttpcReport.arg ∨ c.InFlight n := by
  have hrun : ∃ c, LwipRun
      [.init ⟨100, 100, some 8, some (16, false), some 8, true⟩,
        .start (.known true) true, .connected 8 true true, .closed 8 false,
        .init ⟨100, 100, some 8, some (16, false), some 8, true⟩,
        .start (.known true) true, .error 8 .network,
        .init ⟨100, 100, some 8, some (16, false), some 8, true⟩,
        .start .inProgress true] c ∧ c.started = 3 :=
    ⟨_, run_iff_foldlM_option.1 rfl, rfl⟩
  obtain ⟨c, hrun, hstarted⟩ := hrun
  have hreports := (lwip_run_reports hrun).1
  rw [hstarted] at hreports
  exact ⟨c, hrun, hreports⟩

/-! ## The time-out -/

def LwipEvent.isPoll (q : Addr) : LwipEvent → Bool
  | .poll q' _ => q' = q
  | _ => false

/-- The request `n` is in memory, with the pcb `q`, and has no more than this
many ticks left. -/
def LwipClient.HasTicks (c : LwipClient) (n : Nat) (q : Addr)
    (ticks : Nat) : Prop :=
  ∃ a b, c.block a = some b ∧ c.starting ≠ some a ∧ b.callbackArg = n ∧
    b.pcb = some q ∧ b.timeoutTicks ≤ ticks

/-- An event has something given to the `body_fn` of the request `n`. -/
def LwipClient.GivesBodyTo (c : LwipClient) (n : Nat) (e : LwipEvent) :
    Prop :=
  ∃ q p stale pcb b, e = .received q p stale ∧ c.pcb q = some pcb ∧
    c.block pcb.arg = some b ∧ b.callbackArg = n ∧
    b.response.givesBody stale p = true

section

variable {c c' : LwipClient} {e : LwipEvent} {n : Nat} {q q' : Addr}

theorem Effect.results_prefix {err : LwipErr} (h : Effect c e c' err) :
    c.results <+: c'.results := by
  cases h with
  | refused i err aborted => exact List.prefix_rfl
  | taken i a p q => exact List.prefix_rfl
  | dropped a b q pcb lookup closes err => exact List.prefix_rfl
  | changed c' a b q pcb pcb' he hu hc hs hstarted hresults =>
      exact hresults ▸ List.prefix_rfl
  | ended a b q pcb closes => exact List.prefix_append _ _

theorem LwipEvent.isPoll_eq (he : ∀ cb ∈ e.callback?, cb.1 = q)
    (hpoll : e.isPoll q' = true) : q = q' := by
  cases e with
  | poll q₁ closes =>
      exact (he _ rfl).symm.trans (of_decide_eq_true hpoll)
  | _ => cases hpoll

theorem after_ticks {b : HttpcBlock} (he : ∀ cb ∈ e.callback?, cb.1 = q)
    (hquiet : ∀ q p stale, e = .received q p stale →
      b.response.givesBody stale p = false) :
    (e.after b).timeoutTicks =
      b.timeoutTicks - if e.isPoll q then 1 else 0 := by
  cases e with
  | poll q' closes =>
      obtain rfl := he _ rfl
      simp [LwipEvent.after, LwipEvent.isPoll]
  | received q' p stale =>
      simp [LwipEvent.after, LwipEvent.isPoll, hquiet q' p stale rfl]
  | _ => rfl

/-- A request whose `body_fn` is given nothing loses a tick at each poll of its
pcb, and is reported when it has lost the last. -/
theorem LwipClient.HasTicks.effect {err : LwipErr} {ticks : Nat} (hok : c.Ok)
    (h : c.HasTicks n q ticks) (heffect : Effect c e c' err)
    (hquiet : ¬ c.GivesBodyTo n e) :
    n ∈ c'.results.map HttpcReport.arg ∨
      c'.HasTicks n q (ticks - if e.isPoll q then 1 else 0) := by
  obtain ⟨a, b, hb, hs, hn, hq, hticks⟩ := h
  -- An event of another request is no poll of this one's pcb.
  have hother : ∀ {x bx qx pcb}, c.InUse x bx qx pcb → a ≠ x →
      (∀ cb ∈ e.callback?, cb.1 = qx) → e.isPoll q = false := by
    intro x bx qx pcb hux hne hex
    by_cases hpoll : e.isPoll q = true
    · obtain rfl := LwipEvent.isPoll_eq hex hpoll
      obtain ⟨q₁, pcb₁, hu₁⟩ := hok.inUse a b hb
      obtain rfl := Option.some.inj (hq.symm.trans hu₁.pcb_eq)
      obtain rfl := Option.some.inj (hux.live.symm.trans hu₁.live)
      exact absurd (hu₁.arg_eq.symm.trans hux.arg_eq) hne
    · exact Bool.not_eq_true _ ▸ hpoll
  cases heffect with
  | refused i err aborted he =>
      subst he
      exact .inr ⟨a, b, hb, hs, hn, hq, hticks⟩
  | taken i x p qx he hnone hx =>
      subst he
      have hne : a ≠ x := by
        intro heq
        rw [heq, hx] at hb
        cases hb
      exact .inr ⟨a, b, (Function.update_of_ne hne ..).trans hb,
        fun heq => hne (Option.some.inj heq).symm, hn, hq, hticks⟩
  | dropped x bx qx pcb lookup closes err he hstarting hux =>
      subst he
      have hne : a ≠ x := fun heq => hs (heq ▸ hstarting)
      exact .inr ⟨a, b, (without_block bx qx).2 ⟨hne, hb⟩,
        fun hsx => hs ((without_starting bx qx).1 hsx).2, hn, hq, hticks⟩
  | changed c' x bx qx pcb pcb' he hux hc hstarting =>
      by_cases hax : a = x
      · subst hax
        obtain rfl := Option.some.inj (hb.symm.trans hux.block_eq)
        obtain rfl := Option.some.inj (hq.symm.trans hux.pcb_eq)
        refine .inr ⟨a, e.after b, hc.inUse.block_eq, hstarting,
          (e.after_callbackArg b).trans hn, hc.inUse.pcb_eq, ?_⟩
        rw [after_ticks he]
        · exact Nat.sub_le_sub_right hticks _
        · intro q₁ p stale hp
          obtain rfl : q₁ = q := he _ (by rw [hp]; rfl)
          cases hbody : b.response.givesBody stale p with
          | false => rfl
          | true =>
              exact absurd ⟨q₁, p, stale, pcb, b, hp, hux.live,
                hux.arg_eq.symm ▸ hb, hn, hbody⟩ hquiet
      · rw [hother hux hax he]
        exact .inr ⟨a, b, (hc.block a hax).trans hb,
          mt (hc.starting a hax).1 hs, hn, hq, hticks⟩
  | ended x bx qx pcb closes he hux hstarting =>
      by_cases hax : a = x
      · subst hax
        obtain rfl := Option.some.inj (hb.symm.trans hux.block_eq)
        refine .inl (List.mem_map.2 ⟨e.report b, ?_, hn⟩)
        exact List.mem_append_right _ List.mem_cons_self
      · rw [hother hux hax he]
        exact .inr ⟨a, b, (without_block bx qx).2 ⟨hax, hb⟩,
          fun hsx => hs ((without_starting bx qx).1 hsx).2, hn, hq, hticks⟩

theorem LwipClient.HasTicks.run {c c' : LwipClient} {es : List LwipEvent}
    {ticks : Nat} (hok : c.Ok)
    (h : n ∈ c.results.map HttpcReport.arg ∨ c.HasTicks n q ticks)
    (hrun : Run LwipStep c es c')
    (hquiet : ∀ t e t', StepOf LwipStep c es t e t' →
      ¬ t.GivesBodyTo n e) :
    n ∈ c'.results.map HttpcReport.arg ∨
      c'.HasTicks n q (ticks - es.countP (·.isPoll q)) := by
  induction hrun generalizing ticks with
  | nil c => exact h
  | @cons c c₁ c' e es hstep hrest ih =>
      obtain ⟨err, heffect⟩ := hok.effect_of_step hstep
      have hquiet' : ∀ t e' t', StepOf LwipStep c₁ es t e' t' →
          ¬ t.GivesBodyTo n e' := by
        intro t e' t' ⟨before, after, hes, hbefore, he'⟩
        exact hquiet t e' t' ⟨e :: before, after, by rw [hes]; rfl,
          .cons hstep hbefore, he'⟩
      have hnext : n ∈ c₁.results.map HttpcReport.arg ∨
          c₁.HasTicks n q (ticks - if e.isPoll q then 1 else 0) := by
        rcases h with hreported | hticks
        · exact .inl ((heffect.results_prefix.map _).subset hreported)
        · exact hticks.effect hok heffect
            (hquiet c e c₁ ⟨[], es, rfl, .nil c, hstep⟩)
      have hcount : ticks - (e :: es).countP (·.isPoll q) =
          (ticks - if e.isPoll q then 1 else 0) -
            es.countP (·.isPoll q) := by
        rw [List.countP_cons]
        omega
      rw [hcount]
      exact ih (hok.effect heffect) hnext hquiet'

end

/-- No request has more ticks than it starts with. -/
theorem LwipRun.ticks_le {es : List LwipEvent} {c : LwipClient}
    (h : LwipRun es c) {a : Addr} {b : HttpcBlock} (hb : c.block a = some b) :
    b.timeoutTicks ≤ httpcPollTimeout := by
  have hinv := Run.invariant (P := fun c => c.Ok ∧ ∀ a b, c.block a = some b →
    b.timeoutTicks ≤ httpcPollTimeout) ?_
    ⟨LwipClient.start_ok, fun _ _ hb => by cases hb⟩ h
  · exact hinv.2 a b hb
  intro c e c' ⟨hok, hle⟩ hstep
  obtain ⟨err, heffect⟩ := hok.effect_of_step hstep
  refine ⟨hok.effect heffect, fun x b hx => ?_⟩
  cases heffect with
  | refused i err aborted he => exact hle x b hx
  | taken i a p q he hnone ha =>
      by_cases hxa : x = a
      · subst hxa
        have hnew : (c.withNew x p q).block x =
            some (newBlock p q c.started) := Function.update_self ..
        obtain rfl := Option.some.inj (hnew.symm.trans hx)
        exact Nat.le_refl _
      · exact hle x b ((Function.update_of_ne hxa ..).symm.trans hx)
  | dropped a b' q pcb lookup closes err he hs hu =>
      exact hle x b ((without_block b' q).1 hx).2
  | changed c' a b' q pcb pcb' he hu hc =>
      by_cases hxa : x = a
      · subst hxa
        obtain rfl := Option.some.inj (hc.inUse.block_eq.symm.trans hx)
        have hold := hle x b' hu.block_eq
        cases e <;> simp only [LwipEvent.after] <;> try exact hold
        · split
          · exact Nat.le_refl _
          · exact hold
        · omega
      · exact hle x b (hc.block x hxa ▸ hx)
  | ended a b' q pcb closes he hu =>
      exact hle x b ((without_block b' q).1 hx).2

/-- From any state that can be reached, a request that has a pcb is reported
before the pcb has been polled thirty times while nothing is given to its
`body_fn`: bytes of the status line or the headers do not hold it up. -/
theorem lwip_run_timeout {es es' : List LwipEvent} {c c' : LwipClient}
    {a q : Addr} {b : HttpcBlock} (h : LwipRun es c)
    (hb : c.block a = some b) (hs : c.starting ≠ some a)
    (hq : b.pcb = some q) (hrun : Run LwipStep c es' c')
    (hpolls : httpcPollTimeout ≤ es'.countP (·.isPoll q))
    (hquiet : ∀ t e t', StepOf LwipStep c es' t e t' →
      ¬ t.GivesBodyTo b.callbackArg e) :
    b.callbackArg ∈ c'.results.map HttpcReport.arg := by
  have hok : c'.Ok := Run.invariant LwipClient.Ok.step h.ok hrun
  rcases LwipClient.HasTicks.run h.ok
    (.inr ⟨a, b, hb, hs, rfl, hq, Nat.le_refl _⟩) hrun hquiet with
    hreported | ⟨a', b', hb', _, _, _, hticks⟩
  · exact hreported
  · obtain ⟨_, _, hu⟩ := hok.inUse a' b' hb'
    have hle := h.ticks_le hb
    have hpos := hu.ticks
    omega

/-- Such a request, of which nothing is heard. -/
theorem lwip_run_timeout_silent : ∃ c c' : LwipClient,
    Run LwipStep c (List.replicate 30 (.poll 8 true)) c' ∧
      0 ∈ c'.results.map HttpcReport.arg := by
  have hrun : ∃ c c' b, LwipRun
      [.init ⟨100, 100, some 8, some (16, false), some 8, true⟩,
        .start (.known true) true] c ∧
      Run LwipStep c (List.replicate 30 (.poll 8 true)) c' ∧
      c.block 8 = some b ∧ c.starting = none ∧ b.pcb = some 8 ∧
      b.callbackArg = 0 :=
    ⟨_, _, _, run_iff_foldlM_option.1 rfl, run_iff_foldlM_option.1 rfl, rfl,
      rfl, rfl, rfl⟩
  obtain ⟨c, c', b, hrun, hpolls, hb, hs, hq, hn⟩ := hrun
  refine ⟨c, c', hpolls, hn ▸ lwip_run_timeout hrun hb (by simp [hs]) hq
    hpolls (by decide) ?_⟩
  intro t e t' ⟨before, after, hes, _⟩ ⟨q, p, _, _, _, he, _⟩
  have hmem : e ∈ List.replicate 30 (LwipEvent.poll 8 true) :=
    hes ▸ List.mem_append_right _ List.mem_cons_self
  rw [List.eq_of_mem_replicate hmem] at he
  cases he

end IotHome.Firmware
