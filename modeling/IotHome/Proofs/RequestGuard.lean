import IotHome.Firmware.MainLoop
import IotHome.Proofs.HttpcLifecycle

/-!
# One request at a time

The flag `running` is to keep a second request from being started while one is
unfinished, but nothing ever sets it. So every call of `request` comes past
it (`Guards.running`), and what it starts is unfinished with what was before.
Only lwIP can refuse it then, and `oneAtATime_iff` says that it has to.
-/

namespace IotHome.Firmware

open IotHome.Lib

/-- The request at `a` has been started, and not been reported. -/
def LwipClient.Unfinished (c : LwipClient) (a : Addr) : Prop :=
  c.block a ≠ none ∧ c.starting ≠ some a

/-- Whether a request that is set up is started. -/
def Lookup.starts : Lookup → Bool
  | .known connects => connects
  | .inProgress => true
  | .failed => false

/-- The last call of `request` has found the main loop at `m`. -/
def CalledAt (done : List MainEvent) (m : MainLoop) : Prop :=
  ∃ before between, done = before ++ .request :: between ∧
    MainEvent.request ∉ between ∧ MainRun before m

/-- What is asked of a run. -/
structure OneAtATime (es : List MainEvent) : Prop where
  atMostOne : ∀ done t, done <+: es → MainRun done t → ∀ a a',
    t.client.Unfinished a → t.client.Unfinished a' → a = a'
  /-- A `request` made while one is unfinished starts nothing. -/
  startsNothing : ∀ done m t, done <+: es → CalledAt done m →
    MainRun done t → (∃ a, m.client.Unfinished a) →
      t.client.started = m.client.started
  /-- With none unfinished, `request` comes past its guard, -/
  passesGuard : ∀ done m m', done ++ [.request] <+: es → MainRun done m →
    MainStep m .request m' → (∀ a, ¬ m.client.Unfinished a) →
      m'.calling = true
  /-- and then a request is started, if lwIP takes it. -/
  starts : ∀ done m t lookup closes,
    done ++ [.client (.start lookup closes)] <+: es → CalledAt done m →
      MainRun (done ++ [.client (.start lookup closes)]) t →
      (∀ a, ¬ m.client.Unfinished a) → lookup.starts = true →
      t.client.started = m.client.started + 1 ∧ ∃ a, t.client.Unfinished a

/-- Whenever `request` is called while one is unfinished, and gets as far as
the lookup, lwIP refuses the lookup or the connection. -/
def RefusesOverlaps (es : List MainEvent) : Prop :=
  ∀ done m lookup closes,
    done ++ [.client (.start lookup closes)] <+: es → CalledAt done m →
      (∃ a, m.client.Unfinished a) → lookup.starts = false

/-! ## What a step does to the requests -/

section

variable {c c' : LwipClient} {a q : Addr} {b : HttpcBlock} {pcb : HttpcPcb}
  {e : LwipEvent} {m m' t t' : MainLoop} {done es : List MainEvent}

/-- What the main loop has the client do. -/
theorem mainStep_client (hok : m.client.Ok)
    (h : MainStep m (.client e) m') :
    (e.isCall = true → m.calling = true) ∧
      ∃ c err, Effect m.client e c err ∧ m' = m.after e c err := by
  rw [MainStep, mainStep] at h
  split at h
  · cases h
  next hcalls =>
  refine ⟨fun hcall => by simpa [hcall] using hcalls, ?_⟩
  cases hlwip : lwipStep m.client e with
  | none => simp [hlwip] at h
  | some r =>
      obtain ⟨c, err, rfl, heffect⟩ := lwipStep_effect hok hlwip
      simp only [hlwip, Option.some.injEq] at h
      exact ⟨c, err, heffect, h.symm⟩

theorem MainStep.ok {e : MainEvent} (h : m.client.Ok)
    (hstep : MainStep m e m') : m'.client.Ok := by
  cases e with
  | request =>
      rw [MainStep, mainStep] at hstep
      split at hstep
      · cases hstep
      · split at hstep
        · exact Option.some.inj hstep ▸ h
        · obtain rfl := Option.some.inj hstep
          exact h
  | client e =>
      obtain ⟨_, c, err, heffect, rfl⟩ := mainStep_client h hstep
      exact h.effect heffect

theorem MainRun.ok (h : MainRun es m) : m.client.Ok :=
  Run.invariant (P := fun m : MainLoop => m.client.Ok) MainStep.ok
    LwipClient.start_ok h

theorem MainRun.of_prefix (h : MainRun es m) (hpre : done <+: es) :
    ∃ t, MainRun done t := by
  obtain ⟨rest, rfl⟩ := hpre
  obtain ⟨t, ht, _⟩ := Run.append_inv h
  exact ⟨t, ht⟩

theorem MainRun.last {e : MainEvent} (h : MainRun (done ++ [e]) t') :
    ∃ t, MainRun done t ∧ MainStep t e t' := by
  obtain ⟨t, ht, hlast⟩ := Run.append_inv h
  cases hlast with
  | cons hstep hnil =>
    cases hnil with
    | nil => exact ⟨t, ht, hstep⟩

/-- A callback is not for the request that is being started. -/
theorem LwipClient.Ok.not_starting (hok : c.Ok) (hu : c.InUse a b q pcb)
    (hreaches : e.Reaches c a q pcb.phase) (hcall : e.isCall = false) :
    c.starting ≠ some a := by
  have hphase : pcb.phase ≠ .fresh → c.starting ≠ some a :=
    fun hne => (hok.not_waiting hu hne).2
  cases e with
  | init i => cases hcall
  | start lookup closes => cases hcall
  | dnsFound req ipaddr closes =>
      exact fun hs => hok.starting_dns a hs hreaches.2
  | error q' err => exact hphase hreaches.2
  | poll q' closes => exact hphase hreaches.2
  | _ => exact hphase (by simp [hreaches.2])

/-- No request is started. -/
structure StartsNone (c c' : LwipClient) : Prop where
  started : c'.started = c.started
  unfinished : ∀ x, c'.Unfinished x → c.Unfinished x

/-- The request at `a` is started. -/
structure StartsOne (c c' : LwipClient) (a : Addr) : Prop where
  started : c'.started = c.started + 1
  unfinished : ∀ x, c'.Unfinished x ↔ x = a ∨ c.Unfinished x

theorem Changes.startsNone {b' : HttpcBlock} {pcb' : HttpcPcb}
    (hc : Changes c c' a b b' q pcb') (hu : c.InUse a b q pcb)
    (hstarting : c.starting ≠ some a) (hstarted : c'.started = c.started) :
    StartsNone c c' := by
  refine ⟨hstarted, fun x ⟨hblock, hs⟩ => ?_⟩
  by_cases hx : x = a
  · subst hx
    exact ⟨by simp [hu.block_eq], hstarting⟩
  · exact ⟨hc.block x hx ▸ hblock, mt (hc.starting x hx).2 hs⟩

theorem Changes.startsOne {b' : HttpcBlock} {pcb' : HttpcPcb}
    (hc : Changes c c' a b b' q pcb') (hstarting' : c'.starting ≠ some a)
    (hstarted : c'.started = c.started + 1) : StartsOne c c' a := by
  refine ⟨hstarted, fun x => ?_⟩
  by_cases hx : x = a
  · subst hx
    simp [LwipClient.Unfinished, hc.inUse.block_eq, hstarting']
  · simp only [LwipClient.Unfinished, hc.block x hx, ne_eq, hc.starting x hx,
      hx, false_or]

/-- The client starts nothing but what it has looked up or connected. -/
theorem Effect.starts {err : LwipErr} (hok : c.Ok) (h : Effect c e c' err) :
    StartsNone c c' ∧ (∀ lookup closes, e = .start lookup closes →
        lookup.starts = false) ∨
      ∃ lookup closes a, e = .start lookup closes ∧ lookup.starts = true ∧
        StartsOne c c' a := by
  cases h with
  | refused i err aborted he => exact .inl ⟨⟨rfl, fun _ => id⟩, by simp [he]⟩
  | taken i a p q he hnone ha =>
      refine .inl ⟨⟨rfl, fun x ⟨hblock, hs⟩ => ?_⟩, by simp [he]⟩
      have hx : x ≠ a := fun heq => hs (congrArg some heq.symm)
      have hsame : (c.withNew a p q).block x = c.block x :=
        Function.update_of_ne hx ..
      exact ⟨hsame ▸ hblock, by simp [hnone]⟩
  | dropped a b q pcb lookup closes err he hstarting hu herr hends =>
      subst he
      refine .inl ⟨⟨rfl, fun x ⟨hblock, _⟩ => ?_⟩, ?_⟩
      · obtain ⟨b', hb'⟩ := Option.ne_none_iff_exists'.1 hblock
        obtain ⟨hx, hb⟩ := (without_block b q).1 hb'
        refine ⟨by simp [hb], ?_⟩
        rw [hstarting]
        exact fun heq => hx (Option.some.inj heq).symm
      · intro lookup' closes' heq
        obtain ⟨rfl, rfl⟩ := LwipEvent.start.inj heq
        cases lookup with
        | known connects => exact hends
        | inProgress => cases hends
        | failed => rfl
  | changed c' a b q pcb pcb' he hu hc hstarting hstarted hresults haborted
      hreaches hgoes =>
      by_cases hcall : e.isCall = true
      · cases e with
        | init i => exact absurd hreaches id
        | start lookup closes =>
            rw [if_pos (show c.starting = some a from hreaches)] at hstarted
            refine .inr ⟨lookup, closes, a, rfl, ?_,
              hc.startsOne hstarting hstarted⟩
            cases lookup with
            | known connects => exact hgoes
            | inProgress => rfl
            | failed => cases hgoes
        | _ => cases hcall
      · have hcall := Bool.not_eq_true _ ▸ hcall
        have hnot := hok.not_starting hu hreaches hcall
        rw [if_neg hnot] at hstarted
        refine .inl ⟨hc.startsNone hu hnot hstarted, ?_⟩
        rintro lookup closes rfl
        cases hcall
  | ended a b q pcb closes he hu hstarting hreaches hends =>
      refine .inl ⟨⟨rfl, fun x ⟨hblock, hs⟩ => ?_⟩, ?_⟩
      · obtain ⟨b', hb'⟩ := Option.ne_none_iff_exists'.1 hblock
        obtain ⟨hx, hb⟩ := (without_block b q).1 hb'
        refine ⟨by simp [hb], fun hsx => hs ?_⟩
        exact (without_starting b q).2 ⟨hx, hsx⟩
      · rintro lookup closes' rfl
        exact absurd hreaches hstarting

/-! ## The last call -/

theorem calledAt_request (done : List MainEvent) (m : MainLoop) :
    CalledAt (done ++ [.request]) m ↔ MainRun done m := by
  constructor
  · rintro ⟨before, between, heq, hnone, hrun⟩
    rcases List.eq_nil_or_concat between with rfl | ⟨rest, e, rfl⟩
    · obtain ⟨rfl, _⟩ := List.append_inj' heq rfl
      exact hrun
    · rw [List.concat_eq_append, ← List.cons_append, ← List.append_assoc]
        at heq
      have hlast := (List.append_inj' heq rfl).2
      refine absurd ?_ hnone
      rw [List.concat_eq_append, ← hlast]
      exact List.mem_append_right _ (List.mem_singleton_self _)
  · exact fun hrun => ⟨done, [], rfl, List.not_mem_nil, hrun⟩

theorem calledAt_client (done : List MainEvent) (e : LwipEvent)
    (m : MainLoop) :
    CalledAt (done ++ [.client e]) m ↔ CalledAt done m := by
  constructor
  · rintro ⟨before, between, heq, hnone, hrun⟩
    rcases List.eq_nil_or_concat between with rfl | ⟨rest, e', rfl⟩
    · have hlast := (List.append_inj' heq rfl).2
      cases List.singleton_inj.1 hlast
    · rw [List.concat_eq_append, ← List.cons_append, ← List.append_assoc]
        at heq
      obtain ⟨rfl, _⟩ := List.append_inj' heq rfl
      rw [List.concat_eq_append, List.mem_append, not_or] at hnone
      exact ⟨before, rest, rfl, hnone.1, hrun⟩
  · rintro ⟨before, between, rfl, hnone, hrun⟩
    refine ⟨before, between ++ [.client e], by simp, ?_, hrun⟩
    simp [hnone]

/-- There is a call if the main loop is inside one, and nothing is started
between the call and the lookup. -/
structure Guards (done : List MainEvent) (t : MainLoop) : Prop where
  run : MainRun done t
  running : t.running = false
  called : t.calling = true → ∃ m, CalledAt done m
  before : ∀ m, CalledAt done m → t.calling = true →
    StartsNone m.client t.client

theorem Guards.request (h : Guards done t) (hstep : MainStep t .request t') :
    t'.calling = true ∧ t'.client = t.client ∧
      Guards (done ++ [.request]) t' := by
  have hrun := h.run.append (.cons hstep (.nil t'))
  rw [MainStep, mainStep, h.running] at hstep
  split at hstep
  · cases hstep
  · obtain rfl := Option.some.inj hstep
    refine ⟨rfl, rfl, hrun, rfl,
      fun _ => ⟨t, (calledAt_request _ _).2 h.run⟩, fun m hm _ => ?_⟩
    obtain rfl := Run.det h.run ((calledAt_request _ _).1 hm)
    exact ⟨rfl, fun _ => id⟩

theorem StartsNone.trans {c₁ c₂ c₃ : LwipClient} (h : StartsNone c₁ c₂)
    (h' : StartsNone c₂ c₃) : StartsNone c₁ c₃ :=
  ⟨h'.started.trans h.started, fun x hx => h.unfinished x (h'.unfinished x hx)⟩

theorem Guards.client (h : Guards done t)
    (hstep : MainStep t (.client e) t') : Guards (done ++ [.client e]) t' := by
  have hrun := h.run.append (.cons hstep (.nil t'))
  obtain ⟨hcalls, c, err, heffect, rfl⟩ := mainStep_client h.run.ok hstep
  have hcalling : (t.after e c err).calling = true → t.calling = true ∧
      e.returns err = false := by
    simp [MainLoop.after]
  refine ⟨hrun, by simp [MainLoop.after, h.running], fun hc => ?_,
    fun m hm hc => ?_⟩
  · obtain ⟨m, hm⟩ := h.called (hcalling hc).1
    exact ⟨m, (calledAt_client _ _ _).2 hm⟩
  · refine (h.before m ((calledAt_client _ _ _).1 hm) (hcalling hc).1).trans ?_
    rcases heffect.starts h.run.ok with ⟨hnone, _⟩ | ⟨_, _, _, rfl, _⟩
    · exact hnone
    · cases (hcalling hc).2

theorem Guards.start : Guards [] .start where
  run := .nil _
  running := rfl
  called := nofun
  before _ _ h := nomatch h

theorem MainRun.guards (h : MainRun es t) : Guards es t := by
  refine Run.history (P := Guards) (fun {done t e t'} ht hstep => ?_)
    .start h
  cases e with
  | request => exact (ht.request hstep).2.2
  | client e => exact ht.client hstep

/-! ## Overlaps -/

/-- A step of the client with which nothing is started, or the one with which a
request is, and the call of it. -/
theorem Guards.client_cases (h : Guards done t)
    (hstep : MainStep t (.client e) t') :
    StartsNone t.client t'.client ∧ (∀ lookup closes,
        e = .start lookup closes → lookup.starts = false) ∨
      ∃ lookup closes m a, e = .start lookup closes ∧
        lookup.starts = true ∧ CalledAt done m ∧
        StartsNone m.client t.client ∧ StartsOne t.client t'.client a := by
  obtain ⟨hcalls, c, err, heffect, rfl⟩ := mainStep_client h.run.ok hstep
  rcases heffect.starts h.run.ok with hnone | ⟨lookup, closes, a, rfl, hl, ha⟩
  · exact .inl hnone
  · obtain ⟨m, hm⟩ := h.called (hcalls rfl)
    exact .inr ⟨lookup, closes, m, a, rfl, hl, hm, h.before m hm (hcalls rfl),
      ha⟩

/-- Where lwIP refuses what overlaps. -/
structure Single (done : List MainEvent) (t : MainLoop) : Prop where
  atMostOne : ∀ a a', t.client.Unfinished a → t.client.Unfinished a' → a = a'
  startsNothing : ∀ m, CalledAt done m → (∃ a, m.client.Unfinished a) →
    t.client.started = m.client.started

theorem Single.request (h : Single done t) (hg : Guards done t)
    (hstep : MainStep t .request t') : Single (done ++ [.request]) t' := by
  obtain ⟨_, hclient, _⟩ := hg.request hstep
  refine ⟨hclient ▸ h.atMostOne, fun m hm _ => ?_⟩
  obtain rfl := Run.det hg.run ((calledAt_request _ _).1 hm)
  rw [hclient]

theorem Single.client (h : Single done t) (hg : Guards done t)
    (hrefuses : ∀ m lookup closes, e = .start lookup closes →
      CalledAt done m → (∃ a, m.client.Unfinished a) → lookup.starts = false)
    (hstep : MainStep t (.client e) t') :
    Single (done ++ [.client e]) t' := by
  rcases hg.client_cases hstep with
    ⟨hnone, _⟩ | ⟨lookup, closes, m, a, he, hstarts, hm, hsame, hone⟩
  · refine ⟨fun x y hx hy => h.atMostOne x y (hnone.unfinished x hx)
      (hnone.unfinished y hy), fun m hm hin => ?_⟩
    exact hnone.started.trans
      (h.startsNothing m ((calledAt_client _ _ _).1 hm) hin)
  · -- Nothing was unfinished at the call, and so nothing is before the step.
    have hfree : ∀ x, ¬ m.client.Unfinished x := by
      intro x hx
      have hrefused := hrefuses m lookup closes he hm ⟨x, hx⟩
      rw [hstarts] at hrefused
      cases hrefused
    have honly : ∀ x, t'.client.Unfinished x → x = a := fun x hx =>
      ((hone.unfinished x).1 hx).resolve_right
        fun hx => hfree x (hsame.unfinished x hx)
    refine ⟨fun x y hx hy => (honly x hx).trans (honly y hy).symm,
      fun m' hm' ⟨x, hx⟩ => ?_⟩
    have hrefused := hrefuses m' lookup closes he
      ((calledAt_client _ _ _).1 hm') ⟨x, hx⟩
    rw [hstarts] at hrefused
    cases hrefused

theorem RefusesOverlaps.single (h : RefusesOverlaps es)
    (hrun : MainRun done t) (hdone : done <+: es) : Single done t := by
  refine (Run.history (P := fun done t => Guards done t ∧
    (done <+: es → Single done t)) ?_ ⟨.start, fun _ => ?_⟩ hrun).2 hdone
  · intro done t e t' ⟨hg, hs⟩ hstep
    have hrun : MainRun (done ++ [e]) t' :=
      hg.run.append (.cons hstep (.nil t'))
    refine ⟨hrun.guards, fun hpre => ?_⟩
    have hsingle := hs ((List.prefix_append _ _).trans hpre)
    cases e with
    | request => exact hsingle.request hg hstep
    | client e =>
        refine hsingle.client hg (fun m lookup closes he hm hin => ?_) hstep
        subst he
        exact h done m lookup closes hpre hm hin
  · refine ⟨fun a a' ha => absurd rfl ha.1, fun m hm => ?_⟩
    obtain ⟨before, between, hnil, _⟩ := hm
    simp at hnil

/-- A run of the main loop, the client and lwIP is as asked just if lwIP
refuses what would overlap. -/
theorem oneAtATime_iff (h : MainRun es m) :
    OneAtATime es ↔ RefusesOverlaps es := by
  constructor
  · intro hone done m lookup closes hpre hm hin
    obtain ⟨t', hrun⟩ := h.of_prefix hpre
    obtain ⟨t, ht, hstep⟩ := hrun.last
    rcases ht.guards.client_cases hstep with
      ⟨_, hnone⟩ | ⟨_, _, _, a, _, _, _, _, hstarts⟩
    · exact hnone lookup closes rfl
    · -- The call has one more request started, which is one too many.
      have hsame := ht.guards.before m hm
        ((mainStep_client ht.ok hstep).1 rfl)
      have hnothing := hone.startsNothing _ m t' hpre
        ((calledAt_client _ _ _).2 hm) hrun hin
      rw [hstarts.started, hsame.started] at hnothing
      omega
  · intro hrefuses
    refine ⟨fun done t hpre ht => (hrefuses.single ht hpre).atMostOne,
      fun done m t hpre hm ht => (hrefuses.single ht hpre).startsNothing m hm,
      fun done m m' _ hm hstep _ => (hm.guards.request hstep).1, ?_⟩
    intro done m t' lookup closes hpre hm hrun _ hstarts
    obtain ⟨t, ht, hstep⟩ := hrun.last
    rcases ht.guards.client_cases hstep with
      ⟨_, hnone⟩ | ⟨_, _, _, a, _, _, _, _, hone⟩
    · rw [hnone lookup closes rfl] at hstarts
      cases hstarts
    · have hsame := ht.guards.before m hm
        ((mainStep_client ht.ok hstep).1 rfl)
      exact ⟨hone.started.trans (congrArg (· + 1) hsame.started), a,
        (hone.unfinished a).2 (.inl rfl)⟩

end

/-- Two rounds. The first one's request is connecting when the second one's is
made, and lwIP says this to the second. -/
def twoRounds (connects : Bool) : List MainEvent :=
  [.request,
    .client (.init ⟨100, 100, some 8, some (16, false), some 8, true⟩),
    .client (.start (.known true) true), .request,
    .client (.init ⟨100, 100, some 24, some (32, false), some 24, true⟩),
    .client (.start (.known connects) true)]

theorem mainRun_twoRounds (connects : Bool) :
    ∃ m, MainRun (twoRounds connects) m := by
  cases connects with
  | true => exact ⟨_, run_iff_foldlM_option.1 rfl⟩
  | false => exact ⟨_, run_iff_foldlM_option.1 rfl⟩

/-- Refused, it leaves the first alone. -/
theorem oneAtATime_iff_refused : ∃ m, MainRun (twoRounds false) m ∧
    OneAtATime (twoRounds false) := by
  obtain ⟨m, hm⟩ := mainRun_twoRounds false
  refine ⟨m, hm, (oneAtATime_iff hm).2 ?_⟩
  intro done m' lookup closes hpre hcalled ⟨a, ha⟩
  have hdone := List.prefix_iff_eq_take.1
    ((List.prefix_append done _).trans hpre)
  have hget : (twoRounds false)[done.length]? =
      some (.client (.start lookup closes)) := by
    obtain ⟨rest, hes⟩ := hpre
    rw [← hes]
    simp
  generalize done.length = n at hdone hget
  subst hdone
  match n with
  | 2 =>
      -- The first call has found nothing unfinished.
      have hfirst := (calledAt_request [] m').1
        ((calledAt_client [.request] _ m').1 hcalled)
      cases hfirst with
      | nil => exact absurd rfl ha.1
  | 5 =>
      obtain rfl : Lookup.known false = lookup := by
        exact (LwipEvent.start.inj (MainEvent.client.inj
          (Option.some.inj hget))).1
      rfl
  | 0 | 1 | 3 | 4 => simp [twoRounds] at hget
  | n + 6 => simp [twoRounds] at hget

/-- Else there are two. -/
theorem not_oneAtATime : ¬ ∀ es m, MainRun es m → OneAtATime es := by
  intro h
  have hrun : ∃ m, MainRun (twoRounds true) m ∧
      (m.client.block 8).isSome ∧ (m.client.block 24).isSome ∧
      m.client.starting = none :=
    ⟨_, run_iff_foldlM_option.1 rfl, rfl, rfl, rfl⟩
  obtain ⟨m, hm, h8, h24, hnone⟩ := hrun
  have hone := (h _ m hm).atMostOne _ m List.prefix_rfl hm 8 24
    ⟨by rw [← Option.isSome_iff_ne_none]; exact h8, by simp [hnone]⟩
    ⟨by rw [← Option.isSome_iff_ne_none]; exact h24, by simp [hnone]⟩
  exact absurd hone (by decide)

end IotHome.Firmware
