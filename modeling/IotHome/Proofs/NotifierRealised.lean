import IotHome.Proofs.NotifierRefines
import Mathlib.Data.Fintype.EquivFin

/-!
# What the notifier does, lwIP can make happen

The other direction. Of a state in which nothing is half set up, and in which
every response is at its start or in its body, each event of the notifier is
what an event of the main loop and the client shows as, after one that does
not show where a request is started (`Matched.realise`). What is allocated is
found where nothing is in use, of which there is always more, as only requests
are in use; and a page that comes in one buffer has a byte for `body_fn`.
-/

namespace IotHome.Firmware

open IotHome.Lib

structure LwipClient.Plain (c : LwipClient) : Prop where
  starting : c.starting = none
  response : ∀ a b, c.block a = some b →
    b.response = .start ∨ b.response.parseState = .rxData

theorem plain_start : LwipClient.start.Plain where
  starting := rfl
  response _ _ h := by cases h

/-- A page with one byte. -/
def onePage : List Pbuf :=
  [⟨0, "HTTP/1.1 200 OK\r\n\r\nx".toUTF8.toList⟩]

theorem rxData_parseState (s : Httpc) (p : Given) :
    (s.rxData p).parseState = s.parseState := rfl

/-- Its byte is given to `body_fn`. -/
theorem onePage_body {s : Httpc}
    (h : s = .start ∨ s.parseState = .rxData) :
    s.givesBody .intact onePage = true ∧
      (httpcTcpRecv .intact s onePage).parseState = .rxData := by
  rcases h with rfl | hdata
  · exact ⟨by decide +kernel, by decide +kernel⟩
  · rw [Httpc.givesBody, httpcTcpRecv, if_pos hdata, if_pos hdata,
      rxData_parseState]
    exact ⟨rfl, hdata⟩

section

variable {c c' : LwipClient} {m m' : MainLoop} {s s' : Notifier}
  {reqs : List Addr} {a p q : Addr} {b : HttpcBlock} {pcb : HttpcPcb}
  {e : LwipEvent}

/-! ## What is free -/

/-- There is more memory than requests have. -/
theorem Shows.exists_free (hok : m.client.Ok) (h : Shows reqs m s)
    (hp : m.client.Plain) :
    ∃ a p q, m.client.block a = none ∧ m.client.pbuf p = false ∧
      m.client.pcb q = none := by
  have hlive : ∀ a b, m.client.block a = some b → a ∈ reqs := by
    intro a b hb
    rw [h.mem a, hb, hp.starting]
    exact ⟨Option.some_ne_none b, (Option.some_ne_none a).symm⟩
  let pbufs := reqs.filterMap fun a =>
    (m.client.block a).bind HttpcBlock.request
  let pcbs := reqs.filterMap fun a => (m.client.block a).bind HttpcBlock.pcb
  obtain ⟨a, ha⟩ := Infinite.exists_notMem_finset reqs.toFinset
  obtain ⟨p, hpfree⟩ := Infinite.exists_notMem_finset pbufs.toFinset
  obtain ⟨q, hq⟩ := Infinite.exists_notMem_finset pcbs.toFinset
  rw [List.mem_toFinset] at ha hpfree hq
  refine ⟨a, p, q, ?_, ?_, ?_⟩
  · cases hb : m.client.block a with
    | none => rfl
    | some b => exact absurd (hlive a b hb) ha
  · cases hpb : m.client.pbuf p with
    | false => rfl
    | true =>
        obtain ⟨x, b, hb, hr⟩ := hok.pbuf_owned p hpb
        refine absurd (List.mem_filterMap.2 ⟨x, hlive x b hb, ?_⟩) hpfree
        rw [hb, Option.bind_some, hr]
  · cases hpcb : m.client.pcb q with
    | none => rfl
    | some pcb =>
        obtain ⟨b, hb, hown⟩ := hok.pcb_owned q pcb hpcb
        refine absurd (List.mem_filterMap.2 ⟨_, hlive _ b hb, ?_⟩) hq
        rw [hb, Option.bind_some, hown]

/-- An initialisation that gets all it asks for. -/
theorem lwipStep_init (ha : c.block a = none) (hp : c.pbuf p = false)
    (hq : c.pcb q = none) (hnone : c.starting = none) :
    lwipStep c (.init ⟨100, 100, some a, some (p, false), some q, true⟩) =
      some (.ok (c.withNew a p q, .ok)) := by
  have hfresh : InitAnswers.FreshIn
      ⟨100, 100, some a, some (p, false), some q, true⟩ c :=
    ⟨fun x hx => Option.some.inj hx ▸ ha,
      fun x hx => Option.some.inj hx ▸ hp,
      fun x hx => Option.some.inj hx ▸ hq⟩
  rw [lwipStep, if_pos ⟨hnone, hfresh⟩]
  have hinit : c.initConnection
      ⟨100, 100, some a, some (p, false), some q, true⟩ c.started =
      .ok ({ c.withNew a p q with starting := c.starting }, .ok a) := by
    simp only [LwipClient.initConnection, LwipClient.initRequest]
    rw [if_neg (by decide), if_neg (by decide), holding_start rfl rfl]
    simp only [deref_eq holding_block, ok_bind]
    rw [holding_request rfl, if_neg Bool.false_ne_true]
    simp only [LwipClient.initPcb, deref_eq holding_block, ok_bind]
    rw [holding_pcb rfl, if_neg (by decide)]
    exact congrArg Except.ok
      (congrArg (·, Except.ok a) (holding_newBlock rfl rfl))
  rw [hinit]
  rfl

/-! ## What a step of the notifier is a step of -/

/-- What is received is the page, and its pbuf stays as it is. -/
def LwipEvent.BringsPage (e : LwipEvent) : Prop :=
  ∀ q p stale, e = .received q p stale → p = onePage ∧ stale = .intact

/-- Requests stay plain if what they are given is the page. -/
theorem LwipClient.Plain.effect {err : LwipErr} (h : c.Plain)
    (heffect : Effect c e c' err) (hcall : e.isCall = false)
    (hpage : e.BringsPage) : c'.Plain := by
  cases heffect with
  | refused i err aborted he =>
      subst he
      cases hcall
  | taken i a p q he =>
      subst he
      cases hcall
  | dropped a b q pcb lookup closes err he =>
      subst he
      cases hcall
  | changed c' a b q pcb pcb' he hu hc hstarting =>
      refine ⟨?_, fun x bx hbx => ?_⟩
      · cases hs : c'.starting with
        | none => rfl
        | some x =>
            have hxa : x ≠ a := fun heq => hstarting (heq ▸ hs)
            have hxs := (hc.starting x hxa).1 hs
            rw [h.starting] at hxs
            cases hxs
      · by_cases hx : x = a
        · subst hx
          obtain rfl := Option.some.inj (hc.inUse.block_eq.symm.trans hbx)
          have hb := h.response x b hu.block_eq
          cases e with
          | received q' p stale =>
              obtain ⟨rfl, rfl⟩ := hpage q' p stale rfl
              exact .inr (onePage_body hb).2
          | _ => exact hb
        · exact h.response x bx ((hc.block x hx).symm.trans hbx)
  | ended a b q pcb closes =>
      refine ⟨?_, fun x bx hbx => h.response x bx
        ((without_block b q).1 hbx).2⟩
      show (if c.starting = some a then none else c.starting) = none
      rw [h.starting]
      rfl

theorem exists_lwipStep (hu : c.InUse a b q pcb)
    (hreaches : e.Reaches c a q pcb.phase) (hcall : e.isCall = false) :
    ∃ r, lwipStep c e = some r := by
  cases e with
  | init i => cases hcall
  | start lookup closes => cases hcall
  | dnsFound req ipaddr closes =>
      rw [lwipStep, if_pos (hreaches.1 ▸ hreaches.2)]
      exact ⟨_, rfl⟩
  | _ =>
      obtain ⟨rfl, hphase⟩ := hreaches
      rw [lwipStep_callback rfl, hu.live, Option.bind_some,
        if_pos (decide_eq_true hphase)]
      exact ⟨_, rfl⟩

/-- A request that was set up, and is started. -/
theorem LwipClient.Plain.start {lookup : Lookup} {closes : Bool}
    {err : LwipErr} (h : c.Plain)
    (hgoes : ∀ b, LwipEvent.goesOn b (.start lookup closes) = true)
    (heffect : Effect (c.withNew a p q) (.start lookup closes) c' err) :
    c'.Plain := by
  cases heffect with
  | refused i err aborted he => cases he
  | taken i a p q he => cases he
  | dropped x b q' pcb lookup' closes' err he hstarting hu herr hends =>
      rw [hgoes b] at hends
      cases hends
  | changed c' x b q' pcb pcb' he hu hc hstarting hstarted hresults haborted
      hreaches =>
      obtain rfl := Option.some.inj hreaches
      have hb : b = newBlock p q c.started :=
        Option.some.inj (hu.block_eq.symm.trans (Function.update_self ..))
      refine ⟨?_, fun y b' hb' => ?_⟩
      · cases hs : c'.starting with
        | none => rfl
        | some y =>
            have hy : y ≠ a := fun heq => hstarting (heq ▸ hs)
            exact absurd (Option.some.inj ((hc.starting y hy).1 hs)).symm hy
      · by_cases hy : y = a
        · subst hy
          obtain rfl := Option.some.inj (hc.inUse.block_eq.symm.trans hb')
          rw [hb]
          exact .inl rfl
        · rw [hc.block y hy] at hb'
          exact h.response y b' ((Function.update_of_ne hy ..).symm.trans hb')
  | ended x b q' pcb closes he hu hstarting hreaches =>
      exact absurd hreaches hstarting

/-- The request that an event of the notifier is for. -/
theorem Shows.exists_request (hok : m.client.Ok) (h : Shows reqs m s)
    {conn : Nat} {r : HttpcRequest} (hr : s.inFlight[conn]? = some r) :
    ∃ a b q pcb, m.client.InUse a b q pcb ∧ reqs.idxOf a = conn ∧ a ∈ reqs ∧
      r = ⟨pcb.phase.shown, b.timeoutTicks⟩ := by
  have hmap := congrArg (·[conn]?) h.inFlight
  simp only [List.getElem?_map, hr, Option.map_some] at hmap
  obtain ⟨a, ha, hshown⟩ := Option.map_eq_some_iff.1 hmap.symm
  have hmem := List.mem_of_getElem? ha
  obtain ⟨b, hb⟩ := Option.ne_none_iff_exists'.1 (h.live hmem)
  obtain ⟨q, pcb, hu⟩ := hok.inUse a b hb
  obtain ⟨hlt, rfl⟩ := List.getElem?_eq_some_iff.1 ha
  refine ⟨_, b, q, pcb, hu, h.nodup.idxOf_getElem conn hlt, hmem, ?_⟩
  exact (Option.some.inj ((shown_eq hu).symm.trans hshown)).symm

/-- The phase of the pcb in which a callback of the notifier comes. -/
def NotifierEvent.ComesIn (phase : PcbPhase) : NotifierEvent → Prop
  | .request => False
  | .start _ => False
  | .dnsFound _ _ => phase = .fresh
  | .connected _ _ => phase = .connecting
  | .received _ => phase = .established
  | .closed _ => phase = .established
  | .error _ => phase ≠ .fresh
  | .poll _ => phase ≠ .fresh

theorem comesIn_of_callback {e : NotifierEvent} {conn ticks : Nat}
    {phase : PcbPhase}
    (h : s.callback conn ⟨phase.shown, ticks⟩ e = some s') :
    e.ComesIn phase := by
  cases phase with
  | fresh => cases e <;> simp_all [Notifier.callback, PcbPhase.shown,
      NotifierEvent.ComesIn]
  | connecting => cases e <;> simp_all [Notifier.callback, PcbPhase.shown,
      NotifierEvent.ComesIn]
  | established => cases e <;> simp_all [Notifier.callback, PcbPhase.shown,
      NotifierEvent.ComesIn]

/-- A callback of the notifier is what one of the client shows as. -/
theorem exists_shown {e : NotifierEvent} {conn : Nat} (hok : m.client.Ok)
    (hp : m.client.Plain) (hu : m.client.InUse a b q pcb)
    (hconn : reqs.idxOf a = conn)
    (hstep : s.callback conn ⟨pcb.phase.shown, b.timeoutTicks⟩ e = some s')
    (he : e.conn? = some conn) :
    ∃ e' : LwipEvent, e'.Reaches m.client a q pcb.phase ∧
      e'.isCall = false ∧ e'.BringsPage ∧
      ∀ c', e'.shown reqs m.client c' = some e := by
  have hstarting : m.client.starting ≠ some a := by simp [hp.starting]
  have hplace := hu.place_eq reqs
  have hphase := comesIn_of_callback hstep
  cases e with
  | request => cases he
  | start outcome => cases he
  | dnsFound conn' connecting =>
      obtain rfl := Option.some.inj he
      have hdns := (hok.fresh q pcb hu.live).1 hphase
      rw [hu.arg_eq] at hdns
      refine ⟨.dnsFound a (some connecting) true,
        ⟨rfl, hdns.resolve_right hstarting⟩, rfl,
        by simp [LwipEvent.BringsPage], fun c' => ?_⟩
      rw [LwipEvent.shown, hconn]
      cases connecting <;> rfl
  | connected conn' written =>
      obtain rfl := Option.some.inj he
      refine ⟨.connected q written true, ⟨rfl, hphase⟩, rfl,
        by simp [LwipEvent.BringsPage], fun c' => ?_⟩
      rw [LwipEvent.shown, hplace, hconn, Option.map_some]
  | received conn' =>
      obtain rfl := Option.some.inj he
      have hbody := (onePage_body (hp.response a b hu.block_eq)).1
      refine ⟨.received q onePage .intact, ⟨rfl, hphase⟩, rfl,
        fun q' p stale heq => ?_, fun c' => ?_⟩
      · obtain ⟨rfl, rfl, rfl⟩ := LwipEvent.received.inj heq
        exact ⟨rfl, rfl⟩
      · simp [LwipEvent.shown, hu.live, hu.arg_eq, hu.block_eq, hbody, hconn]
  | closed conn' =>
      obtain rfl := Option.some.inj he
      refine ⟨.closed q true, ⟨rfl, hphase⟩, rfl,
        by simp [LwipEvent.BringsPage], fun c' => ?_⟩
      rw [LwipEvent.shown, hplace, hconn, Option.map_some]
  | error conn' =>
      obtain rfl := Option.some.inj he
      refine ⟨.error q .network, ⟨rfl, hphase⟩, rfl,
        by simp [LwipEvent.BringsPage], fun c' => ?_⟩
      rw [LwipEvent.shown, hplace, hconn, Option.map_some]
  | poll conn' =>
      obtain rfl := Option.some.inj he
      refine ⟨.poll q true, ⟨rfl, hphase⟩, rfl,
        by simp [LwipEvent.BringsPage], fun c' => ?_⟩
      rw [LwipEvent.shown, hplace, hconn, Option.map_some]

end

/-! ## Runs -/

section

variable {es : List MainEvent} {es' : List NotifierEvent} {reqs : List Addr}
  {m m' : MainLoop} {s s' : Notifier} {x : MainEvent} {e : NotifierEvent}

/-- A step of the main loop that shows as the one of the notifier. -/
theorem Matched.visible (h : Matched es es' reqs m s)
    (hmain : MainStep m x m') (hshown : x.shown reqs m m' = some e)
    (hstep : NotifierStep s e s') :
    ∃ reqs', Matched (es ++ [x]) (es' ++ [e]) reqs' m' s' := by
  obtain ⟨reqs', s₁, hrun, hnext⟩ := h.extend hmain
  rw [hshown] at hrun hnext
  obtain rfl := Run.det (run_one hstep) hrun
  exact ⟨reqs', hnext⟩

/-- A step that does not show. -/
theorem Matched.silent (h : Matched es es' reqs m s)
    (hmain : MainStep m x m') (hshown : x.shown reqs m m' = none) :
    ∃ reqs', Matched (es ++ [x]) es' reqs' m' s := by
  obtain ⟨reqs', s₁, hrun, hnext⟩ := h.extend hmain
  rw [hshown] at hrun hnext
  obtain rfl := Run.det (.nil s) hrun
  exact ⟨reqs', by simpa using hnext⟩

/-- A call of `request`. -/
theorem Matched.realise_request (h : Matched es es' reqs m s)
    (hstep : NotifierStep s .request s') :
    ∃ m' reqs', Matched (es ++ [.request]) (es' ++ [.request]) reqs' m' s' ∧
      m'.client = m.client := by
  obtain ⟨_, _, hs⟩ := h.runs
  have hcalling := (notifierStep_request hstep).1
  have hcall : ¬ m.calling = true := by simp [← hs.calling, hcalling]
  have hmain : ∃ m', MainStep m .request m' ∧ m'.client = m.client := by
    by_cases hrunning : m.running = true
    · exact ⟨m, (if_neg hcall).trans (if_pos hrunning), rfl⟩
    · exact ⟨_, (if_neg hcall).trans (if_neg hrunning), rfl⟩
  obtain ⟨m', hmain, hclient⟩ := hmain
  obtain ⟨reqs', hnext⟩ := h.visible hmain rfl hstep
  exact ⟨m', reqs', hnext, hclient⟩

/-- An initialisation for which there is no memory. -/
theorem Matched.realise_failed (h : Matched es es' reqs m s)
    (hp : m.client.Plain) (hstep : NotifierStep s (.start .failed) s') :
    ∃ es₁ m' reqs', Matched (es ++ es₁) (es' ++ [.start .failed]) reqs' m' s' ∧
      m'.client.Plain := by
  obtain ⟨_, _, hs⟩ := h.runs
  let i : InitAnswers := ⟨-1, 0, none, none, none, true⟩
  have hlwip : lwipStep m.client (.init i) = some (.ok (m.client, .val)) := by
    have hfresh : i.FreshIn m.client := by simp [i, InitAnswers.FreshIn]
    rw [lwipStep, if_pos ⟨hp.starting, hfresh⟩]
    rfl
  have hcall : m.calling = true :=
    hs.calling ▸ (notifierStep_start hstep).1
  have hmain : MainStep m (.client (.init i))
      (m.after (.init i) m.client .val) := by
    rw [MainStep, mainStep, hlwip, hcall]
    rfl
  obtain ⟨reqs', hnext⟩ := h.visible hmain (if_pos hp.starting) hstep
  exact ⟨_, _, reqs', hnext, hp⟩

/-- A request that is set up, and then started. -/
theorem Matched.realise_start (h : Matched es es' reqs m s)
    (hp : m.client.Plain) (lookup : Lookup) {outcome : StartOutcome}
    (hgoes : ∀ b, LwipEvent.goesOn b (.start lookup true) = true)
    (hshown : ∀ reqs c c', LwipEvent.shown reqs c c' (.start lookup true) =
      some (.start outcome))
    (hstep : NotifierStep s (.start outcome) s') :
    ∃ es₁ m' reqs', Matched (es ++ es₁) (es' ++ [.start outcome]) reqs' m' s' ∧
      m'.client.Plain := by
  obtain ⟨hrun, _, hs⟩ := h.runs
  have hok := hrun.ok
  obtain ⟨a, p, q, ha, hpb, hq⟩ := hs.exists_free hok hp
  have hcall : m.calling = true :=
    hs.calling ▸ (notifierStep_start hstep).1
  let i : InitAnswers := ⟨100, 100, some a, some (p, false), some q, true⟩
  let m₁ : MainLoop := { m with client := m.client.withNew a p q }
  have hinit : MainStep m (.client (.init i)) m₁ := by
    rw [MainStep, mainStep, lwipStep_init ha hpb hq hp.starting]
    have hresults : (m.client.withNew a p q).results = m.client.results := rfl
    simp [LwipEvent.isCall, hcall, MainLoop.after, LwipEvent.returns, m₁,
      hresults]
  obtain ⟨reqs₁, hset⟩ := h.silent hinit rfl
  have hok₁ : m₁.client.Ok := hok.withNew ha hpb hq hp.starting
  have hlwip : lwipStep m₁.client (.start lookup true) =
      some (m₁.client.startRequest a lookup true) := rfl
  obtain ⟨c', err, heq, heffect⟩ := @startRequest_effect m₁.client a lookup
    true hok₁ rfl
  have hmain : MainStep m₁ (.client (.start lookup true))
      (m₁.after (.start lookup true) c' err) := by
    rw [MainStep, mainStep, hlwip, heq]
    simp [LwipEvent.isCall, m₁, hcall]
  obtain ⟨reqs', hnext⟩ := hset.visible hmain (hshown _ _ _) hstep
  rw [List.append_assoc] at hnext
  exact ⟨_, _, reqs', hnext, hp.start hgoes heffect⟩

/-- What happens to the notifier, main loop and client can bring about. -/
theorem Matched.realise (h : Matched es es' reqs m s) (hp : m.client.Plain)
    (hstep : NotifierStep s e s') :
    ∃ es₁ m' reqs', Matched (es ++ es₁) (es' ++ [e]) reqs' m' s' ∧
      m'.client.Plain := by
  obtain ⟨hrun, _, hs⟩ := h.runs
  cases e with
  | request =>
      obtain ⟨m', reqs', hnext, hclient⟩ := h.realise_request hstep
      exact ⟨_, m', reqs', hnext, hclient ▸ hp⟩
  | start outcome =>
      cases outcome with
      | failed => exact h.realise_failed hp hstep
      | resolving =>
          exact h.realise_start hp .inProgress (fun _ => rfl)
            (fun _ _ _ => rfl) hstep
      | connecting =>
          exact h.realise_start hp (.known true) (fun _ => rfl)
            (fun _ _ _ => rfl) hstep
  | _ =>
      have hcallback := hstep
      simp only [NotifierStep, notifierStep] at hcallback
      obtain ⟨conn, he, hcallback⟩ := Option.bind_eq_some_iff.1 hcallback
      obtain ⟨r, hr, hcallback⟩ := Option.bind_eq_some_iff.1 hcallback
      obtain ⟨a, b, q, pcb, hu, hconn, _, rfl⟩ := hs.exists_request hrun.ok hr
      obtain ⟨x, hreaches, hcall, hpage, hshown⟩ :=
        exists_shown hrun.ok hp hu hconn hcallback he
      obtain ⟨_, hlwip⟩ := exists_lwipStep hu hreaches hcall
      obtain ⟨c', err, rfl, heffect⟩ := lwipStep_effect hrun.ok hlwip
      have hmain : MainStep m (.client x) (m.after x c' err) := by
        rw [MainStep, mainStep, hcall, hlwip]
        rfl
      obtain ⟨reqs', hnext⟩ := h.visible hmain (hshown _) hstep
      exact ⟨_, _, reqs', hnext, hp.effect heffect hcall hpage⟩

theorem NotifierRun.matched (h : NotifierRun es' s) :
    ∃ es reqs m, Matched es es' reqs m s := by
  have hplain : ∃ es reqs m, Matched es es' reqs m s ∧ m.client.Plain := by
    refine Run.history (P := fun es' s => ∃ es reqs m,
      Matched es es' reqs m s ∧ m.client.Plain) ?_
      ⟨[], [], _, .start, plain_start⟩ h
    rintro done s e s' ⟨es, reqs, m, hmatched, hp⟩ hstep
    obtain ⟨es₁, m', reqs', hnext, hp'⟩ := hmatched.realise hp hstep
    exact ⟨_, reqs', m', hnext, hp'⟩
  obtain ⟨es, reqs, m, hmatched, _⟩ := hplain
  exact ⟨es, reqs, m, hmatched⟩

end

/-- Main loop and client refine the notifier, and do all that it does: every
run of the one is matched by one of the other, event by event. -/
theorem main_run_refines :
    (∀ es m, MainRun es m → ∃ es' reqs s, Matched es es' reqs m s) ∧
    (∀ es' s, NotifierRun es' s → ∃ es reqs m, Matched es es' reqs m s) ∧
    ∀ es es' reqs m s, Matched es es' reqs m s →
      MainRun es m ∧ NotifierRun es' s ∧ Shows reqs m s :=
  ⟨fun _ _ h => h.matched, fun _ _ h => h.matched,
    fun _ _ _ _ _ h => h.runs⟩

end IotHome.Firmware
