import IotHome.Firmware.HttpcLifecycle
import IotHome.Lib.Outcome
import IotHome.Lib.Runs

/-!
# The memory of the HTTP client

Every block is one request's, and so are the pbuf and the pcb it points to;
a pcb points back to its block. A request whose pcb is not connected yet is
waited for, by the main loop or by the DNS of lwIP, and no other is. This is
what every event keeps (`Ok.step`), and with it no event uses what is not
there: a step takes a request in, changes one, or takes one out, and each of
the three is a lemma of its own.
-/

namespace IotHome.Firmware

open IotHome.Lib

/-! ## Who owns what -/

/-- The block of a request that is set up, with its pcb. -/
structure LwipClient.InUse (c : LwipClient) (a : Addr) (b : HttpcBlock)
    (q : Addr) (pcb : HttpcPcb) : Prop where
  block_eq : c.block a = some b
  pcb_eq : b.pcb = some q
  live : c.pcb q = some pcb
  arg_eq : pcb.arg = a
  settings : b.connSettings = true
  ticks : 0 < b.timeoutTicks
  request : pcb.phase ≠ .established → b.request ≠ none

structure LwipClient.Ok (c : LwipClient) : Prop where
  inUse : ∀ a b, c.block a = some b → ∃ q pcb, c.InUse a b q pcb
  pcb_owned : ∀ q pcb, c.pcb q = some pcb →
    ∃ b, c.block pcb.arg = some b ∧ b.pcb = some q
  pbuf_owned : ∀ p, c.pbuf p = true →
    ∃ a b, c.block a = some b ∧ b.request = some p
  pbuf_live : ∀ a b p, c.block a = some b → b.request = some p →
    c.pbuf p = true
  pbuf_inj : ∀ a a' b b' p, c.block a = some b → c.block a' = some b' →
    b.request = some p → b'.request = some p → a = a'
  fresh : ∀ q pcb, c.pcb q = some pcb →
    (pcb.phase = .fresh ↔ pcb.arg ∈ c.dns ∨ c.starting = some pcb.arg)
  dns_nodup : c.dns.Nodup
  dns_live : ∀ a ∈ c.dns, ∃ b, c.block a = some b
  starting_live : ∀ a, c.starting = some a → ∃ b, c.block a = some b
  starting_dns : ∀ a, c.starting = some a → a ∉ c.dns

theorem LwipClient.start_ok : LwipClient.start.Ok where
  inUse _ _ h := nomatch h
  pcb_owned _ _ h := nomatch h
  pbuf_owned _ h := nomatch h
  pbuf_live _ _ _ h := nomatch h
  pbuf_inj _ _ _ _ _ h := nomatch h
  fresh _ _ h := nomatch h
  dns_nodup := .nil
  dns_live _ h := nomatch h
  starting_live _ h := nomatch h
  starting_dns _ h := nomatch h

/-- A request without its memory. -/
def LwipClient.without (c : LwipClient) (a : Addr) (b : HttpcBlock)
    (q : Addr) : LwipClient :=
  { c with
    block := Function.update c.block a none
    pbuf := fun p => c.pbuf p && b.request != some p
    pcb := Function.update c.pcb q none
    dns := c.dns.erase a
    starting := if c.starting = some a then none else c.starting }

section

variable {c c' : LwipClient} {a q : Addr} {b b' : HttpcBlock}
  {pcb pcb' : HttpcPcb}

theorem without_block (b : HttpcBlock) (q : Addr) {x : Addr}
    {b' : HttpcBlock} :
    (c.without a b q).block x = some b' ↔ x ≠ a ∧ c.block x = some b' := by
  simp only [LwipClient.without, Function.update_apply]
  split <;> simp_all

theorem without_pcb {x : Addr} {pcb : HttpcPcb} :
    (c.without a b q).pcb x = some pcb ↔ x ≠ q ∧ c.pcb x = some pcb := by
  simp only [LwipClient.without, Function.update_apply]
  split <;> simp_all

theorem without_pbuf {p : Addr} :
    (c.without a b q).pbuf p = true ↔
      c.pbuf p = true ∧ b.request ≠ some p := by
  simp [LwipClient.without]

theorem without_starting (b : HttpcBlock) (q : Addr) {x : Addr} :
    (c.without a b q).starting = some x ↔ x ≠ a ∧ c.starting = some x := by
  simp only [LwipClient.without]
  split
  · next h => simp [h, eq_comm]
  · next h =>
      refine ⟨fun hx => ⟨?_, hx⟩, And.right⟩
      rintro rfl
      exact h hx

/-- A request is taken out. -/
theorem LwipClient.Ok.without (h : c.Ok) (hu : c.InUse a b q pcb) :
    (c.without a b q).Ok := by
  obtain ⟨hb, hq, hlive, harg, -, -, -⟩ := hu
  have hdns : ∀ x, x ∈ (c.without a b q).dns ↔ x ≠ a ∧ x ∈ c.dns :=
    fun x => h.dns_nodup.mem_erase_iff
  refine ⟨?_, ?_, ?_, ?_, ?_, ?_, h.dns_nodup.erase a, ?_, ?_, ?_⟩ <;>
    simp only [without_block, without_pcb, without_pbuf, without_starting,
      hdns]
  · intro x b' ⟨hne, hx⟩
    obtain ⟨q', pcb', hu⟩ := h.inUse x b' hx
    have hq' : q' ≠ q := by
      rintro rfl
      exact hne (hu.arg_eq.symm.trans
        ((Option.some.inj (hu.live.symm.trans hlive)) ▸ harg))
    exact ⟨q', pcb', (without_block _ _).2 ⟨hne, hx⟩, hu.pcb_eq,
      without_pcb.2 ⟨hq', hu.live⟩, hu.arg_eq, hu.settings, hu.ticks,
      hu.request⟩
  · intro q' pcb' ⟨hne, hq'⟩
    obtain ⟨b', hb', hown⟩ := h.pcb_owned q' pcb' hq'
    refine ⟨b', ⟨?_, hb'⟩, hown⟩
    intro heq
    rw [heq, hb] at hb'
    cases hb'
    exact hne (Option.some.inj (hown.symm.trans hq))
  · intro p ⟨hp, hne⟩
    obtain ⟨x, b', hx, hown⟩ := h.pbuf_owned p hp
    refine ⟨x, b', ⟨?_, hx⟩, hown⟩
    rintro rfl
    exact hne (Option.some.inj (hb.symm.trans hx) ▸ hown)
  · intro x b' p ⟨hne, hx⟩ hp
    exact ⟨h.pbuf_live x b' p hx hp,
      fun hp' => hne (h.pbuf_inj x a b' b p hx hb hp hp')⟩
  · intro x x' b₁ b₂ p ⟨_, hx⟩ ⟨_, hx'⟩
    exact h.pbuf_inj x x' b₁ b₂ p hx hx'
  · intro q' pcb' ⟨hne, hq'⟩
    obtain ⟨b', hb', hown⟩ := h.pcb_owned q' pcb' hq'
    have harg' : pcb'.arg ≠ a := by
      intro heq
      rw [heq, hb] at hb'
      cases hb'
      exact hne (Option.some.inj (hown.symm.trans hq))
    simpa [harg'] using h.fresh q' pcb' hq'
  · intro x ⟨hne, hx⟩
    obtain ⟨b', hb'⟩ := h.dns_live x hx
    exact ⟨b', hne, hb'⟩
  · intro x ⟨hne, hx⟩
    obtain ⟨b', hb'⟩ := h.starting_live x hx
    exact ⟨b', hne, hb'⟩
  · intro x ⟨_, hx⟩ hdns
    exact h.starting_dns x hx hdns.2

/-- What an event does to one request, and to what it waits for. The others
are not touched. -/
structure Changes (c c' : LwipClient) (a : Addr) (b b' : HttpcBlock)
    (q : Addr) (pcb' : HttpcPcb) : Prop where
  inUse : c'.InUse a b' q pcb'
  block : ∀ x, x ≠ a → c'.block x = c.block x
  pcb : ∀ x, x ≠ q → c'.pcb x = c.pcb x
  pbuf : ∀ p, c'.pbuf p = true ↔
    c.pbuf p = true ∧ (b.request = some p → b'.request = some p)
  request : ∀ p, b'.request = some p → b.request = some p
  dns_nodup : c'.dns.Nodup
  dns : ∀ x, x ≠ a → (x ∈ c'.dns ↔ x ∈ c.dns)
  starting : ∀ x, x ≠ a → (c'.starting = some x ↔ c.starting = some x)
  fresh : pcb'.phase = .fresh ↔ a ∈ c'.dns ∨ c'.starting = some a
  starting_dns : c'.starting = some a → a ∉ c'.dns

/-- A request is changed. -/
theorem LwipClient.Ok.change (h : c.Ok) (hu : c.InUse a b q pcb)
    (hc : Changes c c' a b b' q pcb') : c'.Ok := by
  obtain ⟨hb, hq, hlive, harg, -, -, -⟩ := hu
  have hblock : ∀ x b₁, c'.block x = some b₁ →
      x = a ∧ b₁ = b' ∨ x ≠ a ∧ c.block x = some b₁ := by
    intro x b₁ hx
    by_cases hxa : x = a
    · subst hxa
      exact .inl ⟨rfl, Option.some.inj (hx.symm.trans hc.inUse.block_eq)⟩
    · exact .inr ⟨hxa, hc.block x hxa ▸ hx⟩
  have hpcb : ∀ x pcb₁, c'.pcb x = some pcb₁ →
      x = q ∧ pcb₁ = pcb' ∨ x ≠ q ∧ c.pcb x = some pcb₁ := by
    intro x pcb₁ hx
    by_cases hxq : x = q
    · subst hxq
      exact .inl ⟨rfl, Option.some.inj (hx.symm.trans hc.inUse.live)⟩
    · exact .inr ⟨hxq, hc.pcb x hxq ▸ hx⟩
  -- The pcbs of the others are not `q`, and do not point to `a`.
  have hother : ∀ x pcb₁, x ≠ q → c.pcb x = some pcb₁ → pcb₁.arg ≠ a := by
    intro x pcb₁ hne hx heq
    obtain ⟨b₁, hb₁, hown⟩ := h.pcb_owned x pcb₁ hx
    rw [heq, hb] at hb₁
    cases hb₁
    exact hne (Option.some.inj (hown.symm.trans hq))
  refine ⟨?_, ?_, ?_, ?_, ?_, ?_, hc.dns_nodup, ?_, ?_, ?_⟩
  · intro x b₁ hx
    rcases hblock x b₁ hx with ⟨rfl, rfl⟩ | ⟨hne, hx'⟩
    · exact ⟨q, pcb', hc.inUse⟩
    · obtain ⟨q', pcb₁, hu⟩ := h.inUse x b₁ hx'
      have hq' : q' ≠ q := by
        rintro rfl
        exact hne (hu.arg_eq.symm.trans
          ((Option.some.inj (hu.live.symm.trans hlive)) ▸ harg))
      exact ⟨q', pcb₁, hx, hu.pcb_eq, (hc.pcb q' hq').trans hu.live,
        hu.arg_eq, hu.settings, hu.ticks, hu.request⟩
  · intro x pcb₁ hx
    rcases hpcb x pcb₁ hx with ⟨rfl, rfl⟩ | ⟨hne, hx'⟩
    · exact ⟨b', hc.inUse.arg_eq ▸ hc.inUse.block_eq, hc.inUse.pcb_eq⟩
    · obtain ⟨b₁, hb₁, hown⟩ := h.pcb_owned x pcb₁ hx'
      exact ⟨b₁, (hc.block _ (hother x pcb₁ hne hx')).trans hb₁, hown⟩
  · intro p hp
    obtain ⟨hp', hkept⟩ := (hc.pbuf p).1 hp
    obtain ⟨x, b₁, hx, hown⟩ := h.pbuf_owned p hp'
    by_cases hxa : x = a
    · subst hxa
      cases hb.symm.trans hx
      exact ⟨x, b', hc.inUse.block_eq, hkept hown⟩
    · exact ⟨x, b₁, (hc.block x hxa).trans hx, hown⟩
  · intro x b₁ p hx hp
    rcases hblock x b₁ hx with ⟨rfl, rfl⟩ | ⟨hne, hx'⟩
    · exact (hc.pbuf p).2
        ⟨h.pbuf_live x b p hb (hc.request p hp), fun _ => hp⟩
    · refine (hc.pbuf p).2 ⟨h.pbuf_live x b₁ p hx' hp, fun hp' => ?_⟩
      exact absurd (h.pbuf_inj x a b₁ b p hx' hb hp hp') hne
  · intro x x' b₁ b₂ p hx hx' hp hp'
    rcases hblock x b₁ hx with ⟨rfl, rfl⟩ | ⟨_, hx⟩ <;>
      rcases hblock x' b₂ hx' with ⟨rfl, rfl⟩ | ⟨_, hx'⟩
    · rfl
    · exact h.pbuf_inj _ _ b b₂ p hb hx' (hc.request p hp) hp'
    · exact h.pbuf_inj _ _ b₁ b p hx hb hp (hc.request p hp')
    · exact h.pbuf_inj _ _ b₁ b₂ p hx hx' hp hp'
  · intro x pcb₁ hx
    rcases hpcb x pcb₁ hx with ⟨rfl, rfl⟩ | ⟨hne, hx'⟩
    · rw [hc.inUse.arg_eq]
      exact hc.fresh
    · have harg' := hother x pcb₁ hne hx'
      rw [hc.dns _ harg', hc.starting _ harg']
      exact h.fresh x pcb₁ hx'
  · intro x hx
    by_cases hxa : x = a
    · exact ⟨b', hxa ▸ hc.inUse.block_eq⟩
    · obtain ⟨b₁, hb₁⟩ := h.dns_live x ((hc.dns x hxa).1 hx)
      exact ⟨b₁, (hc.block x hxa).trans hb₁⟩
  · intro x hx
    by_cases hxa : x = a
    · exact ⟨b', hxa ▸ hc.inUse.block_eq⟩
    · obtain ⟨b₁, hb₁⟩ := h.starting_live x ((hc.starting x hxa).1 hx)
      exact ⟨b₁, (hc.block x hxa).trans hb₁⟩
  · intro x hx
    by_cases hxa : x = a
    · subst hxa
      exact hc.starting_dns hx
    · rw [hc.dns x hxa]
      exact h.starting_dns x ((hc.starting x hxa).1 hx)

/-- What only the numbers of requests and the reports differ from. -/
theorem LwipClient.Ok.congr (h : c.Ok) (hblock : c'.block = c.block)
    (hpbuf : c'.pbuf = c.pbuf) (hpcb : c'.pcb = c.pcb) (hdns : c'.dns = c.dns)
    (hstarting : c'.starting = c.starting) : c'.Ok := by
  obtain ⟨hinUse, hpcbOwned, hpbufOwned, hpbufLive, hinj, hfresh, hnodup,
    hdnsLive, hstartingLive, hstartingDns⟩ := h
  rw [← hblock] at hpcbOwned hpbufOwned hpbufLive hinj hdnsLive hstartingLive
  rw [← hpcb] at hpcbOwned hfresh
  rw [← hpbuf] at hpbufOwned hpbufLive
  rw [← hdns] at hfresh hnodup hdnsLive hstartingDns
  rw [← hstarting] at hfresh hstartingLive hstartingDns
  refine ⟨fun a b hb => ?_, hpcbOwned, hpbufOwned, hpbufLive, hinj, hfresh,
    hnodup, hdnsLive, hstartingLive, hstartingDns⟩
  obtain ⟨q, pcb, hu⟩ := hinUse a b (hblock ▸ hb)
  exact ⟨q, pcb, hb, hu.pcb_eq, hpcb ▸ hu.live, hu.arg_eq, hu.settings,
    hu.ticks, hu.request⟩

/-- What `httpc_init_connection_common` sets up. -/
def newBlock (p q : Addr) (callbackArg : Nat) : HttpcBlock :=
  ⟨some q, httpcPollTimeout, some p, true, callbackArg, .start⟩

/-- The client with a request that is set up. -/
def LwipClient.withNew (c : LwipClient) (a p q : Addr) : LwipClient :=
  { c with
    block := Function.update c.block a (some (newBlock p q c.started))
    pbuf := Function.update c.pbuf p true
    pcb := Function.update c.pcb q (some ⟨a, .fresh⟩)
    starting := some a }

/-- A request is taken in. -/
theorem LwipClient.Ok.withNew (h : c.Ok) {a p q : Addr}
    (ha : c.block a = none) (hp : c.pbuf p = false) (hq : c.pcb q = none)
    (hnone : c.starting = none) : (c.withNew a p q).Ok := by
  have hblock : ∀ x b, (c.withNew a p q).block x = some b ↔
      x = a ∧ b = newBlock p q c.started ∨ c.block x = some b := by
    intro x b
    by_cases hx : x = a
    · subst hx
      simp [LwipClient.withNew, ha, eq_comm]
    · simp [LwipClient.withNew, hx]
  have hpcb : ∀ x pcb, (c.withNew a p q).pcb x = some pcb ↔
      x = q ∧ pcb = ⟨a, .fresh⟩ ∨ c.pcb x = some pcb := by
    intro x pcb
    by_cases hx : x = q
    · subst hx
      simp [LwipClient.withNew, hq, eq_comm]
    · simp [LwipClient.withNew, hx]
  have hpbuf : ∀ x, (c.withNew a p q).pbuf x = true ↔
      x = p ∨ c.pbuf x = true := by
    intro x
    by_cases hx : x = p
    · simp [LwipClient.withNew, hx]
    · simp [LwipClient.withNew, hx]
  have hstarting : ∀ x, (c.withNew a p q).starting = some x ↔ x = a :=
    fun x => by simp [LwipClient.withNew, eq_comm]
  have hne : ∀ x b, c.block x = some b → x ≠ a := by
    intro x b hx heq
    rw [heq, ha] at hx
    cases hx
  have hpne : ∀ x b r, c.block x = some b → b.request = some r → r ≠ p := by
    intro x b r hx hr heq
    have hlive := h.pbuf_live x b r hx hr
    rw [heq, hp] at hlive
    cases hlive
  have hdns : (c.withNew a p q).dns = c.dns := rfl
  have hadns : a ∉ c.dns := by
    intro hmem
    obtain ⟨b, hb⟩ := h.dns_live a hmem
    exact hne a b hb rfl
  refine ⟨?_, ?_, ?_, ?_, ?_, ?_, h.dns_nodup, ?_, ?_, ?_⟩
  · intro x b hx
    rcases (hblock x b).1 hx with ⟨rfl, rfl⟩ | hold
    · exact ⟨q, ⟨x, .fresh⟩, hx, rfl, (hpcb _ _).2 (.inl ⟨rfl, rfl⟩), rfl, rfl,
        Nat.zero_lt_succ _, fun _ => Option.some_ne_none p⟩
    · obtain ⟨q', pcb', hu⟩ := h.inUse x b hold
      exact ⟨q', pcb', hx, hu.pcb_eq, (hpcb _ _).2 (.inr hu.live), hu.arg_eq,
        hu.settings, hu.ticks, hu.request⟩
  · intro x pcb' hx
    rcases (hpcb x pcb').1 hx with ⟨rfl, rfl⟩ | hold
    · exact ⟨_, (hblock _ _).2 (.inl ⟨rfl, rfl⟩), rfl⟩
    · obtain ⟨b, hb, hown⟩ := h.pcb_owned x pcb' hold
      exact ⟨b, (hblock _ _).2 (.inr hb), hown⟩
  · intro x hx
    rcases (hpbuf x).1 hx with rfl | hold
    · exact ⟨a, _, (hblock _ _).2 (.inl ⟨rfl, rfl⟩), rfl⟩
    · obtain ⟨y, b, hb, hown⟩ := h.pbuf_owned x hold
      exact ⟨y, b, (hblock _ _).2 (.inr hb), hown⟩
  · intro x b r hx hr
    rcases (hblock x b).1 hx with ⟨rfl, rfl⟩ | hold
    · exact (hpbuf r).2 (.inl (Option.some.inj hr).symm)
    · exact (hpbuf r).2 (.inr (h.pbuf_live x b r hold hr))
  · intro x x' b₁ b₂ r hx hx' hr hr'
    rcases (hblock x b₁).1 hx with ⟨rfl, rfl⟩ | hold <;>
      rcases (hblock x' b₂).1 hx' with ⟨rfl, rfl⟩ | hold'
    · rfl
    · exact absurd (Option.some.inj hr).symm (hpne x' b₂ r hold' hr')
    · exact absurd (Option.some.inj hr').symm (hpne x b₁ r hold hr)
    · exact h.pbuf_inj x x' b₁ b₂ r hold hold' hr hr'
  · intro x pcb' hx
    rw [hstarting, hdns]
    rcases (hpcb x pcb').1 hx with ⟨rfl, rfl⟩ | hold
    · simp
    · obtain ⟨b, hb, _⟩ := h.pcb_owned x pcb' hold
      have hold := h.fresh x pcb' hold
      simp [hnone, hne _ b hb] at hold ⊢
      exact hold
  · intro x hx
    obtain ⟨b, hb⟩ := h.dns_live x hx
    exact ⟨b, (hblock _ _).2 (.inr hb)⟩
  · intro x hx
    exact ⟨_, (hblock _ _).2 (.inl ⟨(hstarting x).1 hx, rfl⟩)⟩
  · intro x hx
    rw [(hstarting x).1 hx]
    exact hadns

/-! ## What the functions do -/

theorem deref_eq (hb : c.block a = some b) : c.deref a = .ok b := by
  simp [LwipClient.deref, hb]

theorem usePcb_eq (hq : c.pcb q = some pcb) : c.usePcb q = .ok pcb := by
  simp [LwipClient.usePcb, hq]

/-- What `httpc_free_state` frees beside the pcb. -/
def LwipClient.freed (c : LwipClient) (a : Addr) (b : HttpcBlock) :
    LwipClient :=
  { c with
    block := Function.update c.block a none
    pbuf := fun p => c.pbuf p && b.request != some p }

theorem freeState_eq {closes : Bool} (hb : c.block a = some b)
    (hp : ∀ p, b.request = some p → c.pbuf p = true) :
    c.freeState a closes =
      match b.pcb with
      | some q => (c.freed a b).closePcb q closes
      | none => .ok (c.freed a b, .ok) := by
  have hpbuf : ∀ p, b.request = some p →
      Function.update c.pbuf p false = (c.freed a b).pbuf := by
    intro p hr
    funext x
    by_cases hx : x = p
    · simp [LwipClient.freed, hx, hr]
    · simp [LwipClient.freed, Function.update_of_ne hx, hr, Ne.symm hx]
  cases hr : b.request with
  | none =>
      have hsame : c.pbuf = (c.freed a b).pbuf := by
        funext x
        simp [LwipClient.freed, hr]
      simp only [LwipClient.freeState, LwipClient.memFree, LwipClient.deref, hb,
        hr, pure_eq_ok, ok_bind]
      rw [hsame]
      rfl
  | some p =>
      simp only [LwipClient.freeState, LwipClient.freePbuf,
        LwipClient.usePbuf, LwipClient.memFree, LwipClient.deref, hb, hr,
        hp p hr, if_true, pure_eq_ok, ok_bind]
      rw [hpbuf p hr]
      rfl

/-- The client after `httpc_close`. -/
def LwipClient.ended (c : LwipClient) (a : Addr) (b : HttpcBlock) (q : Addr)
    (report : HttpcReport) (closes : Bool) : LwipClient :=
  { c.without a b q with
    results := c.results ++ [report]
    aborted := if closes then c.aborted else c.aborted ++ [q] }

/-- What `httpc_close` returns. -/
def closeErr (closes : Bool) : LwipErr := if closes then .ok else .abrt

/-- `httpc_close` of a request that nothing waits for, whatever the callback
has written into its block and its pcb before. -/
theorem close_eq (b₁ : HttpcBlock) (pcb₁ : Option HttpcPcb)
    (result : HttpcResult) (status : UInt16) (err : LwipErr) (closes : Bool)
    (hp : ∀ p, b.request = some p → c.pbuf p = true) (hdns : a ∉ c.dns)
    (hstarting : c.starting ≠ some a) (hrequest : b₁.request = b.request)
    (hsettings : b₁.connSettings = true)
    (hpcb : b₁.pcb = some q ∧ pcb₁ ≠ none ∨
      b₁.pcb = none ∧ pcb₁ = none ∧ closes = true) :
    ((c.setBlock a b₁).setPcb q pcb₁).close a result status err closes =
      .ok (c.ended a b q ⟨b₁.callbackArg, result, b₁.response.rxContentLen,
        status, err⟩ closes, closeErr closes) := by
  let report : HttpcReport := ⟨b₁.callbackArg, result,
    b₁.response.rxContentLen, status, err⟩
  let c₁ : LwipClient :=
    { (c.setBlock a b₁).setPcb q pcb₁ with results := c.results ++ [report] }
  have hb₁ : c₁.block a = some b₁ := Function.update_self ..
  have hclose : ((c.setBlock a b₁).setPcb q pcb₁).close a result status err
      closes = c₁.freeState a closes := by
    have hb : ((c.setBlock a b₁).setPcb q pcb₁).block a = some b₁ := hb₁
    simp only [LwipClient.close, deref_eq hb, ok_bind, hsettings, if_true]
    rfl
  have hfreed : c₁.freed a b₁ =
      { (c.freed a b).setPcb q pcb₁ with
        results := c.results ++ [report] } := by
    simp only [LwipClient.freed, c₁, LwipClient.setBlock, LwipClient.setPcb,
      Function.update_idem, hrequest]
  have hwithout : c.without a b q = (c.freed a b).setPcb q none := by
    simp only [LwipClient.without, LwipClient.freed, LwipClient.setPcb,
      List.erase_of_not_mem hdns, if_neg hstarting]
  rw [hclose, freeState_eq hb₁ (hrequest ▸ hp), hfreed]
  rcases hpcb with ⟨hq, hsome⟩ | ⟨hq, hnone, hcloses⟩
  · obtain ⟨pcb', rfl⟩ := Option.ne_none_iff_exists'.1 hsome
    have hlive : ({ (c.freed a b).setPcb q (some pcb') with
        results := c.results ++ [report] } : LwipClient).pcb q = some pcb' :=
      Function.update_self ..
    simp only [hq, LwipClient.closePcb, usePcb_eq hlive, ok_bind]
    cases closes <;>
      simp [LwipClient.ended, hwithout, LwipClient.setPcb, closeErr,
        Function.update_idem, report, LwipClient.freed]
  · subst hnone hcloses
    simp [hq, LwipClient.ended, hwithout, closeErr, report,
      LwipClient.freed, LwipClient.setPcb]

/-! ## What an event does -/

/-- What a callback that does not end its request leaves in the block. -/
def LwipEvent.after (b : HttpcBlock) : LwipEvent → HttpcBlock
  | .connected _ _ _ => { b with request := none }
  | .received _ p stale =>
      { b with
        timeoutTicks :=
          if b.response.givesBody stale p then httpcPollTimeout
          else b.timeoutTicks
        response := httpcTcpRecv stale b.response p }
  | .poll _ _ => { b with timeoutTicks := b.timeoutTicks - 1 }
  | _ => b

/-- What `result_fn` is told by a callback that ends its request. -/
def LwipEvent.report (b : HttpcBlock) (e : LwipEvent) : HttpcReport :=
  let (result, status, err) : HttpcResult × UInt16 × LwipErr :=
    match e with
    | .dnsFound _ (some _) _ => (.errConnect, 0, .network)
    | .dnsFound _ none _ => (.errHostname, 0, .arg)
    | .connected _ _ _ => (.errMem, 0, .mem)
    | .closed _ _ => (b.response.closedResult, b.response.rxStatus, .ok)
    | .error _ err => (.errClosed, 0, err)
    | .poll _ _ => (.errTimeout, 0, .ok)
    | _ => (.errUnknown, 0, .ok)
  ⟨b.callbackArg, result, b.response.rxContentLen, status, err⟩

/-- The event is for the request at `a` with the pcb `q`, which is in this
phase. -/
def LwipEvent.Reaches (c : LwipClient) (a q : Addr) (phase : PcbPhase) :
    LwipEvent → Prop
  | .init _ => False
  | .start _ _ => c.starting = some a
  | .dnsFound req _ _ => req = a ∧ a ∈ c.dns
  | .connected q' _ _ => q' = q ∧ phase = .connecting
  | .received q' _ _ => q' = q ∧ phase = .established
  | .closed q' _ => q' = q ∧ phase = .established
  | .error q' _ => q' = q ∧ phase ≠ .fresh
  | .poll q' _ => q' = q ∧ phase ≠ .fresh

/-- Whether a request goes on after an event that is for it. -/
def LwipEvent.goesOn (b : HttpcBlock) : LwipEvent → Bool
  | .init _ => true
  | .start (.known connects) _ => connects
  | .start .inProgress _ => true
  | .start .failed _ => false
  | .dnsFound _ ipaddr _ => ipaddr == some true
  | .connected _ written _ => written
  | .received _ _ _ => true
  | .closed _ _ => false
  | .error _ _ => false
  | .poll _ _ => b.timeoutTicks - 1 != 0

/-- The phase of the pcb of a request that goes on. -/
def LwipEvent.phaseAfter (phase : PcbPhase) : LwipEvent → PcbPhase
  | .start (.known _) _ => .connecting
  | .dnsFound _ _ _ => .connecting
  | .connected _ _ _ => .established
  | _ => phase

/-- All that an event can do. -/
inductive Effect (c : LwipClient) (e : LwipEvent) :
    LwipClient → LwipErr → Prop where
  /-- `httpc_init_connection_common` fails, and has given back what it had. -/
  | refused (i : InitAnswers) (err : LwipErr) (aborted : List Addr)
      (he : e = .init i) (herr : err ≠ .ok) :
      Effect c e { c with aborted } err
  | taken (i : InitAnswers) (a p q : Addr) (he : e = .init i)
      (hnone : c.starting = none) (ha : c.block a = none)
      (hp : c.pbuf p = false) (hq : c.pcb q = none) :
      Effect c e (c.withNew a p q) .ok
  /-- The request does not start. -/
  | dropped (a : Addr) (b : HttpcBlock) (q : Addr) (pcb : HttpcPcb)
      (lookup : Lookup) (closes : Bool) (err : LwipErr)
      (he : e = .start lookup closes) (hstarting : c.starting = some a)
      (hu : c.InUse a b q pcb) (herr : err ≠ .ok)
      (hends : e.goesOn b = false) :
      Effect c e { c.without a b q with
        aborted := if closes then c.aborted else c.aborted ++ [q] } err
  | changed (c' : LwipClient) (a : Addr) (b : HttpcBlock) (q : Addr)
      (pcb pcb' : HttpcPcb) (he : ∀ cb ∈ e.callback?, cb.1 = q)
      (hu : c.InUse a b q pcb) (hc : Changes c c' a b (e.after b) q pcb')
      (hstarting : c'.starting ≠ some a)
      (hstarted : c'.started =
        if c.starting = some a then c.started + 1 else c.started)
      (hresults : c'.results = c.results) (haborted : c'.aborted = c.aborted)
      (hreaches : e.Reaches c a q pcb.phase) (hgoes : e.goesOn b = true)
      (hphase : pcb'.phase = e.phaseAfter pcb.phase) :
      Effect c e c' .ok
  | ended (a : Addr) (b : HttpcBlock) (q : Addr) (pcb : HttpcPcb)
      (closes : Bool) (he : ∀ cb ∈ e.callback?, cb.1 = q)
      (hu : c.InUse a b q pcb) (hstarting : c.starting ≠ some a)
      (hreaches : e.Reaches c a q pcb.phase) (hends : e.goesOn b = false) :
      Effect c e (c.ended a b q (e.report b) closes) (closeErr closes)

/-! ## The initialisation -/

/-- The client with a request that is being set up. -/
def LwipClient.holding (c : LwipClient) (a : Addr) (b : HttpcBlock) :
    LwipClient :=
  { c with
    block := Function.update c.block a (some b)
    pbuf := fun p => c.pbuf p || b.request == some p
    pcb := fun q => if b.pcb = some q then some ⟨a, .fresh⟩ else c.pcb q }

theorem holding_block : (c.holding a b).block a = some b :=
  Function.update_self ..

theorem holding_start (hrequest : b.request = none) (hpcb : b.pcb = none) :
    c.setBlock a b = c.holding a b := by
  simp [LwipClient.setBlock, LwipClient.holding, hrequest, hpcb]

theorem holding_request {p : Addr} (hrequest : b.request = none) :
    ((c.holding a b).setBlock a { b with request := some p }).allocPbuf p =
      c.holding a { b with request := some p } := by
  have hpbuf : Function.update (c.holding a b).pbuf p true =
      (c.holding a { b with request := some p }).pbuf := by
    funext x
    by_cases hx : x = p
    · simp [LwipClient.holding, hx]
    · simp [LwipClient.holding, hx, Ne.symm hx, hrequest]
  simp only [LwipClient.allocPbuf, LwipClient.setBlock] at hpbuf ⊢
  rw [hpbuf]
  simp [LwipClient.holding, Function.update_idem]

theorem holding_pcb (hpcb : b.pcb = none) :
    ((c.holding a b).setBlock a { b with pcb := some q }).setPcb q
        (some ⟨a, .fresh⟩) = c.holding a { b with pcb := some q } := by
  have hpcbs : Function.update (c.holding a b).pcb q (some ⟨a, .fresh⟩) =
      (c.holding a { b with pcb := some q }).pcb := by
    funext x
    by_cases hx : x = q
    · simp [LwipClient.holding, hx]
    · simp [LwipClient.holding, hx, Ne.symm hx, hpcb]
  simp only [LwipClient.setPcb, LwipClient.setBlock] at hpcbs ⊢
  rw [hpcbs]
  simp [LwipClient.holding, Function.update_idem]

theorem holding_newBlock {p : Addr} (hrequest : b.request = some p)
    (hpcb : b.pcb = some q) :
    (c.holding a b).setBlock a (newBlock p q c.started) =
      { c.withNew a p q with starting := c.starting } := by
  have hpbufs : (c.holding a b).pbuf = Function.update c.pbuf p true := by
    funext x
    by_cases hx : x = p
    · simp [LwipClient.holding, hrequest, hx]
    · simp [LwipClient.holding, hrequest, hx, Ne.symm hx]
  have hpcbs : (c.holding a b).pcb =
      Function.update c.pcb q (some ⟨a, .fresh⟩) := by
    funext x
    by_cases hx : x = q
    · simp [LwipClient.holding, hpcb, hx]
    · simp [LwipClient.holding, hpcb, hx, Ne.symm hx]
  simp only [LwipClient.setBlock]
  rw [hpbufs, hpcbs]
  simp [LwipClient.holding, LwipClient.withNew, Function.update_idem]

/-- A failed initialisation gives back what it has been given. -/
theorem initFails_eq {i : InitAnswers} (err : LwipErr)
    (ha : c.block a = none) (hp : ∀ p ∈ b.request, c.pbuf p = false)
    (hq : ∀ q ∈ b.pcb, c.pcb q = none) :
    ∃ aborted, (c.holding a b).initFails i a err =
      .ok ({ c with aborted }, .error err) := by
  have hblock : Function.update (Function.update c.block a (some b)) a none =
      c.block := by
    rw [Function.update_idem, ← ha, Function.update_eq_self]
  have hpbuf : (fun p => (c.pbuf p || b.request == some p) &&
      b.request != some p) = c.pbuf := by
    funext p
    by_cases hr : b.request = some p
    · simp [hr, hp p hr]
    · simp [beq_eq_false_iff_ne.2 hr, bne]
  rw [LwipClient.initFails, freeState_eq holding_block
    (fun p hr => by simp [LwipClient.holding, hr])]
  cases hbq : b.pcb with
  | none =>
      refine ⟨c.aborted, ?_⟩
      simp only [ok_bind, pure_eq_ok, LwipClient.freed, LwipClient.holding,
        hblock, hpbuf, hbq, reduceCtorEq, if_false]
  | some q =>
      have hpcb : Function.update (fun q' => if q = q' then
          some (⟨a, .fresh⟩ : HttpcPcb) else c.pcb q') q none = c.pcb := by
        funext q'
        by_cases hne : q' = q
        · subst hne
          simp [hq q' hbq]
        · simp [hne, Ne.symm hne]
      cases hcloses : i.closes <;>
        simp [LwipClient.closePcb, LwipClient.usePcb, LwipClient.freed,
          LwipClient.setPcb, LwipClient.holding, hblock, hpbuf, hpcb, hbq]

/-- An error, after which all is as it was. -/
def Refused (c : LwipClient)
    (r : Except MemFault (LwipClient × Except LwipErr Addr)) : Prop :=
  ∃ aborted err, err ≠ .ok ∧ r = .ok ({ c with aborted }, .error err)

theorem initPcb_cases {i : InitAnswers} {p : Addr} (ha : c.block a = none)
    (hp : c.pbuf p = false) (hpcb : ∀ q ∈ i.pcb, c.pcb q = none) :
    let b : HttpcBlock := ⟨none, httpcPollTimeout, some p, false, 0, .start⟩
    Refused c ((c.holding a b).initPcb i a c.started) ∨
    ∃ q, c.pcb q = none ∧ (c.holding a b).initPcb i a c.started =
      .ok ({ c.withNew a p q with starting := c.starting }, .ok a) := by
  intro b
  have hpfree : ∀ p' ∈ b.request, c.pbuf p' = false :=
    fun p' hr => Option.some.inj hr ▸ hp
  simp only [LwipClient.initPcb]
  cases hq : i.pcb with
  | none =>
      obtain ⟨aborted, hfails⟩ := initFails_eq (b := b) (i := i) .mem
        ha hpfree (fun q hr => nomatch hr)
      exact .inl ⟨aborted, .mem, by decide, hfails⟩
  | some q =>
      have hqfree := hpcb q hq
      simp only [deref_eq holding_block, ok_bind, holding_pcb (b := b) rfl]
      split
      · obtain ⟨aborted, hfails⟩ := initFails_eq
          (b := { b with pcb := some q }) (i := i) .val ha hpfree
          (fun q' hr => Option.some.inj hr ▸ hqfree)
        exact .inl ⟨aborted, .val, by decide, hfails⟩
      · refine .inr ⟨q, hqfree, ?_⟩
        have hnew : ({ b with
            pcb := some q, connSettings := true, callbackArg := c.started } :
            HttpcBlock) = newBlock p q c.started := rfl
        rw [hnew, holding_newBlock rfl rfl]
        rfl

/-- `httpc_init_connection_common` sets a request up, or has an error. -/
theorem initConnection_cases {i : InitAnswers} (hfresh : i.FreshIn c) :
    Refused c (c.initConnection i c.started) ∨
    ∃ a p q, c.block a = none ∧ c.pbuf p = false ∧ c.pcb q = none ∧
      c.initConnection i c.started =
        .ok ({ c.withNew a p q with starting := c.starting }, .ok a) := by
  obtain ⟨hblock, hpbuf, hpcb⟩ := hfresh
  simp only [LwipClient.initConnection]
  split
  · exact .inl ⟨c.aborted, .val, by decide, rfl⟩
  split
  · exact .inl ⟨c.aborted, .val, by decide, rfl⟩
  cases ha : i.block with
  | none => exact .inl ⟨c.aborted, .mem, by decide, rfl⟩
  | some a =>
      have hfree := hblock a ha
      simp only [LwipClient.initRequest]
      rw [holding_start rfl rfl]
      cases hp : i.request with
      | none =>
          obtain ⟨aborted, hfails⟩ := initFails_eq (i := i)
            (b := ⟨none, httpcPollTimeout, none, false, 0, .start⟩) .mem hfree
            (fun p hr => nomatch hr) (fun q hr => nomatch hr)
          exact .inl ⟨aborted, .mem, by decide, hfails⟩
      | some r =>
          obtain ⟨p, next⟩ := r
          have hpfree : c.pbuf p = false := hpbuf _ hp
          simp only [deref_eq holding_block, ok_bind]
          rw [holding_request rfl]
          cases next with
          | true =>
              obtain ⟨aborted, hfails⟩ := initFails_eq (i := i)
                (b := ⟨none, httpcPollTimeout, some p, false, 0, .start⟩)
                .mem hfree (fun p' hr => Option.some.inj hr ▸ hpfree)
                (fun q hr => nomatch hr)
              exact .inl ⟨aborted, .mem, by decide, hfails⟩
          | false =>
              refine (initPcb_cases (i := i) hfree hpfree hpcb).imp_right ?_
              intro ⟨q, hq, hsome⟩
              exact ⟨a, p, q, hfree, hpfree, hq, hsome⟩

/-! ## The start, and the callbacks -/

theorem setBlock_self (hb : c.block a = some b) : c.setBlock a b = c := by
  simp [LwipClient.setBlock, ← hb]

theorem setPcb_self (hq : c.pcb q = some pcb) :
    c.setPcb q (some pcb) = c := by
  simp [LwipClient.setPcb, ← hq]

theorem LwipClient.InUse.set_self (hu : c.InUse a b q pcb) :
    (c.setBlock a b).setPcb q (some pcb) = c := by
  rw [setBlock_self hu.block_eq, setPcb_self hu.live]

/-- Nothing waits for a request whose pcb has been connected. -/
theorem LwipClient.Ok.not_waiting (h : c.Ok) (hu : c.InUse a b q pcb)
    (hphase : pcb.phase ≠ .fresh) : a ∉ c.dns ∧ c.starting ≠ some a := by
  have hfresh := h.fresh q pcb hu.live
  rw [hu.arg_eq] at hfresh
  exact not_or.1 (mt hfresh.2 hphase)

theorem LwipClient.Ok.owned (h : c.Ok) (hq : c.pcb q = some pcb) :
    ∃ b, c.InUse pcb.arg b q pcb := by
  obtain ⟨b, hb, hown⟩ := h.pcb_owned q pcb hq
  obtain ⟨q', pcb', hu⟩ := h.inUse pcb.arg b hb
  obtain rfl := Option.some.inj (hown.symm.trans hu.pcb_eq)
  obtain rfl := Option.some.inj (hq.symm.trans hu.live)
  exact ⟨b, hu⟩

/-- A request that is waited for is not connected yet. -/
theorem LwipClient.Ok.waiting (h : c.Ok)
    (hwait : a ∈ c.dns ∨ c.starting = some a) :
    ∃ b q pcb, c.InUse a b q pcb ∧ pcb.phase = .fresh := by
  have hblock : ∃ b, c.block a = some b :=
    hwait.elim (h.dns_live a) (h.starting_live a)
  obtain ⟨b, hb⟩ := hblock
  obtain ⟨q, pcb, hu⟩ := h.inUse a b hb
  refine ⟨b, q, pcb, hu, (h.fresh q pcb hu.live).2 ?_⟩
  rw [hu.arg_eq]
  exact hwait

theorem getInternalAddr_eq (connects : Bool) (hu : c.InUse a b q pcb) :
    c.getInternalAddr a connects =
      if connects then
        .ok (c.setPcb q (some { pcb with phase := .connecting }), .ok)
      else .ok (c, .network) := by
  simp only [LwipClient.getInternalAddr, deref_eq hu.block_eq, ok_bind,
    hu.pcb_eq, notNull, usePcb_eq hu.live, pure_eq_ok]

theorem freeState_dropped {closes : Bool} (hu : c.InUse a b q pcb)
    (hp : ∀ p, b.request = some p → c.pbuf p = true) (hdns : a ∉ c.dns)
    (hstarting : c.starting = some a) :
    ({ c with starting := none } : LwipClient).freeState a closes =
      .ok ({ c.without a b q with
        aborted := if closes then c.aborted else c.aborted ++ [q] },
        closeErr closes) := by
  have hb : ({ c with starting := none } : LwipClient).block a = some b :=
    hu.block_eq
  have hlive : (({ c with starting := none } : LwipClient).freed a b).pcb q =
      some pcb := hu.live
  rw [freeState_eq hb hp]
  simp only [hu.pcb_eq, LwipClient.closePcb, usePcb_eq hlive, ok_bind]
  cases closes <;>
    simp [LwipClient.without, LwipClient.freed, LwipClient.setPcb, closeErr,
      List.erase_of_not_mem hdns, hstarting]

/-- What the start of a request does. -/
theorem startRequest_effect {lookup : Lookup} {closes : Bool} (h : c.Ok)
    (hstarting : c.starting = some a) :
    ∃ c' err, c.startRequest a lookup closes = .ok (c', err) ∧
      Effect c (.start lookup closes) c' err := by
  obtain ⟨b, q, pcb, hu, hfresh⟩ := h.waiting (.inr hstarting)
  have hdns := h.starting_dns a hstarting
  have hp := fun p => h.pbuf_live a b p hu.block_eq
  have hu₀ : ({ c with starting := none } : LwipClient).InUse a b q pcb :=
    ⟨hu.block_eq, hu.pcb_eq, hu.live, hu.arg_eq, hu.settings, hu.ticks,
      hu.request⟩
  have hdropped : ∀ err, err ≠ .ok →
      LwipEvent.goesOn b (.start lookup closes) = false →
      LwipClient.getInternal { c with starting := none } a lookup =
        .ok ({ c with starting := none }, err) →
      ∃ c' err', c.startRequest a lookup closes = .ok (c', err') ∧
        Effect c (.start lookup closes) c' err' := by
    intro err herr hends hget
    rw [LwipClient.startRequest, hget, ok_bind]
    simp only [ne_eq, herr, not_false_eq_true, if_true]
    rw [freeState_dropped hu hp hdns hstarting]
    exact ⟨_, err, rfl, .dropped a b q pcb lookup closes err rfl hstarting hu
      herr hends⟩
  have hother : ∀ x, x ≠ a → (none = some x ↔ c.starting = some x) := by
    intro x hx
    simp [hstarting, Ne.symm hx]
  have hcb : ∀ cb ∈ (LwipEvent.start lookup closes).callback?, cb.1 = q := by
    intro cb hcb
    cases hcb
  cases lookup with
  | failed =>
      refine hdropped .arg (by decide) rfl ?_
      rw [LwipClient.getInternal, deref_eq hu₀.block_eq]
      rfl
  | known connects =>
      have hget := getInternalAddr_eq connects hu₀
      cases connects with
      | false => exact hdropped .network (by decide) rfl hget
      | true =>
          rw [LwipClient.startRequest, LwipClient.getInternal, hget]
          refine ⟨_, _, rfl, .changed _ a b q pcb
            { pcb with phase := .connecting } hcb hu
            ⟨⟨hu.block_eq, hu.pcb_eq, Function.update_self .., hu.arg_eq,
              hu.settings, hu.ticks, fun _ => ?_⟩, fun _ _ => rfl,
              fun x hx => Function.update_of_ne hx .., ?_, fun _ hr => hr,
              h.dns_nodup, fun _ _ => Iff.rfl, hother, ?_, nofun⟩
            nofun ?_ rfl rfl hstarting rfl rfl⟩
          · exact hu.request (by simp [hfresh])
          · exact fun p => ⟨fun hp => ⟨hp, id⟩, And.left⟩
          · simp [LwipClient.setPcb, hdns]
          · simp [LwipClient.setPcb, hstarting]
  | inProgress =>
      rw [LwipClient.startRequest, LwipClient.getInternal,
        deref_eq hu₀.block_eq]
      refine ⟨_, _, rfl, .changed _ a b q pcb pcb hcb hu
        ⟨⟨hu.block_eq, hu.pcb_eq, hu.live, hu.arg_eq, hu.settings, hu.ticks,
          hu.request⟩, fun _ _ => rfl, fun _ _ => rfl, ?_, fun _ hr => hr, ?_,
          fun x hx => ?_, hother, ?_, nofun⟩ nofun ?_ rfl rfl hstarting rfl
        rfl⟩
      · exact fun p => ⟨fun hp => ⟨hp, id⟩, And.left⟩
      · exact List.nodup_append.2 ⟨h.dns_nodup, List.pairwise_singleton _ a,
          fun x hx y hy => by
            obtain rfl := List.mem_singleton.1 hy
            exact fun heq => hdns (heq ▸ hx)⟩
      · simp [hx]
      · simp [hfresh]
      · simp [hstarting]

theorem LwipClient.InUse.congr {c₁ : LwipClient} (hu : c.InUse a b q pcb)
    (hblock : c₁.block = c.block) (hpcb : c₁.pcb = c.pcb) :
    c₁.InUse a b q pcb :=
  ⟨hblock ▸ hu.block_eq, hu.pcb_eq, hpcb ▸ hu.live, hu.arg_eq, hu.settings,
    hu.ticks, hu.request⟩

/-- `httpc_close` of a request as it is. -/
theorem close_self (result : HttpcResult) (status : UInt16) (err : LwipErr)
    (closes : Bool) (hu : c.InUse a b q pcb)
    (hp : ∀ p, b.request = some p → c.pbuf p = true) (hdns : a ∉ c.dns)
    (hstarting : c.starting ≠ some a) :
    c.close a result status err closes =
      .ok (c.ended a b q ⟨b.callbackArg, result, b.response.rxContentLen,
        status, err⟩ closes, closeErr closes) := by
  have hclose := close_eq b (some pcb) result status err closes hp hdns
    hstarting rfl hu.settings (.inl ⟨hu.pcb_eq, nofun⟩)
  rwa [hu.set_self] at hclose

theorem LwipClient.Ok.dns_close {result : HttpcResult} {err : LwipErr}
    {closes : Bool} (h : c.Ok) (hu : c.InUse a b q pcb) (hmem : a ∈ c.dns) :
    LwipClient.close { c with dns := c.dns.erase a } a result 0 err closes =
      .ok (c.ended a b q ⟨b.callbackArg, result, b.response.rxContentLen, 0,
        err⟩ closes, closeErr closes) := by
  have herased : a ∉ c.dns.erase a := h.dns_nodup.not_mem_erase
  have hclose := close_self result 0 err closes
    (c := { c with dns := c.dns.erase a })
    (hu.congr rfl rfl) (fun p => h.pbuf_live a b p hu.block_eq) herased
    (fun hs => h.starting_dns a hs hmem)
  rw [hclose]
  simp [LwipClient.ended, LwipClient.without, List.erase_of_not_mem herased]

theorem dnsFound_effect {ipaddr : Option Bool} {closes : Bool} (h : c.Ok)
    (hmem : a ∈ c.dns) :
    ∃ c' err, ({ c with dns := c.dns.erase a } : LwipClient).dnsFound a ipaddr
      closes = .ok (c', err) ∧ Effect c (.dnsFound a ipaddr closes) c' err := by
  obtain ⟨b, q, pcb, hu, hfresh⟩ := h.waiting (.inl hmem)
  have hstarting : c.starting ≠ some a := fun hs => h.starting_dns a hs hmem
  have herased : a ∉ c.dns.erase a := h.dns_nodup.not_mem_erase
  have hu₀ : ({ c with dns := c.dns.erase a } : LwipClient).InUse a b q pcb :=
    hu.congr rfl rfl
  cases ipaddr with
  | none =>
      simp only [LwipClient.dnsFound]
      rw [h.dns_close hu hmem]
      exact ⟨_, _, rfl, .ended a b q pcb closes (fun cb hcb => nomatch hcb) hu
        hstarting ⟨rfl, hmem⟩ rfl⟩
  | some connects =>
      simp only [LwipClient.dnsFound, getInternalAddr_eq _ hu₀]
      cases connects with
      | false =>
          simp only [Bool.false_eq_true, if_false, ok_bind, reduceCtorEq]
          rw [h.dns_close hu hmem]
          exact ⟨_, _, rfl, .ended a b q pcb closes
            (fun cb hcb => nomatch hcb) hu hstarting ⟨rfl, hmem⟩ rfl⟩
      | true =>
          refine ⟨_, _, rfl, .changed _ a b q pcb
            { pcb with phase := .connecting } (fun cb hcb => nomatch hcb) hu
            ⟨⟨hu.block_eq, hu.pcb_eq, Function.update_self .., hu.arg_eq,
              hu.settings, hu.ticks, fun _ => ?_⟩, fun _ _ => rfl,
              fun x hx => Function.update_of_ne hx .., ?_, fun _ hr => hr,
              h.dns_nodup.erase a, fun x hx => List.mem_erase_of_ne hx,
              fun _ _ => Iff.rfl, ?_, fun hs => absurd hs hstarting⟩
            hstarting ?_ rfl rfl ⟨rfl, hmem⟩ rfl rfl⟩
          · exact hu.request (by simp [hfresh])
          · exact fun p => ⟨fun hp => ⟨hp, id⟩, And.left⟩
          · simp [LwipClient.setPcb, herased, hstarting]
          · simp [LwipClient.setPcb, hstarting]

/-- A change after which the request is waited for as it was. -/
theorem LwipClient.Ok.changes (h : c.Ok) (hu : c.InUse a b q pcb)
    (hphase : pcb.phase ≠ .fresh) (hu' : c'.InUse a b' q pcb')
    (hblock : ∀ x, x ≠ a → c'.block x = c.block x)
    (hpcb : ∀ x, x ≠ q → c'.pcb x = c.pcb x)
    (hpbuf : ∀ p, c'.pbuf p = true ↔
      c.pbuf p = true ∧ (b.request = some p → b'.request = some p))
    (hrequest : ∀ p, b'.request = some p → b.request = some p)
    (hdns : c'.dns = c.dns) (hstarting : c'.starting = c.starting)
    (hphase' : pcb'.phase ≠ .fresh) : Changes c c' a b b' q pcb' := by
  have hnot := h.not_waiting hu hphase
  rw [← hdns, ← hstarting] at hnot
  exact ⟨hu', hblock, hpcb, hpbuf, hrequest, hdns ▸ h.dns_nodup,
    fun _ _ => hdns ▸ Iff.rfl, fun _ _ => hstarting ▸ Iff.rfl,
    by simp [hphase', hnot], fun hs => absurd hs hnot.2⟩

theorem tcpConnected_effect {written closes : Bool} (h : c.Ok)
    (hu : c.InUse a b q pcb) (hconnecting : pcb.phase = .connecting) :
    ∃ c' err, (c.setPcb q (some ⟨a, .established⟩)).tcpConnected a written
      closes = .ok (c', err) ∧
        Effect c (.connected q written closes) c' err := by
  have hphase : pcb.phase ≠ .fresh := by simp [hconnecting]
  obtain ⟨hdns, hstarting⟩ := h.not_waiting hu hphase
  have hp := fun p => h.pbuf_live a b p hu.block_eq
  obtain ⟨p, hr⟩ := Option.ne_none_iff_exists'.1
    (hu.request (by simp [hconnecting]))
  have hb : (c.setPcb q (some ⟨a, .established⟩)).block a = some b :=
    hu.block_eq
  have hlive : (c.setPcb q (some ⟨a, .established⟩)).pcb q =
      some ⟨a, .established⟩ := Function.update_self ..
  have hpbuf : (c.setPcb q (some ⟨a, .established⟩)).usePbuf p = .ok () :=
    if_pos (hp p hr)
  have hcb : ∀ cb ∈ (LwipEvent.connected q written closes).callback?,
      cb.1 = q := fun cb hcb => Option.some.inj hcb ▸ rfl
  simp only [LwipClient.tcpConnected, deref_eq hb, ok_bind, hu.pcb_eq, hr,
    notNull, usePcb_eq hlive, hpbuf]
  cases written with
  | true =>
      let b' : HttpcBlock := { b with request := none }
      let c' : LwipClient :=
        { (c.setPcb q (some ⟨a, .established⟩)).setBlock a b' with
          pbuf := Function.update c.pbuf p false }
      refine ⟨c', .ok, ?_, .changed c' a b q pcb ⟨a, .established⟩ hcb hu
        (h.changes hu hphase ⟨Function.update_self .., hu.pcb_eq, hlive, rfl,
          hu.settings, hu.ticks, fun hne => absurd rfl hne⟩
          (fun x hx => Function.update_of_ne hx ..)
          (fun x hx => Function.update_of_ne hx ..) ?_ (fun _ hr => nomatch hr)
          rfl rfl (by simp)) hstarting ?_ rfl rfl ⟨rfl, hconnecting⟩ rfl rfl⟩
      · simp only [LwipClient.freePbuf, hpbuf, ok_bind, pure_eq_ok, if_true]
        rw [← hu.pcb_eq]
        show (c'.usePcb q >>= fun _ => Except.ok (c', LwipErr.ok)) = _
        rw [usePcb_eq (c := c') hlive, ok_bind]
      · intro x
        by_cases hx : x = p
        · simp [c', hx, hr, LwipEvent.after]
        · simp [c', hx, hr, Ne.symm hx]
      · simp [hstarting, c', LwipClient.setBlock, LwipClient.setPcb]
  | false =>
      have hclose := close_eq b (some ⟨a, .established⟩) .errMem 0 .mem closes
        hp hdns hstarting rfl hu.settings (.inl ⟨hu.pcb_eq, nofun⟩)
      rw [setBlock_self hu.block_eq] at hclose
      simp only [Bool.false_eq_true, if_false]
      rw [hclose]
      exact ⟨_, _, rfl, .ended a b q pcb closes hcb hu hstarting
        ⟨rfl, hconnecting⟩ rfl⟩

theorem received_effect {p : List Pbuf} {stale : StaleChains}
    (closes : Bool) (h : c.Ok)
    (hu : c.InUse a b q pcb) (hestablished : pcb.phase = .established) :
    ∃ c' err, c.tcpRecv a (some (p, stale)) closes = .ok (c', err) ∧
      Effect c (.received q p stale) c' err := by
  have hphase : pcb.phase ≠ .fresh := by simp [hestablished]
  obtain ⟨_, hstarting⟩ := h.not_waiting hu hphase
  simp only [LwipClient.tcpRecv, deref_eq hu.block_eq, ok_bind, pure_eq_ok]
  refine ⟨_, _, rfl, .changed _ a b q pcb pcb
    (fun cb hcb => Option.some.inj hcb ▸ rfl) hu
    (h.changes hu hphase ⟨Function.update_self .., hu.pcb_eq, hu.live,
      hu.arg_eq, hu.settings, ?_, hu.request⟩
      (fun x hx => Function.update_of_ne hx ..) (fun _ _ => rfl)
      (fun p => ⟨fun hp => ⟨hp, id⟩, And.left⟩) (fun _ hr => hr) rfl rfl
      hphase) hstarting ?_ rfl rfl ⟨rfl, hestablished⟩ rfl rfl⟩
  · simp only [LwipEvent.after]
    split
    · exact Nat.zero_lt_succ _
    · exact hu.ticks
  · simp [hstarting, LwipClient.setBlock]

theorem closed_effect {closes : Bool} (h : c.Ok) (hu : c.InUse a b q pcb)
    (hestablished : pcb.phase = .established) :
    ∃ c' err, c.tcpRecv a none closes = .ok (c', err) ∧
      Effect c (.closed q closes) c' err := by
  have hphase : pcb.phase ≠ .fresh := by simp [hestablished]
  obtain ⟨hdns, hstarting⟩ := h.not_waiting hu hphase
  have hp := fun p => h.pbuf_live a b p hu.block_eq
  simp only [LwipClient.tcpRecv, deref_eq hu.block_eq, ok_bind]
  rw [close_self _ _ _ _ hu hp hdns hstarting]
  exact ⟨_, _, rfl, .ended a b q pcb closes
    (fun cb hcb => Option.some.inj hcb ▸ rfl) hu hstarting
    ⟨rfl, hestablished⟩ rfl⟩

theorem tcpErr_eq {err : LwipErr} (h : c.Ok) (hu : c.InUse a b q pcb)
    (hphase : pcb.phase ≠ .fresh) :
    (c.setPcb q none).tcpErr a err =
      .ok (c.ended a b q (LwipEvent.report b (.error q err)) true, .ok) := by
  obtain ⟨hdns, hstarting⟩ := h.not_waiting hu hphase
  have hp := fun p => h.pbuf_live a b p hu.block_eq
  have hb : (c.setPcb q none).block a = some b := hu.block_eq
  have hclose := close_eq (q := q) { b with pcb := none } none .errClosed 0
    err true hp hdns hstarting rfl hu.settings (.inr ⟨rfl, rfl, rfl⟩)
  simp only [LwipClient.tcpErr, deref_eq hb, ok_bind]
  exact hclose

theorem tcpPoll_effect {closes : Bool} (h : c.Ok) (hu : c.InUse a b q pcb)
    (hphase : pcb.phase ≠ .fresh) :
    ∃ c' err, c.tcpPoll a closes = .ok (c', err) ∧
      Effect c (.poll q closes) c' err := by
  obtain ⟨hdns, hstarting⟩ := h.not_waiting hu hphase
  have hp := fun p => h.pbuf_live a b p hu.block_eq
  have hcb : ∀ cb ∈ (LwipEvent.poll q closes).callback?, cb.1 = q :=
    fun cb hcb => Option.some.inj hcb ▸ rfl
  simp only [LwipClient.tcpPoll, deref_eq hu.block_eq, ok_bind]
  split
  · next hzero =>
      have hclose := close_eq { b with timeoutTicks := b.timeoutTicks - 1 }
        (some pcb) .errTimeout 0 .ok closes hp hdns hstarting rfl hu.settings
        (.inl ⟨hu.pcb_eq, nofun⟩)
      have hpcb : (c.setBlock a
          { b with timeoutTicks := b.timeoutTicks - 1 }).pcb q = some pcb :=
        hu.live
      rw [setPcb_self hpcb] at hclose
      exact ⟨_, _, hclose, .ended a b q pcb closes hcb hu hstarting
        ⟨rfl, hphase⟩ (by simp [LwipEvent.goesOn, hzero])⟩
  · next hne =>
      refine ⟨_, _, rfl, .changed _ a b q pcb pcb hcb hu
        (h.changes hu hphase ⟨Function.update_self .., hu.pcb_eq, hu.live,
          hu.arg_eq, hu.settings, Nat.pos_of_ne_zero hne, hu.request⟩
          (fun x hx => Function.update_of_ne hx ..) (fun _ _ => rfl)
          (fun p => ⟨fun hp => ⟨hp, id⟩, And.left⟩) (fun _ hr => hr) rfl rfl
          hphase) hstarting ?_ rfl rfl ⟨rfl, hphase⟩
        (by simpa [LwipEvent.goesOn] using hne) rfl⟩
      simp [hstarting, LwipClient.setBlock]

/-- What a callback of a pcb does. -/
theorem callback_effect {e : LwipEvent} {may : PcbPhase → Bool} (h : c.Ok)
    (he : e.callback? = some (q, may)) (hq : c.pcb q = some pcb)
    (hmay : may pcb.phase = true) :
    ∃ c' err, c.callback pcb e = .ok (c', err) ∧ Effect c e c' err := by
  obtain ⟨b, hu⟩ := h.owned hq
  cases e with
  | init i => cases he
  | start lookup closes => cases he
  | dnsFound req ipaddr closes => cases he
  | connected q' written closes =>
      obtain ⟨rfl, rfl⟩ := Prod.mk.inj (Option.some.inj he)
      exact tcpConnected_effect h hu (of_decide_eq_true hmay)
  | received q' p =>
      obtain ⟨rfl, rfl⟩ := Prod.mk.inj (Option.some.inj he)
      exact received_effect true h hu (of_decide_eq_true hmay)
  | closed q' closes =>
      obtain ⟨rfl, rfl⟩ := Prod.mk.inj (Option.some.inj he)
      exact closed_effect h hu (of_decide_eq_true hmay)
  | error q' err =>
      obtain ⟨rfl, rfl⟩ := Prod.mk.inj (Option.some.inj he)
      have hphase : pcb.phase ≠ .fresh := of_decide_eq_true hmay
      exact ⟨_, _, tcpErr_eq h hu hphase, .ended pcb.arg b q' pcb true
        (fun cb hcb => Option.some.inj hcb ▸ rfl) hu
        (h.not_waiting hu hphase).2 ⟨rfl, hphase⟩ rfl⟩
  | poll q' closes =>
      obtain ⟨rfl, rfl⟩ := Prod.mk.inj (Option.some.inj he)
      exact tcpPoll_effect h hu (of_decide_eq_true hmay)

theorem lwipStep_callback {e : LwipEvent} {may : PcbPhase → Bool}
    (he : e.callback? = some (q, may)) :
    lwipStep c e = (c.pcb q).bind fun pcb =>
      if may pcb.phase then some (c.callback pcb e) else none := by
  cases e <;> cases he <;> rfl

/-- No event is a fault, and each does one of the things it can do. -/
theorem lwipStep_effect {e : LwipEvent}
    {r : Except MemFault (LwipClient × LwipErr)} (h : c.Ok)
    (hstep : lwipStep c e = some r) :
    ∃ c' err, r = .ok (c', err) ∧ Effect c e c' err := by
  cases e with
  | init i =>
      rw [lwipStep] at hstep
      split at hstep
      · next hok =>
          obtain rfl := Option.some.inj hstep
          rcases initConnection_cases hok.2 with
            ⟨aborted, err, herr, hinit⟩ | ⟨a, p, q, ha, hp, hq, hinit⟩
          · rw [hinit]
            exact ⟨_, _, rfl, .refused i err aborted rfl herr⟩
          · rw [hinit]
            exact ⟨_, _, rfl, .taken i a p q rfl hok.1 ha hp hq⟩
      · cases hstep
  | start lookup closes =>
      rw [lwipStep] at hstep
      obtain ⟨a, hstarting, rfl⟩ := Option.map_eq_some_iff.1 hstep
      exact startRequest_effect h hstarting
  | dnsFound req ipaddr closes =>
      rw [lwipStep] at hstep
      split at hstep
      · next hmem =>
          obtain rfl := Option.some.inj hstep
          exact dnsFound_effect h hmem
      · cases hstep
  | _ =>
      rw [lwipStep_callback rfl] at hstep
      obtain ⟨pcb, hq, hstep⟩ := Option.bind_eq_some_iff.1 hstep
      split at hstep
      · next hmay =>
          obtain rfl := Option.some.inj hstep
          exact callback_effect h rfl hq hmay
      · cases hstep

theorem LwipClient.Ok.effect {e : LwipEvent} {err : LwipErr} (h : c.Ok)
    (heffect : Effect c e c' err) : c'.Ok := by
  cases heffect with
  | refused i err aborted => exact h.congr rfl rfl rfl rfl rfl
  | taken i a p q he hnone ha hp hq => exact h.withNew ha hp hq hnone
  | dropped a b q pcb lookup closes err he hstarting hu =>
      exact (h.without hu).congr rfl rfl rfl rfl rfl
  | changed c' a b q pcb pcb' he hu hc => exact h.change hu hc
  | ended a b q pcb closes he hu =>
      exact (h.without hu).congr rfl rfl rfl rfl rfl

end

/-! ## Runs -/

abbrev LwipStep (c : LwipClient) (e : LwipEvent) (c' : LwipClient) : Prop :=
  lwipNext c e = some c'

/-- Events one after the other, from when nothing is allocated. -/
abbrev LwipRun : List LwipEvent → LwipClient → Prop := Run LwipStep .start

theorem LwipClient.Ok.effect_of_step {c c' : LwipClient} {e : LwipEvent}
    (h : c.Ok) (hstep : LwipStep c e c') : ∃ err, Effect c e c' err := by
  cases hs : lwipStep c e with
  | none => simp [LwipStep, lwipNext, hs] at hstep
  | some r =>
      obtain ⟨c₁, err, rfl, heffect⟩ := lwipStep_effect h hs
      have heq : lwipNext c e = some c₁ := by rw [lwipNext, hs]
      obtain rfl := Option.some.inj (heq.symm.trans hstep)
      exact ⟨err, heffect⟩

theorem LwipClient.Ok.step {c c' : LwipClient} {e : LwipEvent} (h : c.Ok)
    (hstep : LwipStep c e c') : c'.Ok := by
  obtain ⟨err, heffect⟩ := h.effect_of_step hstep
  exact h.effect heffect

theorem LwipRun.ok {es : List LwipEvent} {c : LwipClient}
    (h : LwipRun es c) : c.Ok :=
  Run.invariant LwipClient.Ok.step LwipClient.start_ok h

/-- What a callback of a pcb returns says whether it has aborted the pcb. -/
theorem Effect.aborts {c c' : LwipClient} {e : LwipEvent} {err : LwipErr}
    {cb : Addr × (PcbPhase → Bool)} (h : Effect c e c' err)
    (hcb : e.callback? = some cb) :
    c'.aborted = if err = .abrt then c.aborted ++ [cb.1] else c.aborted := by
  cases h with
  | refused i err aborted he =>
      subst he
      cases hcb
  | taken i a p q he =>
      subst he
      cases hcb
  | dropped a b q pcb lookup closes err he =>
      subst he
      cases hcb
  | changed c' a b q pcb pcb' he hu hc hs hstarted hresults haborted =>
      rw [haborted, if_neg (by simp)]
  | ended a b q pcb closes he =>
      obtain rfl := he cb hcb
      cases closes <;> simp [LwipClient.ended, closeErr]

/-- Whatever lwIP and the memory answer, and in whatever order the callbacks
come: no block, request pbuf or pcb is used that is not allocated, each one
that is allocated is held by one block, whose pcb calls back with it, and lwIP
is told of a pcb's abortion by the callback that aborts it, and then only. -/
theorem lwip_run_memory {es : List LwipEvent} {c : LwipClient}
    (h : LwipRun es c) :
    (∀ e fault, lwipStep c e ≠ some (.error fault)) ∧
      (∀ p, c.pbuf p = true ↔ ∃ a b, c.block a = some b ∧
        b.request = some p ∧ ∀ a' b', c.block a' = some b' →
          b'.request = some p → a' = a) ∧
      (∀ q, c.pcb q ≠ none ↔ ∃ a b, c.block a = some b ∧ b.pcb = some q) ∧
      (∀ a b, c.block a = some b → ∃ q phase, b.pcb = some q ∧
        c.pcb q = some ⟨a, phase⟩) ∧
      ∀ e cb c' err, e.callback? = some cb →
        lwipStep c e = some (.ok (c', err)) →
        c'.aborted =
          if err = .abrt then c.aborted ++ [cb.1] else c.aborted := by
  have hok := h.ok
  refine ⟨?_, ?_, ?_, ?_, ?_⟩
  · intro e fault hstep
    obtain ⟨_, _, heq, _⟩ := lwipStep_effect hok hstep
    cases heq
  · intro p
    refine ⟨fun hp => ?_, fun ⟨a, b, hb, hr, _⟩ => hok.pbuf_live a b p hb hr⟩
    obtain ⟨a, b, hb, hr⟩ := hok.pbuf_owned p hp
    exact ⟨a, b, hb, hr,
      fun a' b' hb' hr' => hok.pbuf_inj a' a b' b p hb' hb hr' hr⟩
  · intro q
    refine ⟨fun hq => ?_, fun ⟨a, b, hb, hown⟩ => ?_⟩
    · obtain ⟨pcb, hpcb⟩ := Option.ne_none_iff_exists'.1 hq
      obtain ⟨b, hb, hown⟩ := hok.pcb_owned q pcb hpcb
      exact ⟨pcb.arg, b, hb, hown⟩
    · obtain ⟨q', pcb, hu⟩ := hok.inUse a b hb
      obtain rfl := Option.some.inj (hown.symm.trans hu.pcb_eq)
      simp [hu.live]
  · intro a b hb
    obtain ⟨q, pcb, hu⟩ := hok.inUse a b hb
    obtain rfl := hu.arg_eq
    exact ⟨q, pcb.phase, hu.pcb_eq, hu.live⟩
  · intro e cb c' err hcb hstep
    obtain ⟨c₁, err₁, heq, heffect⟩ := lwipStep_effect hok hstep
    obtain ⟨rfl, rfl⟩ := Prod.mk.inj (Except.ok.inj heq)
    exact heffect.aborts hcb

/-- Such a run: a request is set up, connects, and waits for an answer. -/
theorem lwip_run_memory_waiting : ∃ c,
    LwipRun [.init ⟨100, 100, some 8, some (16, false), some 8, true⟩,
      .start (.known true) true, .connected 8 true true, .poll 8 true] c ∧
    ∀ e fault, lwipStep c e ≠ some (.error fault) := by
  have hrun : ∃ c, LwipRun
      [.init ⟨100, 100, some 8, some (16, false), some 8, true⟩,
        .start (.known true) true, .connected 8 true true, .poll 8 true] c :=
    ⟨_, run_iff_foldlM_option.1 rfl⟩
  obtain ⟨c, hrun⟩ := hrun
  exact ⟨c, hrun, (lwip_run_memory hrun).1⟩

end IotHome.Firmware
