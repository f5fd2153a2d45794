import IotHome.Firmware.Notifier
import IotHome.Proofs.RequestGuard
import Mathlib.Data.List.InsertIdx

/-!
# The notifier is the main loop without its memory

A state of the one shows in a state of the other: the requests that lwIP has,
in the order in which they were started, each as far as its pcb has come and
with the ticks of its block. And an event of the main loop and the client
shows as one event of the notifier, or as none where it sets a request up or
brings a buffer with nothing for `body_fn` (`MainEvent.shown`). Every step of
the one is then what it shows as in the other (`Shows.step`). Two runs are
`Matched` if they go along like that, event by event.
-/

namespace IotHome.Firmware

open IotHome.Lib

/-! ## What shows of a state -/

def PcbPhase.shown : PcbPhase → RequestPhase
  | .fresh => .resolving
  | .connecting => .connecting
  | .established => .sent

/-- A request as the notifier has it. -/
def LwipClient.shown (c : LwipClient) (a : Addr) : Option HttpcRequest := do
  let b ← c.block a
  let q ← b.pcb
  let pcb ← c.pcb q
  pure ⟨pcb.phase.shown, b.timeoutTicks⟩

/-- The main loop at `m`, with the requests `reqs` in flight, is the notifier
at `s`. -/
structure Shows (reqs : List Addr) (m : MainLoop) (s : Notifier) : Prop where
  running : s.running = m.running
  calling : s.calling = m.calling
  nodup : reqs.Nodup
  mem : ∀ a, a ∈ reqs ↔
    m.client.block a ≠ none ∧ m.client.starting ≠ some a
  inFlight : s.inFlight.map some = reqs.map m.client.shown
  /-- No poll has come for a request that is not started. -/
  ticks : ∀ a b, m.client.starting = some a → m.client.block a = some b →
    b.timeoutTicks = httpcPollTimeout

/-- The place of the request that a pcb is for. -/
def LwipClient.place (c : LwipClient) (reqs : List Addr) (q : Addr) :
    Option Nat :=
  (c.pcb q).map fun pcb => reqs.idxOf pcb.arg

/-- An event of the client, which brings it from `c` to `c'`, as the notifier
has it. -/
def LwipEvent.shown (reqs : List Addr) (c c' : LwipClient) :
    LwipEvent → Option NotifierEvent
  | .init _ => if c'.starting = none then some (.start .failed) else none
  | .start (.known connects) _ =>
      some (.start (if connects then .connecting else .failed))
  | .start .inProgress _ => some (.start .resolving)
  | .start .failed _ => some (.start .failed)
  | .dnsFound req ipaddr _ =>
      some (.dnsFound (reqs.idxOf req) (ipaddr == some true))
  | .connected q written _ => (c.place reqs q).map (.connected · written)
  | .received q p stale => do
      let pcb ← c.pcb q
      let b ← c.block pcb.arg
      if b.response.givesBody stale p then
        some (.received (reqs.idxOf pcb.arg))
      else none
  | .closed q _ => (c.place reqs q).map .closed
  | .error q _ => (c.place reqs q).map .error
  | .poll q _ => (c.place reqs q).map .poll

def MainEvent.shown (reqs : List Addr) (m m' : MainLoop) :
    MainEvent → Option NotifierEvent
  | .request => some .request
  | .client e => e.shown reqs m.client m'.client

/-- How the requests in flight change in a step: each keeps its place among
those that were started before and after it. -/
inductive Follows (reqs : List Addr) : List Addr → Prop where
  | same : Follows reqs reqs
  | started (a : Addr) : Follows reqs (reqs ++ [a])
  | ended (a : Addr) : Follows reqs (reqs.erase a)

/-- The notifier has gone along with the main loop, each event with what it
shows as. -/
inductive Matched : List MainEvent → List NotifierEvent → List Addr →
    MainLoop → Notifier → Prop where
  | start : Matched [] [] [] .start .start
  | step {es : List MainEvent} {es' : List NotifierEvent}
      {reqs reqs' : List Addr} {m m' : MainLoop} {s s' : Notifier}
      {e : MainEvent} :
      Matched es es' reqs m s → MainStep m e m' →
      Run NotifierStep s (e.shown reqs m m').toList s' →
      Follows reqs reqs' → Shows reqs' m' s' →
      Matched (es ++ [e]) (es' ++ (e.shown reqs m m').toList) reqs' m' s'

theorem shows_start : Shows [] .start .start where
  running := rfl
  calling := rfl
  nodup := .nil
  mem a := by simp [MainLoop.start, LwipClient.start]
  inFlight := rfl
  ticks _ _ h := by cases h

section

variable {c c' : LwipClient} {a q x qx : Addr} {b bx : HttpcBlock}
  {pcb pcbx : HttpcPcb} {e : LwipEvent}

theorem LwipClient.InUse.place_eq (hu : c.InUse a b q pcb)
    (reqs : List Addr) : c.place reqs q = some (reqs.idxOf a) := by
  rw [LwipClient.place, hu.live, Option.map_some, hu.arg_eq]

theorem shown_eq (hu : c.InUse a b q pcb) :
    c.shown a = some ⟨pcb.phase.shown, b.timeoutTicks⟩ := by
  simp [LwipClient.shown, hu.block_eq, hu.pcb_eq, hu.live]

theorem LwipClient.InUse.pcb_ne (hu : c.InUse a b q pcb)
    (hx : c.InUse x bx qx pcbx) (hne : x ≠ a) : qx ≠ q := by
  intro heq
  subst heq
  obtain rfl := Option.some.inj (hu.live.symm.trans hx.live)
  exact hne (hx.arg_eq.symm.trans hu.arg_eq)

/-- What is done to other blocks and pcbs does not show in a request. -/
theorem shown_congr (hx : c.InUse x bx qx pcbx)
    (hblock : c'.block x = c.block x) (hpcb : c'.pcb qx = c.pcb qx) :
    c'.shown x = c.shown x := by
  simp [LwipClient.shown, hblock, hx.block_eq, hx.pcb_eq, hpcb]

/-- All requests but one show as they did. -/
theorem shown_others (h : c.Ok) (hu : c.InUse a b q pcb)
    (hblock : ∀ x, x ≠ a → c'.block x = c.block x)
    (hpcb : ∀ y, y ≠ q → c'.pcb y = c.pcb y) {reqs : List Addr}
    (hreqs : ∀ x ∈ reqs, c.block x ≠ none) :
    ∀ x ∈ reqs, x ≠ a → c'.shown x = c.shown x := by
  intro x hx hne
  obtain ⟨bx, hbx⟩ := Option.ne_none_iff_exists'.1 (hreqs x hx)
  obtain ⟨qx, pcbx, hux⟩ := h.inUse x bx hbx
  exact shown_congr hux (hblock x hne) (hpcb qx (hu.pcb_ne hux hne))

/-! ## Lists of requests -/

theorem map_eq_set {α β : Type} {f f' : α → β} {l : List α} (hnd : l.Nodup)
    {i : Nat} {a : α} (hi : l[i]? = some a)
    (hf : ∀ x ∈ l, x ≠ a → f' x = f x) :
    l.map f' = (l.map f).set i (f' a) := by
  refine List.ext_getElem? fun j => ?_
  rw [List.getElem?_set, List.getElem?_map, List.getElem?_map]
  obtain ⟨hlt, rfl⟩ := List.getElem?_eq_some_iff.1 hi
  by_cases hij : i = j
  · subst hij
    simp [hlt]
  · rw [if_neg hij]
    cases hj : l[j]? with
    | none => rfl
    | some x =>
        obtain ⟨hjlt, rfl⟩ := List.getElem?_eq_some_iff.1 hj
        have hne : l[j] ≠ l[i] := fun heq =>
          hij ((List.getElem_inj hnd).1 heq).symm
        simp [hf _ (List.getElem_mem hjlt) hne]

theorem map_erase_eq {α β : Type} [DecidableEq α] {f f' : α → β}
    {l : List α} (hnd : l.Nodup) {a : α}
    (hf : ∀ x ∈ l, x ≠ a → f' x = f x) :
    (l.erase a).map f' = (l.map f).eraseIdx (l.idxOf a) := by
  rw [List.eraseIdx_map, ← List.erase_eq_eraseIdx_of_idxOf rfl]
  refine List.map_congr_left fun x hx => ?_
  obtain ⟨hne, hmem⟩ := (hnd.mem_erase_iff).1 hx
  exact hf x hmem hne

end

/-! ## What a callback does -/

theorem shown_ne_resolving {phase : PcbPhase} (h : phase ≠ .fresh) :
    phase.shown ≠ .resolving := by
  cases phase with
  | fresh => exact absurd rfl h
  | connecting => simp [PcbPhase.shown]
  | established => simp [PcbPhase.shown]

theorem notifierStep_conn {s : Notifier} {e : NotifierEvent} {conn : Nat}
    {r : HttpcRequest} (hconn : e.conn? = some conn)
    (hget : s.inFlight[conn]? = some r) :
    notifierStep s e = s.callback conn r e := by
  cases e with
  | request => cases hconn
  | start outcome => cases hconn
  | _ => simp [notifierStep, hconn, hget]

theorem run_one {s s' : Notifier} {e : NotifierEvent}
    (h : notifierStep s e = some s') : Run NotifierStep s [e] s' :=
  .cons h (.nil s')

/-- A callback of a request in flight, as the notifier has it. -/
theorem callback_shown {s : Notifier} {c : LwipClient} {a q : Addr}
    {b : HttpcBlock} {pcb : HttpcPcb} {e : LwipEvent} {reqs : List Addr}
    (hu : c.InUse a b q pcb) (hreaches : e.Reaches c a q pcb.phase)
    (hcall : e.isCall = false) (hdns : a ∈ c.dns → pcb.phase = .fresh)
    (hget : s.inFlight[reqs.idxOf a]? =
      some ⟨pcb.phase.shown, b.timeoutTicks⟩) (c' : LwipClient) :
    Run NotifierStep s (e.shown reqs c c').toList
      (if e.goesOn b then
        s.setRequest (reqs.idxOf a)
          ⟨(e.phaseAfter pcb.phase).shown, (e.after b).timeoutTicks⟩
      else s.close (reqs.idxOf a)) := by
  have hplace := hu.place_eq reqs
  cases e with
  | init i => cases hcall
  | start lookup closes => cases hcall
  | dnsFound req ipaddr closes =>
      obtain ⟨rfl, hmem⟩ := hreaches
      refine run_one ?_
      rw [hdns hmem] at hget ⊢
      rw [notifierStep_conn rfl hget]
      by_cases hfound : ipaddr = some true
      · simp [Notifier.callback, PcbPhase.shown, LwipEvent.goesOn, hfound,
          LwipEvent.phaseAfter, LwipEvent.after]
      · simp [Notifier.callback, PcbPhase.shown, LwipEvent.goesOn, hfound]
  | connected q' written closes =>
      obtain ⟨rfl, hphase⟩ := hreaches
      rw [LwipEvent.shown, hplace]
      refine run_one ?_
      rw [hphase] at hget ⊢
      rw [notifierStep_conn rfl hget]
      cases written with
      | true =>
          simp [Notifier.callback, PcbPhase.shown, LwipEvent.goesOn,
            LwipEvent.phaseAfter, LwipEvent.after]
      | false => simp [Notifier.callback, PcbPhase.shown, LwipEvent.goesOn]
  | received q' p stale =>
      obtain ⟨rfl, hphase⟩ := hreaches
      rw [hphase] at hget ⊢
      simp only [LwipEvent.shown, hu.live, hu.arg_eq, hu.block_eq,
        Option.bind_eq_bind, Option.bind_some]
      cases hbody : b.response.givesBody stale p with
      | true =>
          refine run_one ?_
          rw [notifierStep_conn rfl hget]
          simp [Notifier.callback, PcbPhase.shown, LwipEvent.goesOn, hbody,
            LwipEvent.phaseAfter, LwipEvent.after]
      | false =>
          -- Nothing has changed, and the request is put back as it was.
          obtain ⟨hlt, heq⟩ := List.getElem?_eq_some_iff.1 hget
          have hput : s.setRequest (reqs.idxOf a)
              ⟨.sent, b.timeoutTicks⟩ = s := by
            rw [Notifier.setRequest, show (⟨.sent, b.timeoutTicks⟩ :
              HttpcRequest) = s.inFlight[reqs.idxOf a] from heq.symm,
              List.set_getElem_self]
          simp only [LwipEvent.goesOn, LwipEvent.phaseAfter, LwipEvent.after,
            PcbPhase.shown, hbody, Bool.false_eq_true, if_false, if_true,
            hput]
          exact .nil s
  | closed q' closes =>
      obtain ⟨rfl, hphase⟩ := hreaches
      rw [LwipEvent.shown, hplace]
      refine run_one ?_
      rw [hphase] at hget
      rw [notifierStep_conn rfl hget]
      simp [Notifier.callback, PcbPhase.shown, LwipEvent.goesOn]
  | error q' err =>
      obtain ⟨rfl, hphase⟩ := hreaches
      rw [LwipEvent.shown, hplace]
      refine run_one ?_
      rw [notifierStep_conn rfl hget]
      simp [Notifier.callback, shown_ne_resolving hphase, LwipEvent.goesOn]
  | poll q' closes =>
      obtain ⟨rfl, hphase⟩ := hreaches
      rw [LwipEvent.shown, hplace]
      refine run_one ?_
      rw [notifierStep_conn rfl hget]
      by_cases hzero : b.timeoutTicks - 1 = 0
      · simp [Notifier.callback, shown_ne_resolving hphase,
          LwipEvent.goesOn, hzero]
      · simp [Notifier.callback, shown_ne_resolving hphase,
          LwipEvent.goesOn, hzero, LwipEvent.phaseAfter, LwipEvent.after]

/-! ## What an event shows as -/

section

variable {m m' : MainLoop} {s : Notifier} {reqs : List Addr} {c' : LwipClient}
  {a p q : Addr} {b b' : HttpcBlock} {pcb pcb' : HttpcPcb}

theorem Shows.live (h : Shows reqs m s) {x : Addr} (hx : x ∈ reqs) :
    m.client.block x ≠ none := ((h.mem x).1 hx).1

/-- A request is set up, and does not show yet. -/
theorem Shows.withNew (hok : m.client.Ok) (h : Shows reqs m s)
    (hnone : m.client.starting = none) (ha : m.client.block a = none)
    (hq : m.client.pcb q = none) :
    Shows reqs { m with client := m.client.withNew a p q } s where
  running := h.running
  calling := h.calling
  nodup := h.nodup
  mem x := by
    rw [h.mem x, hnone]
    by_cases hx : x = a
    · simp [LwipClient.withNew, hx, ha]
    · simp [LwipClient.withNew, hx, Ne.symm hx]
  inFlight := by
    rw [h.inFlight]
    refine List.map_congr_left fun x hx => ?_
    obtain ⟨bx, hbx⟩ := Option.ne_none_iff_exists'.1 (h.live hx)
    obtain ⟨qx, pcbx, hux⟩ := hok.inUse x bx hbx
    have hxa : x ≠ a := by
      intro heq
      rw [heq, ha] at hbx
      cases hbx
    have hqx : qx ≠ q := by
      intro heq
      have hlive := hux.live
      rw [heq, hq] at hlive
      cases hlive
    exact (shown_congr hux (Function.update_of_ne hxa ..)
      (Function.update_of_ne hqx ..)).symm
  ticks x bx hx hbx := by
    obtain rfl := Option.some.inj hx
    have hnew : (m.client.withNew a p q).block a =
        some (newBlock p q m.client.started) := Function.update_self ..
    obtain rfl := Option.some.inj (hnew.symm.trans hbx)
    rfl

/-- A request that does not start is forgotten. -/
theorem Shows.dropped (hok : m.client.Ok) (h : Shows reqs m s)
    (hu : m.client.InUse a b q pcb) (hstarting : m.client.starting = some a)
    (hblock : c'.block = Function.update m.client.block a none)
    (hpcb : c'.pcb = Function.update m.client.pcb q none)
    (hstarting' : c'.starting = none) :
    Shows reqs { m with calling := false, client := c' }
      { s with calling := false } where
  running := h.running
  calling := rfl
  nodup := h.nodup
  mem x := by
    rw [h.mem x, hstarting, hblock, hstarting']
    by_cases hx : x = a
    · simp [hx]
    · simp [hx, Ne.symm hx]
  inFlight := by
    refine h.inFlight.trans (List.map_congr_left fun x hx => ?_)
    have hne : x ≠ a := fun heq => ((h.mem x).1 hx).2 (heq ▸ hstarting)
    refine (shown_others hok hu (fun y hy => ?_) (fun y hy => ?_)
      (fun y => h.live) x hx hne).symm
    · rw [hblock, Function.update_of_ne hy]
    · rw [hpcb, Function.update_of_ne hy]
  ticks x bx hx := by
    rw [hstarting'] at hx
    cases hx

/-- A request is started. -/
theorem Shows.begin (hok : m.client.Ok) (h : Shows reqs m s)
    (hu : m.client.InUse a b q pcb) (hc : Changes m.client c' a b b q pcb')
    (hstarting : m.client.starting = some a)
    (hstarting' : c'.starting ≠ some a) :
    Shows (reqs ++ [a]) { m with calling := false, client := c' }
      (s.begin pcb'.phase.shown) := by
  have hnot : a ∉ reqs := fun ha => ((h.mem a).1 ha).2 hstarting
  have hothers := shown_others hok hu hc.block hc.pcb fun y => h.live
  refine ⟨h.running, rfl, ?_, fun x => ?_, ?_, fun x bx hx _ => ?_⟩
  · exact List.nodup_append.2 ⟨h.nodup, List.pairwise_singleton _ a,
      fun x hx y hy heq => by
        obtain rfl := List.mem_singleton.1 hy
        exact hnot (heq ▸ hx)⟩
  · rw [List.mem_append, h.mem x, List.mem_singleton]
    by_cases hx : x = a
    · subst hx
      simp [hc.inUse.block_eq, hstarting']
    · simp only [hx, or_false, hc.block x hx, ne_eq, hc.starting x hx]
  · show (s.inFlight ++ [_]).map some = _
    rw [List.map_append, List.map_append, h.inFlight]
    congr 1
    · refine List.map_congr_left fun x hx => (hothers x hx ?_).symm
      exact fun heq => hnot (heq ▸ hx)
    · rw [List.map_singleton, List.map_singleton, shown_eq hc.inUse,
        h.ticks a b hstarting hu.block_eq]
  · -- Nothing else is being started.
    have hxa : x ≠ a := fun heq => hstarting' (heq ▸ hx)
    have hxs := (hc.starting x hxa).1 hx
    exact absurd (Option.some.inj (hxs.symm.trans hstarting)) hxa

/-- A request goes on. -/
theorem Shows.setRequest (hok : m.client.Ok) (h : Shows reqs m s)
    (hu : m.client.InUse a b q pcb) (hc : Changes m.client c' a b b' q pcb')
    (ha : a ∈ reqs) (hstarting' : c'.starting ≠ some a) :
    Shows reqs { m with client := c' }
      (s.setRequest (reqs.idxOf a) ⟨pcb'.phase.shown, b'.timeoutTicks⟩) := by
  have hothers := shown_others hok hu hc.block hc.pcb fun y => h.live
  refine ⟨h.running, h.calling, h.nodup, fun x => ?_, ?_,
    fun x bx hx hbx => ?_⟩
  · rw [h.mem x]
    by_cases hx : x = a
    · subst hx
      simp [hc.inUse.block_eq, hstarting', hu.block_eq, ((h.mem x).1 ha).2]
    · simp only [hc.block x hx, ne_eq, hc.starting x hx]
  · show (s.inFlight.set _ _).map some = _
    rw [List.map_set, h.inFlight,
      map_eq_set h.nodup (List.getElem?_idxOf ha) hothers,
      shown_eq hc.inUse]
  · have hxa : x ≠ a := fun heq => hstarting' (heq ▸ hx)
    exact h.ticks x bx ((hc.starting x hxa).1 hx) (hc.block x hxa ▸ hbx)

/-- A request is reported and forgotten. -/
theorem Shows.close (hok : m.client.Ok) (h : Shows reqs m s)
    (hu : m.client.InUse a b q pcb) (ha : a ∈ reqs) {report : HttpcReport}
    {closes : Bool} :
    Shows (reqs.erase a)
      { m with
        running := false
        client := m.client.ended a b q report closes }
      (s.close (reqs.idxOf a)) := by
  have hnot := ((h.mem a).1 ha).2
  have hothers : ∀ x ∈ reqs, x ≠ a →
      (m.client.ended a b q report closes).shown x = m.client.shown x :=
    shown_others hok hu (fun x hx => Function.update_of_ne hx ..)
      (fun y hy => Function.update_of_ne hy ..) fun y => h.live
  refine ⟨rfl, h.calling, h.nodup.erase a, fun x => ?_, ?_,
    fun x bx hx hbx => ?_⟩
  · rw [h.nodup.mem_erase_iff, h.mem x]
    show _ ↔ Function.update m.client.block a none x ≠ none ∧
      (if m.client.starting = some a then none else m.client.starting) ≠ _
    rw [if_neg hnot]
    by_cases hx : x = a <;> simp [hx]
  · show (s.inFlight.eraseIdx _).map some = _
    rw [← List.eraseIdx_map, h.inFlight, map_erase_eq h.nodup hothers]
  · have hxs := (without_starting b q).1 hx
    exact h.ticks x bx hxs.2 ((without_block b q).1 hbx).2

theorem LwipEvent.returns_callback {e : LwipEvent} (h : e.isCall = false)
    (err : LwipErr) : e.returns err = false := by
  cases e with
  | init i => cases h
  | start lookup closes => cases h
  | _ => rfl

/-- A callback is for a request in flight. -/
theorem Shows.mem_of_reaches (hok : m.client.Ok) (h : Shows reqs m s)
    (hu : m.client.InUse a b q pcb) {e : LwipEvent}
    (hreaches : e.Reaches m.client a q pcb.phase) (hcall : e.isCall = false) :
    a ∈ reqs := by
  refine (h.mem a).2 ⟨?_, hok.not_starting hu hreaches hcall⟩
  rw [hu.block_eq]
  exact Option.some_ne_none b

/-- What the notifier has of a request in flight. -/
theorem Shows.getElem?_idxOf (h : Shows reqs m s)
    (hu : m.client.InUse a b q pcb) (ha : a ∈ reqs) :
    s.inFlight[reqs.idxOf a]? =
      some ⟨pcb.phase.shown, b.timeoutTicks⟩ := by
  have hmap := congrArg (·[reqs.idxOf a]?) h.inFlight
  simp only [List.getElem?_map, List.getElem?_idxOf ha, Option.map_some,
    shown_eq hu] at hmap
  obtain ⟨r, hr, heq⟩ := Option.map_eq_some_iff.1 hmap
  rw [hr, heq]

/-- Where the name is being looked up, the pcb has not been used. -/
theorem fresh_of_dns (hok : m.client.Ok) (hu : m.client.InUse a b q pcb)
    (hdns : a ∈ m.client.dns) : pcb.phase = .fresh := by
  refine (hok.fresh q pcb hu.live).2 (.inl ?_)
  rwa [hu.arg_eq]

/-- A step is what it shows as in the notifier. -/
def StepShown (reqs : List Addr) (m m' : MainLoop) (s : Notifier)
    (e : MainEvent) : Prop :=
  ∃ reqs' s', Follows reqs reqs' ∧ Shows reqs' m' s' ∧
    Run NotifierStep s (e.shown reqs m m').toList s'

/-- A call that fails has the main loop come out of `request`. -/
theorem start_failed {lookup : Lookup} {closes : Bool}
    (hcalling : s.calling = true)
    (hends : (LwipEvent.start lookup closes).goesOn b = false)
    (reqs : List Addr) (c c' : LwipClient) :
    Run NotifierStep s
      ((LwipEvent.start lookup closes).shown reqs c c').toList
      { s with calling := false } := by
  cases lookup with
  | known connects =>
      obtain rfl : connects = false := hends
      exact run_one (by simp [notifierStep, hcalling])
  | inProgress => cases hends
  | failed => exact run_one (by simp [notifierStep, hcalling])

/-- The request goes on with a call of the main loop. -/
theorem Shows.changed_call (hok : m.client.Ok) (h : Shows reqs m s)
    {lookup : Lookup} {closes : Bool} (hcalling : s.calling = true)
    (hu : m.client.InUse a b q pcb) (hc : Changes m.client c' a b b q pcb')
    (hstarting : m.client.starting = some a)
    (hstarting' : c'.starting ≠ some a)
    (hresults : c'.results = m.client.results)
    (hgoes : (LwipEvent.start lookup closes).goesOn b = true)
    (hphase : pcb'.phase =
      (LwipEvent.start lookup closes).phaseAfter pcb.phase) :
    StepShown reqs m (m.after (.start lookup closes) c' .ok) s
      (.client (.start lookup closes)) := by
  have hfresh : pcb.phase = .fresh := by
    refine (hok.fresh q pcb hu.live).2 (.inr ?_)
    rwa [hu.arg_eq]
  have hbegin := h.begin hok hu hc hstarting hstarting'
  refine ⟨reqs ++ [a], s.begin pcb'.phase.shown, .started a, ?_, ?_⟩
  · simpa [MainLoop.after, hresults, LwipEvent.returns] using hbegin
  · rw [hphase]
    cases lookup with
    | known connects =>
        obtain rfl : connects = true := hgoes
        refine run_one ?_
        simp [notifierStep, hcalling, LwipEvent.phaseAfter, PcbPhase.shown]
    | inProgress =>
        refine run_one ?_
        simp [notifierStep, hcalling, LwipEvent.phaseAfter, PcbPhase.shown,
          hfresh]
    | failed => cases hgoes

/-- The request goes on with a callback. -/
theorem Shows.changed_callback (hok : m.client.Ok) (h : Shows reqs m s)
    {e : LwipEvent} (hcall : e.isCall = false)
    (hu : m.client.InUse a b q pcb)
    (hc : Changes m.client c' a b (e.after b) q pcb')
    (hstarting' : c'.starting ≠ some a)
    (hresults : c'.results = m.client.results)
    (hreaches : e.Reaches m.client a q pcb.phase)
    (hgoes : e.goesOn b = true)
    (hphase : pcb'.phase = e.phaseAfter pcb.phase) (err : LwipErr) :
    StepShown reqs m (m.after e c' err) s (.client e) := by
  have ha := h.mem_of_reaches hok hu hreaches hcall
  have hset := h.setRequest hok hu hc ha hstarting'
  refine ⟨reqs, s.setRequest (reqs.idxOf a)
    ⟨pcb'.phase.shown, (e.after b).timeoutTicks⟩, .same, ?_, ?_⟩
  · simpa [MainLoop.after, hresults, LwipEvent.returns_callback hcall] using
      hset
  · have hrun := callback_shown hu hreaches hcall (fresh_of_dns hok hu)
      (h.getElem?_idxOf hu ha) c'
    rwa [if_pos hgoes, ← hphase] at hrun

/-- The request is reported. -/
theorem Shows.ended_callback (hok : m.client.Ok) (h : Shows reqs m s)
    {e : LwipEvent} (hu : m.client.InUse a b q pcb)
    (hstarting : m.client.starting ≠ some a)
    (hreaches : e.Reaches m.client a q pcb.phase)
    (hends : e.goesOn b = false) (closes : Bool) (err : LwipErr) :
    StepShown reqs m
      (m.after e (m.client.ended a b q (e.report b) closes) err) s
      (.client e) := by
  have hcall : e.isCall = false := by
    cases e with
    | init i => cases hends
    | start lookup closes => exact absurd hreaches hstarting
    | _ => rfl
  have ha := h.mem_of_reaches hok hu hreaches hcall
  have hclose := @Shows.close m s reqs a q b pcb hok h hu ha (e.report b)
    closes
  have hlonger : (m.client.results.length + 1 ==
      m.client.results.length) = false := by simp
  refine ⟨reqs.erase a, s.close (reqs.idxOf a), .ended a, ?_, ?_⟩
  · simpa [MainLoop.after, LwipEvent.returns_callback hcall,
      LwipClient.ended, hlonger] using hclose
  · have hrun := callback_shown hu hreaches hcall (fresh_of_dns hok hu)
      (h.getElem?_idxOf hu ha) (m.client.ended a b q (e.report b) closes)
    rwa [if_neg (by simp [hends])] at hrun

/-- Two requests are not set up at a time. -/
theorem starting_of_init {i : InitAnswers}
    (hstep : MainStep m (.client (.init i)) m') :
    m.client.starting = none := by
  cases hnone : m.client.starting with
  | none => rfl
  | some a => simp [MainStep, mainStep, lwipStep, hnone] at hstep

theorem Shows.client_step {e : LwipEvent} (hok : m.client.Ok)
    (h : Shows reqs m s) (hstep : MainStep m (.client e) m') :
    StepShown reqs m m' s (.client e) := by
  obtain ⟨hcalls, c', err, heffect, rfl⟩ := mainStep_client hok hstep
  have hcalling : e.isCall = true → s.calling = true := by
    rw [h.calling]
    exact hcalls
  cases heffect with
  | refused i err aborted he herr =>
      subst he
      have hnone := starting_of_init hstep
      refine ⟨reqs, { s with calling := false }, .same, ⟨?_, ?_, h.nodup,
        h.mem, h.inFlight, h.ticks⟩, ?_⟩
      · simp [MainLoop.after, h.running]
      · simp [MainLoop.after, LwipEvent.returns, herr]
      · have hshown : MainEvent.shown reqs m (m.after (.init i)
            { m.client with aborted } err) (.client (.init i)) =
              some (.start .failed) := if_pos hnone
        rw [hshown]
        exact run_one (by simp [notifierStep, hcalling rfl])
  | taken i a p q he hnone ha hp hq =>
      subst he
      have hnew := h.withNew (p := p) hok hnone ha hq
      have hresults : (m.client.withNew a p q).results =
          m.client.results := rfl
      refine ⟨reqs, s, .same, ?_, ?_⟩
      · simpa [MainLoop.after, hresults, LwipEvent.returns] using hnew
      · exact .nil s
  | dropped a b q pcb lookup closes err he hstarting hu herr hends =>
      subst he
      have hresults : (m.client.without a b q).results =
          m.client.results := rfl
      refine ⟨reqs, { s with calling := false }, .same, ?_,
        start_failed (hcalling rfl) hends _ _ _⟩
      have hdropped : Shows reqs { m with
          calling := false
          client := { m.client.without a b q with
            aborted := if closes then m.client.aborted
              else m.client.aborted ++ [q] } } { s with calling := false } :=
        h.dropped hok hu hstarting rfl rfl (if_pos hstarting)
      simpa [MainLoop.after, hresults, LwipEvent.returns] using hdropped
  | changed c' a b q pcb pcb' he hu hc hstarting' hstarted hresults
      haborted hreaches hgoes hphase =>
      by_cases hcall : e.isCall = true
      · cases e with
        | init i => exact absurd hreaches id
        | start lookup closes =>
            exact h.changed_call hok (hcalling hcall) hu hc hreaches
              hstarting' hresults hgoes hphase
        | _ => cases hcall
      · exact h.changed_callback hok (Bool.not_eq_true _ ▸ hcall) hu hc
          hstarting' hresults hreaches hgoes hphase .ok
  | ended a b q pcb closes he hu hstarting hreaches hends =>
      exact h.ended_callback hok hu hstarting hreaches hends closes _

theorem Shows.request (h : Shows reqs m s)
    (hstep : MainStep m .request m') : StepShown reqs m m' s .request := by
  rw [MainStep, mainStep] at hstep
  split at hstep
  · cases hstep
  · next hcalling =>
      have hcalling' : ¬ s.calling = true := h.calling ▸ hcalling
      split at hstep
      · next hrunning =>
          obtain rfl := Option.some.inj hstep
          refine ⟨reqs, s, .same, h, run_one ?_⟩
          rw [notifierStep, if_neg hcalling', if_pos (h.running ▸ hrunning)]
      · next hrunning =>
          obtain rfl := Option.some.inj hstep
          refine ⟨reqs, { s with calling := true }, .same,
            ⟨h.running, rfl, h.nodup, h.mem, h.inFlight, h.ticks⟩,
            run_one ?_⟩
          rw [notifierStep, if_neg hcalling', if_neg (h.running ▸ hrunning)]

theorem Shows.step {e : MainEvent} (hok : m.client.Ok) (h : Shows reqs m s)
    (hstep : MainStep m e m') : StepShown reqs m m' s e := by
  cases e with
  | request => exact h.request hstep
  | client e => exact h.client_step hok hstep

end

/-! ## Runs -/

section

variable {es : List MainEvent} {es' : List NotifierEvent} {reqs : List Addr}
  {m m' : MainLoop} {s s' : Notifier} {e : MainEvent}

theorem Matched.runs (h : Matched es es' reqs m s) :
    MainRun es m ∧ NotifierRun es' s ∧ Shows reqs m s := by
  induction h with
  | start => exact ⟨.nil _, .nil _, shows_start⟩
  | step _ hstep hrun _ hs ih =>
      exact ⟨ih.1.append (.cons hstep (.nil _)), ih.2.1.append hrun, hs⟩

/-- Whatever the main loop does next, the notifier goes along. -/
theorem Matched.extend (h : Matched es es' reqs m s)
    (hstep : MainStep m e m') : ∃ reqs' s',
      Run NotifierStep s (e.shown reqs m m').toList s' ∧
      Matched (es ++ [e]) (es' ++ (e.shown reqs m m').toList) reqs' m' s' := by
  obtain ⟨hrun, _, hs⟩ := h.runs
  obtain ⟨reqs', s', hfollows, hs', hnext⟩ := hs.step hrun.ok hstep
  exact ⟨reqs', s', hnext, .step h hstep hnext hfollows hs'⟩

theorem MainRun.matched (h : MainRun es m) :
    ∃ es' reqs s, Matched es es' reqs m s := by
  refine Run.history (P := fun es m => ∃ es' reqs s,
    Matched es es' reqs m s) ?_ ⟨[], [], _, .start⟩ h
  rintro done m e m' ⟨es', reqs, s, hmatched⟩ hstep
  obtain ⟨reqs', s', _, hnext⟩ := hmatched.extend hstep
  exact ⟨_, reqs', s', hnext⟩

end

end IotHome.Firmware
