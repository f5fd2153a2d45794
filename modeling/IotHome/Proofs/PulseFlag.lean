import IotHome.Proofs.HandlerErrors
import IotHome.Server.PulseHandler

/-!
# Whether the pulse flag is lowered again

At most one invocation of a pulse handler waits at a time, and while it does
the flag is set (`oneAtATime_run`). Whether the flag is down when none waits
depends on how the last one ended. The handler of the home page always
reaches its last line; the one of the public server does not if the pulse
cannot be translated, and then no pulse is taken up ever again.
`pulseFlag_iff` is the whole of it.
-/

namespace IotHome.Server

open IotHome.Lib

section

variable {β : Type} (H : PulseHandler β) (canAdapt : Json → Prop)

/-- In every state of a run in which no invocation waits the flag is down. -/
def FlagFollows (s₀ : PulseState β) (es : List PulseEvent) : Prop :=
  ∀ bs cs s, es = bs ++ cs → PulseRun H s₀ bs s →
    s.running = [] → s.sysPulseHandlerBlock = false

/-- Every invocation that goes on in a run has a pulse that can be
adapted. -/
def ResumesAdaptable (s₀ : PulseState β) (es : List PulseEvent) : Prop :=
  ∀ bs i cs s s' inv, es = bs ++ .resume i :: cs → PulseRun H s₀ bs s →
    pulseStep H s (.resume i) = some s' → s.running[i]? = some inv →
    canAdapt inv.pulseMsg

end

variable {β : Type} {H : PulseHandler β} {canAdapt : Json → Prop}

/-- At most one invocation waits, and it has the flag set. -/
def OneAtATime (s : PulseState β) : Prop :=
  s.running.length ≤ 1 ∧
    (s.running.length = 1 → s.sysPulseHandlerBlock = true)

theorem oneAtATime_step {s s' : PulseState β} {e : PulseEvent}
    (hs : OneAtATime s) (h : pulseStep H s e = some s') : OneAtATime s' := by
  obtain ⟨hle, hone⟩ := hs
  rcases pulseStep_cases h with ⟨_, hdown, hup, hlen⟩ | ⟨_, hflag, hlen⟩ |
    ⟨i, inv, _, hinv, _, hrunning⟩
  · have hzero : s.running.length ≠ 1 := by
      intro h1
      rw [hone h1] at hdown
      cases hdown
    exact ⟨by omega, fun _ => hup⟩
  · rw [OneAtATime, hlen, hflag]
    exact ⟨hle, hone⟩
  · have hi := (List.getElem?_eq_some_iff.1 hinv).1
    have hlen := List.length_eraseIdx_of_lt hi
    rw [OneAtATime, hrunning, hlen]
    omega

theorem oneAtATime_run {s s' : PulseState β} {es : List PulseEvent}
    (hs : OneAtATime s) (h : PulseRun H s es s') : OneAtATime s' :=
  h.invariant (fun hs hstep => oneAtATime_step hs hstep) hs

/-- One event lowers the flag with the invocation, unless it is the end of
one whose pulse cannot be adapted. -/
theorem flag_step
    (hadapt : ∀ obj devices,
      (∃ msg, H.adapt ⟨H.complete obj, devices⟩ = .ok msg) ↔ canAdapt obj)
    {s s' : PulseState β} {e : PulseEvent} (h : pulseStep H s e = some s')
    (hresume : ∀ i inv, e = .resume i → s.running[i]? = some inv →
      canAdapt inv.pulseMsg)
    (hs : s.running = [] → s.sysPulseHandlerBlock = false) :
    s'.running = [] → s'.sysPulseHandlerBlock = false := by
  intro hnone
  rcases pulseStep_cases h with ⟨_, _, _, hlen⟩ | ⟨_, hflag, hlen⟩ |
    ⟨i, inv, he, hinv, hflag, _⟩
  · rw [hnone, List.length_nil] at hlen
    omega
  · rw [hnone, List.length_nil] at hlen
    rw [hflag]
    exact hs (List.eq_nil_of_length_eq_zero hlen.symm)
  · rw [hflag]
    rcases finishSysPulse_block hadapt s inv with ⟨_, hdown⟩ | ⟨hnot, _⟩
    · exact hdown
    · exact absurd (hresume i inv he hinv) hnot

theorem flag_run
    (hadapt : ∀ obj devices,
      (∃ msg, H.adapt ⟨H.complete obj, devices⟩ = .ok msg) ↔ canAdapt obj)
    {s s' : PulseState β} {es : List PulseEvent} (h : PulseRun H s es s')
    (hresumes : ResumesAdaptable H canAdapt s es)
    (hs : s.running = [] → s.sysPulseHandlerBlock = false) :
    s'.running = [] → s'.sysPulseHandlerBlock = false := by
  induction h with
  | nil s => exact hs
  | @cons s t s' e es hstep hrest ih =>
      refine ih ?_ (flag_step hadapt hstep ?_ hs)
      · rintro bs i cs u u' inv rfl hrun
        exact hresumes (e :: bs) i cs u u' inv rfl (.cons hstep hrun)
      · rintro i inv rfl hinv
        exact hresumes [] i es s t inv rfl (.nil s) hstep hinv

/-- The flag follows the invocations exactly in the runs in which every pulse
that is finished can be adapted. -/
theorem flagFollows_iff
    (hadapt : ∀ obj devices,
      (∃ msg, H.adapt ⟨H.complete obj, devices⟩ = .ok msg) ↔ canAdapt obj)
    (heap : List Device) (store : OrderedMap MapKey Nat)
    (es : List PulseEvent) :
    FlagFollows H (.start heap store) es ↔
      ResumesAdaptable H canAdapt (.start heap store) es := by
  have hstart : OneAtATime (PulseState.start heap store : PulseState β) :=
    ⟨Nat.zero_le 1, fun h => nomatch h⟩
  constructor
  · rintro hflag bs i cs s s' inv rfl hrun hstep hinv
    obtain ⟨hle, hone⟩ := oneAtATime_run hstart hrun
    have hi := (List.getElem?_eq_some_iff.1 hinv).1
    have hset := hone (by omega)
    rcases pulseStep_cases hstep with ⟨hne, _⟩ | ⟨hne, _⟩ |
      ⟨j, inv', heq, hinv', hblock, hrunning⟩
    · exact absurd rfl (hne i)
    · exact absurd rfl (hne i)
    · obtain rfl := PulseEvent.resume.inj heq
      obtain rfl := Option.some.inj (hinv.symm.trans hinv')
      rcases finishSysPulse_block hadapt s inv with ⟨hcan, _⟩ | ⟨_, hkeeps⟩
      · exact hcan
      · -- The only invocation is gone, and has left the flag set.
        have hgone : s'.running = [] := by
          refine List.eq_nil_of_length_eq_zero ?_
          rw [hrunning, List.length_eraseIdx_of_lt hi]
          omega
        have hdown := hflag (bs ++ [.resume i]) cs s' (by simp)
          (hrun.append (.cons hstep (.nil s'))) hgone
        rw [hblock, hkeeps, hset] at hdown
        cases hdown
  · rintro hresumes bs cs s rfl hrun hnone
    refine flag_run hadapt hrun ?_ (fun _ => rfl) hnone
    rintro bs' i cs' t t' inv rfl
    exact hresumes bs' i (cs' ++ cs) t t' inv (by simp)

/-! ## The two handlers -/

theorem adaptable_setPort (port : Nat) (obj : Json) :
    Adaptable (setProp "port" (.num (Dec.ofInt port)) obj) ↔
      Adaptable obj := by
  rw [Adaptable, Adaptable, getProp?_setProp_ne (by decide)]

/-- On the home page the flag is always lowered; on the side of the public
server, in the runs in which every pulse that is finished names its
interfaces. -/
theorem pulseFlag_iff (port : Nat) (heap : List Device)
    (store : OrderedMap MapKey Nat) (es : List PulseEvent) :
    FlagFollows homePulseHandler (.start heap store) es ∧
      (FlagFollows (publicPulseHandler port) (.start heap store) es ↔
        ResumesAdaptable (publicPulseHandler port) Adaptable
          (.start heap store) es) := by
  have hhome : ∀ (obj : Json) (devices : List Device), (∃ msg,
      homePulseHandler.adapt ⟨homePulseHandler.complete obj, devices⟩ =
        .ok msg) ↔ True :=
    fun obj devices => ⟨fun _ => trivial, fun _ => ⟨_, rfl⟩⟩
  have hpublic : ∀ (obj : Json) (devices : List Device), (∃ msg,
      (publicPulseHandler port).adapt
        ⟨(publicPulseHandler port).complete obj, devices⟩ = .ok msg) ↔
          Adaptable obj :=
    fun obj _ => adaptSysPulse_ok.trans (adaptable_setPort port obj)
  refine ⟨(flagFollows_iff hhome heap store es).2 ?_,
    flagFollows_iff hpublic heap store es⟩
  intro bs i cs s s' inv _ _ _ _
  trivial

/-- A pulse without interfaces, and no device to query: nothing waits, and
the flag is set. -/
theorem flag_stuck :
    ¬ FlagFollows (publicPulseHandler 80) (.start [] .empty)
      [.message (js "\x7b\"type\":\"PULSE\"\x7d"), .resume 0] := by
  intro h
  have hend : ([.message (js "\x7b\"type\":\"PULSE\"\x7d"), .resume 0].foldlM
      (pulseStep (publicPulseHandler 80)) (.start [] .empty)).map
        (fun s => (s.running.length, s.sysPulseHandlerBlock)) =
      some (0, true) := by decide +kernel
  obtain ⟨s, hs, hflag⟩ := Option.map_eq_some_iff.1 hend
  obtain ⟨hnone, hset⟩ := Prod.mk.inj hflag
  have hdown := h _ [] s (List.append_nil _).symm (run_iff_foldlM_option.1 hs)
    (List.eq_nil_of_length_eq_zero hnone)
  rw [hset] at hdown
  cases hdown

end IotHome.Server
