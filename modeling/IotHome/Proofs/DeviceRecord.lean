import IotHome.Firmware.Uri
import IotHome.Server.DeviceCalls

/-!
# Whether the record of a device goes back

Nothing in a call tells an answer from an older one, so the record is that of
the answer which arrived last (`lastRecorded_run`), whichever the device gave
last. It never goes back in exactly the runs in which the answers that are
recorded arrive in the order in which the device gave them
(`neverGoesBack_iff`).
-/

namespace IotHome.Server

open IotHome.Lib

section

variable {δ : Type} (serve : List Char → δ → δ × JsString)

/-- The answer of the call is number `step`, and has states to record. -/
def Records (s : DeviceSystem δ) (call step : Nat) : Prop :=
  ∃ body states, s.calls call = .answered step body ∧
    recordStates (Json.parse body) = .ok (some states)

/-- The device's record is the one of the answer number `step`. -/
def HoldsAnswer (s : DeviceSystem δ) (step : Nat) : Prop :=
  ∃ body states, s.answers[step]? = some body ∧
    recordStates (Json.parse body) = .ok (some states) ∧
    s.device.devPinStates = some states

/-- Of the answers with states that arrived in a run, number `step` was the
last. -/
def LastRecorded (s₀ : DeviceSystem δ) (es : List CallEvent) (step : Nat) :
    Prop :=
  ∃ bs call ds s, es = bs ++ .arrive call :: ds ∧ CallRun serve s₀ bs s ∧
    Records s call step ∧
    ∀ cs i ds' s' k, ds = cs ++ .arrive i :: ds' →
      CallRun serve s₀ (bs ++ .arrive call :: cs) s' → ¬ Records s' i k

/-- Of two moments of a run, the later one has no older answer recorded. -/
def NeverGoesBack (s₀ : DeviceSystem δ) (es : List CallEvent) : Prop :=
  ∀ bs cs ds s s' k l, es = bs ++ cs ++ ds →
    CallRun serve s₀ bs s → CallRun serve s₀ (bs ++ cs) s' →
    s.held = some k → s'.held = some l → k ≤ l

/-- Of two answers that are recorded, the one that arrives later is not the
older one. -/
def ArriveInOrder (s₀ : DeviceSystem δ) (es : List CallEvent) : Prop :=
  ∀ bs i cs j ds s s' k l, es = bs ++ .arrive i :: cs ++ .arrive j :: ds →
    CallRun serve s₀ bs s → CallRun serve s₀ (bs ++ .arrive i :: cs) s' →
    Records s i k → Records s' j l → k ≤ l

end

variable {δ : Type} {serve : List Char → δ → δ × JsString}

/-! ## One event -/

/-- The record changes when an answer with states arrives, and then it is
that answer's. -/
theorem callStep_held {s s' : DeviceSystem δ} {e : CallEvent}
    (h : callStep serve s e = some s') :
    s'.held = s.held ∨
      ∃ call step, e = .arrive call ∧ Records s call step ∧
        s'.held = some step := by
  rcases callStep_cases h with ⟨call, phase, _, _, rfl⟩ |
    ⟨call, query, phase, _, _, rfl⟩ | ⟨call, step, body, rfl, hcall, rfl⟩
  · exact .inl rfl
  · exact .inl rfl
  · rw [setCall_held, arrived_eq]
    cases hrec : recordStates (Json.parse body) with
    | error e => exact .inl rfl
    | ok states =>
        cases states with
        | none => exact .inl rfl
        | some states =>
            exact .inr ⟨call, step, rfl, ⟨body, states, hcall, hrec⟩, rfl⟩

/-- An answer with states is recorded when it arrives. -/
theorem callStep_arrive {s s' : DeviceSystem δ} {call step : Nat}
    (h : callStep serve s (.arrive call) = some s')
    (hrec : Records s call step) : s'.held = some step := by
  obtain ⟨body, states, hcall, hstates⟩ := hrec
  rw [callStep, hcall] at h
  obtain rfl := Option.some.inj h
  rw [setCall_held, arrived_eq, hstates]

/-- What a call waits for is an answer that was given, and what is recorded
is what the answer said. -/
structure Kept (s : DeviceSystem δ) : Prop where
  waiting : ∀ call step body, s.calls call = .answered step body →
    s.answers[step]? = some body
  recorded : ∀ step, s.held = some step → HoldsAnswer s step

theorem kept_start (device : Device) (real : δ) :
    Kept (DeviceSystem.start device real) := by
  constructor
  · intro call step body hcall
    cases hcall
  · intro step hheld
    cases hheld

theorem kept_callStep {s s' : DeviceSystem δ} {e : CallEvent} (hs : Kept s)
    (h : callStep serve s e = some s') : Kept s' := by
  rcases callStep_cases h with ⟨call, phase, _, hphase, rfl⟩ |
    ⟨call, query, phase, _, hphase, rfl⟩ | ⟨call, step, body, _, hcall, rfl⟩
  · refine ⟨fun c step body hc => ?_, hs.recorded⟩
    rw [setCall_calls] at hc
    split at hc
    · exact absurd hc (hphase step body)
    · exact hs.waiting c step body hc
  · -- Older answers keep their numbers, the new one is the next.
    have hold : ∀ (step : Nat) body, s.answers[step]? = some body →
        (s.answers ++ [(serve query s.real).2])[step]? = some body := by
      intro step body hbody
      rw [List.getElem?_append_left (List.getElem?_eq_some_iff.1 hbody).1]
      exact hbody
    refine ⟨fun c step body hc => ?_, fun step hstep => ?_⟩
    · rw [setCall_calls] at hc
      split at hc
      · rcases hphase with rfl | rfl
        · cases hc
        · obtain ⟨rfl, rfl⟩ := Call.answered.inj hc
          exact List.getElem?_concat_length
      · exact hold step body (hs.waiting c step body hc)
    · obtain ⟨body, states, hbody, hstates⟩ := hs.recorded step hstep
      exact ⟨body, states, hold step body hbody, hstates⟩
  · have hbody := hs.waiting call step body hcall
    obtain ⟨hanswers, hcalls⟩ := arrived_answers s step body
    refine ⟨fun c k b hc => ?_, fun k hk => ?_⟩
    · rw [setCall_calls, hcalls] at hc
      rw [setCall_answers, hanswers]
      split at hc
      · cases hc
      · exact hs.waiting c k b hc
    · rw [setCall_held, arrived_eq] at hk
      rw [arrived_eq]
      cases hrec : recordStates (Json.parse body) with
      | error e =>
          rw [hrec] at hk
          exact hs.recorded k hk
      | ok states =>
          rw [hrec] at hk
          cases states with
          | none => exact hs.recorded k hk
          | some states =>
              obtain rfl := Option.some.inj hk
              exact ⟨body, states, hbody, hrec, rfl⟩

/-! ## Runs -/

theorem kept_of_run {s₀ s : DeviceSystem δ} {es : List CallEvent}
    (hs : Kept s₀) (h : CallRun serve s₀ es s) : Kept s :=
  h.invariant (fun hs hstep => kept_callStep hs hstep) hs

/-- Over a run the record stays, or it is that of an answer that arrived on
the way. -/
theorem held_run {s s' : DeviceSystem δ} {es : List CallEvent}
    (h : CallRun serve s es s') :
    s'.held = s.held ∨
      ∃ bs call ds t step, es = bs ++ .arrive call :: ds ∧
        CallRun serve s bs t ∧ Records t call step ∧ s'.held = some step := by
  induction h with
  | nil s => exact .inl rfl
  | @cons s t s' e es hstep hrest ih =>
      rcases ih with hsame | ⟨bs, call, ds, u, step, rfl, hrun, hrec, hheld⟩
      · rcases callStep_held hstep with hkeep | ⟨call, step, rfl, hrec, hheld⟩
        · exact .inl (hsame.trans hkeep)
        · exact .inr ⟨[], call, es, s, step, rfl, .nil s, hrec,
            hsame.trans hheld⟩
      · exact .inr ⟨e :: bs, call, ds, u, step, rfl, .cons hstep hrun, hrec,
          hheld⟩

theorem lastRecorded_callStep {s₀ s s' : DeviceSystem δ}
    {es : List CallEvent} {e : CallEvent} (hrun : CallRun serve s₀ es s)
    (hlast : ∀ step, s.held = some step → LastRecorded serve s₀ es step)
    (h : callStep serve s e = some s') {step : Nat}
    (hheld : s'.held = some step) :
    LastRecorded serve s₀ (es ++ [e]) step := by
  by_cases hnew : ∃ call k, e = .arrive call ∧ Records s call k
  · obtain ⟨call, k, rfl, hrec⟩ := hnew
    obtain rfl := Option.some.inj ((callStep_arrive h hrec).symm.trans hheld)
    refine ⟨es, call, [], s, rfl, hrun, hrec, fun cs i ds s' l hnil => ?_⟩
    exact absurd hnil (by simp)
  · have hsame : s.held = some step := by
      rcases callStep_held h with hsame | ⟨call, k, hcall, hrec, _⟩
      · rw [← hsame, hheld]
      · exact absurd ⟨call, k, hcall, hrec⟩ hnew
    obtain ⟨bs, call, ds, t, rfl, ht, hrec, hlater⟩ := hlast step hsame
    refine ⟨bs, call, ds ++ [e], t, by simp, ht, hrec, ?_⟩
    intro cs i ds' u k hsplit hu hk
    rcases List.eq_nil_or_concat ds' with rfl | ⟨ds', x, rfl⟩
    · -- The arrival is the new event, and that one recorded nothing.
      obtain ⟨rfl, hlist⟩ := List.append_inj' hsplit rfl
      obtain rfl := Run.det hu hrun
      exact hnew ⟨i, k, (List.cons.inj hlist).1, hk⟩
    · rw [List.concat_eq_append, ← List.cons_append, ← List.append_assoc]
        at hsplit
      exact hlater cs i ds' u k (List.append_inj' hsplit rfl).1 hu hk

/-- What is held is the answer that arrived last. -/
theorem lastRecorded_run {s₀ s : DeviceSystem δ} {es : List CallEvent}
    (hnone : s₀.held = none) (h : CallRun serve s₀ es s) {step : Nat}
    (hheld : s.held = some step) : LastRecorded serve s₀ es step := by
  have hinv := Run.history
    (P := fun done t => CallRun serve s₀ done t ∧
      ∀ k, t.held = some k → LastRecorded serve s₀ done k) ?_ ⟨.nil s₀, ?_⟩ h
  · exact hinv.2 step hheld
  · intro done t e t' ⟨hrun, hlast⟩ hstep
    exact ⟨hrun.append (.cons hstep (.nil t')),
      fun k hk => lastRecorded_callStep hrun hlast hstep hk⟩
  · intro k hk
    rw [hnone] at hk
    cases hk

theorem arriveInOrder_of_neverGoesBack {s₀ s : DeviceSystem δ}
    {es : List CallEvent} (h : CallRun serve s₀ es s)
    (hback : NeverGoesBack serve s₀ es) : ArriveInOrder serve s₀ es := by
  rintro bs i cs j ds t t' k l rfl ht ht' hrec hrec'
  -- The record right behind the one arrival, and right behind the other.
  cases Run.drop ht ht' with
  | @cons _ u _ _ _ hstep hrest =>
      obtain ⟨w, hw, hds⟩ := Run.append_inv h
      obtain rfl := Run.det hw ht'
      cases hds with
      | @cons _ u' _ _ _ hstep' _ =>
          have hu : CallRun serve s₀ (bs ++ [.arrive i]) u :=
            ht.append (.cons hstep (.nil u))
          have hu' : CallRun serve s₀ ((bs ++ [.arrive i]) ++
              (cs ++ [.arrive j])) u' :=
            hu.append (hrest.append (.cons hstep' (.nil u')))
          refine hback (bs ++ [.arrive i]) (cs ++ [.arrive j]) ds u u' k l ?_
            hu hu' (callStep_arrive hstep hrec) (callStep_arrive hstep' hrec')
          simp

theorem neverGoesBack_of_arriveInOrder {s₀ : DeviceSystem δ}
    {es : List CallEvent} (hnone : s₀.held = none)
    (horder : ArriveInOrder serve s₀ es) : NeverGoesBack serve s₀ es := by
  rintro bs cs ds s s' k l rfl hs hs' hk hl
  rcases held_run hs with hsame | ⟨b₁, i, d₁, t, k', rfl, ht, hrec, hk'⟩
  · rw [hsame, hnone] at hk
    cases hk
  · obtain rfl := Option.some.inj (hk.symm.trans hk')
    rcases held_run (Run.drop hs hs') with
      hsame | ⟨b₂, j, d₂, t', l', rfl, ht', hrec', hl'⟩
    · obtain rfl := Option.some.inj (hk.symm.trans (hsame.symm.trans hl))
      exact Nat.le_refl _
    · obtain rfl := Option.some.inj (hl.symm.trans hl')
      refine horder b₁ i (d₁ ++ b₂) j (d₂ ++ ds) t t' k l (by simp) ht ?_
        hrec hrec'
      have hrun := hs.append ht'
      simpa using hrun

/-- What a device's record holds after any run, and when it never goes
back. -/
theorem neverGoesBack_iff (device : Device) (real : δ) {es : List CallEvent}
    {s : DeviceSystem δ} (h : CallRun serve (.start device real) es s) :
    (∀ step, s.held = some step →
      LastRecorded serve (.start device real) es step ∧ HoldsAnswer s step) ∧
      (NeverGoesBack serve (.start device real) es ↔
        ArriveInOrder serve (.start device real) es) :=
  ⟨fun step hheld => ⟨lastRecorded_run rfl h hheld,
      (kept_of_run (kept_start device real) h).recorded step hheld⟩,
    arriveInOrder_of_neverGoesBack h, neverGoesBack_of_arriveInOrder rfl⟩

/-! ## With the handler of the device -/

open IotHome.Firmware

/-- A device whose pins the handler moves, with no old values left behind the
parameters of a request. -/
def handlerServe (query : List Char) (g : Gpio) : Gpio × JsString :=
  let params := uriParams ((sentQuery query).getD [])
  match handleRequestParams params.length
    (fun i => (paramNames params i).or (some "")) (paramValues params) g with
  | .ok (g, res) => (g, js res)
  | .error _ => (g, [])

/-- The level the record has for a pin. -/
def recordedSta {δ : Type} (s : DeviceSystem δ) (pin : Nat) : Option Dec :=
  match s.device.devPinStates with
  | none => none
  | some states =>
      match getProp? (states.get (js (toString pin))) "sta" with
      | some (.num sta) => some sta
      | _ => none

/-- One pin, low, and nothing recorded of it. -/
def onePin : DeviceSystem Gpio :=
  .start ⟨none, none, some [2], none⟩ ⟨fun _ => false, fun _ => false, []⟩

def raisePin : JsValue :=
  some (.arr [.obj [(js "pin", .num (Dec.ofInt 2)),
    (js "val", .num (Dec.ofInt 1))]])

/-- A query is answered and then the pin is raised; both answers arrive in
that order. -/
theorem neverGoesBack_iff_in_order :
    ∃ s, CallRun handlerServe onePin [.queryState 0 true,
        .setState 1 raisePin, .serve 0, .serve 1, .arrive 0, .arrive 1] s ∧
      (∀ step, s.held = some step →
        LastRecorded handlerServe onePin [.queryState 0 true,
          .setState 1 raisePin, .serve 0, .serve 1, .arrive 0, .arrive 1]
          step ∧ HoldsAnswer s step) ∧
      (NeverGoesBack handlerServe onePin [.queryState 0 true,
          .setState 1 raisePin, .serve 0, .serve 1, .arrive 0, .arrive 1] ↔
        ArriveInOrder handlerServe onePin [.queryState 0 true,
          .setState 1 raisePin, .serve 0, .serve 1, .arrive 0, .arrive 1]) := by
  have hrun : ([.queryState 0 true, .setState 1 raisePin, .serve 0, .serve 1,
      .arrive 0, .arrive 1].foldlM (callStep handlerServe)
        onePin).isSome = true := by decide +kernel
  obtain ⟨s, hs⟩ := Option.isSome_iff_exists.1 hrun
  have hrun := run_iff_foldlM_option.1 hs
  exact ⟨s, hrun, neverGoesBack_iff _ _ hrun⟩

/-- A pulse asks for the pins, a control message raises pin 2, and the older
answer arrives last: the record has the pin low while it is high. -/
theorem goesBack_late_query :
    ∃ s s', CallRun handlerServe onePin [.queryState 0 true,
        .setState 1 raisePin, .serve 0, .serve 1, .arrive 1] s ∧
      CallRun handlerServe onePin [.queryState 0 true, .setState 1 raisePin,
        .serve 0, .serve 1, .arrive 1, .arrive 0] s' ∧
      (s.held = some 1 ∧ recordedSta s 2 = some (Dec.ofInt 1)) ∧
      (s'.held = some 0 ∧ recordedSta s' 2 = some (Dec.ofInt 0) ∧
        s'.real.level 2 = true) ∧
      ¬ NeverGoesBack handlerServe onePin [.queryState 0 true,
        .setState 1 raisePin, .serve 0, .serve 1, .arrive 1, .arrive 0] := by
  have hset : ([.queryState 0 true, .setState 1 raisePin, .serve 0, .serve 1,
      .arrive 1].foldlM (callStep handlerServe) onePin).map
        (fun s => (s.held, recordedSta s 2)) =
      some (some 1, some (Dec.ofInt 1)) := by decide +kernel
  have hback : ([.queryState 0 true, .setState 1 raisePin, .serve 0, .serve 1,
      .arrive 1, .arrive 0].foldlM (callStep handlerServe) onePin).map
        (fun s => (s.held, recordedSta s 2, s.real.level 2)) =
      some (some 0, some (Dec.ofInt 0), true) := by decide +kernel
  obtain ⟨s, hs, hheld⟩ := Option.map_eq_some_iff.1 hset
  obtain ⟨s', hs', hheld'⟩ := Option.map_eq_some_iff.1 hback
  rw [Prod.mk.injEq] at hheld
  rw [Prod.mk.injEq, Prod.mk.injEq] at hheld'
  have hrun := run_iff_foldlM_option.1 hs
  have hrun' := run_iff_foldlM_option.1 hs'
  refine ⟨s, s', hrun, hrun', hheld, hheld', fun h => ?_⟩
  have hle := h [.queryState 0 true, .setState 1 raisePin, .serve 0, .serve 1,
    .arrive 1] [.arrive 0] [] s s' 1 0 rfl hrun hrun' hheld.1 hheld'.1
  exact absurd hle (by decide)

end IotHome.Server
