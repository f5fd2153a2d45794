import IotHome.HomepageFe.Switches
import IotHome.Lib.Runs
import IotHome.Proofs.AppSteps
import IotHome.Proofs.DeviceInfo
import IotHome.Proofs.ResponseLength
import IotHome.Proofs.SetState
import IotHome.Server.PinSystem
import Mathlib.Tactic.IntervalCases

/-!
# From a switch to the pin and back

A switch that is moved drives its own pin of its own device and no other. The
message names the device (`controlRequest_switch`), the query the pin
(`drivesPin_switchQuery`), and until the device answers the handler waits
with both, whatever else the server does (`waits_of_run`).

What is recorded of the answer has this one pin, so the device's other
switches are drawn as off until the device has been asked for all its pins
(`showsOnly_answer`).
-/

namespace IotHome.HomepageFe

open IotHome.Firmware
open IotHome.Lib
open IotHome.Server

/-- A request with this query, with no other between its two callbacks, sets
the pin and no other, and this is what it is answered with. -/
def DrivesPin (iInsertLen : Nat) (query : List Char) (pin : Nat)
    (checked : Bool) (body : JsString) : Prop :=
  ∀ (b : Board) (names values : Nat → CharPtr) (behind : JsString),
    ∃ b' inserted printed,
      apiCgiHandler b (apiRequest query names values) = .ok b' ∧
      ssiHandler iInsertLen b' = .ok (inserted, printed) ∧
      sentBody iInsertLen inserted printed behind = body ∧
      b'.gpio.level pin = checked ∧
      ∀ p, p ≠ pin → b'.gpio.level p = b.gpio.level p

/-- A page that gets these states shows this pin as it is and all the others
as 0. -/
def ShowsOnly (states : PinStates) (pin : Nat) (checked : Bool) : Prop :=
  Json.parse (pinStatesText states) = some (.obj states.entries) ∧
  ∀ fields view, lastFor (js "devPinStates") fields =
      some (.obj states.entries) →
    Device (.obj fields) = .ok view → ∀ pv ∈ view.pins,
      pv.sta = .num (Dec.ofInt
        (if numberText pv.pin = pinKey pin then checked.toNat else 0))

variable {db : DevicesDb} {port : Nat}

/-! ## The message -/

def switchQuery (pin : Nat) (checked : Bool) : List Char :=
  joinQueries ([(pin, checked)].map statePairs |>.map queryOf)

theorem pinInRange_switch {pin : Nat} (hlow : 1 ≤ pin) (hhigh : pin ≤ 9)
    (checked : Bool) : ∀ s ∈ [(pin, checked)], PinInRange s :=
  List.forall_mem_singleton.2 ⟨hlow, hhigh⟩

theorem deviceStateOutMsg_eq {device : Json} {mac : JsString} {pv : PinView}
    {pin : Nat} (hmac : getProp? (some device) "mac" = some (.str mac))
    (hpin : pv.pin = .dec (Dec.ofInt pin)) (checked : Bool) :
    deviceStateOutMsg device pv checked =
      .obj [(js "type", .str (js "CTRL_DEV")), (js "mac", .str mac),
        (js "states", .arr (statesJson [(pin, checked)]))] := by
  rw [deviceStateOutMsg, hmac, hpin]
  rfl

theorem parseMsg_switch {device : Json} {mac : JsString} {pv : PinView}
    {pin : Nat} (hmac : getProp? (some device) "mac" = some (.str mac))
    (hpin : pv.pin = .dec (Dec.ofInt pin)) (checked : Bool) :
    parseMsg (handleSwitchChange device pv checked) =
      some (.obj [(js "type", .str (js "CTRL_DEV")), (js "mac", .str mac),
        (js "states", .arr (statesJson [(pin, checked)]))]) := by
  have hstate : ∀ j ∈ statesJson [(pin, checked)], Json.Canonical j := by
    intro j hj
    obtain rfl := List.mem_singleton.1 hj
    refine .obj (by show [js "pin", js "val"].Nodup; decide) ?_
    simp only [List.forall_mem_cons]
    exact ⟨.num (Dec.ofInt_normal _), .num (Dec.ofInt_normal _),
      List.forall_mem_nil _⟩
  have hcanonical : Json.Canonical (.obj [(js "type", .str (js "CTRL_DEV")),
      (js "mac", .str mac),
      (js "states", .arr (statesJson [(pin, checked)]))]) := by
    refine .obj (by show [js "type", js "mac", js "states"].Nodup; decide) ?_
    simp only [List.forall_mem_cons]
    exact ⟨.str _, .str _, .arr hstate, List.forall_mem_nil _⟩
  rw [handleSwitchChange, deviceStateOutMsg_eq hmac hpin, parseMsg,
    Json.parse_stringify hcanonical, Option.getD_some]

/-- The device that is asked is the one that is stored for the address. -/
theorem controlRequest_switch {s : App} {device : Json} {mac : JsString}
    {place : Nat} {pv : PinView} {pin : Nat}
    (hmac : getProp? (some device) "mac" = some (.str mac))
    (hstar : mac ≠ js "*")
    (hstored : s.registry.deviceStore.get mac = some place)
    (hpin : pv.pin = .dec (Dec.ofInt pin)) (hlow : 1 ≤ pin)
    (hhigh : pin ≤ 9) (checked : Bool) :
    s.controlRequest (handleSwitchChange device pv checked) =
      some (place, switchQuery pin checked) := by
  have hlist : s.registry.getDeviceList (some (.str mac)) = [place] := by
    rw [Registry.getDeviceList, if_neg (by simpa [isText] using hstar)]
    show (s.registry.deviceStore.get mac).toList = [place]
    rw [hstored]
    rfl
  have hquery : setStateQuery (some (.arr (statesJson [(pin, checked)]))) =
      .ok (switchQuery pin checked) :=
    setStateQuery_states (isState_statesJson _)
      (pinInRange_switch hlow hhigh checked)
  have hmsg := parseMsg_switch hmac hpin checked
  have hctrl : isCtrlDevMsg (parseMsg (handleSwitchChange device pv checked)) =
      true := by
    rw [hmsg]
    rfl
  have hnamed : getProp? (parseMsg (handleSwitchChange device pv checked))
      "mac" = some (.str mac) := by
    rw [hmsg]
    rfl
  have hset : getProp? (parseMsg (handleSwitchChange device pv checked))
      "states" = some (.arr (statesJson [(pin, checked)])) := by
    rw [hmsg]
    rfl
  simp only [App.controlRequest, hctrl, if_true, hnamed, hlist, hset, hquery]

/-! ## The device -/

/-- What the device answers. -/
def switchAnswer (pin : Nat) (checked : Bool) : String :=
  "[" ++ objText pin checked.toNat true checked ++ "]"

theorem requested_singleton {c : Command} (hlow : 1 ≤ c.1) (hhigh : c.1 ≤ 9) :
    requested [c] = [c] := by
  obtain ⟨pin, val⟩ := c
  simp only at hlow hhigh
  interval_cases pin <;> rfl

theorem responseText_switch (g : Gpio) (pin : Nat) (checked : Bool) :
    responseText g [stateCommand (pin, checked)] =
      switchAnswer pin checked := by
  show "[" ++ objText pin checked.toNat true
    (levelAfter g (stateCommand (pin, checked))) ++ "]" = _
  rw [levelAfter_state]
  rfl

theorem length_switchAnswer {pin : Nat} (hhigh : pin ≤ 9) (checked : Bool) :
    (switchAnswer pin checked).length = 35 := by
  have hval : (toString (checked.toNat : Int)).length = 1 := by
    cases checked with
    | true => rfl
    | false => rfl
  rw [switchAnswer, String.length_append, String.length_append,
    length_objText (by omega), hval]
  rfl

theorem apiRequest_iNumParams (query : List Char)
    (names values : Nat → CharPtr) :
    (apiRequest query names values).iNumParams =
      (uriParams ((sentQuery query).getD [])).length := rfl

theorem holds_apiRequest (query : List Char) (names values : Nat → CharPtr) :
    Holds (uriParams ((sentQuery query).getD []))
      (apiRequest query names values).pcParam
      (apiRequest query names values).pcValue := by
  intro i hi
  show overlaid _ _ _ i = _ ∧ overlaid _ _ _ i = _
  rw [overlaid, if_pos hi, overlaid, if_pos hi]
  exact holds_fresh _ i hi

theorem uriParams_switchQuery (pin : Nat) (checked : Bool) :
    uriParams ((sentQuery (switchQuery pin checked)).getD []) =
      (pinVals ([(pin, checked)].map stateTexts)).take 16 := by
  rw [switchQuery, sentQuery_join, Option.getD_some, uriParams_states]

theorem apiCgiHandler_switch {pin : Nat} (hlow : 1 ≤ pin) (hhigh : pin ≤ 9)
    (checked : Bool) (b : Board) (names values : Nat → CharPtr) :
    apiCgiHandler b (apiRequest (switchQuery pin checked) names values) =
      .ok ⟨drive b.gpio (stateCommand (pin, checked)),
        switchAnswer pin checked⟩ := by
  have hpins := pinInRange_switch hlow hhigh checked
  have hholds := holds_apiRequest (switchQuery pin checked) names values
  rw [uriParams_switchQuery] at hholds
  have hrun := handleRequestParams_states hpins hholds b.gpio
  have hrequested : requested ([(pin, checked)].take 5 |>.map stateCommand) =
      [stateCommand (pin, checked)] := requested_singleton hlow hhigh
  rw [hrequested, responseText_switch] at hrun
  rw [apiCgiHandler, apiRequest_iNumParams, uriParams_switchQuery]
  exact bind_eq_ok.2 ⟨_, hrun, rfl⟩

theorem drivesPin_switchQuery {L : Nat} (hL : 36 ≤ L) {pin : Nat}
    (hlow : 1 ≤ pin) (hhigh : pin ≤ 9) (checked : Bool) :
    DrivesPin L (switchQuery pin checked) pin checked
      (js (switchAnswer pin checked)) := by
  intro b names values behind
  have hlength := length_switchAnswer hhigh checked
  have hpercent : '%' ∉ (switchAnswer pin checked).toList :=
    responseText_switch b.gpio pin checked ▸ percent_notMem_responseText _ _
  have htake : (switchAnswer pin checked).toList.take (L - 1) =
      (switchAnswer pin checked).toList := by
    refine List.take_of_length_le ?_
    rw [String.length_toList]
    omega
  have hlevels := @level_states [(pin, checked)]
    (pinInRange_switch hlow hhigh checked) (List.nodup_singleton _) b.gpio
  have hrequested : requested ([(pin, checked)].map stateCommand) =
      [stateCommand (pin, checked)] := requested_singleton hlow hhigh
  rw [hrequested] at hlevels
  refine ⟨_, switchAnswer pin checked, 35,
    apiCgiHandler_switch hlow hhigh checked b names values, ?_, ?_, ?_, ?_⟩
  · rw [ssiHandler, snprintf, if_neg hpercent, htake, String.ofList_toList,
      hlength]
  · rw [sentBody, if_pos (by omega)]
  · exact hlevels.1 _ (List.mem_singleton_self _)
  · intro p hp
    exact hlevels.2 p (by simpa using hp)

/-! ## The wait -/

/-- A handler waits for the answer of a device, whatever else happens. -/
theorem waits_step {s s' : App} {e : AppEvent} {task : Nat} {t : Task}
    {device : Nat} {query : List Char}
    (hstep : appStep db port s e = some s') (ht : s.tasks[task]? = some t)
    (hstage : t.stage = .setting device query)
    (hother : ∀ net online, e ≠ .answered task net online) :
    s'.tasks[task]? = some t := by
  have happend : ∀ new : List Task, s'.tasks = s.tasks ++ new →
      s'.tasks[task]? = some t := by
    intro new hnew
    rw [hnew, List.getElem?_append_left (List.getElem?_eq_some_iff.1 ht).1, ht]
  have hset : ∀ (task' : Nat) (t' : Task), task' ≠ task →
      s'.tasks = s.tasks.set task' t' → s'.tasks[task]? = some t := by
    intro task' t' hne hnew
    rw [hnew, List.getElem?_set_ne hne, ht]
  have hquerying : ∀ {task' : Nat} {t' : Task} {pulse seen : Nat}
      {devices waiting : List Nat}, s.tasks[task']? = some t' →
      t'.stage = .querying pulse devices waiting seen → task' ≠ task := by
    intro task' t' pulse seen devices waiting ht' hstage' heq
    obtain rfl := Option.some.inj (ht.symm.trans (heq ▸ ht'))
    rw [hstage] at hstage'
    cases hstage'
  cases e with
  | connect =>
      obtain rfl := Option.some.inj hstep
      refine happend [] ?_
      rw [App.subscribe, List.append_nil]
      split
      · rfl
      · rfl
  | close socket =>
      obtain rfl := Option.some.inj hstep
      exact ht
  | setDevice n =>
      obtain rfl := Option.some.inj hstep
      exact ht
  | sysMessage data online =>
      obtain rfl := Option.some.inj hstep
      obtain ⟨new, hnew, _⟩ := @tasks_sysMessage db s data online
      exact happend new hnew
  | message side data =>
      obtain rfl := Option.some.inj hstep
      cases hrequest : s.controlRequest data with
      | none =>
          rw [App.message, hrequest]
          exact ht
      | some request =>
          refine happend [⟨side, false, .setting request.1 request.2⟩] ?_
          rw [App.message, hrequest]
  | answered task' net online =>
      obtain ⟨t', device', query', d, ht', _, _, hcase⟩ :=
        appStep_answered hstep
      have hne : task' ≠ task := fun heq => hother net online (heq ▸ rfl)
      rcases hcase with rfl | ⟨_, states, _, rfl⟩
      · exact hset _ _ hne rfl
      · have htasks := @App.tasks_record db s device' states
        obtain ⟨stage, heq⟩ : ∃ stage,
            (s.answered db task' t' device' states online).tasks =
              s.tasks.set task' { t' with stage := stage } := by
          rw [App.answered]
          split
          · exact ⟨_, by rw [App.setStage, htasks]⟩
          · exact ⟨_, by rw [App.setStage, App.act, htasks]⟩
        exact hset _ _ hne heq
  | queried task' device' net isOnline =>
      obtain ⟨t', pulse, devices, waiting, seen, ht', hstage', _, rfl⟩ :=
        appStep_queried hstep
      exact hset _ _ (hquerying ht' hstage') (by
        rw [App.setStage, App.tasks_record])
  | resume task' =>
      obtain ⟨t', pulse, devices, seen, ht', hstage', rfl⟩ :=
        appStep_resume hstep
      exact hset _ _ (hquerying ht' hstage') (by
        rw [App.setStage, App.tasks_finish])

theorem waits_of_run {s s' : App} {es : List AppEvent} {task : Nat} {t : Task}
    {device : Nat} {query : List Char} (h : AppRun db port s es s')
    (ht : s.tasks[task]? = some t) (hstage : t.stage = .setting device query)
    (hother : ∀ net online, .answered task net online ∉ es) :
    s'.tasks[task]? = some t := by
  induction h with
  | nil s => exact ht
  | cons hstep _ ih =>
      refine ih (waits_step hstep ht hstage ?_) ?_
      · intro net online heq
        exact hother net online (heq ▸ List.mem_cons_self)
      · intro net online hmem
        exact hother net online (List.mem_cons_of_mem _ hmem)

/-- A device stays where it is. -/
theorem mac_of_run {s s' : App} {es : List AppEvent} {place : Nat}
    {d : StoredDevice} (h : AppRun db port s es s')
    (hd : s.registry.heap[place]? = some d) :
    ∃ d', s'.registry.heap[place]? = some d' ∧ d'.mac = d.mac := by
  induction h generalizing d with
  | nil s => exact ⟨d, hd, rfl⟩
  | cons hstep _ ih =>
      obtain ⟨d₁, hd₁, hmac₁⟩ := macsKept_step hstep place d hd
      obtain ⟨d₂, hd₂, hmac₂⟩ := ih hd₁
      exact ⟨d₂, hd₂, hmac₂.trans hmac₁⟩

/-! ## The answer -/

theorem heap_answered {s : App} {task : Nat} {t : Task} {place : Nat}
    {d : StoredDevice} (hd : s.registry.heap[place]? = some d)
    (states : PinStates) (online : JsString → Bool) :
    ∃ d', (s.answered db task t place (some states) online).registry.heap[
        place]? = some d' ∧ d'.mac = d.mac ∧
      d'.devPinStates = some states := by
  have hrecord : (s.record db place (some states)).registry.heap[place]? =
      some { d with devPinStates := some states } := by
    show (s.registry.heap.modify place _)[place]? = _
    rw [List.getElem?_modify_eq, hd]
    rfl
  rw [App.answered]
  split
  · exact ⟨_, hrecord, rfl, rfl⟩
  · show ∃ d', (List.mapIdx _ (s.record db place (some states)).registry.heap)[
        place]? = some d' ∧ _
    rw [List.getElem?_mapIdx, hrecord]
    refine ⟨_, rfl, ?_⟩
    split
    · exact ⟨rfl, rfl⟩
    · exact ⟨rfl, rfl⟩

theorem answered_recorded {s : App} {task : Nat} {t : Task} {place : Nat}
    {query : List Char} {d : StoredDevice} {net : Network} {body : JsString}
    {states : PinStates} (ht : s.tasks[task]? = some t)
    (hstage : t.stage = .setting place query)
    (hd : s.registry.heap[place]? = some d)
    (hnet : net d.ip d.port query = .response body)
    (hstates : recordStates (Json.parse body) = .ok (some states))
    (online : JsString → Bool) :
    ∃ s' d', appStep db port s (.answered task net online) = some s' ∧
      s'.registry.heap[place]? = some d' ∧ d'.mac = d.mac ∧
      d'.devPinStates = some states := by
  have hrecord : d.toDevice.recordAnswer (net d.ip d.port query) =
      .ok ({ d.toDevice with devPinStates := some states }, some states) := by
    refine recordAnswer_eq_ok.2 ⟨_, ?_, hstates, rfl⟩
    rw [hnet]
    rfl
  obtain ⟨d', hd', hmac, hdev⟩ := @heap_answered db s task t place d hd states
    online
  refine ⟨_, d', ?_, hd', hmac, hdev⟩
  simp only [appStep, ht, hstage, hd, hrecord]

/-- What is recorded of the answer has this pin and no other. -/
theorem recordStates_switchAnswer {pin : Nat} (hlow : 1 ≤ pin)
    (hhigh : pin ≤ 9) (checked : Bool) :
    ∃ states state, recordStates
        (Json.parse (js (switchAnswer pin checked))) = .ok (some states) ∧
      states.entries = [(pinKey pin, state)] ∧ state.Canonical ∧
      getProp? (some state) "sta" =
        some (.num (Dec.ofInt checked.toNat)) := by
  let g : Gpio := ⟨fun _ => false, fun _ => false, []⟩
  have hsmall : ∀ c ∈ [stateCommand (pin, checked)], SmallNumbers c := by
    intro c hc
    obtain rfl := List.mem_singleton.1 hc
    refine ⟨?_, small_bit checked⟩
    show ((pin : Nat) : Int).natAbs < 10 ^ 21
    omega
  obtain ⟨states, hstates, hentries⟩ := recordStates_response (g := g) hsmall
    (List.nodup_singleton _)
  rw [responseText_switch] at hstates
  refine ⟨states, stateJson g (stateCommand (pin, checked)), hstates,
    hentries, ?_, ?_⟩
  · refine recordStates_canonical (fun w hw => Json.parse_canonical hw)
      hstates (pinKey pin, stateJson g (stateCommand (pin, checked))) ?_
    rw [hentries]
    exact List.mem_singleton_self _
  · rw [getProp_sta, levelAfter_state]

theorem showsOnly_answer {states : PinStates} {state : Json} {pin : Nat}
    {checked : Bool} (hentries : states.entries = [(pinKey pin, state)])
    (hcanonical : state.Canonical)
    (hsta : getProp? (some state) "sta" =
      some (.num (Dec.ofInt checked.toNat))) :
    ShowsOnly states pin checked := by
  constructor
  · rw [pinStatesText, hentries]
    refine Json.parse_stringify (v := .obj [(pinKey pin, state)]) ?_
    refine .obj (List.nodup_singleton _) ?_
    intro e he
    obtain rfl := List.mem_singleton.1 he
    exact hcanonical
  · intro fields view hfields hview pv hpv
    rw [hentries] at hfields
    rw [Device, bind_eq_ok] at hview
    obtain ⟨info, _, hview⟩ := hview
    obtain ⟨displayName, _, hview⟩ := bind_eq_ok.1 hview
    obtain ⟨isOnline, _, hview⟩ := bind_eq_ok.1 hview
    obtain ⟨devPinStates, hstates, hview⟩ := bind_eq_ok.1 hview
    obtain rfl : some (.obj [(pinKey pin, state)]) = devPinStates :=
      hfields.symm.trans (Except.ok.inj hstates)
    obtain ⟨pins, hpins, hview⟩ := bind_eq_ok.1 hview
    obtain rfl := Except.ok.inj hview
    obtain ⟨name, _, hname⟩ := exists_of_mem_mapM hpins hpv
    obtain rfl := Except.ok.inj hname
    show orElse (getProp? (lastFor (numberText (textNumber name))
      [(pinKey pin, state)]) "sta") _ = .num (Dec.ofInt
        (if numberText (textNumber name) = pinKey pin then checked.toNat
          else 0))
    rw [lastFor_cons, lastFor_nil, Option.none_or]
    by_cases hkey : numberText (textNumber name) = pinKey pin
    · rw [if_pos hkey.symm, if_pos hkey, hsta]
      rfl
    · rw [if_neg (Ne.symm hkey), if_neg hkey]
      rfl

/-! ## The whole way -/

/-- A switch of the page, with `mac` the address of the page's device, in
every run of the server. -/
structure SwitchWorks (db : DevicesDb) (port iInsertLen : Nat) (s : App)
    (side : Side) (text : JsString) (mac : JsString) (place pin : Nat)
    (checked : Bool) (query : List Char) (body : JsString) : Prop where
  /-- The message has one handler wait for the device of that address, -/
  asks : appStep db port s (.message side text) = some { s with
    tasks := s.tasks ++ [⟨side, false, .setting place query⟩] }
  /-- whose pins are set with the query, -/
  drives : DrivesPin iInsertLen query pin checked body
  /-- and until the answer comes the handler waits for it, whatever happens.
  Then the device's record is the pin as it was set, and shows no other. -/
  records : ∀ es s₁ net online, AppRun db port { s with
      tasks := s.tasks ++ [⟨side, false, .setting place query⟩] } es s₁ →
    (∀ net online, .answered s.tasks.length net online ∉ es) →
    ∃ d, s₁.registry.heap[place]? = some d ∧ d.mac = mac ∧
      (net d.ip d.port query = .response body → ∃ s₂ d' states state,
        appStep db port s₁ (.answered s.tasks.length net online) = some s₂ ∧
        s₂.registry.heap[place]? = some d' ∧ d'.mac = mac ∧
        d'.devPinStates = some states ∧
        states.entries = [(pinKey pin, state)] ∧
        getProp? (some state) "sta" =
          some (.num (Dec.ofInt checked.toNat)) ∧
        ShowsOnly states pin checked)

theorem switch_of_run {es : List AppEvent} {s : App}
    (h : AppRun db port .start es s) {device : Json} {mac : JsString}
    {place : Nat} {pv : PinView} {pin L : Nat}
    (hmac : getProp? (some device) "mac" = some (.str mac))
    (hstar : mac ≠ js "*")
    (hstored : s.registry.deviceStore.get mac = some place)
    (hpin : pv.pin = .dec (Dec.ofInt pin)) (hlow : 1 ≤ pin)
    (hhigh : pin ≤ 9) (hL : 36 ≤ L) (side : Side) (checked : Bool) :
    ∃ query body, SwitchWorks db port L s side
      (handleSwitchChange device pv checked) mac place pin checked query
      body := by
  obtain ⟨states, state, hstates, hentries, hcanonical, hsta⟩ :=
    recordStates_switchAnswer hlow hhigh checked
  have hrequest := controlRequest_switch (s := s) hmac hstar hstored hpin
    hlow hhigh checked
  refine ⟨_, _, ?_, drivesPin_switchQuery hL hlow hhigh checked, ?_⟩
  · rw [appStep, App.message, hrequest]
  · intro es' s₁ net online hrun hother
    obtain ⟨d₀, hd₀, hmac₀⟩ := (ok_of_run h).stored mac place
      (mem_of_lastFor hstored)
    obtain ⟨d, hd, hkept⟩ := mac_of_run hrun hd₀
    refine ⟨d, hd, hkept.trans hmac₀, fun hnet => ?_⟩
    have hnew : (s.tasks ++ [⟨side, false, .setting place
        (switchQuery pin checked)⟩])[s.tasks.length]? = some _ :=
      List.getElem?_concat_length
    have ht := waits_of_run hrun hnew rfl hother
    obtain ⟨s₂, d', hstep, hd', hmac', hdev⟩ :=
      answered_recorded ht rfl hd hnet hstates online
    exact ⟨s₂, d', states, state, hstep, hd',
      hmac'.trans (hkept.trans hmac₀), hdev, hentries, hsta,
      showsOnly_answer hentries hcanonical hsta⟩

/-- A device that has reported itself, and its switch for the pin 2 on a page
that was drawn before. -/
def lampMac : JsString := js "28:cd:c1:04:ef:0e"

def lampNotified : AppEvent :=
  .setDevice ⟨lampMac, js "192.168.0.7", js "80", []⟩

def lampKnown : App :=
  App.start.act (fun _ => none)
    (.setDevice ⟨lampMac, js "192.168.0.7", js "80", []⟩)

def lampSwitch : PinView :=
  ⟨.dec (Dec.ofInt (2 : Nat)), .null, .null, .null, false⟩

theorem switch_of_run_lamp : ∃ query body,
    SwitchWorks (fun _ => none) 3335 192 lampKnown .publicServer
      (handleSwitchChange (.obj [(js "mac", .str lampMac)]) lampSwitch true)
      lampMac 0 2 true query body := by
  have hrun : AppRun (fun _ => none) 3335 .start [lampNotified] lampKnown :=
    .cons rfl (.nil lampKnown)
  exact switch_of_run hrun rfl (by decide) (by decide) rfl (by decide)
    (by decide) (by decide) .publicServer true

end IotHome.HomepageFe
