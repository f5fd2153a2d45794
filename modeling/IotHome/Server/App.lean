import IotHome.Lib.Runs
import IotHome.Server.FrontEnd
import IotHome.Server.Registry

/-!
# The server's modules together

One step of the server is what happens between two awaits: a browser comes or
goes, a device reports itself, a message comes in from the system, a browser
or the public server, a request to a device ends, or a handler goes on when
all of its queries have ended.

`HomePage` and `PublicServerModule` both handle the pulses of the system and
the control messages. A pulse is parsed once, and both are given the same
object, which both write into; it lives on a heap of its own, and so does not
go away when a handler remembers it. `log` and `seen` are not in the source:
what has been done to the devices so far, and how much had been sent to the
front end when a handler took its pulse up.
-/

namespace IotHome.Server

open IotHome.Lib

/-! ## Pulses -/

/-- The value of a field: what was parsed, or a list of devices. -/
inductive PulseField where
  | json (v : Json)
  | devices (places : List Nat)

abbrev PulseMsg := List (JsString × PulseField)

def PulseMsg.ofJson : Json → PulseMsg
  | .obj fields => fields.map fun f => (f.1, .json f.2)
  | _ => []

/-- A pulse as far as it is JSON. -/
def PulseMsg.json (m : PulseMsg) : Json :=
  .obj (m.filterMap fun f =>
    match f.2 with
    | .json v => some (f.1, v)
    | .devices _ => none)

def PulseMsg.set (m : PulseMsg) (name : String) (value : PulseField) :
    PulseMsg := OrderedMap.setEntry (js name) value m

def PulseField.text (heap : List StoredDevice) : PulseField → JsString
  | .json v => Json.stringify v
  | .devices places =>
      Json.arrayText ((places.filterMap (heap[·]?)).map StoredDevice.text)

/-- `JSON.stringify(pulseMsg)`. -/
def PulseMsg.text (heap : List StoredDevice) (m : PulseMsg) : JsString :=
  Json.objectText (m.map fun f => (f.1, f.2.text heap))

/-! ## The state -/

inductive Side where
  | homePage
  | publicServer
  deriving DecidableEq

structure SideState where
  sysPulseHandlerBlock : Bool
  lastSysPulse : Option Nat

/-- Where a handler waits. -/
inductive Stage where
  | setting (device : Nat) (query : List Char)
  | querying (pulse : Nat) (devices waiting : List Nat) (seen : Nat)
  | done

/-- A handler that was started, for a pulse or for a control message. -/
structure Task where
  side : Side
  forPulse : Bool
  stage : Stage

/-- A pulse that went out to the front end, and its text. -/
structure SentPulse where
  pulse : Nat
  text : JsString

structure App where
  registry : Registry
  log : List RegistryOp
  pulses : List PulseMsg
  subscribers : List Side
  side : Side → SideState
  tasks : List Task
  frontEnd : FrontEnd SentPulse
  sentPublic : List ServerPulseMsg

/-- `publicServer` subscribes when the server starts, `homePage` when the
first browser comes. -/
def App.start : App where
  registry := .empty
  log := []
  pulses := []
  subscribers := [.publicServer]
  side _ := ⟨false, none⟩
  tasks := []
  frontEnd := .empty
  sentPublic := []

inductive AppEvent where
  | connect
  | close (socket : Nat)
  | setDevice (n : Notification)
  | sysMessage (data : JsString) (online : JsString → Bool)
  | message (side : Side) (data : JsString)
  | answered (task : Nat) (net : Network) (online : JsString → Bool)
  | queried (task device : Nat) (net : Network) (isOnline : Bool)
  | resume (task : Nat)

section

variable (db : DevicesDb) (port : Nat)

def App.act (s : App) (op : RegistryOp) : App :=
  { s with
    registry := s.registry.apply db op
    log := s.log ++ [op] }

/-- What an answer leaves, if it is one that is recorded. -/
def App.record (s : App) (device : Nat) (states : Option PinStates) : App :=
  match states with
  | some states => s.act db (.record device states)
  | none => s

def App.setSide (s : App) (side : Side) (state : SideState) : App :=
  { s with side := fun x => if x = side then state else s.side x }

def App.setStage (s : App) (task : Nat) (t : Task) (stage : Stage) : App :=
  { s with tasks := s.tasks.set task { t with stage := stage } }

/-- The devices a handler that goes through all of them starts with. -/
def App.allDevices (s : App) : List Nat :=
  s.registry.getDeviceList (some (.str (js "*")))

/-! ## The handlers -/

/-- `_handleSysPulse` of either module, up to its first await. -/
def App.handleSysPulse (s : App) (pulse : Nat) (online : JsString → Bool)
    (side : Side) : App :=
  if (s.side side).sysPulseHandlerBlock then s
  else
    let stage := .querying pulse s.allDevices s.allDevices
      s.frontEnd.sent.length
    let last := if side = .homePage then some pulse
      else (s.side side).lastSysPulse
    let s := (s.act db (.checkIsOnline online)).setSide side ⟨true, last⟩
    { s with tasks := s.tasks ++ [⟨side, true, stage⟩] }

/-- A message of the system client: a pulse goes to all that have
subscribed. -/
def App.sysMessage (s : App) (data : JsString) (online : JsString → Bool) :
    App :=
  match parseMsg data with
  | none => s
  | some obj =>
      if isText (getProp? (some obj) "type") "PULSE" then
        s.subscribers.foldl
          (fun s' side => s'.handleSysPulse db s.pulses.length online side)
          { s with pulses := s.pulses ++ [.ofJson obj] }
      else s

/-- The device that a control message asks to set something, and with which
query. -/
def App.controlRequest (s : App) (data : JsString) :
    Option (Nat × List Char) :=
  let obj := parseMsg data
  if isCtrlDevMsg obj then
    match s.registry.getDeviceList (getProp? obj "mac") with
    | [] => none
    | device :: _ =>
        match setStateQuery (getProp? obj "states") with
        | .ok query => some (device, query)
        | .error _ => none
  else none

/-- `_feMsgMainHandler` and `_pubMsgMainHandler`, up to the request. -/
def App.message (s : App) (side : Side) (data : JsString) : App :=
  match s.controlRequest data with
  | none => s
  | some (device, query) =>
      { s with tasks := s.tasks ++ [⟨side, false, .setting device query⟩] }

/-- The same, from the end of the request to the queries. -/
def App.answered (s : App) (task : Nat) (t : Task) (device : Nat)
    (states : Option PinStates) (online : JsString → Bool) : App :=
  let s := s.record db device states
  match (s.side t.side).lastSysPulse with
  | none => s.setStage task t .done
  | some pulse =>
      (s.act db (.checkIsOnline online)).setStage task t
        (.querying pulse s.allDevices s.allDevices s.frontEnd.sent.length)

/-- The end of a handler of `HomePage`. -/
def App.finishHomePage (s : App) (t : Task) (pulse : Nat)
    (devices : List Nat) : App :=
  let pulses := s.pulses.modify pulse (·.set "devices" (.devices devices))
  let text := ((pulses[pulse]?).getD []).text s.registry.heap
  let s := { s with
    pulses := pulses
    frontEnd := s.frontEnd.send ⟨pulse, text⟩ }
  if t.forPulse then
    s.setSide .homePage ⟨false, (s.side .homePage).lastSysPulse⟩
  else s

/-- The end of a handler of `PublicServerModule`: what cannot be adapted is
not sent, and the flag stays. -/
def App.finishPublicServer (s : App) (t : Task) (pulse : Nat)
    (devices : List Nat) : App :=
  let pulses := s.pulses.modify pulse fun m =>
    let m := m.set "devices" (.devices devices)
    if t.forPulse then m.set "port" (.json (.num (Dec.ofInt port))) else m
  let last := if t.forPulse then some pulse
    else (s.side .publicServer).lastSysPulse
  let s := { s with pulses := pulses }
  let devices := (devices.filterMap (s.registry.heap[·]?)).map
    StoredDevice.toDevice
  match adaptSysPulse ⟨((pulses[pulse]?).getD []).json, devices⟩ with
  | .ok msg =>
      let s := { s with sentPublic := s.sentPublic ++ [msg] }
      if t.forPulse then s.setSide .publicServer ⟨false, last⟩ else s
  | .error _ =>
      s.setSide .publicServer
        ⟨(s.side .publicServer).sysPulseHandlerBlock, last⟩

def App.finish (s : App) (t : Task) (pulse : Nat) (devices : List Nat) :
    App :=
  match t.side with
  | .homePage => s.finishHomePage t pulse devices
  | .publicServer => s.finishPublicServer port t pulse devices

/-- The states that the query of one device ends with, if it does not
fail. -/
def queriedStates (net : Network) (isOnline : Bool) (d : Device) :
    Option PinStates :=
  match d.queryState net isOnline with
  | .ok (_, states) => states
  | .error _ => none

def App.subscribe (s : App) (side : Side) : App :=
  if side ∈ s.subscribers then s
  else { s with subscribers := s.subscribers ++ [side] }

/-- What can happen next. An event a handler is not ready for cannot. -/
def appStep (s : App) : AppEvent → Option App
  | .connect =>
      some (App.subscribe { s with frontEnd := s.frontEnd.connect } .homePage)
  | .close socket => some { s with frontEnd := s.frontEnd.close socket }
  | .setDevice n => some (s.act db (.setDevice n))
  | .sysMessage data online => some (s.sysMessage db data online)
  | .message side data => some (s.message side data)
  | .answered task net online =>
      match s.tasks[task]? with
      | none => none
      | some t =>
          match t.stage with
          | .setting device query =>
              match s.registry.heap[device]? with
              | none => none
              | some d =>
                  match d.toDevice.recordAnswer (net d.ip d.port query) with
                  | .ok (_, states) =>
                      some (s.answered db task t device states online)
                  | .error _ => some (s.setStage task t .done)
          | _ => none
  | .queried task device net isOnline =>
      match s.tasks[task]? with
      | none => none
      | some t =>
          match t.stage with
          | .querying pulse devices waiting seen =>
              if device ∈ waiting then
                let states := (s.registry.heap[device]?).bind
                  (queriedStates net isOnline ·.toDevice)
                some ((s.record db device states).setStage task t
                  (.querying pulse devices (waiting.erase device) seen))
              else none
          | _ => none
  | .resume task =>
      match s.tasks[task]? with
      | none => none
      | some t =>
          match t.stage with
          | .querying pulse devices [] _ =>
              some ((s.finish port t pulse devices).setStage task t .done)
          | _ => none

/-- One event after the other. -/
abbrev AppRun : App → List AppEvent → App → Prop :=
  Run fun s e s' => appStep db port s e = some s'

/-- A step of a run of the server. -/
abbrev AppStepOf : List AppEvent → App → AppEvent → App → Prop :=
  StepOf (fun s e s' => appStep db port s e = some s') .start

end

/-! ## What one event does -/

variable {db : DevicesDb} {port : Nat}

theorem appStep_answered {s s' : App} {task : Nat} {net : Network}
    {online : JsString → Bool}
    (h : appStep db port s (.answered task net online) = some s') :
    ∃ t device query d, s.tasks[task]? = some t ∧
      t.stage = .setting device query ∧ s.registry.heap[device]? = some d ∧
      (s' = s.setStage task t .done ∨ ∃ d' states,
        d.toDevice.recordAnswer (net d.ip d.port query) = .ok (d', states) ∧
        s' = s.answered db task t device states online) := by
  rw [appStep] at h
  split at h
  · cases h
  · next t ht =>
      split at h
      · next device query hstage =>
          split at h
          · cases h
          · next d hd =>
              refine ⟨t, device, query, d, ht, hstage, hd, ?_⟩
              split at h
              · next d' states hrecord =>
                  exact .inr ⟨d', states, hrecord, (Option.some.inj h).symm⟩
              · exact .inl (Option.some.inj h).symm
      · cases h

theorem appStep_queried {s s' : App} {task device : Nat} {net : Network}
    {isOnline : Bool}
    (h : appStep db port s (.queried task device net isOnline) = some s') :
    ∃ t pulse devices waiting seen, s.tasks[task]? = some t ∧
      t.stage = .querying pulse devices waiting seen ∧ device ∈ waiting ∧
      s' = (s.record db device ((s.registry.heap[device]?).bind
        (queriedStates net isOnline ·.toDevice))).setStage task t
          (.querying pulse devices (waiting.erase device) seen) := by
  rw [appStep] at h
  split at h
  · cases h
  · next t ht =>
      split at h
      · next pulse devices waiting seen hstage =>
          split at h
          · next hmem =>
              exact ⟨t, pulse, devices, waiting, seen, ht, hstage, hmem,
                (Option.some.inj h).symm⟩
          · cases h
      · cases h

theorem appStep_resume {s s' : App} {task : Nat}
    (h : appStep db port s (.resume task) = some s') :
    ∃ t pulse devices seen, s.tasks[task]? = some t ∧
      t.stage = .querying pulse devices [] seen ∧
      s' = (s.finish port t pulse devices).setStage task t .done := by
  rw [appStep] at h
  split at h
  · cases h
  · next t ht =>
      split at h
      · next pulse devices seen hstage =>
          exact ⟨t, pulse, devices, seen, ht, hstage,
            (Option.some.inj h).symm⟩
      · cases h

/-- A handler that waits for nothing goes on. -/
theorem appStep_of_waiting {s : App} {task : Nat} {t : Task}
    (ht : s.tasks[task]? = some t) {pulse : Nat} {devices : List Nat}
    {seen : Nat} (hstage : t.stage = .querying pulse devices [] seen) :
    appStep db port s (.resume task) =
      some ((s.finish port t pulse devices).setStage task t .done) := by
  rw [appStep, ht]
  simp only [hstage]

/-- A message is no pulse, or a pulse that all handlers are given. -/
theorem App.sysMessage_cases (s : App) (data : JsString)
    (online : JsString → Bool) :
    s.sysMessage db data online = s ∨ ∃ m : PulseMsg,
      s.sysMessage db data online = s.subscribers.foldl
        (fun s' side => s'.handleSysPulse db s.pulses.length online side)
        { s with pulses := s.pulses ++ [m] } := by
  rw [App.sysMessage]
  split
  · exact .inl rfl
  · split
    · exact .inr ⟨_, rfl⟩
    · exact .inl rfl

/-! ## The front end -/

theorem App.record_eq (s : App) (device : Nat) (states : Option PinStates) :
    ∃ registry log, s.record db device states =
      { s with registry := registry, log := log } := by
  cases states with
  | none => exact ⟨_, _, rfl⟩
  | some states => exact ⟨_, _, rfl⟩

theorem App.tasks_record (s : App) (device : Nat)
    (states : Option PinStates) :
    (s.record db device states).tasks = s.tasks := by
  obtain ⟨registry, log, heq⟩ := s.record_eq device states
  rw [heq]

theorem App.pulses_record (s : App) (device : Nat)
    (states : Option PinStates) :
    (s.record db device states).pulses = s.pulses := by
  obtain ⟨registry, log, heq⟩ := s.record_eq device states
  rw [heq]

theorem App.frontEnd_record (s : App) (device : Nat)
    (states : Option PinStates) :
    (s.record db device states).frontEnd = s.frontEnd := by
  obtain ⟨registry, log, heq⟩ := s.record_eq device states
  rw [heq]

theorem App.frontEnd_handleSysPulse (s : App) (pulse : Nat)
    (online : JsString → Bool) (side : Side) :
    (s.handleSysPulse db pulse online side).frontEnd = s.frontEnd := by
  rw [App.handleSysPulse]
  split
  · rfl
  · rfl

theorem App.frontEnd_sysMessage (s : App) (data : JsString)
    (online : JsString → Bool) :
    (s.sysMessage db data online).frontEnd = s.frontEnd := by
  rcases s.sysMessage_cases data online with heq | ⟨m, heq⟩
  · rw [heq]
  · rw [heq]
    refine List.foldlRecOn (motive := fun s' : App => s'.frontEnd = s.frontEnd)
      _ _ rfl fun s' hs' side _ => ?_
    rw [s'.frontEnd_handleSysPulse, hs']

theorem App.frontEnd_answered (s : App) (task : Nat) (t : Task)
    (device : Nat) (states : Option PinStates) (online : JsString → Bool) :
    (s.answered db task t device states online).frontEnd = s.frontEnd := by
  rw [App.answered]
  split
  · exact s.frontEnd_record device states
  · exact s.frontEnd_record device states

/-- A handler that ends leaves the devices and the handlers as they are. -/
theorem App.finish_frame (s : App) (t : Task) (pulse : Nat)
    (devices : List Nat) :
    (s.finish port t pulse devices).registry = s.registry ∧
      (s.finish port t pulse devices).log = s.log ∧
      (s.finish port t pulse devices).tasks = s.tasks := by
  rw [App.finish]
  split
  · rw [App.finishHomePage]
    split
    · exact ⟨rfl, rfl, rfl⟩
    · exact ⟨rfl, rfl, rfl⟩
  · simp only [App.finishPublicServer]
    split
    · split
      · exact ⟨rfl, rfl, rfl⟩
      · exact ⟨rfl, rfl, rfl⟩
    · exact ⟨rfl, rfl, rfl⟩

theorem App.tasks_finish (s : App) (t : Task) (pulse : Nat)
    (devices : List Nat) :
    (s.finish port t pulse devices).tasks = s.tasks :=
  (s.finish_frame t pulse devices).2.2

theorem App.frontEnd_finishPublicServer (s : App) (t : Task) (pulse : Nat)
    (devices : List Nat) :
    (s.finishPublicServer port t pulse devices).frontEnd = s.frontEnd := by
  simp only [App.finishPublicServer]
  split
  · split
    · rfl
    · rfl
  · rfl

/-- What a handler sends to the front end when it ends. -/
theorem App.frontEnd_finish (s : App) (t : Task) (pulse : Nat)
    (devices : List Nat) :
    (t.side = .homePage ∧ ∃ text,
      (s.finish port t pulse devices).frontEnd =
        s.frontEnd.send ⟨pulse, text⟩) ∨
    (t.side = .publicServer ∧
      (s.finish port t pulse devices).frontEnd = s.frontEnd) := by
  rw [App.finish]
  cases t.side with
  | homePage =>
      refine .inl ⟨rfl, ?_⟩
      simp only [App.finishHomePage]
      split
      · exact ⟨_, rfl⟩
      · exact ⟨_, rfl⟩
  | publicServer =>
      exact .inr ⟨rfl, s.frontEnd_finishPublicServer t pulse devices⟩

/-- An event with which a pulse goes on to the front end. -/
def App.Forwards (s : App) (e : AppEvent) : Prop :=
  ∃ task t, e = .resume task ∧ s.tasks[task]? = some t ∧ t.side = .homePage

theorem appStep_quiet {s s' : App} {e : AppEvent}
    (h : appStep db port s e = some s') (hnot : ¬ s.Forwards e) :
    s.frontEnd.Quiet s'.frontEnd := by
  cases e with
  | connect =>
      obtain rfl := Option.some.inj h
      rw [App.subscribe]
      split
      · exact .connect
      · exact .connect
  | close socket =>
      obtain rfl := Option.some.inj h
      exact .close socket
  | setDevice n =>
      obtain rfl := Option.some.inj h
      exact .same
  | sysMessage data online =>
      obtain rfl := Option.some.inj h
      rw [s.frontEnd_sysMessage]
      exact .same
  | message side data =>
      obtain rfl := Option.some.inj h
      rw [App.message]
      split
      · exact .same
      · exact .same
  | answered task net online =>
      obtain ⟨t, device, query, d, _, _, _, hcase⟩ := appStep_answered h
      rcases hcase with rfl | ⟨_, states, _, rfl⟩
      · exact .same
      · rw [s.frontEnd_answered]
        exact .same
  | queried task device net isOnline =>
      obtain ⟨t, pulse, devices, waiting, seen, _, _, _, rfl⟩ :=
        appStep_queried h
      rw [App.setStage, s.frontEnd_record]
      exact .same
  | resume task =>
      obtain ⟨t, pulse, devices, seen, ht, _, rfl⟩ := appStep_resume h
      rcases s.frontEnd_finish t pulse devices with
        ⟨hside, _⟩ | ⟨_, heq⟩
      · exact absurd ⟨task, t, rfl, ht, hside⟩ hnot
      · rw [App.setStage, heq]
        exact .same

theorem appStep_forwards {s s' : App} {e : AppEvent}
    (h : appStep db port s e = some s') (hforwards : s.Forwards e) :
    ∃ content, s'.frontEnd = s.frontEnd.send content := by
  obtain ⟨task, t, rfl, ht, hside⟩ := hforwards
  obtain ⟨t', pulse, devices, seen, ht', _, rfl⟩ := appStep_resume h
  obtain rfl := Option.some.inj (ht.symm.trans ht')
  rcases s.frontEnd_finish t pulse devices with
    ⟨_, text, heq⟩ | ⟨hother, _⟩
  · exact ⟨_, heq⟩
  · rw [hside] at hother
    cases hother

/-! ## The devices -/

/-- From one state to the other the devices have changed by what has been
logged. -/
def App.Logs (db : DevicesDb) (s s' : App) : Prop :=
  ∃ ops, s'.log = s.log ++ ops ∧
    s'.registry = ops.foldl (Registry.apply db) s.registry

theorem App.Logs.of_eq {s s' : App} (hlog : s'.log = s.log)
    (hregistry : s'.registry = s.registry) : s.Logs db s' :=
  ⟨[], by rw [hlog, List.append_nil], hregistry⟩

theorem App.Logs.trans {s s' s'' : App} (h : s.Logs db s')
    (h' : s'.Logs db s'') : s.Logs db s'' := by
  obtain ⟨ops, hlog, hregistry⟩ := h
  obtain ⟨ops', hlog', hregistry'⟩ := h'
  refine ⟨ops ++ ops', by rw [hlog', hlog, List.append_assoc], ?_⟩
  rw [hregistry', hregistry, List.foldl_append]

theorem App.logs_act (s : App) (op : RegistryOp) : s.Logs db (s.act db op) :=
  ⟨[op], rfl, rfl⟩

theorem App.logs_record (s : App) (device : Nat)
    (states : Option PinStates) : s.Logs db (s.record db device states) := by
  cases states with
  | none => exact .of_eq rfl rfl
  | some states => exact s.logs_act _

theorem App.logs_handleSysPulse (s : App) (pulse : Nat)
    (online : JsString → Bool) (side : Side) :
    s.Logs db (s.handleSysPulse db pulse online side) := by
  rw [App.handleSysPulse]
  split
  · exact .of_eq rfl rfl
  · exact (s.logs_act _).trans (.of_eq rfl rfl)

theorem App.logs_sysMessage (s : App) (data : JsString)
    (online : JsString → Bool) : s.Logs db (s.sysMessage db data online) := by
  rcases s.sysMessage_cases data online with heq | ⟨m, heq⟩
  · rw [heq]
    exact .of_eq rfl rfl
  · rw [heq]
    exact List.foldlRecOn (motive := s.Logs db) _ _ (.of_eq rfl rfl)
      fun s' hs' side _ => hs'.trans (s'.logs_handleSysPulse _ online side)

theorem App.logs_message (s : App) (side : Side) (data : JsString) :
    s.Logs db (s.message side data) := by
  rw [App.message]
  split
  · exact .of_eq rfl rfl
  · exact .of_eq rfl rfl

theorem App.logs_answered (s : App) (task : Nat) (t : Task) (device : Nat)
    (states : Option PinStates) (online : JsString → Bool) :
    s.Logs db (s.answered db task t device states online) := by
  refine (s.logs_record device states).trans ?_
  rw [App.answered]
  split
  · exact .of_eq rfl rfl
  · exact (App.logs_act _ _).trans (.of_eq rfl rfl)

theorem App.logs_finish (s : App) (t : Task) (pulse : Nat)
    (devices : List Nat) : s.Logs db (s.finish port t pulse devices) := by
  obtain ⟨hregistry, hlog, _⟩ := s.finish_frame t pulse devices
  exact .of_eq hlog hregistry

theorem appStep_logs {s s' : App} {e : AppEvent}
    (h : appStep db port s e = some s') : s.Logs db s' := by
  cases e with
  | connect =>
      obtain rfl := Option.some.inj h
      rw [App.subscribe]
      split
      · exact .of_eq rfl rfl
      · exact .of_eq rfl rfl
  | close socket =>
      obtain rfl := Option.some.inj h
      exact .of_eq rfl rfl
  | setDevice n =>
      obtain rfl := Option.some.inj h
      exact s.logs_act _
  | sysMessage data online =>
      obtain rfl := Option.some.inj h
      exact s.logs_sysMessage data online
  | message side data =>
      obtain rfl := Option.some.inj h
      exact s.logs_message side data
  | answered task net online =>
      obtain ⟨t, device, query, d, _, _, _, hcase⟩ := appStep_answered h
      rcases hcase with rfl | ⟨_, states, _, rfl⟩
      · exact .of_eq rfl rfl
      · exact s.logs_answered task t device states online
  | queried task device net isOnline =>
      obtain ⟨t, pulse, devices, waiting, seen, _, _, _, rfl⟩ :=
        appStep_queried h
      exact (s.logs_record device _).trans (.of_eq rfl rfl)
  | resume task =>
      obtain ⟨t, pulse, devices, seen, _, _, rfl⟩ := appStep_resume h
      exact (s.logs_finish t pulse devices).trans (.of_eq rfl rfl)

/-- In every run the devices are what the log leaves. -/
theorem registry_of_run {s : App} {es : List AppEvent}
    (h : AppRun db port .start es s) :
    s.registry = s.log.foldl (Registry.apply db) .empty := by
  refine h.invariant
    (P := fun s => s.registry = s.log.foldl (Registry.apply db) .empty)
    (fun hs hstep => ?_) rfl
  obtain ⟨ops, hlog, hregistry⟩ := appStep_logs hstep
  rw [hregistry, hlog, List.foldl_append, ← hs]

theorem ok_of_run {s : App} {es : List AppEvent}
    (h : AppRun db port .start es s) : s.registry.Ok db := by
  rw [registry_of_run h]
  exact (Registry.ok_empty db).foldl s.log

end IotHome.Server
