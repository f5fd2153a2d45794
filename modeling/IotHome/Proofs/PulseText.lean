import IotHome.Lib.JsonCanonical
import IotHome.Server.App

/-!
# The text of a pulse at the front end

A pulse of the system is parsed once, and both modules get the same object.
Each asks all devices and then writes the devices into it; the one for the
public server also writes the port. When `HomePage` passes the pulse on, the
port is in it or not, as it happens. `homeText_iff` compares all the ways in
which this can happen, with and without the other module.
-/

namespace IotHome.Server

open IotHome.Lib

/-! ## Devices that have been asked -/

variable (net : Network) (isOnline : Nat → Bool)

/-- What is known of a device after it has been asked. -/
def queriedDevice (place : Nat) (d : StoredDevice) : StoredDevice :=
  match queriedStates net (isOnline place) d.toDevice with
  | some states => { d with devPinStates := some states }
  | none => d

/-- What a device answers does not depend on what is recorded of it. -/
theorem queriedStates_devPinStates (online : Bool) (d : Device)
    (states : Option PinStates) :
    queriedStates net online { d with devPinStates := states } =
      queriedStates net online d := by
  have hquery : ({ d with devPinStates := states } : Device).queryStateQuery =
      d.queryStateQuery := rfl
  rw [queriedStates, queriedStates, Device.queryState, Device.queryState,
    hquery]
  cases online with
  | false => rfl
  | true =>
      cases d.queryStateQuery with
      | error e => rfl
      | ok query =>
          simp only [ok_bind, if_true, Device.recordAnswer]
          cases (net d.ip d.port query).parsed with
          | error e => rfl
          | ok parsed =>
              simp only [ok_bind]
              cases recordStates parsed with
              | error e => rfl
              | ok recorded =>
                  cases recorded with
                  | none => rfl
                  | some recorded => rfl

/-- Asking a device again adds nothing. -/
theorem queriedDevice_queriedDevice (place : Nat) (d : StoredDevice) :
    queriedDevice net isOnline place (queriedDevice net isOnline place d) =
      queriedDevice net isOnline place d := by
  cases hstates : queriedStates net (isOnline place) d.toDevice with
  | none =>
      have heq : queriedDevice net isOnline place d = d := by
        rw [queriedDevice, hstates]
      rw [heq, heq]
  | some states =>
      have heq : queriedDevice net isOnline place d =
          { d with devPinStates := some states } := by
        rw [queriedDevice, hstates]
      rw [heq, queriedDevice, queriedStates_devPinStates, hstates]

theorem checkIsOnline_checkIsOnline (r : Registry)
    (online : JsString → Bool) :
    (r.checkIsOnline online).checkIsOnline online =
      r.checkIsOnline online := by
  rw [Registry.checkIsOnline, Registry.checkIsOnline, List.mapIdx_mapIdx]
  refine congrArg (Registry.mk · r.deviceStore) ?_
  refine List.mapIdx_eq_mapIdx_iff.2 fun i hi => ?_
  by_cases hmem : i ∈ r.deviceStore.values
  · simp [hmem]
  · simp [hmem]

/-! ## What the handlers leave -/

/-- A pulse that has been given to the handlers, and the devices as they were
then. -/
structure Dispatch where
  net : Network
  isOnline : Nat → Bool
  heap : List StoredDevice
  devices : List Nat
  pulse : Nat
  fields : List (JsString × Json)

/-- The handlers go on, and devices answer. -/
def IsAnswer (net : Network) (isOnline : Nat → Bool) : AppEvent → Prop
  | .queried _ device net' online => net' = net ∧ online = isOnline device
  | .resume _ => True
  | _ => False

namespace Dispatch

variable (c : Dispatch) (port : Nat)

/-- A device that has been asked. -/
def queried (place : Nat) : Option StoredDevice :=
  (c.heap[place]?).map (queriedDevice c.net c.isOnline place)

def msg : PulseMsg := .ofJson (.obj c.fields)

def withDevices : PulseMsg := c.msg.set "devices" (.devices c.devices)

def withPort : PulseMsg :=
  c.withDevices.set "port" (.json (.num (Dec.ofInt port)))

/-! ## Its text -/

/-- The fields that came with the pulse, and their texts. -/
def base : List (JsString × JsString) :=
  c.fields.map fun f => (f.1, Json.stringify f.2)

theorem text_set (heap : List StoredDevice) (m : PulseMsg) (name : String)
    (value : PulseField) :
    (m.set name value).text heap =
      Json.objectText (OrderedMap.setEntry (js name) (value.text heap)
        (m.map fun f => (f.1, f.2.text heap))) := by
  rw [PulseMsg.text, PulseMsg.set, OrderedMap.map_setEntry]

theorem map_text_msg (heap : List StoredDevice) :
    (c.msg.map fun f => (f.1, f.2.text heap)) = c.base := by
  rw [msg, PulseMsg.ofJson, List.map_map]
  rfl

/-- The text of the devices, when all have been asked. -/
def devicesText : JsString :=
  (PulseField.devices c.devices).text
    (c.heap.mapIdx (queriedDevice c.net c.isOnline))

theorem devicesText_eq {heap : List StoredDevice}
    (h : ∀ d ∈ c.devices, heap[d]? = c.queried d) :
    (PulseField.devices c.devices).text heap = c.devicesText := by
  rw [devicesText, PulseField.text, PulseField.text]
  have hsame : c.devices.filterMap (heap[·]?) = c.devices.filterMap
      ((c.heap.mapIdx (queriedDevice c.net c.isOnline))[·]?) := by
    refine List.filterMap_congr fun d hd => ?_
    rw [h d hd, List.getElem?_mapIdx]
    rfl
  rw [hsame]

/-- The text without the port, and with it. -/
def plainText : JsString :=
  Json.objectText (OrderedMap.setEntry (js "devices") c.devicesText c.base)

def portText : JsString :=
  Json.objectText (OrderedMap.setEntry (js "port")
    (Json.stringify (.num (Dec.ofInt port)))
    (OrderedMap.setEntry (js "devices") c.devicesText c.base))

theorem text_withDevices {heap : List StoredDevice}
    (h : ∀ d ∈ c.devices, heap[d]? = c.queried d) :
    c.withDevices.text heap = c.plainText := by
  rw [withDevices, text_set, map_text_msg, c.devicesText_eq h]
  rfl

theorem text_withPort {heap : List StoredDevice}
    (h : ∀ d ∈ c.devices, heap[d]? = c.queried d) :
    (c.withPort port).text heap = c.portText port := by
  rw [withPort, text_set, withDevices, PulseMsg.set, OrderedMap.map_setEntry,
    map_text_msg, c.devicesText_eq h]
  rfl

/-- The port makes no difference if it is there already. -/
theorem portText_eq_iff (h : (c.fields.map Prod.fst).Nodup) :
    c.portText port = c.plainText ↔
      (lastFor (js "port") c.fields).map Json.stringify =
        some (Json.stringify (.num (Dec.ofInt port))) := by
  have hbase : (c.base.map Prod.fst).Nodup := by
    rw [base, List.map_map]
    exact h
  have hne : js "devices" ≠ js "port" := by decide
  rw [portText, plainText, Json.objectText_setEntry_iff
    (OrderedMap.nodup_setEntry hbase), OrderedMap.lastFor_setEntry_ne hne,
    base, lastFor_map]

/-! ## Writing it twice -/

variable {c} (h : (c.fields.map Prod.fst).Nodup)

include h

theorem nodup_msg : (c.msg.map Prod.fst).Nodup := by
  rw [msg, PulseMsg.ofJson, List.map_map]
  exact h

theorem nodup_withDevices : (c.withDevices.map Prod.fst).Nodup :=
  OrderedMap.nodup_setEntry (nodup_msg h)

theorem withDevices_set :
    c.withDevices.set "devices" (.devices c.devices) = c.withDevices := by
  refine OrderedMap.setEntry_eq_self (nodup_withDevices h) ?_
  rw [withDevices, PulseMsg.set, OrderedMap.lastFor_setEntry _ _ _ _
    (nodup_msg h), if_pos rfl]

theorem withPort_set :
    (c.withPort port).set "devices" (.devices c.devices) =
      c.withPort port := by
  have hne : js "port" ≠ js "devices" := by decide
  refine OrderedMap.setEntry_eq_self
    (OrderedMap.nodup_setEntry (nodup_withDevices h)) ?_
  rw [withPort, PulseMsg.set, OrderedMap.lastFor_setEntry_ne hne, withDevices,
    PulseMsg.set, OrderedMap.lastFor_setEntry _ _ _ _ (nodup_msg h),
    if_pos rfl]

theorem withPort_set_port :
    (c.withPort port).set "port" (.json (.num (Dec.ofInt port))) =
      c.withPort port := by
  refine OrderedMap.setEntry_eq_self
    (OrderedMap.nodup_setEntry (nodup_withDevices h)) ?_
  rw [withPort, PulseMsg.set, OrderedMap.lastFor_setEntry _ _ _ _
    (nodup_withDevices h), if_pos rfl]

end Dispatch

/-! ## While they go on -/

variable {db : DevicesDb} {port : Nat} {c : Dispatch}

/-- All handlers under way are at this pulse, and know what the devices they
do not wait for have answered. -/
structure Dispatch.Holds (c : Dispatch) (port : Nat)
    (before : FrontEnd SentPulse) (u : App) : Prop where
  tasks : ∀ t ∈ u.tasks, t.stage = .done ∨ t.forPulse = true ∧
    ∃ waiting seen, t.stage = .querying c.pulse c.devices waiting seen ∧
      ∀ d ∈ c.devices, d ∉ waiting → u.registry.heap[d]? = c.queried d
  heap : ∀ d : Nat, u.registry.heap[d]? = c.heap[d]? ∨
    u.registry.heap[d]? = c.queried d
  pulse : ∃ m, u.pulses[c.pulse]? = some m ∧
    (m = c.msg ∨ m = c.withDevices ∨ m = c.withPort port)
  length_le : before.sent.length ≤ u.frontEnd.sent.length
  sent : ∀ m ∈ before.sentSince u.frontEnd,
    m.content.text = c.plainText ∨ m.content.text = c.portText port

/-- What has been recorded for a place, after a device has answered. -/
theorem heap_record (s : App) (device place : Nat) :
    (s.record db device ((s.registry.heap[device]?).bind
      (queriedStates c.net (c.isOnline device) ·.toDevice))).registry.heap[
        place]? =
      if device = place then (s.registry.heap[place]?).map
        (queriedDevice c.net c.isOnline place)
      else s.registry.heap[place]? := by
  cases hd : s.registry.heap[device]? with
  | none =>
      rw [Option.bind_none, App.record]
      split
      · next heq => rw [← heq, hd]; rfl
      · rfl
  | some d =>
      rw [Option.bind_some]
      cases hstates : queriedStates c.net (c.isOnline device) d.toDevice with
      | none =>
          rw [App.record]
          split
          · next heq =>
              rw [← heq, hd, Option.map_some, queriedDevice, hstates]
          · rfl
      | some states =>
          show (s.registry.heap.modify device _)[place]? = _
          rw [List.getElem?_modify]
          by_cases heq : device = place
          · rw [if_pos heq, ← heq, hd]
            simp [queriedDevice, hstates]
          · rw [if_neg heq]
            simp [heq]

/-- A device that has been asked stays so. -/
theorem queried_record {s : App} {device place : Nat}
    (h : s.registry.heap[place]? = c.queried place) :
    (s.record db device ((s.registry.heap[device]?).bind
      (queriedStates c.net (c.isOnline device) ·.toDevice))).registry.heap[
        place]? = c.queried place := by
  rw [heap_record]
  split
  · rw [h, Dispatch.queried, Option.map_map]
    congr 1
    funext d
    exact queriedDevice_queriedDevice _ _ _ d
  · exact h

theorem Dispatch.Holds.queried {before : FrontEnd SentPulse} {u : App}
    (hu : c.Holds port before u) {task device : Nat} {t : Task}
    (ht : u.tasks[task]? = some t) {pulse : Nat} {devices waiting : List Nat}
    {seen : Nat} (hstage : t.stage = .querying pulse devices waiting seen) :
    c.Holds port before ((u.record db device
      ((u.registry.heap[device]?).bind
        (queriedStates c.net (c.isOnline device) ·.toDevice))).setStage task t
          (.querying pulse devices (waiting.erase device) seen)) := by
  have hown : (u.record db device ((u.registry.heap[device]?).bind
      (queriedStates c.net (c.isOnline device) ·.toDevice))).registry.heap[
        device]? = c.queried device := by
    rcases hu.heap device with hold | hasked
    · rw [heap_record, if_pos rfl, hold]
      rfl
    · exact queried_record hasked
  refine ⟨fun t' ht' => ?_, fun place => ?_, ?_, ?_, ?_⟩
  · rw [App.setStage, App.tasks_record] at ht'
    rcases List.mem_or_eq_of_mem_set ht' with hold | rfl
    · rcases hu.tasks t' hold with hdone | ⟨hpulse, waiting', seen', hst, hall⟩
      · exact .inl hdone
      · exact .inr ⟨hpulse, waiting', seen', hst, fun d hd hnot =>
          queried_record (hall d hd hnot)⟩
    · refine .inr ?_
      rcases hu.tasks t (List.mem_of_getElem? ht) with
        hdone | ⟨hpulse, waiting', seen', hst, hall⟩
      · rw [hstage] at hdone
        cases hdone
      · obtain ⟨rfl, rfl, rfl, rfl⟩ :=
          Stage.querying.inj (hstage.symm.trans hst)
        refine ⟨hpulse, _, _, rfl, fun d hd hnot => ?_⟩
        by_cases hdev : d = device
        · rw [hdev]
          exact hown
        · refine queried_record (hall d hd fun hmem => hnot ?_)
          exact (List.mem_erase_of_ne hdev).2 hmem
  · by_cases hplace : device = place
    · rw [← hplace]
      exact .inr hown
    · rw [App.setStage, heap_record, if_neg hplace]
      exact hu.heap place
  · rw [App.setStage, u.pulses_record]
    exact hu.pulse
  · rw [App.setStage, u.frontEnd_record]
    exact hu.length_le
  · rw [App.setStage, u.frontEnd_record]
    exact hu.sent

/-- `HomePage` passes the pulse on. -/
theorem finishHomePage_eq (u : App) (t : Task) (pulse : Nat)
    (devices : List Nat) {m : PulseMsg} (hm : u.pulses[pulse]? = some m) :
    (u.finishHomePage t pulse devices).pulses[pulse]? =
        some (m.set "devices" (.devices devices)) ∧
      (u.finishHomePage t pulse devices).frontEnd = u.frontEnd.send
        ⟨pulse, (m.set "devices" (.devices devices)).text
          u.registry.heap⟩ := by
  have hget : (u.pulses.modify pulse
      (·.set "devices" (.devices devices)))[pulse]? =
        some (m.set "devices" (.devices devices)) := by
    rw [List.getElem?_modify, hm]
    simp
  rw [App.finishHomePage]
  simp only [hget, Option.getD_some]
  split
  · exact ⟨hget, rfl⟩
  · exact ⟨hget, rfl⟩

/-- The other module writes the port. -/
theorem pulses_finishPublicServer (u : App) {t : Task} (ht : t.forPulse = true)
    (pulse : Nat) (devices : List Nat) {m : PulseMsg}
    (hm : u.pulses[pulse]? = some m) :
    (u.finishPublicServer port t pulse devices).pulses[pulse]? =
      some ((m.set "devices" (.devices devices)).set "port"
        (.json (.num (Dec.ofInt port)))) := by
  have hget : (u.pulses.modify pulse fun m =>
      (m.set "devices" (.devices devices)).set "port"
        (.json (.num (Dec.ofInt port))))[pulse]? =
        some ((m.set "devices" (.devices devices)).set "port"
          (.json (.num (Dec.ofInt port)))) := by
    rw [List.getElem?_modify, hm]
    simp
  simp only [App.finishPublicServer, ht, if_true]
  split
  · exact hget
  · exact hget

theorem Dispatch.Holds.setStage_done {before : FrontEnd SentPulse} {u : App}
    (hu : c.Holds port before u) (task : Nat) (t : Task) :
    c.Holds port before (u.setStage task t .done) where
  tasks t' ht' := by
    rcases List.mem_or_eq_of_mem_set ht' with hold | rfl
    · exact hu.tasks t' hold
    · exact .inl rfl
  heap := hu.heap
  pulse := hu.pulse
  length_le := hu.length_le
  sent := hu.sent

/-- What a handler that ends has found out. -/
theorem Dispatch.Holds.all_queried {before : FrontEnd SentPulse} {u : App}
    (hu : c.Holds port before u) {t : Task} (ht : t ∈ u.tasks) {pulse : Nat}
    {devices : List Nat} {seen : Nat}
    (hstage : t.stage = .querying pulse devices [] seen) :
    t.forPulse = true ∧ pulse = c.pulse ∧ devices = c.devices ∧
      ∀ d ∈ c.devices, u.registry.heap[d]? = c.queried d := by
  rcases hu.tasks t ht with hdone | ⟨hpulse, waiting, seen', hst, hall⟩
  · rw [hstage] at hdone
    cases hdone
  · obtain ⟨rfl, rfl, rfl, rfl⟩ := Stage.querying.inj (hstage.symm.trans hst)
    exact ⟨hpulse, rfl, rfl, fun d hd => hall d hd List.not_mem_nil⟩

/-- What goes out is the text without the port, or with it. -/
theorem Dispatch.set_devices (hkeys : (c.fields.map Prod.fst).Nodup)
    {m : PulseMsg}
    (hm : m = c.msg ∨ m = c.withDevices ∨ m = c.withPort port) :
    m.set "devices" (.devices c.devices) = c.withDevices ∨
      m.set "devices" (.devices c.devices) = c.withPort port := by
  rcases hm with rfl | rfl | rfl
  · exact .inl rfl
  · exact .inl (withDevices_set hkeys)
  · exact .inr (withPort_set port hkeys)

/-- What the end of a handler changes is the pulse, and what has been sent. -/
theorem Dispatch.Holds.of_eq {before : FrontEnd SentPulse} {u u' : App}
    (hu : c.Holds port before u) (hregistry : u'.registry = u.registry)
    (htasks : u'.tasks = u.tasks)
    (hpulse : ∃ m, u'.pulses[c.pulse]? = some m ∧
      (m = c.msg ∨ m = c.withDevices ∨ m = c.withPort port))
    (hlength : before.sent.length ≤ u'.frontEnd.sent.length)
    (hsent : ∀ m ∈ before.sentSince u'.frontEnd,
      m.content.text = c.plainText ∨ m.content.text = c.portText port) :
    c.Holds port before u' where
  tasks t ht := by
    rw [htasks] at ht
    rw [hregistry]
    exact hu.tasks t ht
  heap d := by
    rw [hregistry]
    exact hu.heap d
  pulse := hpulse
  length_le := hlength
  sent := hsent

theorem Dispatch.Holds.finish {before : FrontEnd SentPulse} {u : App}
    (hkeys : (c.fields.map Prod.fst).Nodup) (hu : c.Holds port before u)
    {t : Task} (hpulse : t.forPulse = true)
    (hall : ∀ d ∈ c.devices, u.registry.heap[d]? = c.queried d) :
    c.Holds port before (u.finish port t c.pulse c.devices) := by
  obtain ⟨hregistry, _, htasks⟩ :=
    @App.finish_frame port u t c.pulse c.devices
  obtain ⟨m, hm, hcases⟩ := hu.pulse
  have hset := c.set_devices hkeys hcases
  cases hside : t.side with
  | homePage =>
      obtain ⟨hpulses, hsend⟩ := finishHomePage_eq u t c.pulse c.devices hm
      have hfinish : u.finish port t c.pulse c.devices =
          u.finishHomePage t c.pulse c.devices := by
        rw [App.finish, hside]
      rw [← hfinish] at hpulses hsend
      refine hu.of_eq hregistry htasks ⟨_, hpulses, .inr hset⟩ ?_ ?_
      · simp only [hsend, FrontEnd.send, List.length_append]
        have := hu.length_le
        omega
      · intro m' hm'
        simp only [FrontEnd.sentSince, hsend, FrontEnd.send,
          List.drop_append_of_le_length hu.length_le] at hm'
        rcases List.mem_append.1 hm' with hold | hnew
        · exact hu.sent m' hold
        · rw [List.mem_singleton.1 hnew]
          rcases hset with heq | heq
          · exact .inl (by simp only [heq, c.text_withDevices hall])
          · exact .inr (by simp only [heq, c.text_withPort port hall])
  | publicServer =>
      have hfinish : u.finish port t c.pulse c.devices =
          u.finishPublicServer port t c.pulse c.devices := by
        rw [App.finish, hside]
      have hfrontEnd : (u.finish port t c.pulse c.devices).frontEnd =
          u.frontEnd := by
        rw [hfinish, App.frontEnd_finishPublicServer]
      have hpulses : (u.finish port t c.pulse c.devices).pulses[c.pulse]? =
          some (c.withPort port) := by
        rw [hfinish, pulses_finishPublicServer u hpulse c.pulse c.devices hm]
        rcases hset with heq | heq
        · rw [heq]
          rfl
        · rw [heq, withPort_set_port port hkeys]
      refine hu.of_eq hregistry htasks ⟨_, hpulses, .inr (.inr rfl)⟩ ?_ ?_
      · rw [hfrontEnd]
        exact hu.length_le
      · rw [hfrontEnd]
        exact hu.sent

theorem Dispatch.Holds.resume {before : FrontEnd SentPulse} {u : App}
    (hkeys : (c.fields.map Prod.fst).Nodup) (hu : c.Holds port before u)
    {task : Nat} {t : Task} (ht : u.tasks[task]? = some t) {pulse : Nat}
    {devices : List Nat} {seen : Nat}
    (hstage : t.stage = .querying pulse devices [] seen) :
    c.Holds port before
      ((u.finish port t pulse devices).setStage task t .done) := by
  obtain ⟨hpulse, rfl, rfl, hall⟩ :=
    hu.all_queried (List.mem_of_getElem? ht) hstage
  exact (hu.finish hkeys hpulse hall).setStage_done task t

/-- In every schedule of the handlers, with the answers that the devices
give, what goes out is one of the two texts. -/
theorem Dispatch.Holds.run {before : FrontEnd SentPulse} {u u' : App}
    (hkeys : (c.fields.map Prod.fst).Nodup) (hu : c.Holds port before u)
    {es : List AppEvent} (hes : ∀ e ∈ es, IsAnswer c.net c.isOnline e)
    (h : AppRun db port u es u') : c.Holds port before u' := by
  induction h with
  | nil u => exact hu
  | @cons u u₁ u' e es hstep _ ih =>
      rw [List.forall_mem_cons] at hes
      refine ih ?_ hes.2
      cases e with
      | queried task device net online =>
          obtain ⟨rfl, rfl⟩ := hes.1
          obtain ⟨t, pulse, devices, waiting, seen, ht, hstage, _, rfl⟩ :=
            appStep_queried hstep
          exact hu.queried ht hstage
      | resume task =>
          obtain ⟨t, pulse, devices, seen, ht, hstage, rfl⟩ :=
            appStep_resume hstep
          exact hu.resume hkeys ht hstage
      | connect => exact hes.1.elim
      | close socket => exact hes.1.elim
      | setDevice n => exact hes.1.elim
      | sysMessage data online => exact hes.1.elim
      | message side data => exact hes.1.elim
      | answered task net online => exact hes.1.elim

/-! ## The schedules there are -/

/-- A handler can wait for its devices. -/
theorem exists_queries (db : DevicesDb) (port : Nat) (c : Dispatch) {u : App}
    {task : Nat} {t : Task}
    (ht : u.tasks[task]? = some t) {pulse : Nat} {devices waiting : List Nat}
    {seen : Nat} (hstage : t.stage = .querying pulse devices waiting seen) :
    ∃ es u', AppRun db port u es u' ∧ (∀ e ∈ es, IsAnswer c.net c.isOnline e) ∧
      u'.tasks = u.tasks.set task
        { t with stage := .querying pulse devices [] seen } ∧
      u'.pulses = u.pulses := by
  induction waiting generalizing u t with
  | nil =>
      refine ⟨[], u, .nil u, List.forall_mem_nil _, ?_, rfl⟩
      obtain ⟨hlt, heq⟩ := List.getElem?_eq_some_iff.1 ht
      rw [← hstage, ← heq, List.set_getElem_self]
  | cons device waiting ih =>
      have hstep : appStep db port u
          (.queried task device c.net (c.isOnline device)) =
          some ((u.record db device ((u.registry.heap[device]?).bind
            (queriedStates c.net (c.isOnline device) ·.toDevice))).setStage
              task t (.querying pulse devices waiting seen)) := by
        rw [appStep, ht]
        simp only [hstage, List.mem_cons_self, if_true, List.erase_cons_head]
      have hlt := (List.getElem?_eq_some_iff.1 ht).1
      obtain ⟨es, u', hrun, hes, htasks, hpulses⟩ := ih
        (u := (u.record db device ((u.registry.heap[device]?).bind
          (queriedStates c.net (c.isOnline device) ·.toDevice))).setStage
            task t (.querying pulse devices waiting seen))
        (t := { t with stage := .querying pulse devices waiting seen })
        (by simp [App.setStage, App.tasks_record, hlt]) rfl
      refine ⟨_, u', .cons hstep hrun, List.forall_mem_cons.2 ⟨⟨rfl, rfl⟩, hes⟩,
        ?_, ?_⟩
      · rw [htasks, App.setStage, App.tasks_record, List.set_set]
      · rw [hpulses, App.setStage, App.pulses_record]

/-- A handler can end next. -/
theorem exists_end {before : FrontEnd SentPulse} {u : App}
    (hkeys : (c.fields.map Prod.fst).Nodup) (hu : c.Holds port before u)
    {task : Nat} {t : Task} (ht : u.tasks[task]? = some t)
    {waiting : List Nat} {seen : Nat}
    (hstage : t.stage = .querying c.pulse c.devices waiting seen) :
    ∃ es u₁ t₁, AppRun db port u es
        ((u₁.finish port t₁ c.pulse c.devices).setStage task t₁ .done) ∧
      (∀ e ∈ es, IsAnswer c.net c.isOnline e) ∧ c.Holds port before u₁ ∧
      u₁.tasks = u.tasks.set task t₁ ∧ u₁.pulses = u.pulses ∧
      t₁.side = t.side ∧ t₁.forPulse = true ∧
      ∀ d ∈ c.devices, u₁.registry.heap[d]? = c.queried d := by
  obtain ⟨es, u₁, hrun, hes, htasks, hpulses⟩ :=
    exists_queries db port c ht hstage
  have hu₁ := hu.run hkeys hes hrun
  have ht₁ : u₁.tasks[task]? =
      some { t with stage := .querying c.pulse c.devices [] seen } := by
    have hlt := (List.getElem?_eq_some_iff.1 ht).1
    simp [htasks, hlt]
  obtain ⟨hpulse, _, _, hall⟩ :=
    hu₁.all_queried (List.mem_of_getElem? ht₁) rfl
  refine ⟨es ++ [.resume task], u₁, _,
    hrun.append (.cons (appStep_of_waiting ht₁ rfl) (.nil _)), ?_, hu₁, htasks,
    hpulses, rfl, hpulse, hall⟩
  rw [List.forall_mem_append]
  exact ⟨hes, List.forall_mem_singleton.2 trivial⟩

/-- `HomePage` can pass the pulse on next. -/
theorem exists_homePage_end (db : DevicesDb) {before : FrontEnd SentPulse}
    {u : App}
    (hkeys : (c.fields.map Prod.fst).Nodup) (hu : c.Holds port before u)
    {task : Nat} {t : Task} (ht : u.tasks[task]? = some t)
    (hside : t.side = .homePage) {waiting : List Nat} {seen : Nat}
    (hstage : t.stage = .querying c.pulse c.devices waiting seen)
    {m : PulseMsg} (hm : u.pulses[c.pulse]? = some m) :
    ∃ es u' heap, AppRun db port u es u' ∧
      (∀ e ∈ es, IsAnswer c.net c.isOnline e) ∧
      (∀ d ∈ c.devices, heap[d]? = c.queried d) ∧
      ∃ sent ∈ before.sentSince u'.frontEnd, sent.content.text =
        (m.set "devices" (.devices c.devices)).text heap := by
  obtain ⟨es, u₁, t₁, hrun, hes, hu₁, _, hpulses, hside₁, _, hall⟩ :=
    exists_end hkeys hu ht hstage
  obtain ⟨_, hsend⟩ :=
    finishHomePage_eq u₁ t₁ c.pulse c.devices (hpulses ▸ hm)
  refine ⟨es, _, u₁.registry.heap, hrun, hes, hall, ?_⟩
  simp only [App.setStage, App.finish, hside₁, hside, FrontEnd.sentSince,
    hsend, FrontEnd.send, List.drop_append_of_le_length hu₁.length_le]
  exact ⟨_, List.mem_append_right _ (List.mem_singleton_self _), rfl⟩

/-- The other module can write the port next. -/
theorem exists_publicServer_end (db : DevicesDb) {before : FrontEnd SentPulse}
    {u : App}
    (hkeys : (c.fields.map Prod.fst).Nodup) (hu : c.Holds port before u)
    {task : Nat} {t : Task} (ht : u.tasks[task]? = some t)
    (hside : t.side = .publicServer) {waiting : List Nat} {seen : Nat}
    (hstage : t.stage = .querying c.pulse c.devices waiting seen)
    (hm : u.pulses[c.pulse]? = some c.msg) :
    ∃ es u', AppRun db port u es u' ∧ (∀ e ∈ es, IsAnswer c.net c.isOnline e) ∧
      u'.pulses[c.pulse]? = some (c.withPort port) ∧
      ∀ i, i ≠ task → u'.tasks[i]? = u.tasks[i]? := by
  obtain ⟨es, u₁, t₁, hrun, hes, hu₁, htasks, hpulses, hside₁, hpulse, _⟩ :=
    exists_end hkeys hu ht hstage
  refine ⟨es, _, hrun, hes, ?_, fun i hi => ?_⟩
  · simp only [App.setStage, App.finish, hside₁, hside]
    exact pulses_finishPublicServer u₁ hpulse c.pulse c.devices (hpulses ▸ hm)
  · rw [App.setStage, App.tasks_finish, htasks]
    simp [Ne.symm hi]

/-! ## The start -/

/-- Nothing is under way, and both modules have subscribed. -/
structure App.Ready (s : App) : Prop where
  subscribers : s.subscribers = [.publicServer, .homePage]
  idle : ∀ t ∈ s.tasks, t.stage = .done
  free : ∀ side, (s.side side).sysPulseHandlerBlock = false

def App.withoutPublicServer (s : App) : App :=
  { s with subscribers := [.homePage] }

def App.dispatch (s : App) (fields : List (JsString × Json))
    (online : JsString → Bool) (net : Network) (isOnline : Nat → Bool) :
    Dispatch where
  net := net
  isOnline := isOnline
  heap := (s.registry.checkIsOnline online).heap
  devices := s.allDevices
  pulse := s.pulses.length
  fields := fields

def App.withPulse (s : App) (fields : List (JsString × Json)) : App :=
  { s with pulses := s.pulses ++ [.ofJson (.obj fields)] }

/-- A handler as it starts. -/
def App.started (s : App) (side : Side) (pulse : Nat) : Task :=
  ⟨side, true, .querying pulse s.allDevices s.allDevices
    s.frontEnd.sent.length⟩

/-- The handlers of some modules have started with a pulse. -/
structure App.Starts (s u : App) (sides : List Side)
    (fields : List (JsString × Json)) (online : JsString → Bool) : Prop where
  registry : u.registry = s.registry.checkIsOnline online
  pulses : u.pulses = s.pulses ++ [.ofJson (.obj fields)]
  frontEnd : u.frontEnd = s.frontEnd
  tasks : u.tasks = s.tasks ++
    sides.map fun side => s.started side s.pulses.length

theorem handleSysPulse_free (db : DevicesDb) {s : App} {side : Side}
    (h : (s.side side).sysPulseHandlerBlock = false) (pulse : Nat)
    (online : JsString → Bool) :
    (s.handleSysPulse db pulse online side).registry =
        s.registry.checkIsOnline online ∧
      (s.handleSysPulse db pulse online side).pulses = s.pulses ∧
      (s.handleSysPulse db pulse online side).frontEnd = s.frontEnd ∧
      (s.handleSysPulse db pulse online side).tasks =
        s.tasks ++ [s.started side pulse] ∧
      ∀ other, other ≠ side →
        (s.handleSysPulse db pulse online side).side other = s.side other := by
  rw [App.handleSysPulse, h]
  exact ⟨rfl, rfl, rfl, rfl, fun other hother => if_neg hother⟩

section

variable {s : App} (hready : s.Ready) {data : JsString}
  {fields : List (JsString × Json)}
  (hdata : parseMsg data = some (.obj fields))
  (htype : isText (getProp? (parseMsg data) "type") "PULSE" = true)
  (online : JsString → Bool)

include hdata htype

theorem sysMessage_pulse (db : DevicesDb) (s : App) :
    s.sysMessage db data online = s.subscribers.foldl
      (fun s' side => s'.handleSysPulse db s.pulses.length online side)
      (s.withPulse fields) := by
  rw [hdata] at htype
  rw [App.sysMessage, hdata]
  exact if_pos htype

include hready

theorem starts_homePage :
    s.Starts (s.withoutPublicServer.sysMessage db data online) [.homePage]
      fields online := by
  rw [sysMessage_pulse hdata htype]
  have hfree : ((s.withoutPublicServer.withPulse fields).side
      .homePage).sysPulseHandlerBlock = false := hready.free .homePage
  obtain ⟨hregistry, hpulses, hfrontEnd, htasks, _⟩ :=
    handleSysPulse_free db hfree s.pulses.length online
  exact ⟨hregistry, hpulses, hfrontEnd, htasks⟩

theorem starts_both :
    s.Starts (s.sysMessage db data online) [.publicServer, .homePage] fields
      online := by
  rw [sysMessage_pulse hdata htype, hready.subscribers, List.foldl_cons,
    List.foldl_cons, List.foldl_nil]
  have hfree : ((s.withPulse fields).side
      .publicServer).sysPulseHandlerBlock = false :=
    hready.free .publicServer
  obtain ⟨hregistry, hpulses, hfrontEnd, htasks, hsides⟩ :=
    handleSysPulse_free db hfree s.pulses.length online
  generalize (s.withPulse fields).handleSysPulse db s.pulses.length online
    .publicServer = u at *
  have hfree' : (u.side .homePage).sysPulseHandlerBlock = false := by
    rw [hsides .homePage (by decide)]
    exact hready.free .homePage
  obtain ⟨hregistry', hpulses', hfrontEnd', htasks', _⟩ :=
    handleSysPulse_free db hfree' s.pulses.length online
  have hstarted : u.started .homePage s.pulses.length =
      s.started .homePage s.pulses.length := by
    rw [App.started, App.allDevices, hregistry, hfrontEnd]
    rfl
  refine ⟨?_, hpulses'.trans hpulses, hfrontEnd'.trans hfrontEnd, ?_⟩
  · rw [hregistry', hregistry]
    exact checkIsOnline_checkIsOnline _ online
  · rw [htasks', htasks, hstarted, List.append_assoc]
    rfl

end

/-- With all devices as they were, nothing is found out yet. -/
theorem App.Starts.holds {s u : App} (hidle : ∀ t ∈ s.tasks, t.stage = .done)
    {sides : List Side} {fields : List (JsString × Json)}
    {online : JsString → Bool} (h : s.Starts u sides fields online)
    (net : Network) (isOnline : Nat → Bool) (port : Nat) :
    (s.dispatch fields online net isOnline).Holds port s.frontEnd u where
  tasks t ht := by
    rw [h.tasks, List.mem_append] at ht
    rcases ht with hold | hnew
    · exact .inl (hidle t hold)
    · obtain ⟨side, _, rfl⟩ := List.mem_map.1 hnew
      exact .inr ⟨rfl, _, _, rfl, fun d hd hnot => absurd hd hnot⟩
  heap d := by
    rw [h.registry]
    exact .inl rfl
  pulse := by
    refine ⟨.ofJson (.obj fields), ?_, .inl rfl⟩
    rw [h.pulses]
    exact List.getElem?_concat_length
  length_le := by rw [h.frontEnd]
  sent m hm := by
    rw [FrontEnd.sentSince, h.frontEnd, List.drop_length] at hm
    cases hm

/-! ## All of them -/

/-- `HomePage` can pass a pulse on with this text, where devices answer like
this. -/
def App.HomeSends (db : DevicesDb) (port : Nat) (s : App) (data : JsString)
    (online : JsString → Bool) (net : Network) (isOnline : Nat → Bool)
    (text : JsString) : Prop :=
  ∃ es s', AppRun db port s (.sysMessage data online :: es) s' ∧
    (∀ e ∈ es, IsAnswer net isOnline e) ∧
    ∃ m ∈ s.frontEnd.sentSince s'.frontEnd, m.content.text = text

theorem fields_of_pulse {data : JsString}
    (h : isText (getProp? (parseMsg data) "type") "PULSE" = true) :
    ∃ fields, parseMsg data = some (.obj fields) ∧
      (fields.map Prod.fst).Nodup := by
  rw [parseMsg] at h ⊢
  cases hparse : Json.parse data with
  | none => exact ⟨[], rfl, List.nodup_nil⟩
  | some v =>
      rw [hparse] at h
      cases v with
      | obj fields => exact ⟨fields, rfl, Json.parse_keysOnce hparse⟩
      | null => cases h
      | bool b => cases h
      | num n => cases h
      | str text => cases h
      | arr elems => cases h

section

variable {s : App} (hidle : ∀ t ∈ s.tasks, t.stage = .done)
  {data : JsString} {fields : List (JsString × Json)}
  (hkeys : (fields.map Prod.fst).Nodup) {online : JsString → Bool}
  {net : Network} {isOnline : Nat → Bool} {sides : List Side}

include hidle hkeys

/-- Whatever `HomePage` sends is one of the two texts. -/
theorem text_of_homeSends (s₀ : App) (hsent : s₀.frontEnd = s.frontEnd)
    (hstarts : s.Starts (s₀.sysMessage db data online) sides fields online)
    {text : JsString} (h : s₀.HomeSends db port data online net isOnline text) :
    text = (s.dispatch fields online net isOnline).plainText ∨
      text = (s.dispatch fields online net isOnline).portText port := by
  obtain ⟨es, s', hrun, hes, m, hm, rfl⟩ := h
  cases hrun with
  | cons hstep hrest =>
      obtain rfl := Option.some.inj hstep
      have hend := (hstarts.holds hidle net isOnline port).run hkeys hes hrest
      exact hend.sent m (hsent ▸ hm)

/-- On its own it sends the text without the port. -/
theorem homeSends_plainText {s₀ : App} (hsent : s₀.frontEnd = s.frontEnd)
    (hstarts : s.Starts (s₀.sysMessage db data online) [.homePage] fields
      online) :
    s₀.HomeSends db port data online net isOnline
      (s.dispatch fields online net isOnline).plainText := by
  have hholds := hstarts.holds hidle net isOnline port
  have htask : (s₀.sysMessage db data online).tasks[s.tasks.length]? =
      some (s.started .homePage s.pulses.length) := by
    rw [hstarts.tasks]
    exact List.getElem?_concat_length
  have hpulse : (s₀.sysMessage db data online).pulses[s.pulses.length]? =
      some (s.dispatch fields online net isOnline).msg := by
    rw [hstarts.pulses]
    exact List.getElem?_concat_length
  obtain ⟨es, s', heap, hrun, hes, hall, m, hm, htext⟩ :=
    exists_homePage_end db hkeys hholds htask rfl rfl hpulse
  refine ⟨es, s', .cons rfl hrun, hes, m, hsent ▸ hm, ?_⟩
  rw [htext]
  exact Dispatch.text_withDevices _ hall

/-- When the other module is first, it sends the text with the port. -/
theorem homeSends_portText
    (hstarts : s.Starts (s.sysMessage db data online)
      [.publicServer, .homePage] fields online) :
    s.HomeSends db port data online net isOnline
      ((s.dispatch fields online net isOnline).portText port) := by
  have hholds := hstarts.holds hidle net isOnline port
  have htask : (s.sysMessage db data online).tasks[s.tasks.length]? =
      some (s.started .publicServer s.pulses.length) := by
    simp [hstarts.tasks]
  have htask' : (s.sysMessage db data online).tasks[s.tasks.length + 1]? =
      some (s.started .homePage s.pulses.length) := by
    simp [hstarts.tasks]
  have hpulse : (s.sysMessage db data online).pulses[s.pulses.length]? =
      some (s.dispatch fields online net isOnline).msg := by
    rw [hstarts.pulses]
    exact List.getElem?_concat_length
  obtain ⟨es, u, hrun, hes, hwritten, hsame⟩ :=
    exists_publicServer_end db hkeys hholds htask rfl rfl hpulse
  have hu := hholds.run hkeys hes hrun
  rw [← hsame _ (by omega)] at htask'
  obtain ⟨es', s', heap, hrun', hes', hall, m, hm, htext⟩ :=
    exists_homePage_end db hkeys hu htask' rfl rfl hwritten
  refine ⟨es ++ es', s', .cons rfl (hrun.append hrun'), ?_, m, hm, ?_⟩
  · rw [List.forall_mem_append]
    exact ⟨hes, hes'⟩
  · rw [htext, Dispatch.withPort_set port hkeys]
    exact Dispatch.text_withPort _ port hall

end

/-- For a pulse that finds nothing under way, all schedules, with and without
the module for the public server, give the front end the same text just if the
pulse came with the server's port. -/
theorem homeText_iff {s : App} (hready : s.Ready) {data : JsString}
    (htype : isText (getProp? (parseMsg data) "type") "PULSE" = true)
    (online : JsString → Bool) (net : Network) (isOnline : Nat → Bool) :
    (∀ text text',
      (s.HomeSends db port data online net isOnline text ∨
        s.withoutPublicServer.HomeSends db port data online net isOnline
          text) →
      (s.HomeSends db port data online net isOnline text' ∨
        s.withoutPublicServer.HomeSends db port data online net isOnline
          text') → text = text') ↔
      (getProp? (parseMsg data) "port").map Json.stringify =
        some (Json.stringify (.num (Dec.ofInt port))) := by
  obtain ⟨fields, hdata, hkeys⟩ := fields_of_pulse htype
  have hboth : s.Starts (s.sysMessage db data online)
      [.publicServer, .homePage] fields online :=
    starts_both hready hdata htype online
  have hhome : s.Starts (s.withoutPublicServer.sysMessage db data online)
      [.homePage] fields online := starts_homePage hready hdata htype online
  have hport : (getProp? (parseMsg data) "port").map Json.stringify =
      some (Json.stringify (.num (Dec.ofInt port))) ↔
      (s.dispatch fields online net isOnline).portText port =
        (s.dispatch fields online net isOnline).plainText := by
    rw [hdata]
    exact ((s.dispatch fields online net isOnline).portText_eq_iff port
      hkeys).symm
  rw [hport]
  constructor
  · intro hsame
    exact hsame _ _
      (.inl (homeSends_portText hready.idle hkeys hboth))
      (.inr (homeSends_plainText hready.idle hkeys rfl hhome))
  · intro heq text text' htext htext'
    have hone : ∀ text, (s.HomeSends db port data online net isOnline text ∨
        s.withoutPublicServer.HomeSends db port data online net isOnline
          text) →
        text = (s.dispatch fields online net isOnline).plainText := by
      rintro text (h | h)
      · rcases text_of_homeSends hready.idle hkeys s rfl hboth h with h | h
        · exact h
        · exact h.trans heq
      · rcases text_of_homeSends hready.idle hkeys s.withoutPublicServer rfl
          hhome h with h | h
        · exact h
        · exact h.trans heq
    rw [hone text htext, hone text' htext']

/-- A browser has come. -/
def opened : App :=
  App.subscribe { App.start with frontEnd := FrontEnd.empty.connect } .homePage

theorem opened_ready : opened.Ready where
  subscribers := rfl
  idle _ ht := absurd ht List.not_mem_nil
  free _ := rfl

def pulseWithPort : JsString := js "\x7b\"type\":\"PULSE\",\"port\":80\x7d"

theorem homeText_pulseWithPort : opened.Ready ∧ ∀ text text',
    (opened.HomeSends (fun _ => none) 80 pulseWithPort (fun _ => true)
        (fun _ _ _ => .response []) (fun _ => true) text ∨
      opened.withoutPublicServer.HomeSends (fun _ => none) 80 pulseWithPort
        (fun _ => true) (fun _ _ _ => .response []) (fun _ => true) text) →
    (opened.HomeSends (fun _ => none) 80 pulseWithPort (fun _ => true)
        (fun _ _ _ => .response []) (fun _ => true) text' ∨
      opened.withoutPublicServer.HomeSends (fun _ => none) 80 pulseWithPort
        (fun _ => true) (fun _ _ _ => .response []) (fun _ => true) text') →
    text = text' :=
  ⟨opened_ready, (homeText_iff opened_ready (by decide +kernel) _ _ _).2
    (by decide +kernel)⟩

def pulseWithoutPort : JsString :=
  js "\x7b\"type\":\"PULSE\",\"netIfs\":[]\x7d"

/-- How `HomePage` sends it, as a run shows. -/
theorem homeSends_of_foldlM {s : App} {data text : JsString}
    {online : JsString → Bool} {net : Network} {isOnline : Nat → Bool}
    {es : List AppEvent} (hes : ∀ e ∈ es, IsAnswer net isOnline e)
    (h : ((.sysMessage data online :: es).foldlM (appStep db port) s).map
      (fun s' => (s.frontEnd.sentSince s'.frontEnd).map (·.content.text)) =
        some [text]) :
    s.HomeSends db port data online net isOnline text := by
  obtain ⟨s', hs', htexts⟩ := Option.map_eq_some_iff.1 h
  have hmem : text ∈
      (s.frontEnd.sentSince s'.frontEnd).map (·.content.text) := by
    rw [htexts]
    exact List.mem_singleton_self _
  obtain ⟨m, hm, htext⟩ := List.mem_map.1 hmem
  exact ⟨es, s', run_iff_foldlM_option.1 hs', hes, m, hm, htext⟩

/-- With no devices, the order in which the two handlers end shows in the
text, and so does whether the second one is there. -/
theorem homeText_differs : ∃ text text', text ≠ text' ∧
    opened.HomeSends (fun _ => none) 80 pulseWithoutPort (fun _ => true)
      (fun _ _ _ => .response []) (fun _ => true) text ∧
    opened.HomeSends (fun _ => none) 80 pulseWithoutPort (fun _ => true)
      (fun _ _ _ => .response []) (fun _ => true) text' ∧
    opened.withoutPublicServer.HomeSends (fun _ => none) 80 pulseWithoutPort
      (fun _ => true) (fun _ _ _ => .response []) (fun _ => true) text' := by
  have hanswers : ∀ order : List Nat, ∀ e ∈ order.map AppEvent.resume,
      IsAnswer (fun _ _ _ => .response []) (fun _ => true) e :=
    fun _ _ he => by
      obtain ⟨_, _, rfl⟩ := List.mem_map.1 he
      trivial
  refine ⟨js ("\x7b\"type\":\"PULSE\",\"netIfs\":[]," ++
      "\"devices\":[],\"port\":80\x7d"),
    js "\x7b\"type\":\"PULSE\",\"netIfs\":[],\"devices\":[]\x7d", by decide,
    homeSends_of_foldlM (hanswers [0, 1]) ?_,
    homeSends_of_foldlM (hanswers [1, 0]) ?_,
    homeSends_of_foldlM (hanswers [0]) ?_⟩
  · decide +kernel
  · decide +kernel
  · decide +kernel

end IotHome.Server
