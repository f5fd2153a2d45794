import IotHome.HomepageFe.Device
import IotHome.HomepageFe.WsService
import IotHome.Server.DeviceNotif
import Mathlib.Data.List.Induction

/-!
# What the page knows of a device

The description of a device is looked up once, when the device reports
itself, and goes with it from then on: into the store, onto every pulse, and
through one or two more servers to the page. So the page can show all devices
of a pulse just if every address under which one has been registered is in the
database (`info_iff`). Nothing keeps a device with another address from
reporting itself.
-/

namespace IotHome.Server

open IotHome.Lib
open IotHome.HomepageFe

/-! ## What is recorded of an answer can be written -/

theorem recordStates_canonical {v : JsValue} (hv : ∀ w, v = some w →
    w.Canonical) {states : PinStates}
    (h : recordStates v = .ok (some states)) :
    ∀ e ∈ states.entries, e.2.Canonical := by
  rw [recordStates.eq_def] at h
  split at h
  · next elems =>
      obtain ⟨m, hm, h⟩ := bind_eq_ok.1 h
      obtain ⟨o, ho, h⟩ := bind_eq_ok.1 h
      obtain rfl := Option.some.inj (Except.ok.inj h)
      have helems := (hv _ rfl).elems
      have hmap : ∀ e ∈ m.entries, e.2.2.Canonical := by
        refine foldlM_invariant (P := fun m => ∀ e ∈ m.entries,
          e.2.2.Canonical) (fun m s m' hP hs hstep => ?_) hm
          fun e he => absurd he List.not_mem_nil
        obtain ⟨pin, _, hset⟩ := bind_eq_ok.1 hstep
        obtain rfl := Except.ok.inj hset
        intro e he
        rcases OrderedMap.mem_setEntry he m.nodup with ⟨_, hnew⟩ | ⟨_, hold⟩
        · rw [hnew]
          exact helems _ (List.fst_mem_of_mem_zipIdx hs)
        · exact hP e hold
      refine foldlM_invariant (P := fun o => ∀ e ∈ o.entries,
        e.2.Canonical) (fun o s o' hP hs hstep => ?_) ho
        fun e he => absurd he List.not_mem_nil
      obtain ⟨key, _, hset⟩ := bind_eq_ok.1 hstep
      obtain rfl := Except.ok.inj hset
      intro e he
      rcases OrderedMap.mem_setEntry he o.nodup with ⟨_, hnew⟩ | ⟨_, hold⟩
      · obtain ⟨w, hw, rfl⟩ := List.mem_map.1 hs
        rw [hnew]
        exact hmap w hw
      · exact hP e hold
  · cases h

/-- A query changes the record only, to one that can be written. -/
theorem queryCaught_cases (net : Network) (online : Device → Bool)
    (d : Device) :
    queryCaught net online d = d ∨
      ∃ states : PinStates, (∀ e ∈ states.entries, e.2.Canonical) ∧
        queryCaught net online d =
          { d with devPinStates := some states } := by
  rw [queryCaught]
  cases hquery : d.queryState net (online d) with
  | error e => exact .inl rfl
  | ok r =>
      obtain ⟨d', recorded⟩ := r
      rw [Device.queryState] at hquery
      split at hquery
      · obtain ⟨query, _, hrecord⟩ := bind_eq_ok.1 hquery
        obtain ⟨parsed, hparsed, hstates, rfl⟩ := recordAnswer_eq_ok.1 hrecord
        cases recorded with
        | none => exact .inl rfl
        | some states =>
            refine .inr ⟨states, recordStates_canonical ?_ hstates, rfl⟩
            rintro w rfl
            cases hnet : net d.ip d.port query with
            | response body =>
                rw [hnet] at hparsed
                exact Json.parse_canonical (Except.ok.inj hparsed)
            | failed e =>
                rw [hnet] at hparsed
                cases hparsed
      · obtain ⟨rfl, _⟩ := Prod.mk.inj (Except.ok.inj hquery)
        exact .inl rfl

/-! ## The devices in the store -/

/-- A device that can be written, with what the database has for its
address. -/
structure DeclaredDevice.Ok (d : DeclaredDevice) : Prop where
  described : ∃ name, propertyKey (some d.mac) = .ok name ∧
    d.description = writtenInfo name
  mac : d.mac.Canonical
  ip : ∀ v, d.ip = some v → v.Canonical
  port : ∀ v, d.port = some v → v.Canonical
  states : ∀ o, d.devPinStates = some o → ∀ e ∈ o.entries, e.2.Canonical

theorem DeclaredDevice.Ok.queried {d : DeclaredDevice} (h : d.Ok)
    (net : Network) (isOnline : Bool) : (d.queried net isOnline).Ok := by
  rcases queryCaught_cases net (fun _ => isOnline) d.toDevice with
    hsame | ⟨states, hstates, hset⟩
  · rw [DeclaredDevice.queried, hsame]
    exact ⟨h.described, h.mac, h.ip, h.port, h.states⟩
  · rw [DeclaredDevice.queried, hset]
    refine ⟨h.described, h.mac, h.ip, h.port, ?_⟩
    rintro o ho
    obtain rfl := Option.some.inj ho
    exact hstates

theorem canonical_getD {v : JsValue} (h : ∀ w, v = some w → w.Canonical)
    (s : JsString) : (v.getD (.str s)).Canonical := by
  cases v with
  | none => exact .str s
  | some v => exact h v rfl

theorem declaredDevice_isOk {body now : JsString} {d : DeclaredDevice}
    (h : declaredDevice body now = .ok d) : d.Ok := by
  obtain ⟨json, name, n, hjson, _, hmac, hip, hn, hport, hname, hdescr,
    hstates⟩ := declaredDevice_ok h
  have hprop : ∀ prop w, getProp? (some json) prop = some w →
      w.Canonical := by
    intro prop w hw
    have hcanonical := Json.parse_canonical hjson
    cases json with
    | obj fields => exact hcanonical.lastFor hw
    | _ => cases hw
  refine ⟨⟨name, hname, hdescr⟩, ?_, ?_, ?_, ?_⟩
  · rw [hmac]
    exact canonical_getD (hprop "mac") []
  · intro v hv
    rw [hip] at hv
    obtain rfl := Option.some.inj hv
    exact canonical_getD (hprop "ip") []
  · intro v hv
    rw [hport] at hv
    obtain rfl := Option.some.inj hv
    refine numberJson_canonical (jsNumber_normal ?_ hn)
    intro w hw
    obtain rfl := Option.some.inj hw
    exact canonical_getD (hprop "port") (js "80")
  · intro o ho
    rw [hstates] at ho
    cases ho

theorem mapKey_inj {i j : Nat} (hij : i ≠ j) {v w : Json}
    (h : mapKey i (some v) = mapKey j (some w)) : v = w := by
  cases v <;> cases w <;> simp_all [mapKey]

/-- The devices are as they reported themselves, each under its address. -/
structure DeclaredDevices.Ok (s : DeclaredDevices) : Prop where
  device : ∀ k d, s.deviceStore.get k = some d → d.Ok
  keyed : ∀ k d, s.deviceStore.get k = some d →
    ∃ i, i < s.notifications ∧ k = mapKey i (some d.mac)

/-- A device is registered under this address. -/
def DeclaredDevices.Has (s : DeclaredDevices) (name : JsString) : Prop :=
  ∃ k d, s.deviceStore.get k = some d ∧ propertyKey (some d.mac) = .ok name

section

variable {s : DeclaredDevices} (h : s.Ok)

include h

theorem DeclaredDevices.Ok.setIsOnline (body now : JsString) :
    (s.setIsOnline body now).Ok := by
  rw [DeclaredDevices.setIsOnline]
  cases hd : declaredDevice body now with
  | error e =>
      refine ⟨h.device, fun k d hget => ?_⟩
      obtain ⟨i, hi, hk⟩ := h.keyed k d hget
      exact ⟨i, Nat.lt_succ_of_lt hi, hk⟩
  | ok device =>
      refine ⟨fun k d hget => ?_, fun k d hget => ?_⟩
      · rcases OrderedMap.get_set_cases hget with ⟨_, rfl⟩ | ⟨_, hold⟩
        · exact declaredDevice_isOk hd
        · exact h.device k d hold
      · rcases OrderedMap.get_set_cases hget with ⟨rfl, rfl⟩ | ⟨_, hold⟩
        · exact ⟨s.notifications, Nat.lt_succ_self _, rfl⟩
        · obtain ⟨i, hi, hk⟩ := h.keyed k d hold
          exact ⟨i, Nat.lt_succ_of_lt hi, hk⟩

/-- A notification adds the address it declares. -/
theorem DeclaredDevices.Ok.has_setIsOnline (body now name : JsString) :
    (s.setIsOnline body now).Has name ↔ s.Has name ∨ Declares body name := by
  rw [DeclaredDevices.setIsOnline]
  cases hd : declaredDevice body now with
  | error e =>
      have hnot : ¬ Declares body name := by
        intro hdeclares
        obtain ⟨d, hok, _⟩ := exists_declaredDevice hdeclares now
        rw [hd] at hok
        cases hok
      rw [or_iff_left hnot]
      rfl
  | ok device =>
      have hdeclares : Declares body name ↔
          propertyKey (some device.mac) = .ok name := by
        constructor
        · intro hdeclares
          obtain ⟨d, hok, hname⟩ := exists_declaredDevice hdeclares now
          obtain rfl := Except.ok.inj (hd.symm.trans hok)
          exact hname
        · intro hname
          obtain ⟨json, _, n, hjson, hnull, hmac, _, hn, _⟩ :=
            declaredDevice_ok hd
          exact ⟨json, hjson, hnull, ⟨n, hn⟩, hmac ▸ hname⟩
      rw [hdeclares]
      constructor
      · rintro ⟨k, d, hget, hname⟩
        rcases OrderedMap.get_set_cases hget with ⟨_, rfl⟩ | ⟨_, hold⟩
        · exact .inr hname
        · exact .inl ⟨k, d, hold, hname⟩
      · rintro (⟨k, d, hget, hname⟩ | hname)
        · by_cases hk : mapKey s.notifications (some device.mac) = k
          · -- the device that was there had the same address
            obtain ⟨i, hi, hki⟩ := h.keyed k d hget
            rw [hki] at hk
            rw [← mapKey_inj (Nat.ne_of_gt hi) hk] at hname
            exact ⟨_, device, OrderedMap.get_set_self _ _ _, hname⟩
          · exact ⟨k, d, (OrderedMap.get_set_ne _ hk _).trans hget, hname⟩
        · exact ⟨_, device, OrderedMap.get_set_self _ _ _, hname⟩

/-- A query leaves the devices where they are. -/
theorem DeclaredDevices.Ok.queried (mac : MapKey) (net : Network)
    (isOnline : Bool) :
    (s.apply (.queried mac net isOnline)).Ok ∧
      ∀ name, (s.apply (.queried mac net isOnline)).Has name ↔
        s.Has name := by
  rw [DeclaredDevices.apply]
  cases hdevice : s.deviceStore.get mac with
  | none => exact ⟨h, fun _ => Iff.rfl⟩
  | some device =>
      refine ⟨⟨fun k d hget => ?_, fun k d hget => ?_⟩, fun name => ?_⟩
      · rcases OrderedMap.get_set_cases hget with ⟨_, rfl⟩ | ⟨_, hold⟩
        · exact (h.device mac device hdevice).queried net isOnline
        · exact h.device k d hold
      · rcases OrderedMap.get_set_cases hget with ⟨rfl, rfl⟩ | ⟨_, hold⟩
        · exact h.keyed mac device hdevice
        · exact h.keyed k d hold
      · constructor
        · rintro ⟨k, d, hget, hname⟩
          rcases OrderedMap.get_set_cases hget with ⟨_, rfl⟩ | ⟨_, hold⟩
          · exact ⟨mac, device, hdevice, hname⟩
          · exact ⟨k, d, hold, hname⟩
        · rintro ⟨k, d, hget, hname⟩
          by_cases hk : mac = k
          · subst hk
            rw [hdevice] at hget
            obtain rfl := Option.some.inj hget
            exact ⟨mac, _, OrderedMap.get_set_self _ _ _, hname⟩
          · exact ⟨k, d, (OrderedMap.get_set_ne _ hk _).trans hget, hname⟩

end

/-- The addresses under which devices are registered are those that the
notifications declared. -/
theorem has_run (es : List NotifEvent) :
    (DeclaredDevices.run es).Ok ∧
      ∀ name, (DeclaredDevices.run es).Has name ↔
        ∃ body now, .setIsOnline body now ∈ es ∧ Declares body name := by
  induction es using List.reverseRecOn with
  | nil =>
      refine ⟨⟨nofun, nofun⟩, fun name => ⟨?_, ?_⟩⟩
      · rintro ⟨k, d, hget, _⟩
        cases hget
      · rintro ⟨body, now, hmem, _⟩
        cases hmem
  | append_singleton es e ih =>
      obtain ⟨hok, hhas⟩ := ih
      have hrun : DeclaredDevices.run (es ++ [e]) =
          (DeclaredDevices.run es).apply e := by
        rw [DeclaredDevices.run, List.foldl_append]
        rfl
      rw [hrun]
      cases e with
      | setIsOnline body now =>
          refine ⟨hok.setIsOnline body now, fun name => ?_⟩
          rw [DeclaredDevices.apply, hok.has_setIsOnline, hhas]
          simp only [List.mem_append, List.mem_singleton,
            NotifEvent.setIsOnline.injEq]
          constructor
          · rintro (⟨body', now', hmem, hdeclares⟩ | hdeclares)
            · exact ⟨body', now', .inl hmem, hdeclares⟩
            · exact ⟨body, now, .inr ⟨rfl, rfl⟩, hdeclares⟩
          · rintro ⟨body', now', hmem | ⟨rfl, rfl⟩, hdeclares⟩
            · exact .inl ⟨body', now', hmem, hdeclares⟩
            · exact .inr hdeclares
      | queried mac net isOnline =>
          obtain ⟨hok', hsame⟩ := hok.queried mac net isOnline
          refine ⟨hok', fun name => ?_⟩
          rw [hsame, hhas]
          simp

/-! ## The devices at the front end -/

theorem pinInfo_canonical : pinInfo.Canonical := by
  have hbool : ∀ b, (Json.bool b).Canonical := .bool
  have hnum : ∀ n : Int, (Json.num (.ofInt n)).Canonical := fun n =>
    .num (Dec.ofInt_normal n)
  refine .obj (by decide) ?_
  rw [List.forall_mem_cons, List.forall_mem_singleton]
  refine ⟨.obj (by decide) ?_, .arr ?_⟩
  · rw [List.forall_mem_cons, List.forall_mem_singleton]
    exact ⟨hbool true, hbool true⟩
  · rw [List.forall_mem_cons, List.forall_mem_singleton]
    exact ⟨hnum 0, hnum 1⟩

theorem deviceInfo_canonical (displayName : String) {pins : List Nat}
    (h : (pins.map fun pin => js (toString pin)).Nodup) :
    (deviceInfo displayName pins).content.Canonical := by
  have hpins : ((pins.map fun pin => (js (toString pin), pinInfo)).map
      Prod.fst).Nodup := by
    rw [List.map_map]
    exact h
  have hkeys : [js "displayName", js "controls"].Nodup := by decide
  refine .obj hkeys ?_
  rw [List.forall_mem_cons, List.forall_mem_singleton]
  refine ⟨.str _, .obj (List.nodup_singleton _) ?_⟩
  rw [List.forall_mem_singleton]
  refine .obj hpins fun f hf => ?_
  obtain ⟨pin, _, rfl⟩ := List.mem_map.1 hf
  exact pinInfo_canonical

/-- An address of the database has an object with a name, and every other has
none. -/
theorem writtenInfo_cases (name : JsString) :
    (name ∈ deviceDbJson.map Prod.fst ∧
      ∃ displayName pins, (pins.map fun pin => js (toString pin)).Nodup ∧
        writtenInfo name = some (deviceInfo displayName pins).content) ∨
    (name ∉ deviceDbJson.map Prod.fst ∧
      (writtenInfo name = some (.obj []) ∨ writtenInfo name = none)) := by
  by_cases hmem : name ∈ deviceDbJson.map Prod.fst
  · refine .inl ⟨hmem, ?_⟩
    obtain ⟨⟨_, info⟩, hinfo, rfl⟩ := List.mem_map.1 hmem
    have hget : lastFor _ deviceDbJson = some info :=
      lastFor_of_mem (by decide) hinfo
    have hall : ∀ e ∈ deviceDbJson, ∃ displayName pins,
        (pins.map fun pin => js (toString pin)).Nodup ∧
        e.2 = deviceInfo displayName pins := by
      rw [deviceDbJson, List.forall_mem_cons, List.forall_mem_cons,
        List.forall_mem_singleton]
      exact ⟨⟨_, [2, 3], by decide, rfl⟩,
        ⟨_, [2, 3, 4, 5, 6], by decide, rfl⟩, ⟨_, [2, 3], by decide, rfl⟩⟩
    obtain ⟨displayName, pins, hpins, rfl⟩ := hall _ hinfo
    refine ⟨displayName, pins, hpins, ?_⟩
    rw [writtenInfo, devicesDb, hget]
  · refine .inr ⟨hmem, ?_⟩
    rw [writtenInfo, devicesDb, lastFor_of_notMem hmem]
    simp only []
    split
    · exact .inl rfl
    · exact .inr rfl

section

variable {d : DeclaredDevice} (h : d.Ok)

include h

theorem DeclaredDevice.Ok.json_canonical : d.json.Canonical := by
  obtain ⟨name, _, hdescr⟩ := h.described
  refine definedObject_canonical (by simp) ?_
  simp only [List.forall_mem_cons, List.not_mem_nil, false_imp_iff,
    implies_true, and_true]
  refine ⟨?_, h.ip, h.port, ?_, ?_, ?_, ?_⟩
  · rintro v ⟨⟩
    exact h.mac
  · rw [hdescr]
    rintro v hv
    rcases writtenInfo_cases name with ⟨_, displayName, pins, hpins, hinfo⟩ |
      ⟨_, hempty | hnone⟩
    · rw [hinfo] at hv
      obtain rfl := Option.some.inj hv
      exact deviceInfo_canonical displayName hpins
    · rw [hempty] at hv
      obtain rfl := Option.some.inj hv
      exact .obj List.nodup_nil fun _ hf => absurd hf List.not_mem_nil
    · rw [hnone] at hv
      cases hv
  · rintro v ⟨⟩
    exact .str _
  · rintro v hv
    obtain ⟨b, _, rfl⟩ := Option.map_eq_some_iff.1 hv
    exact .bool b
  · rintro v hv
    obtain ⟨states, hstates, rfl⟩ := Option.map_eq_some_iff.1 hv
    exact .obj states.nodup (h.states states hstates)

/-- The page can show the device just if its address is in the database. -/
theorem DeclaredDevice.Ok.hasInfo_iff {name : JsString}
    (hname : propertyKey (some d.mac) = .ok name) :
    (HasInfo d.json ∧ ∃ view, HomepageFe.Device d.json = .ok view) ↔
      name ∈ deviceDbJson.map Prod.fst := by
  obtain ⟨name', hname', hdescr⟩ := h.described
  obtain rfl := Except.ok.inj (hname.symm.trans hname')
  have hprop : ∀ prop v, (prop, v) ∈ [("mac", some d.mac), ("ip", d.ip),
      ("port", d.port), ("info", d.description),
      ("lastSeen", some (.str d.lastSeen)), ("isOnline", d.isOnline.map .bool),
      ("devPinStates", d.devPinStates.map fun states =>
        Json.obj states.entries)] → getProp? (some d.json) prop = v :=
    fun prop v hmem => getProp?_definedObject (by simp) hmem
  have hinfo := hprop "info" d.description (by simp)
  have hstates := hprop "devPinStates"
    (d.devPinStates.map fun states => .obj states.entries) (by simp)
  rcases writtenInfo_cases name with ⟨hmem, displayName, pins, _, hwritten⟩ |
    ⟨hnot, hwritten⟩
  · refine iff_of_true ⟨⟨_, js displayName,
      hinfo.trans (hdescr.trans hwritten), rfl⟩, ?_⟩ hmem
    · refine device_ok (hinfo.trans (hdescr.trans hwritten)) ?_
      rcases Option.eq_none_or_eq_some d.devPinStates with hd | ⟨o, hd⟩
      · exact .inl (hstates.trans (by rw [hd]; rfl))
      · exact .inr ⟨o.entries, hstates.trans (by rw [hd]; rfl)⟩
  · refine iff_of_false ?_ hnot
    rintro ⟨⟨fields, displayName, hfields, hget⟩, _⟩
    rw [hinfo, hdescr] at hfields
    rcases hwritten with hempty | hnone
    · rw [hempty] at hfields
      obtain rfl := Json.obj.inj (Option.some.inj hfields)
      cases hget
    · rw [hnone] at hfields
      cases hfields

end

/-! ## The way to the front end -/

theorem DeclaredDevices.Ok.json_canonical {s : DeclaredDevices} (h : s.Ok) :
    (Json.arr s.json).Canonical := by
  refine .arr fun v hv => ?_
  obtain ⟨d, hd, rfl⟩ := List.mem_map.1 hv
  obtain ⟨k, hk⟩ := OrderedMap.mem_values.1 hd
  exact (h.device k d hk).json_canonical

/-- The server that is set has the devices that were put on the pulse. -/
theorem devices_of_reaching {devices : List Json}
    (hdevices : (Json.arr devices).Canonical) {text : JsString}
    (h : ReachesFrontEnd (.arr devices) text) {server : IntServer}
    (hserver : mainMsgHandler text = some server) :
    server.devices = devices := by
  obtain ⟨pulse, hpulse, _, _, _, hsame⟩ := mainMsgHandler_eq_some hserver
  obtain ⟨ts, _, hpulse⟩ := bind_eq_ok.1 hpulse
  obtain ⟨cpuTemperature, _, hpulse⟩ := bind_eq_ok.1 hpulse
  obtain ⟨found, hfound, hpulse⟩ := bind_eq_ok.1 hpulse
  obtain rfl := Except.ok.inj hpulse
  rw [hsame]
  have hpulse : isText (getProp? (parseMsg text) "type") "PULSE" = true := by
    by_contra hnot
    rw [mainMsgHandler, if_neg hnot] at hserver
    cases hserver
  have hread : ∃ fields, parseMsg text = some (.obj fields) ∧
      lastFor (js "devices") fields = some (.arr devices) := by
    obtain ⟨obj, hobj, hparsed | ⟨msg, _, hparsed⟩⟩ :=
      parse_reaching hdevices h
    · rw [hparsed] at hpulse ⊢
      cases obj with
      | obj fields =>
          exact ⟨_, rfl, getProp?_setProp_self hobj.canonical.keysOnce _ _⟩
      | _ => cases hpulse
    · exact ⟨_, hparsed, getProp?_definedObject
        (ServerPulseMsg.json_nodup msg _) (by simp)⟩
  obtain ⟨fields, hfields, hlast⟩ := hread
  rw [hfields, pulseDevices_arr hlast] at hfound
  exact (Except.ok.inj hfound).symm

/-- The devices of a server get to the front end with any pulse. -/
theorem exists_reaching {devices : List Json}
    (hdevices : (Json.arr devices).Canonical) :
    ∃ text server, ReachesFrontEnd (.arr devices) text ∧
      mainMsgHandler text = some server := by
  have hpulse : (Json.obj [(js "type", .str (js "PULSE"))]).Canonical := by
    refine .obj (List.nodup_singleton _) ?_
    rw [List.forall_mem_singleton]
    exact .str _
  refine ⟨_, ⟨some (.str []), js "http://:NaN", .nan, .nan, devices⟩,
    .homePage (.parsed (parseMsg_stringify hpulse)), ?_⟩
  rw [mainMsgHandler, parseMsg_stringify (setProp_canonical hpulse _ hdevices)]
  rfl

/-- All devices of a pulse have an `info` with a name, and can be shown, just
if every notification before it that registers a device has an address of the
database. -/
theorem info_iff (es : List NotifEvent) {text : JsString}
    (h : ReachesFrontEnd (.arr (DeclaredDevices.run es).json) text)
    {server : IntServer} (hserver : mainMsgHandler text = some server) :
    (∀ device ∈ server.devices, HasInfo device ∧
      ∃ view, HomepageFe.Device device = .ok view) ↔
      ∀ body now, .setIsOnline body now ∈ es → ∀ name, Declares body name →
        name ∈ deviceDbJson.map Prod.fst := by
  obtain ⟨hok, hhas⟩ := has_run es
  rw [devices_of_reaching hok.json_canonical h hserver]
  constructor
  · intro hall body now hmem name hdeclares
    obtain ⟨k, d, hget, hname⟩ := (hhas name).2 ⟨body, now, hmem, hdeclares⟩
    refine ((hok.device k d hget).hasInfo_iff hname).1 (hall d.json ?_)
    exact List.mem_map_of_mem (OrderedMap.mem_values.2 ⟨k, hget⟩)
  · intro hall device hdevice
    obtain ⟨d, hd, rfl⟩ := List.mem_map.1 hdevice
    obtain ⟨k, hget⟩ := OrderedMap.mem_values.1 hd
    have hdevice := hok.device k d hget
    obtain ⟨name, hname, _⟩ := hdevice.described
    obtain ⟨body, now, hmem, hdeclares⟩ := (hhas name).1 ⟨k, d, hget, hname⟩
    exact (hdevice.hasInfo_iff hname).2 (hall body now hmem name hdeclares)

/-- A notification of a device with this address. -/
def macBody (mac : String) : Json := .obj [(js "mac", .str (js mac))]

theorem macBody_canonical (mac : String) : (macBody mac).Canonical := by
  refine .obj (List.nodup_singleton _) ?_
  rw [List.forall_mem_singleton]
  exact .str _

theorem info_iff_virtualDevice : ∃ text server,
    ReachesFrontEnd (.arr (DeclaredDevices.run [.setIsOnline
      (Json.stringify (macBody "VI:RT:UA:LD:EV:CE")) []]).json) text ∧
    mainMsgHandler text = some server ∧
    ∀ device ∈ server.devices, HasInfo device ∧
      ∃ view, HomepageFe.Device device = .ok view := by
  obtain ⟨text, server, h, hserver⟩ := exists_reaching (has_run [.setIsOnline
    (Json.stringify (macBody "VI:RT:UA:LD:EV:CE")) []]).1.json_canonical
  refine ⟨text, server, h, hserver, (info_iff _ h hserver).2 ?_⟩
  intro body now hmem name hdeclares
  obtain ⟨rfl, _⟩ := NotifEvent.setIsOnline.inj (List.mem_singleton.1 hmem)
  obtain ⟨json, hjson, _, _, hname⟩ := hdeclares
  rw [Json.parse_stringify (macBody_canonical _)] at hjson
  obtain rfl := Option.some.inj hjson
  obtain rfl := Except.ok.inj hname
  exact List.mem_cons_self

/-- A device that gives no address is on the pulse without an `info`, and
showing it throws. -/
theorem not_info : ∃ text server,
    ReachesFrontEnd
      (.arr (DeclaredDevices.run [.setIsOnline (js "\x7b\x7d") []]).json)
      text ∧
    mainMsgHandler text = some server ∧
    ∃ device ∈ server.devices, ¬ HasInfo device ∧
      HomepageFe.Device device = .error .typeError := by
  have hcanonical :=
    (has_run [.setIsOnline (js "\x7b\x7d") []]).1.json_canonical
  obtain ⟨text, server, h, hserver⟩ := exists_reaching hcanonical
  refine ⟨text, server, h, hserver, ?_⟩
  rw [devices_of_reaching hcanonical h hserver]
  refine ⟨_, List.mem_singleton.2 rfl, ?_, rfl⟩
  rintro ⟨fields, displayName, hfields, _⟩
  cases hfields

end IotHome.Server
