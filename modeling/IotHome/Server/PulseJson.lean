import IotHome.Lib.JsonRead
import IotHome.PublicServer.HomePage
import IotHome.Server.PulseHandler
import Mathlib.Data.List.Nodup

/-!
# The pulse on its way to the front ends

A pulse leaves the integration server as a JSON text, to its own front end as
it is and to the public server translated. The public server parses it, and
writes what it has parsed for its front end. What is written is what is read:
`ReachesFrontEnd` has the texts a front end can get, and `parse_reaching` says
what is in them.
-/

namespace IotHome.Server

open IotHome.Lib
open IotHome.PublicServer

/-- An object with its properties in this order. `JSON.stringify` leaves out
those that are undefined. -/
def definedObject (props : List (String × JsValue)) : Json :=
  .obj (props.filterMap fun p => p.2.map fun v => (js p.1, v))

/-- The message for the public server, with the devices in it. -/
def ServerPulseMsg.json (msg : ServerPulseMsg) (devices : JsValue) : Json :=
  definedObject [("type", msg.type), ("sysName", msg.sysName),
    ("ipAddr", msg.ipAddr), ("port", msg.port),
    ("cpuTemperature", msg.cpuTemperature), ("devices", devices),
    ("ts", msg.ts)]

/-- `_sendPulseToPublicServer`, of the pulse as it is then. -/
def pulseToPublicServer (obj devices : Json) : Except JsError JsString := do
  let msg ← adaptSysPulse ⟨obj, []⟩
  pure (Json.stringify (msg.json (some devices)))

/-- A pulse as it was parsed, and after handlers have written their port and
their devices into it. -/
inductive SysPulse : Json → Prop where
  | parsed {data : JsString} {obj : Json} (h : parseMsg data = some obj) :
      SysPulse obj
  | written (name : String) {value obj : Json} (hvalue : value.Canonical)
      (h : SysPulse obj) : SysPulse (setProp name value obj)

/-- A text with which a pulse gets to a front end with these devices, from
the server's own `HomePage` or through the public server. -/
inductive ReachesFrontEnd (devices : Json) : JsString → Prop where
  | homePage {obj : Json} (hobj : SysPulse obj) :
      ReachesFrontEnd devices
        (Json.stringify (setProp "devices" devices obj))
  | publicServer {obj : Json} {data : JsString} {s : HomePage}
      {m : FeMessage JsString} (hobj : SysPulse obj)
      (hsent : pulseToPublicServer obj devices = .ok data)
      (hm : m ∈ s.frontEnd.sentSince (s.sysMessage data).frontEnd) :
      ReachesFrontEnd devices m.content

/-! ## Objects that are written and read again -/

section

variable {props : List (String × JsValue)}
  (hnodup : (props.map Prod.fst).Nodup)

include hnodup

theorem definedObject_nodup :
    ((props.filterMap fun p => p.2.map fun v => (js p.1, v)).map
      Prod.fst).Nodup := by
  have hkeys : ∀ qs : List (String × JsValue),
      ((qs.filterMap fun p => p.2.map fun v => (js p.1, v)).map
        Prod.fst).Sublist ((qs.map Prod.fst).map js) := by
    intro qs
    induction qs with
    | nil => exact .slnil
    | cons q qs ih =>
        rw [List.filterMap_cons, List.map_cons, List.map_cons]
        cases hq : q.2 with
        | none => exact ih.cons _
        | some v => exact ih.cons_cons _
  exact (hkeys props).nodup (hnodup.map fun _ _ => js_inj)

theorem definedObject_canonical
    (h : ∀ p ∈ props, ∀ v, p.2 = some v → v.Canonical) :
    (definedObject props).Canonical := by
  refine .obj (definedObject_nodup hnodup) fun f hf => ?_
  obtain ⟨p, hp, hv⟩ := List.mem_filterMap.1 hf
  obtain ⟨v, hpv, rfl⟩ := Option.map_eq_some_iff.1 hv
  exact h p hp v hpv

/-- Its properties are as they were given. -/
theorem getProp?_definedObject {name : String} {v : JsValue}
    (h : (name, v) ∈ props) :
    getProp? (some (definedObject props)) name = v := by
  rw [definedObject, getProp?]
  cases v with
  | some v =>
      refine lastFor_of_mem (definedObject_nodup hnodup) ?_
      exact List.mem_filterMap.2 ⟨(name, some v), h, rfl⟩
  | none =>
      refine lastFor_of_notMem fun hmem => ?_
      obtain ⟨f, hf, hname⟩ := List.mem_map.1 hmem
      obtain ⟨p, hp, hv⟩ := List.mem_filterMap.1 hf
      obtain ⟨v, hpv, rfl⟩ := Option.map_eq_some_iff.1 hv
      have hsame : p = (name, none) :=
        List.inj_on_of_nodup_map hnodup hp h (js_inj hname)
      rw [hsame] at hpv
      cases hpv

end

/-! ## The message for the public server -/

theorem getProp_ok_eq {v w : JsValue} {name : String}
    (h : getProp v name = .ok w) : w = getProp? v name := by
  rw [getProp_eq] at h
  split at h
  · cases h
  · exact (Except.ok.inj h).symm

/-- What is translated, out of a pulse whose interfaces can be gone
through. -/
theorem adaptSysPulse_eq_ok {pulse : Pulse} {msg : ServerPulseMsg} :
    adaptSysPulse pulse = .ok msg ↔
      ∃ netIfs netIf,
        getProp? (some pulse.obj) "netIfs" = some (.arr netIfs) ∧
        findNetIf netIfs = .ok netIf ∧
        msg = {
          type := getProp? (some pulse.obj) "type"
          sysName := getProp? (some pulse.obj) "sysName"
          ipAddr := orEmpty (getProp? netIf "ipAddr")
          port := getProp? (some pulse.obj) "port"
          cpuTemperature := getProp? (some pulse.obj) "cpuTemperature"
          ts := getProp? (some pulse.obj) "ts"
          devices := pulse.devices } := by
  constructor
  · intro h
    obtain ⟨type, htype, h⟩ := bind_eq_ok.1 h
    obtain ⟨sysName, hsysName, h⟩ := bind_eq_ok.1 h
    obtain ⟨found, hfound, h⟩ := bind_eq_ok.1 h
    split at h
    · next netIfs =>
        obtain ⟨netIf, hnetIf, h⟩ := bind_eq_ok.1 h
        obtain ⟨port, hport, h⟩ := bind_eq_ok.1 h
        obtain ⟨cpuTemperature, hcpu, h⟩ := bind_eq_ok.1 h
        obtain ⟨ts, hts, h⟩ := bind_eq_ok.1 h
        refine ⟨netIfs, netIf, (getProp_ok_eq hfound).symm, hnetIf, ?_⟩
        rw [← getProp_ok_eq htype, ← getProp_ok_eq hsysName,
          ← getProp_ok_eq hport, ← getProp_ok_eq hcpu, ← getProp_ok_eq hts]
        exact (Except.ok.inj h).symm
    · cases h
  · rintro ⟨netIfs, netIf, hnetIfs, hfind, rfl⟩
    obtain ⟨obj, devices⟩ := pulse
    cases obj with
    | obj fields =>
        have hprop : ∀ name, getProp (some (.obj fields)) name =
            .ok (getProp? (some (.obj fields)) name) := fun _ => rfl
        rw [adaptSysPulse]
        simp only [hprop, ok_bind, hnetIfs, hfind, pure_eq_ok]
    | _ => cases hnetIfs

/-- The interface that is found is one of them. -/
theorem findNetIf_mem {netIfs : List Json} {netIf : Json}
    (h : findNetIf netIfs = .ok (some netIf)) : netIf ∈ netIfs := by
  induction netIfs with
  | nil => cases h
  | cons w rest ih =>
      obtain ⟨ifName, _, hrest⟩ := bind_eq_ok.1 h
      split at hrest
      · obtain rfl := Option.some.inj (Except.ok.inj hrest)
        exact List.mem_cons_self
      · exact List.mem_cons_of_mem w (ih hrest)

/-! ## What is read again -/

section

variable {v : JsValue} (hv : ∀ w, v = some w → w.Canonical)

include hv

theorem canonical_getProp? (name : String) :
    ∀ w, getProp? v name = some w → w.Canonical := by
  intro w hw
  cases v with
  | none => cases hw
  | some v =>
      cases v with
      | obj fields => exact (hv _ rfl).lastFor hw
      | _ => cases hw

theorem canonical_orEmpty : ∀ w, orEmpty v = some w → w.Canonical := by
  intro w hw
  rw [orEmpty.eq_def] at hw
  split at hw
  · obtain rfl := Option.some.inj hw
    exact .str []
  · obtain rfl := Option.some.inj hw
    exact .str []
  · exact hv w hw

end

theorem ServerPulseMsg.json_nodup (msg : ServerPulseMsg) (devices : JsValue) :
    ([("type", msg.type), ("sysName", msg.sysName),
      ("ipAddr", msg.ipAddr), ("port", msg.port),
      ("cpuTemperature", msg.cpuTemperature), ("devices", devices),
      ("ts", msg.ts)].map Prod.fst).Nodup := by simp

/-- The properties of the message are its fields. -/
theorem ServerPulseMsg.getProp?_json (msg : ServerPulseMsg)
    (devices : JsValue) {name : String} {v : JsValue}
    (h : (name, v) ∈ [("type", msg.type), ("sysName", msg.sysName),
      ("ipAddr", msg.ipAddr), ("port", msg.port),
      ("cpuTemperature", msg.cpuTemperature), ("devices", devices),
      ("ts", msg.ts)]) : getProp? (some (msg.json devices)) name = v :=
  getProp?_definedObject (msg.json_nodup devices) h

theorem getProp?_setProp_self {fields : List (JsString × Json)}
    (h : (Json.obj fields).KeysOnce) (name : String) (value : Json) :
    getProp? (some (setProp name value (.obj fields))) name = some value := by
  rw [setProp, getProp?, OrderedMap.lastFor_setEntry _ _ _ _ h, if_pos rfl]

section

variable {obj : Json} (hobj : obj.Canonical)

include hobj

/-- What is translated can be written. -/
theorem adaptSysPulse_canonical {msg : ServerPulseMsg}
    (h : adaptSysPulse ⟨obj, []⟩ = .ok msg) {devices : Json}
    (hdevices : devices.Canonical) : (msg.json (some devices)).Canonical := by
  obtain ⟨netIfs, netIf, hnetIfs, hfind, rfl⟩ := adaptSysPulse_eq_ok.1 h
  have hprop := canonical_getProp? (v := some obj) (fun w hw => by
    obtain rfl := Option.some.inj hw
    exact hobj)
  have hnetIf : ∀ w, netIf = some w → w.Canonical := by
    rintro w rfl
    exact (hprop "netIfs" _ hnetIfs).elems w (findNetIf_mem hfind)
  refine definedObject_canonical (ServerPulseMsg.json_nodup _ _) ?_
  simp only [List.forall_mem_cons, List.not_mem_nil, false_imp_iff,
    implies_true, and_true]
  refine ⟨hprop "type", hprop "sysName",
    canonical_orEmpty (canonical_getProp? hnetIf "ipAddr"), hprop "port",
    hprop "cpuTemperature", ?_, hprop "ts"⟩
  intro w hw
  obtain rfl := Option.some.inj hw
  exact hdevices

theorem setProp_canonical (name : String) {value : Json}
    (hvalue : value.Canonical) : (setProp name value obj).Canonical := by
  cases obj with
  | obj fields =>
      cases hobj with
      | obj hnodup hfields =>
          obtain ⟨hkeys, hvalues⟩ := Json.CanonicalFields.setEntry
            ⟨hnodup, hfields⟩ (js name) hvalue
          exact .obj hkeys hvalues
  | _ => exact hobj

end

/-- The public server sends what it has parsed, if it is a pulse and there is
somebody to send it to. -/
theorem sentSince_sysMessage {s : HomePage} (hs : s.subscribed = true)
    {data : JsString} {obj : Json} (hobj : parseMsg data = some obj)
    (htype : isText (getProp? (some obj) "type") "PULSE" = true) :
    (s.frontEnd.sentSince (s.sysMessage data).frontEnd).map
      FeMessage.content = [Json.stringify obj] := by
  rw [HomePage.sysMessage, hobj]
  simp only [htype, hs, Bool.and_self, if_true]
  simp [FrontEnd.sentSince, HomePage.handleSysPulse, FrontEnd.send]

theorem mem_sentSince_sysMessage {s : HomePage} {data : JsString}
    {m : FeMessage JsString}
    (hm : m ∈ s.frontEnd.sentSince (s.sysMessage data).frontEnd) :
    ∃ obj, parseMsg data = some obj ∧ m.content = Json.stringify obj := by
  rw [HomePage.sysMessage] at hm
  split at hm
  · rw [FrontEnd.sentSince, List.drop_length] at hm
    cases hm
  · next obj hobj =>
      split at hm
      · have hsent : s.frontEnd.sentSince (s.handleSysPulse obj).frontEnd =
            [⟨Json.stringify obj,
              s.frontEnd.feWs.filter fun k => s.frontEnd.isOpen k⟩] := by
          simp [FrontEnd.sentSince, HomePage.handleSysPulse, FrontEnd.send]
        rw [hsent] at hm
        obtain rfl := List.mem_singleton.1 hm
        exact ⟨obj, hobj, rfl⟩
      · rw [FrontEnd.sentSince, List.drop_length] at hm
        cases hm

theorem parseMsg_stringify {v : Json} (h : v.Canonical) :
    parseMsg (Json.stringify v) = some v := by
  rw [parseMsg, Json.parse_stringify h, Option.getD_some]

theorem SysPulse.canonical {obj : Json} (h : SysPulse obj) :
    obj.Canonical := by
  induction h with
  | @parsed data obj h =>
      rw [parseMsg] at h
      cases hparse : Json.parse data with
      | none =>
          rw [hparse] at h
          obtain rfl := Option.some.inj h
          exact .obj List.nodup_nil fun _ hf => absurd hf List.not_mem_nil
      | some v =>
          rw [hparse] at h
          obtain rfl := Option.some.inj h
          exact Json.parse_canonical hparse
  | written name hvalue h ih => exact setProp_canonical ih name hvalue

/-- A front end reads the pulse, or what was translated of it. -/
theorem parse_reaching {devices : Json} (hdevices : devices.Canonical)
    {text : JsString} (h : ReachesFrontEnd devices text) :
    ∃ obj, SysPulse obj ∧
      (parseMsg text = some (setProp "devices" devices obj) ∨
        ∃ msg, adaptSysPulse ⟨obj, []⟩ = .ok msg ∧
          parseMsg text = some (msg.json (some devices))) := by
  cases h with
  | @homePage obj hobj =>
      exact ⟨obj, hobj,
        .inl (parseMsg_stringify (setProp_canonical hobj.canonical _
          hdevices))⟩
  | @publicServer obj data s m hobj hsent hm =>
      obtain ⟨msg, hmsg, hdata⟩ := bind_eq_ok.1 hsent
      obtain rfl := Except.ok.inj hdata
      have hcanonical := adaptSysPulse_canonical hobj.canonical hmsg hdevices
      obtain ⟨obj', hobj', hcontent⟩ := mem_sentSince_sysMessage hm
      rw [parseMsg_stringify hcanonical] at hobj'
      obtain rfl := Option.some.inj hobj'
      rw [hcontent]
      exact ⟨obj, hobj, .inr ⟨msg, hmsg, parseMsg_stringify hcanonical⟩⟩

end IotHome.Server
