import IotHome.HomepageFe.WsService
import IotHome.Os.SysPulse
import IotHome.Server.DeviceNotif
import IotHome.Proofs.DeviceInfo

/-!
# The heartbeat from the system to the page

A pulse is written by the system, parsed and translated by the integration
server, parsed and written again by the public server, and parsed by the page.
Texts and interfaces come through all of it, and so do numbers; but JSON has
no number that is none, so a temperature that is not known comes out as zero.
-/

namespace IotHome.Os

open IotHome.Lib
open IotHome.Server
open IotHome.Virtual
open IotHome.PublicServer
open IotHome.HomepageFe

/-! ## The way -/

/-- What the integration server sends to the public server for a message of
the system. -/
def integrationServer (port : Nat) (devices : List Json) (data : JsString) :
    Option JsString :=
  match parseMsg data with
  | none => none
  | some obj =>
      if isText (getProp? (some obj) "type") "PULSE" then
        (pulseToPublicServer ((publicPulseHandler port).complete obj)
          (.arr devices)).toOption
      else none

/-- What the public server sends to its front end for a message of the
integration server. -/
def publicServer (s : HomePage) (data : JsString) : List JsString :=
  (s.frontEnd.sentSince (s.sysMessage data).frontEnd).map FeMessage.content

def frontEndTexts (port : Nat) (devices : List Json) (s : HomePage)
    (p : OsPulse) : List JsString :=
  (integrationServer port devices p.str).toList.flatMap (publicServer s)

def NetworkInterface.isUplink (n : NetworkInterface) : Bool :=
  n.ifName == js "wlan0" || n.ifName == js "eth0"

/-- The address of the first of the two interfaces. -/
def OsPulse.uplinkAddr (p : OsPulse) : JsString :=
  ((p.netIfs.find? NetworkInterface.isUplink).map
    NetworkInterface.ipAddr).getD []

/-- The front end takes the same out of the text as the system has put into
the pulse. -/
def FrontEndHolds (p : OsPulse) (text : JsString) : Prop :=
  ∃ pulse server, parseIntegrationServerPulseMsg (parseMsg text) = .ok pulse ∧
    mainMsgHandler text = some server ∧
    server.serverName = some (.str p.sysName) ∧ server.ts = p.ts ∧
    server.cpuTemperature = p.cpuTemperature ∧
    pulse.ipAddr = some (.str p.uplinkAddr) ∧
    ∃ port, server.uri = js "http://" ++ p.uplinkAddr ++ unit ':' :: port

/-! ## The text of the system -/

theorem netIf_canonical (n : NetworkInterface) : n.json.Canonical := by
  refine definedObject_canonical (by simp) ?_
  simp only [List.forall_mem_cons, List.not_mem_nil, false_imp_iff,
    implies_true, and_true]
  refine ⟨?_, ?_, ?_⟩
  · rintro v ⟨⟩
    exact .str _
  · rintro v ⟨⟩
    exact .str _
  · rintro v ⟨⟩
    exact .str _

theorem OsPulse.json_canonical (p : OsPulse) : p.json.Canonical := by
  refine definedObject_canonical (by simp) ?_
  simp only [List.forall_mem_cons, List.not_mem_nil, false_imp_iff,
    implies_true, and_true]
  refine ⟨?_, ?_, ?_, ?_, ?_⟩
  · rintro v ⟨⟩
    exact .str _
  · rintro v ⟨⟩
    exact .str _
  · rintro v ⟨⟩
    exact numberJson_canonical p.cpuTemperature_normal
  · rintro v ⟨⟩
    refine .arr fun w hw => ?_
    obtain ⟨n, _, rfl⟩ := List.mem_map.1 hw
    exact netIf_canonical n
  · rintro v ⟨⟩
    exact numberJson_canonical p.ts_normal

theorem OsPulse.getProp?_json (p : OsPulse) {name : String} {v : JsValue}
    (h : (name, v) ∈ [("type", some (.str (js "PULSE"))),
      ("sysName", some (.str p.sysName)),
      ("cpuTemperature", some (numberJson p.cpuTemperature)),
      ("netIfs", some (.arr (p.netIfs.map NetworkInterface.json))),
      ("ts", some (numberJson p.ts))]) :
    getProp? (some p.json) name = v :=
  getProp?_definedObject (by simp) h

/-! ## The integration server -/

theorem NetworkInterface.getProp?_json (n : NetworkInterface) {name : String}
    {v : JsValue} (h : (name, v) ∈ [("macAddr", some (.str n.macAddr)),
      ("ifName", some (.str n.ifName)), ("ipAddr", some (.str n.ipAddr))]) :
    getProp? (some n.json) name = v :=
  getProp?_definedObject (by simp) h

/-- The server finds the interface that the system has. -/
theorem findNetIf_map (netIfs : List NetworkInterface) :
    findNetIf (netIfs.map NetworkInterface.json) =
      .ok ((netIfs.find? NetworkInterface.isUplink).map
        NetworkInterface.json) := by
  induction netIfs with
  | nil => rfl
  | cons n netIfs ih =>
      have hprop : getProp? (some n.json) "ifName" = some (.str n.ifName) :=
        n.getProp?_json (by simp)
      have hname : getProp (some n.json) "ifName" =
          .ok (some (.str n.ifName)) := congrArg Except.ok hprop
      have hup : (isText (some (.str n.ifName)) "wlan0" ||
          isText (some (.str n.ifName)) "eth0") = n.isUplink := rfl
      rw [List.map_cons, findNetIf, hname, ok_bind, hup]
      by_cases h : n.isUplink = true
      · rw [if_pos h, List.find?_cons_of_pos h]
        rfl
      · rw [if_neg h, List.find?_cons_of_neg h, ih]

theorem OsPulse.orEmpty_ipAddr (p : OsPulse) :
    orEmpty (getProp? ((p.netIfs.find? NetworkInterface.isUplink).map
      NetworkInterface.json) "ipAddr") = some (.str p.uplinkAddr) := by
  rw [OsPulse.uplinkAddr]
  cases p.netIfs.find? NetworkInterface.isUplink with
  | none => rfl
  | some n =>
      have haddr : getProp? (some n.json) "ipAddr" = some (.str n.ipAddr) :=
        n.getProp?_json (by simp)
      rw [Option.map_some, haddr]
      rfl

/-- The integration server translates every pulse, and the public server gets
these fields. -/
theorem integrationServer_eq (p : OsPulse) (port : Nat)
    {devices : List Json} (hdevices : (Json.arr devices).Canonical) :
    ∃ msg : ServerPulseMsg,
      integrationServer port devices p.str =
        some (Json.stringify (msg.json (some (.arr devices)))) ∧
      (msg.json (some (.arr devices))).Canonical ∧
      msg.type = some (.str (js "PULSE")) ∧
      msg.sysName = some (.str p.sysName) ∧
      msg.ipAddr = some (.str p.uplinkAddr) ∧
      msg.port = some (.num (.ofInt port)) ∧
      msg.cpuTemperature = some (numberJson p.cpuTemperature) ∧
      msg.ts = some (numberJson p.ts) := by
  have hobj := p.json_canonical
  have hcanonical := setProp_canonical hobj "port"
    (.num (Dec.ofInt_normal port))
  have hset : getProp? (some (setProp "port" (.num (.ofInt port)) p.json))
      "port" = some (.num (.ofInt port)) :=
    getProp?_setProp_self hobj.keysOnce _ _
  have hprop : ∀ name, js "port" ≠ js name →
      getProp? (some (setProp "port" (.num (.ofInt port)) p.json)) name =
        getProp? (some p.json) name :=
    fun name hne => getProp?_setProp_ne hne _ _
  have htype : getProp? (some p.json) "type" = some (.str (js "PULSE")) :=
    p.getProp?_json (by simp)
  have hnetIfs : getProp? (some p.json) "netIfs" =
      some (.arr (p.netIfs.map NetworkInterface.json)) :=
    p.getProp?_json (by simp)
  have hadapt := (@adaptSysPulse_eq_ok
    ⟨setProp "port" (.num (.ofInt port)) p.json, []⟩ _).2 ⟨_, _,
    (hprop "netIfs" (by decide)).trans hnetIfs, findNetIf_map p.netIfs, rfl⟩
  refine ⟨_, ?_, adaptSysPulse_canonical hcanonical hadapt hdevices,
    (hprop "type" (by decide)).trans htype,
    (hprop "sysName" (by decide)).trans (p.getProp?_json (by simp)),
    p.orEmpty_ipAddr, hset,
    (hprop "cpuTemperature" (by decide)).trans (p.getProp?_json (by simp)),
    (hprop "ts" (by decide)).trans (p.getProp?_json (by simp))⟩
  rw [integrationServer, OsPulse.str, parseMsg_stringify hobj]
  simp only [htype]
  rw [if_pos (by decide)]
  show (pulseToPublicServer (setProp "port" (.num (.ofInt port)) p.json)
    (.arr devices)).toOption = _
  rw [pulseToPublicServer, hadapt]
  rfl

/-! ## The front end -/

/-- The page makes numbers of what has come for the time and the temperature,
and takes the rest as it is. -/
theorem frontEndHolds_iff (p : OsPulse) {text : JsString}
    {msg : ServerPulseMsg} {devices : List Json} {port : Dec}
    (htext : parseMsg text = some (msg.json (some (.arr devices))))
    (htype : msg.type = some (.str (js "PULSE")))
    (hsysName : msg.sysName = some (.str p.sysName))
    (hipAddr : msg.ipAddr = some (.str p.uplinkAddr))
    (hport : msg.port = some (.num port))
    (hcpu : msg.cpuTemperature = some (numberJson p.cpuTemperature))
    (hts : msg.ts = some (numberJson p.ts)) :
    FrontEndHolds p text ↔ IsFinite p.cpuTemperature ∧ IsFinite p.ts := by
  obtain ⟨ts, htsNumber, htsSame⟩ := jsNumber_numberJson p.ts
  obtain ⟨cpu, hcpuNumber, hcpuSame⟩ := jsNumber_numberJson p.cpuTemperature
  have hread := @ServerPulseMsg.getProp?_json msg (some (.arr devices))
  have hispulse : IsPulse text p.sysName p.uplinkAddr port
      ⟨some (.str p.sysName), js "http://" ++ p.uplinkAddr ++
        unit ':' :: port.text.flatMap utf16Encode, ts, cpu, devices⟩ := by
    refine ⟨rfl, rfl, ?_, ?_, ?_, ?_, ?_, ?_, ?_⟩
    · rw [htext, ← htype]
      exact hread (by simp)
    · rw [htext, ← hsysName]
      exact hread (by simp)
    · rw [htext, @hread "ts" msg.ts (by simp), hts, htsNumber]
    · rw [htext, ← hipAddr]
      exact hread (by simp)
    · rw [htext, ← hport]
      exact hread (by simp)
    · rw [htext, @hread "cpuTemperature" msg.cpuTemperature (by simp), hcpu,
        hcpuNumber]
    · rw [htext]
      exact hread (by simp)
  have hpulse := hispulse.parsed
  have hserver := mainMsgHandler_pulse hispulse
  rw [← hcpuSame, ← htsSame]
  constructor
  · rintro ⟨pulse, server, _, hsome, _, hts', hcpu', _⟩
    rw [hserver] at hsome
    obtain rfl := Option.some.inj hsome
    exact ⟨hcpu', hts'⟩
  · rintro ⟨rfl, rfl⟩
    exact ⟨_, _, hpulse, hserver, rfl, rfl, rfl, rfl, _, rfl⟩

/-- Behind the whole path the front end holds what the system has sent just if
the temperature is a number, and the time, which it always is. -/
theorem path_iff (p : OsPulse) (port : Nat) (es : List NotifEvent)
    {s : HomePage} (hs : s.subscribed = true) :
    (∃ text ∈ frontEndTexts port (DeclaredDevices.run es).json s p,
      FrontEndHolds p text) ↔ IsFinite p.cpuTemperature ∧ IsFinite p.ts := by
  obtain ⟨msg, hsent, hcanonical, htype, hsysName, hipAddr, hport, hcpu,
    hts⟩ := integrationServer_eq p port (has_run es).1.json_canonical
  have hparse := parseMsg_stringify hcanonical
  have hread : getProp? (some (msg.json
      (some (.arr (DeclaredDevices.run es).json)))) "type" =
        some (.str (js "PULSE")) := by
    rw [← htype]
    exact msg.getProp?_json _ (by simp)
  have htexts : frontEndTexts port (DeclaredDevices.run es).json s p =
      [Json.stringify (msg.json
        (some (.arr (DeclaredDevices.run es).json)))] := by
    rw [frontEndTexts, hsent, Option.toList_some, List.flatMap_singleton,
      publicServer]
    exact sentSince_sysMessage hs hparse (by rw [hread]; decide)
  rw [htexts]
  simp only [List.mem_singleton, exists_eq_left]
  exact frontEndHolds_iff p hparse htype hsysName hipAddr hport hcpu hts

/-- The public server when the first browser has come. -/
def openedHomePage : HomePage :=
  { HomePage.start with
    frontEnd := FrontEnd.empty.connect
    subscribed := true }

/-- A pulse of a system without interfaces. -/
def pulseOf (cpuTemperature : JsNumber)
    (h : JsNumber.Normal cpuTemperature) : OsPulse where
  sysName := js "rpi-local.system"
  cpuTemperature
  netIfs := []
  ts := .dec (.ofInt 1700000000000)
  cpuTemperature_normal := h
  ts_normal := fun d hd => by
    obtain rfl := JsNumber.dec.inj hd
    exact Dec.ofInt_normal _

theorem path_iff_celsius : ∃ text ∈ frontEndTexts 3335
    (DeclaredDevices.run []).json openedHomePage
    (pulseOf (textNumber (js "48.7")) (toNumber_normal _)),
    FrontEndHolds (pulseOf (textNumber (js "48.7")) (toNumber_normal _))
      text :=
  (path_iff _ 3335 [] rfl).2 ⟨⟨⟨487, 1⟩, by decide⟩, ⟨_, rfl⟩⟩

/-- A temperature that is not known is zero at the front end. -/
theorem not_path :
    let p := pulseOf .nan nofun
    ¬ ∃ text ∈ frontEndTexts 3335 (DeclaredDevices.run []).json openedHomePage
      p, FrontEndHolds p text := by
  rintro p ⟨text, htext, _, server, _, hserver, _, _, hcpu, _⟩
  have hzero : ∀ text ∈ frontEndTexts 3335 (DeclaredDevices.run []).json
      openedHomePage (pulseOf .nan nofun), ∀ server ∈ mainMsgHandler text,
      server.cpuTemperature = .dec (.ofInt 0) := by decide +kernel
  rw [hzero text htext server hserver] at hcpu
  cases hcpu

end IotHome.Os
