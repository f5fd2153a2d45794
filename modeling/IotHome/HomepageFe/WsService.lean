import IotHome.Server.JsNumber
import IotHome.Server.PulseJson

/-!
# What the front end makes of a pulse

`ws-service.ts`. A message of the type `PULSE` is taken apart into what the
page shows of an integration server, with numbers for the time and the
temperature; what is thrown while that is done is caught, and then the page
shows what it did before.
-/

namespace IotHome.HomepageFe

open IotHome.Lib
open IotHome.Server
open IotHome.Virtual

/-- What `_parseIntegrationServerPulseMsg` returns. A port that is `NaN` is
`none`. -/
structure IntServerPulse where
  sysName : JsValue
  ts : JsNumber
  ipAddr : JsValue
  port : Option Json
  cpuTemperature : JsNumber
  devices : List Json

/-- `obj?.port ?? NaN`. -/
def orNaN (v : JsValue) : Option Json := v.filter fun v => !isNull v

/-- The devices of a pulse. The `in` throws for what is no object. -/
def pulseDevices (obj : JsValue) : Except JsError (List Json) :=
  match obj with
  | some (.obj fields) =>
      match lastFor (js "devices") fields with
      | some (.arr devices) => .ok devices
      | _ => .ok []
  | some (.arr _) => .ok []
  | _ => .error .typeError

/-- `_parseIntegrationServerPulseMsg`. -/
def parseIntegrationServerPulseMsg (obj : JsValue) :
    Except JsError IntServerPulse := do
  let sysName := orEmpty (getProp? obj "sysName")
  let ts ← jsNumber (getProp? obj "ts")
  let ipAddr := orEmpty (getProp? obj "ipAddr")
  let port := orNaN (getProp? obj "port")
  let cpuTemperature ← jsNumber (getProp? obj "cpuTemperature")
  let devices ← pulseDevices obj
  pure ⟨sysName, ts, ipAddr, port, cpuTemperature, devices⟩

/-- `TServer`, without the moment at which it was set. -/
structure IntServer where
  serverName : JsValue
  uri : JsString
  ts : JsNumber
  cpuTemperature : JsNumber
  devices : List Json

/-- `${port}`. -/
def portText : Option Json → Except JsError JsString
  | none => .ok (numberText .nan)
  | some port => toJsString port

/-- The server that `pulseMainHandler` puts into `_servers` and gives to the
handlers of `SERVER_IS_ACTIVE`. -/
def pulseMainHandler (obj : JsValue) : Except JsError IntServer := do
  let pulse ← parseIntegrationServerPulseMsg obj
  let ipAddr ← propertyKey pulse.ipAddr
  let port ← portText pulse.port
  pure {
    serverName := pulse.sysName
    uri := js "http://" ++ ipAddr ++ unit ':' :: port
    ts := pulse.ts
    cpuTemperature := pulse.cpuTemperature
    devices := pulse.devices }

/-- `mainMsgHandler`: the server that a message sets, if it sets one. -/
def mainMsgHandler (data : JsString) : Option IntServer :=
  let obj := parseMsg data
  if isText (getProp? obj "type") "PULSE" then (pulseMainHandler obj).toOption
  else none

/-! ## What a message sets -/

theorem pulseDevices_arr {fields : List (JsString × Json)}
    {devices : List Json}
    (h : lastFor (js "devices") fields = some (.arr devices)) :
    pulseDevices (some (.obj fields)) = .ok devices := by
  rw [pulseDevices, h]

/-- A pulse that has all that the page shows, and the server that it makes. -/
structure IsPulse (data name ipAddr : JsString) (port : Dec)
    (server : IntServer) : Prop where
  serverName : server.serverName = some (.str name)
  uri : server.uri =
    js "http://" ++ ipAddr ++ unit ':' :: port.text.flatMap utf16Encode
  type : getProp? (parseMsg data) "type" = some (.str (js "PULSE"))
  sysName : getProp? (parseMsg data) "sysName" = some (.str name)
  ts : jsNumber (getProp? (parseMsg data) "ts") = .ok server.ts
  ipAddr : getProp? (parseMsg data) "ipAddr" = some (.str ipAddr)
  port : getProp? (parseMsg data) "port" = some (.num port)
  cpuTemperature : jsNumber (getProp? (parseMsg data) "cpuTemperature") =
    .ok server.cpuTemperature
  devices : getProp? (parseMsg data) "devices" = some (.arr server.devices)

section

variable {data name ipAddr : JsString} {port : Dec} {server : IntServer}

theorem IsPulse.parsed (h : IsPulse data name ipAddr port server) :
    parseIntegrationServerPulseMsg (parseMsg data) =
      .ok ⟨some (.str name), server.ts, some (.str ipAddr), some (.num port),
        server.cpuTemperature, server.devices⟩ := by
  have hdevices : pulseDevices (parseMsg data) = .ok server.devices := by
    have hread := h.devices
    rw [parseMsg] at hread ⊢
    cases hobj : (Json.parse data).getD (.obj []) with
    | obj fields =>
        rw [hobj] at hread
        exact pulseDevices_arr hread
    | _ =>
        rw [hobj] at hread
        cases hread
  rw [parseIntegrationServerPulseMsg, h.sysName, h.ts, h.ipAddr, h.port,
    h.cpuTemperature, hdevices]
  rfl

/-- It sets the server of its name, with what it says. -/
theorem mainMsgHandler_pulse (h : IsPulse data name ipAddr port server) :
    mainMsgHandler data = some server := by
  have hparsed := h.parsed
  have hname := h.serverName
  have huri := h.uri
  obtain ⟨serverName, uri, ts, cpuTemperature, devices⟩ := server
  subst hname huri
  rw [mainMsgHandler, h.type, if_pos (by decide), pulseMainHandler, hparsed]
  rfl

end

/-- A text of any other type sets none. -/
theorem mainMsgHandler_other {data : JsString}
    (h : isText (getProp? (parseMsg data) "type") "PULSE" = false) :
    mainMsgHandler data = none := by
  rw [mainMsgHandler]
  simp only [h, Bool.false_eq_true, if_false]

/-- The server is what the parser makes of the text. -/
theorem mainMsgHandler_eq_some {data : JsString} {server : IntServer}
    (h : mainMsgHandler data = some server) :
    ∃ pulse, parseIntegrationServerPulseMsg (parseMsg data) = .ok pulse ∧
      server.serverName = pulse.sysName ∧ server.ts = pulse.ts ∧
      server.cpuTemperature = pulse.cpuTemperature ∧
      server.devices = pulse.devices := by
  rw [mainMsgHandler] at h
  split at h
  · cases hmain : pulseMainHandler (parseMsg data) with
    | error e =>
        rw [hmain] at h
        cases h
    | ok s =>
        rw [hmain] at h
        obtain rfl := Option.some.inj h
        obtain ⟨pulse, hpulse, hrest⟩ := bind_eq_ok.1 hmain
        obtain ⟨ipAddr, _, hrest⟩ := bind_eq_ok.1 hrest
        obtain ⟨port, _, hserver⟩ := bind_eq_ok.1 hrest
        obtain rfl := Except.ok.inj hserver
        exact ⟨pulse, hpulse, rfl, rfl, rfl, rfl⟩
  · cases h

end IotHome.HomepageFe
