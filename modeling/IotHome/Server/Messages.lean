import IotHome.Server.Device

/-!
# What the server does with a control message

The message handlers of `homepage.module.ts` and of `public-server.module.ts`.
Both set the state of the device a message names and then, if a pulse has
come from the system before, query every device and pass the pulse on; they
differ in whom they send it to, and in what.

Between the request to the device and what comes after it anything can
happen, so a handler is given the server's memory twice: `now` as the message
finds it, `after` as the answer does. Passing a message to a socket does not
fail. The text of what is sent, and of a device all but what the requests
read, is left out.
-/

namespace IotHome.Server

open IotHome.Lib

/-- `parseMsg`: what is not JSON is taken as an empty object. -/
def parseMsg (str : JsString) : JsValue :=
  some ((Json.parse str).getD (.obj []))

def isCtrlDevMsg (obj : JsValue) : Bool :=
  isText (getProp? obj "type") "CTRL_DEV"

/-! ## The device store -/

/-- `deviceStore`. A key is whatever the device gave as its address. -/
abbrev DeviceStore := OrderedMap MapKey Device

/-- `deviceStore.get(mac)`, for a `mac` out of a message: an object in it is
the key of nothing. -/
def storedDevice (store : DeviceStore) (mac : JsValue) : Option Device :=
  match mac with
  | some (.arr _) => none
  | some (.obj _) => none
  | mac => store.get (mapKey 0 mac)

def getDeviceList (store : DeviceStore) (mac : JsValue) : List Device :=
  if isText mac "*" then store.values else (storedDevice store mac).toList

/-! ## Pulses -/

/-- A message of the system, with the devices put on it. -/
structure Pulse where
  obj : Json
  devices : List Device

structure ServerPulseMsg where
  type : JsValue
  sysName : JsValue
  ipAddr : JsValue
  port : JsValue
  cpuTemperature : JsValue
  ts : JsValue
  devices : List Device

/-- `netIfs.find(…)`: the first of the two interfaces. -/
def findNetIf : List Json → Except JsError JsValue
  | [] => pure none
  | netIf :: rest => do
      let ifName ← getProp (some netIf) "ifName"
      if isText ifName "wlan0" || isText ifName "eth0" then pure (some netIf)
      else findNetIf rest

/-- `v ?? ""`. -/
def orEmpty (v : JsValue) : JsValue :=
  match v with
  | none => some (.str [])
  | some .null => some (.str [])
  | v => v

/-- `_adaptSysPulseToPublicServer`. Only an array has a `find` to call. -/
def adaptSysPulse (pulse : Pulse) : Except JsError ServerPulseMsg := do
  let obj := some pulse.obj
  let type ← getProp obj "type"
  let sysName ← getProp obj "sysName"
  let netIfs ← getProp obj "netIfs"
  let netIf ← match netIfs with
    | some (.arr netIfs) => findNetIf netIfs
    | _ => .error .typeError
  let port ← getProp obj "port"
  let cpuTemperature ← getProp obj "cpuTemperature"
  let ts ← getProp obj "ts"
  let ipAddr := orEmpty (getProp? netIf "ipAddr")
  pure ⟨type, sysName, ipAddr, port, cpuTemperature, ts, pulse.devices⟩

/-! ## The handlers -/

structure Memory where
  store : DeviceStore
  lastSysPulse : Option Pulse

/-- The states that are returned, and the pulse that is sent. -/
structure Handled (β : Type) where
  devPinStates : Option PinStates
  sent : Option β

/-- One device is queried; a query that fails is caught. -/
def queryCaught (net : Network) (online : Device → Bool) (d : Device) :
    Device :=
  match d.queryState net (online d) with
  | .ok (d, _) => d
  | .error _ => d

section

variable {β : Type} (adapt : Pulse → Except JsError β) (net : Network)
  (online : Device → Bool)

/-- What comes behind the request: the pulse, if there is one, goes out with
the devices as they are then. -/
def passPulse (after : Memory) (devPinStates : Option PinStates) :
    Except JsError (Handled β) :=
  match after.lastSysPulse with
  | none => pure ⟨devPinStates, none⟩
  | some pulse => do
      let devices := (getDeviceList after.store (some (.str (js "*")))).map
        (queryCaught net online)
      let msg ← adapt { pulse with devices }
      pure ⟨devPinStates, some msg⟩

def msgMainHandler (now after : Memory) (obj : JsValue) :
    Except JsError (Handled β) :=
  if isCtrlDevMsg obj then do
    let mac ← getProp obj "mac"
    let states ← getProp obj "states"
    match getDeviceList now.store mac with
    | [] => pure ⟨none, none⟩
    | device :: _ => do
        let (_, devPinStates) ← device.setState net states
        passPulse adapt net online after devPinStates
  else pure ⟨none, none⟩

end

/-- `HomePage._feMsgMainHandler`: the pulse is sent as it is. -/
def feMsgMainHandler : Network → (Device → Bool) → Memory → Memory →
    JsValue → Except JsError (Handled Pulse) := msgMainHandler pure

/-- `PublicServerModule._pubMsgMainHandler`. -/
def pubMsgMainHandler : Network → (Device → Bool) → Memory → Memory →
    JsValue → Except JsError (Handled ServerPulseMsg) :=
  msgMainHandler adaptSysPulse

/-- A text from a front-end socket. -/
def feMessage (net : Network) (online : Device → Bool) (now after : Memory)
    (data : JsString) : Except JsError (Handled Pulse) :=
  feMsgMainHandler net online now after (parseMsg data)

/-- A text from the public server, `_wscMsgHandler`. -/
def wscMessage (net : Network) (online : Device → Bool) (now after : Memory)
    (data : JsString) : Except JsError (Handled ServerPulseMsg) :=
  pubMsgMainHandler net online now after (parseMsg data)

end IotHome.Server
