import IotHome.Lib.Runs
import IotHome.Server.JsNumber
import IotHome.Server.PulseJson
import IotHome.Server.Registry

/-!
# Devices that report themselves, whatever they say

`DeviceNotifModule._setIsOnline_ctrl`, `DeviceDAL` and `DeviceModule` for any
body of a request: what it says of the device need not be texts. `Registry`
is the same for the bodies that say what a device says.

The database is `device.db.json`, as it is in the repository. It is an object,
so a name that all objects have is in it too, with a function; only what
`__proto__` has is an object, without properties of its own. A function is
left out where a device is written, as if it was undefined.
-/

namespace IotHome.Server

open IotHome.Lib
open IotHome.Virtual

/-! ## The database -/

/-- What the database says of each pin. -/
def pinInfo : Json :=
  .obj [(js "modes", .obj [(js "in", .bool true), (js "out", .bool true)]),
    (js "outRange", .arr [.num (.ofInt 0), .num (.ofInt 1)])]

def deviceInfo (displayName : String) (pins : List Nat) : DeviceInfo where
  pins
  content :=
    .obj [(js "displayName", .str (js displayName)),
      (js "controls", .obj [(js "pins",
        .obj (pins.map fun pin => (js (toString pin), pinInfo)))])]

/-- `device.db.json`. -/
def deviceDbJson : List (JsString × DeviceInfo) :=
  [(js "VI:RT:UA:LD:EV:CE", deviceInfo "Virtual Device" [2, 3]),
    (js "28:cd:c1:04:ef:11", deviceInfo "Picoprobe Device" [2, 3, 4, 5, 6]),
    (js "28:cd:c1:04:ef:0e", deviceInfo "Light Bulb Device" [2, 3])]

def devicesDb : DevicesDb := fun mac => lastFor mac deviceDbJson

/-- `DeviceDAL.getDeviceInfo`, as far as it is written. -/
def writtenInfo (mac : JsString) : JsValue :=
  match devicesDb mac with
  | some info => some info.content
  | none => if mac = js "__proto__" then some (.obj []) else none

/-! ## The devices -/

/-- A device as it reported itself. Its port is kept as it is written. -/
structure DeclaredDevice extends Device where
  mac : Json
  /-- `info`, as far as it is written. -/
  description : JsValue
  lastSeen : JsString
  isOnline : Option Bool

/-- What `JSON.stringify` makes of a device. -/
def DeclaredDevice.json (d : DeclaredDevice) : Json :=
  definedObject [("mac", some d.mac), ("ip", d.ip), ("port", d.port),
    ("info", d.description), ("lastSeen", some (.str d.lastSeen)),
    ("isOnline", d.isOnline.map .bool),
    ("devPinStates", d.devPinStates.map fun states => .obj states.entries)]

/-- `notifications` is not in the source: it tells the objects that came as
an address from each other. -/
structure DeclaredDevices where
  deviceStore : OrderedMap MapKey DeclaredDevice
  notifications : Nat

def DeclaredDevices.start : DeclaredDevices := ⟨.empty, 0⟩

/-- `{ mac = "", ip = "", port = "80" }`. -/
def propOr (json : JsValue) (name default : String) : Except JsError Json := do
  let v ← getProp json name
  pure (v.getD (.str (js default)))

/-- The device a body makes, and its description. -/
def declaredDevice (body now : JsString) : Except JsError DeclaredDevice := do
  let json := Json.parse body
  let mac ← propOr json "mac" ""
  let ip ← propOr json "ip" ""
  let port ← propOr json "port" "80"
  let portNumber ← jsNumber (some port)
  let name ← propertyKey (some mac)
  pure {
    ip := some ip
    port := some (numberJson portNumber)
    info := (devicesDb name).map DeviceInfo.pins
    devPinStates := none
    mac
    description := writtenInfo name
    lastSeen := now
    isOnline := none }

/-- `_setIsOnline_ctrl`. What is thrown is answered with an error. -/
def DeclaredDevices.setIsOnline (s : DeclaredDevices) (body now : JsString) :
    DeclaredDevices :=
  match declaredDevice body now with
  | .ok device =>
      { deviceStore := s.deviceStore.set
          (mapKey s.notifications (some device.mac)) device
        notifications := s.notifications + 1 }
  | .error _ => { s with notifications := s.notifications + 1 }

/-- A handler asks a device for its pins. -/
def DeclaredDevice.queried (d : DeclaredDevice) (net : Network)
    (isOnline : Bool) : DeclaredDevice :=
  { d with
    toDevice := queryCaught net (fun _ => isOnline) d.toDevice
    isOnline := some isOnline }

/-- A notification, with the moment at which it came, or a query. -/
inductive NotifEvent where
  | setIsOnline (body now : JsString)
  | queried (mac : MapKey) (net : Network) (isOnline : Bool)

def DeclaredDevices.apply (s : DeclaredDevices) :
    NotifEvent → DeclaredDevices
  | .setIsOnline body now => s.setIsOnline body now
  | .queried mac net isOnline =>
      match s.deviceStore.get mac with
      | some device =>
          { s with
            deviceStore := s.deviceStore.set mac
              (device.queried net isOnline) }
      | none => s

def DeclaredDevices.run (es : List NotifEvent) : DeclaredDevices :=
  es.foldl DeclaredDevices.apply .start

/-- The devices that are put on a pulse. -/
def DeclaredDevices.json (s : DeclaredDevices) : List Json :=
  s.deviceStore.values.map DeclaredDevice.json

/-! ## What a body declares -/

/-- A body registers a device whose address is this property name. -/
def Declares (body name : JsString) : Prop :=
  ∃ json, Json.parse body = some json ∧ isNull json = false ∧
    (∃ n, jsNumber (some ((getProp? (some json) "port").getD
      (.str (js "80")))) = .ok n) ∧
    propertyKey (some ((getProp? (some json) "mac").getD (.str []))) = .ok name

theorem propOr_eq_ok {json : JsValue} {name default : String} {v : Json} :
    propOr json name default = .ok v ↔
      ∃ w, json = some w ∧ isNull w = false ∧
        v = (getProp? json name).getD (.str (js default)) := by
  rw [propOr, getProp_eq]
  cases json with
  | none => simp
  | some w =>
      cases hnull : isNull w with
      | true => simp [hnull]
      | false =>
          simp only [reduceCtorEq, Option.any_some, hnull, or_self, if_false,
            Bool.false_eq_true, ok_bind, pure_eq_ok, Except.ok.injEq,
            Option.some.injEq, exists_eq_left', true_and]
          exact eq_comm

theorem declaredDevice_ok {body now : JsString} {d : DeclaredDevice}
    (h : declaredDevice body now = .ok d) :
    ∃ json name n, Json.parse body = some json ∧ isNull json = false ∧
      d.mac = (getProp? (some json) "mac").getD (.str []) ∧
      d.ip = some ((getProp? (some json) "ip").getD (.str [])) ∧
      jsNumber (some ((getProp? (some json) "port").getD (.str (js "80")))) =
        .ok n ∧
      d.port = some (numberJson n) ∧
      propertyKey (some d.mac) = .ok name ∧ d.description = writtenInfo name ∧
      d.devPinStates = none := by
  obtain ⟨mac, hmac, h⟩ := bind_eq_ok.1 h
  obtain ⟨ip, hip, h⟩ := bind_eq_ok.1 h
  obtain ⟨port, hport, h⟩ := bind_eq_ok.1 h
  obtain ⟨n, hn, h⟩ := bind_eq_ok.1 h
  obtain ⟨name, hname, h⟩ := bind_eq_ok.1 h
  obtain rfl := Except.ok.inj h
  obtain ⟨json, hjson, hnull, rfl⟩ := propOr_eq_ok.1 hmac
  obtain ⟨_, _, _, rfl⟩ := propOr_eq_ok.1 hip
  obtain ⟨_, _, _, rfl⟩ := propOr_eq_ok.1 hport
  rw [hjson] at hn hname ⊢
  exact ⟨json, name, n, rfl, hnull, rfl, rfl, hn, rfl, hname, rfl, rfl⟩

theorem exists_declaredDevice {body name : JsString} (h : Declares body name)
    (now : JsString) :
    ∃ d, declaredDevice body now = .ok d ∧
      propertyKey (some d.mac) = .ok name := by
  obtain ⟨json, hjson, hnull, ⟨n, hn⟩, hname⟩ := h
  have hprop : ∀ prop default, propOr (Json.parse body) prop default =
      .ok ((getProp? (some json) prop).getD (.str (js default))) := by
    intro prop default
    rw [hjson]
    exact propOr_eq_ok.2 ⟨json, rfl, hnull, rfl⟩
  have hmac := hprop "mac" ""
  have hip := hprop "ip" ""
  have hport := hprop "port" "80"
  exact ⟨_, bind_eq_ok.2 ⟨_, hmac, bind_eq_ok.2 ⟨_, hip, bind_eq_ok.2 ⟨_,
    hport, bind_eq_ok.2 ⟨n, hjson ▸ hn, bind_eq_ok.2 ⟨name, hjson ▸ hname,
      rfl⟩⟩⟩⟩⟩, hjson ▸ hname⟩

end IotHome.Server
