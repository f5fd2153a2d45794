import IotHome.Lib.JsonPath
import IotHome.Server.JsValue
import IotHome.Virtual.DeviceControl
import Mathlib.Algebra.Group.Int.Defs

/-!
# The netplan file

`Netplan` of `scripts-lib.js`: three ways to change the network
configuration, all of which read the file, check what it says, check what is
to be written against it, and write. The YAML package is a parameter: the
reading of a text as a value, and the writing of a value.

A parsed text is a JSON value in which nothing is shared. Names the code is
given (the device, an SSID) can also be those of properties that every object
has from the language, `inherited`; of those it matters only that they are
there. Two things the code does to the access points are not written to the
file: an assignment to `__proto__` sets the prototype, and an array keeps a
property that is no index beside its elements. `Edited` holds such a property,
which the checks do see.
-/

namespace IotHome.Os

open IotHome.Lib
open IotHome.Server
open IotHome.Virtual

inductive NetplanError where
  | typeError
  | rangeError
  | invalidYaml
  | fileSystem
  | error (message : JsString)

/-- `parse` and `stringify` of the YAML package. -/
structure Yaml (Text : Type) where
  parse : Text → Except NetplanError Json
  stringify : Json → Text

/-- What the constructor has let through. -/
structure Settings where
  defaultWifiSSID : JsString
  defaultWifiDevice : Option JsString
  defaultWifiRenderer : JsString
  ssid_ne : defaultWifiSSID ≠ []
  renderer_ne : defaultWifiRenderer ≠ []

def configFilePath : JsString := js "/etc/netplan/50-cloud-init.yaml"

/-! ## Reading -/

/-- What reading a property gives: a value of the configuration, something of
the language's own, or `undefined`. -/
inductive Found where
  | value (v : Json)
  | builtin
  | missing

/-- `v.name`, for a name that the language gives no object. -/
def field (v : JsValue) (name : String) : Except NetplanError JsValue :=
  match v with
  | none => .error .typeError
  | some .null => .error .typeError
  | some v => .ok (v.ownProperty (js name))

def truthy : Json → Bool
  | .null => false
  | .bool b => b
  | .num n => n.mantissa ≠ 0
  | .str s => s ≠ []
  | .arr _ => true
  | .obj _ => true

def Found.truthy : Found → Bool
  | .value v => Os.truthy v
  | .builtin => true
  | .missing => false

/-- `a === b`, of two values out of different parsed texts: an object is none
of the other's. -/
def strictEq : JsValue → JsValue → Bool
  | none, none => true
  | some .null, some .null => true
  | some (.bool a), some (.bool b) => a = b
  | some (.num a), some (.num b) => a = b
  | some (.str a), some (.str b) => a = b
  | _, _ => false

/-- `${v}`. -/
def template (v : JsValue) : Except NetplanError JsString :=
  match propertyKey v with
  | .ok s => .ok s
  | .error _ => .error .typeError

/-- `v < 4`. -/
def belowFour (v : JsValue) : Except NetplanError Bool :=
  match v with
  | none => .ok false
  | some .null => .ok true
  | some (.bool _) => .ok true
  | some (.num n) => .ok (numberBelowFour (.dec n))
  | some v => do
      let s ← template (some v)
      pure (numberBelowFour
        (toNumber (s.map fun u => Char.ofNat u.toNat)))
where
  numberBelowFour : JsNumber → Bool
    | .nan => false
    | .infinity neg => neg
    | .dec d => d.mantissa < 4 * 10 ^ d.scale

/-! ## The edits of the access points -/

/-- The access points after an edit: what the file will have, and a property
that only the object in memory has. -/
structure Edited where
  content : Json
  beside : Option (JsString × Json)

/-- `elems[i] = v`. -/
def putElem (i : Nat) (v : Json) (elems : List Json) : List Json :=
  if i < elems.length then elems.set i v
  else elems ++ List.replicate (i - elems.length) .null ++ [v]

/-- `accPoints[name] = v`, for an object `v`. -/
def assign (accPoints : JsValue) (name : JsString) (v : Json) :
    Except NetplanError Edited :=
  match accPoints with
  | some (.obj fields) =>
      if name = js "__proto__" ∧ lastFor name fields = none then
        .ok ⟨.obj fields, some (name, v)⟩
      else .ok ⟨.obj (Json.putField name v fields), none⟩
  | some (.arr elems) =>
      if name = js "length" then .error .rangeError
      else
        match Json.indexName? name with
        | some i => .ok ⟨.arr (putElem i v elems), none⟩
        | none => .ok ⟨.arr elems, some (name, v)⟩
  | _ => .error .typeError

/-- `delete accPoints[name]`. -/
def delete (accPoints : JsValue) (name : JsString) :
    Except NetplanError Edited :=
  match accPoints with
  | none => .error .typeError
  | some .null => .error .typeError
  | some (.obj fields) => .ok ⟨.obj (Json.dropField name fields), none⟩
  | some (.arr elems) =>
      if name = js "length" then .error .typeError
      else
        match Json.indexName? name with
        | some i => .ok ⟨.arr (elems.set i .null), none⟩
        | none => .ok ⟨.arr elems, none⟩
  | some (.str units) =>
      if ((Json.str units).ownProperty name).isSome then .error .typeError
      else .ok ⟨.str units, none⟩
  | some v => .ok ⟨v, none⟩

section

variable (inherited : Json → JsString → Bool) (S : Settings)

def inheritedProperty (v : Json) (name : JsString) : Found :=
  if inherited v name then .builtin else .missing

/-- `v[name]`. -/
def property (v : JsValue) (name : JsString) : Except NetplanError Found :=
  match v with
  | none => .error .typeError
  | some .null => .error .typeError
  | some v =>
      match v.ownProperty name with
      | some u => .ok (.value u)
      | none => .ok (inheritedProperty inherited v name)

/-- The same, of access points that were edited. -/
def Edited.property (e : Edited) (name : JsString) :
    Except NetplanError Found :=
  match e.beside with
  | none => Os.property inherited (some e.content) name
  | some (other, v) =>
      match e.content.ownProperty name with
      | some u => .ok (.value u)
      | none =>
          if name = other then .ok (.value v)
          else if other = js "__proto__" then
            Os.property inherited (some v) name
          else .ok (inheritedProperty inherited e.content name)

/-! ## The checks -/

/-- The name `_settings.defaultWifiDevice` is read under. -/
def Settings.deviceName : JsString :=
  S.defaultWifiDevice.getD (js "undefined")

/-- `_getDefaultAccessPoints`. -/
def getDefaultAccessPoints (config : JsValue) :
    Except NetplanError JsValue := do
  let network ← field config "network"
  let wifis ← field network "wifis"
  match ← property inherited wifis S.deviceName with
  | .value device => field (some device) "access-points"
  | .builtin => pure none
  | .missing => .error .typeError

/-- `_validateDefaultConfig`. -/
def validateDefaultConfig (config : JsValue) : Except NetplanError Unit := do
  let network ← field config "network"
  let wifis ← field network "wifis"
  let renderer ← field wifis "renderer"
  let defaultWifiDevice ← property inherited wifis S.deviceName
  if !defaultWifiDevice.truthy then
    .error (.error (js "Default wifi device is not " ++ S.deviceName))
  else if !strictEq renderer (some (.str S.defaultWifiRenderer)) then do
    let rendererText ← template renderer
    .error (.error (js "Renderer is " ++ rendererText ++ js " instead of " ++
      S.defaultWifiRenderer ++ js " in file " ++ configFilePath ++ js "."))
  else pure ()

/-- `accPoints[defaultWifiSSID].password`. -/
def passwordOf : Found → Except NetplanError JsValue
  | .value accPoint => field (some accPoint) "password"
  | .builtin => .ok none
  | .missing => .error .typeError

/-- The default password of a configuration that was parsed. -/
def defaultWifiPass (config : JsValue) : Except NetplanError JsValue := do
  let accPoints ← getDefaultAccessPoints inherited S config
  let accPoint ← property inherited accPoints S.defaultWifiSSID
  passwordOf accPoint

/-- `_validateNewConfig`, for the way the new configuration's default access
point is read. -/
def validateNewConfig (newConfig : JsValue)
    (newAccPoint : Except NetplanError Found) (existingConfig : JsValue) :
    Except NetplanError Unit := do
  validateDefaultConfig inherited S newConfig
  let accPoint ← newAccPoint
  let newDefaultWifiPass ← passwordOf accPoint
  let thisDefaultWifiPass ← defaultWifiPass inherited S existingConfig
  if strictEq newDefaultWifiPass thisDefaultWifiPass then pure ()
  else .error (.error (js "Default wifi password cannot be changed."))

/-! ## The three calls -/

inductive NetplanCall where
  | setConfig (newConfig : JsValue)
  | removeWifiConn (ssid : JsValue)
  | addWifiConn (ssid password : JsValue)

/-- `v.length` of what is no `null` or `undefined`. -/
def lengthOf (v : Json) : JsValue := v.ownProperty (js "length")

def accessPointsPath : List JsString :=
  [js "network", js "wifis", S.deviceName, js "access-points"]

variable {Text : Type} (Y : Yaml Text)

/-- The part `removeWifiConn` and `addWifiConn` have in common: read, edit
the access points of a second copy, check, and give the text to write. -/
def editAccessPoints (edit : JsValue → Except NetplanError Edited)
    (file : Text) : Except NetplanError Text := do
  let existingConfig ← Y.parse file
  validateDefaultConfig inherited S (some existingConfig)
  let accPoints ← getDefaultAccessPoints inherited S (some existingConfig)
  let edited ← edit accPoints
  let newConfig :=
    Json.putPath (accessPointsPath S) edited.content existingConfig
  validateNewConfig inherited S (some newConfig)
    (edited.property inherited S.defaultWifiSSID) (some existingConfig)
  pure (Y.stringify newConfig)

/-- The object that a password is kept in. -/
def accessPoint (password : Json) : Json := .obj [(js "password", password)]

/-- A call up to the text that it writes. -/
def newFile (call : NetplanCall) (file : Text) : Except NetplanError Text :=
  match call with
  | .setConfig newConfig => do
      let existingConfig ← Y.parse file
      validateDefaultConfig inherited S (some existingConfig)
      validateNewConfig inherited S newConfig (do
        let accPoints ← getDefaultAccessPoints inherited S newConfig
        property inherited accPoints S.defaultWifiSSID) (some existingConfig)
      match newConfig with
      | none => .error .typeError
      | some newConfig => pure (Y.stringify newConfig)
  | .removeWifiConn ssid =>
      if !ssid.any truthy then .error (.error (js "No ssid"))
      else editAccessPoints inherited S Y (fun accPoints => do
        let name ← template ssid
        delete accPoints name) file
  | .addWifiConn ssid password =>
      if !ssid.any truthy then .error (.error (js "No ssid"))
      else
        match password with
        | none => .error (.error (js "Invalid password"))
        | some password =>
            if !truthy password then
              .error (.error (js "Invalid password"))
            else do
              if ← belowFour (lengthOf password) then
                .error (.error (js "Invalid password"))
              else editAccessPoints inherited S Y (fun accPoints => do
                let name ← template ssid
                assign accPoints name (accessPoint password)) file

/-- Whether the file can be read, and written, when a call comes to it. -/
structure FileAccess where
  readable : Bool
  writable : Bool

/-- A call: how it ends, and the file it leaves. -/
def callNetplan (call : NetplanCall) (access : FileAccess) (file : Text) :
    Except NetplanError Unit × Text :=
  if !access.readable then (.error .fileSystem, file)
  else
    match newFile inherited S Y call file with
    | .error e => (.error e, file)
    | .ok text =>
        if access.writable then (.ok (), text) else (.error .fileSystem, file)

end

end IotHome.Os
