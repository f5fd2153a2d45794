import IotHome.Os.Netplan
import IotHome.Server.JsNumber
import IotHome.Server.PulseJson

/-!
# The heartbeat of the system

`OsModule`, as far as it makes and sends pulses. Once a second it runs the
script for the temperature, reads what the script has printed, and sends a
pulse with it. The loop catches nothing: what is thrown in it ends it.

How a script ends is given, as is what the operating system says of its
interfaces; what the loop waits for besides is left out.
-/

namespace IotHome.Os

open IotHome.Lib
open IotHome.Server
open IotHome.Virtual

/-! ## Pulses -/

/-- `TNetworkInterface`. -/
structure NetworkInterface where
  macAddr : JsString
  ifName : JsString
  ipAddr : JsString

/-- `TMsgPulse`, without the method that writes it. Its numbers are ones that
can be written. -/
structure OsPulse where
  sysName : JsString
  cpuTemperature : JsNumber
  netIfs : List NetworkInterface
  ts : JsNumber
  cpuTemperature_normal : JsNumber.Normal cpuTemperature
  ts_normal : JsNumber.Normal ts

def NetworkInterface.json (n : NetworkInterface) : Json :=
  definedObject [("macAddr", some (.str n.macAddr)),
    ("ifName", some (.str n.ifName)), ("ipAddr", some (.str n.ipAddr))]

def OsPulse.json (p : OsPulse) : Json :=
  definedObject [("type", some (.str (js "PULSE"))),
    ("sysName", some (.str p.sysName)),
    ("cpuTemperature", some (numberJson p.cpuTemperature)),
    ("netIfs", some (.arr (p.netIfs.map NetworkInterface.json))),
    ("ts", some (numberJson p.ts))]

/-- `str()`. -/
def OsPulse.str (p : OsPulse) : JsString := Json.stringify p.json

/-! ## Scripts -/

/-- How `exec` ends, with an error or with what was printed. -/
inductive ExecResult where
  | error
  | output (stdout stderr : JsString)

/-- What the promises of the module are rejected with. -/
inductive OsError where
  | exec
  | js (e : JsError)
  deriving DecidableEq

structure ScriptResponse where
  obj : Json
  raw : Json
  error : Option JsString

/-- `s.trim()`. -/
def trimUnits (s : JsString) : JsString :=
  let blank := fun u : UInt16 => isJsSpace (Char.ofNat u.toNat)
  ((s.dropWhile blank).reverse.dropWhile blank).reverse

/-- `a && b`, where `a` can be undefined. -/
def isTruthy (v : JsValue) : Bool := v.any truthy

/-- `parseScriptResponse`. Reading `raw` of `null` throws within the `try`,
when `obj` is set already. -/
def parseScriptResponse (stdout stderr : JsString) : ScriptResponse :=
  let error := if stderr = [] then none else some (trimUnits stderr)
  match Json.parse stdout with
  | none => ⟨.obj [], .str stdout, error⟩
  | some parsed =>
      let parsedObj := getProp? (some parsed) "obj"
      let obj := if isTruthy parsedObj then parsedObj.getD .null else parsed
      match getProp (some parsed) "raw" with
      | .error _ => ⟨obj, .str stdout, error⟩
      | .ok raw =>
          ⟨obj, if isTruthy raw then raw.getD .null else .str [], error⟩

/-- `v && v[name]`. -/
def andProp (v : JsValue) (name : String) : Except JsError JsValue :=
  if isTruthy v then getProp v name else .ok v

/-- What `getCpuTemp` reads off the response. -/
def readCpuTemp (obj : Json) : Except JsError JsNumber := do
  let prop ← getProp (some obj) "cpu_thermal-virtual-0"
  let prop ← andProp prop "temp1"
  let prop ← andProp prop "temp1_input"
  jsNumber prop

def getCpuTemp : ExecResult → Except OsError JsNumber
  | .error => .error .exec
  | .output stdout stderr =>
      (readCpuTemp (parseScriptResponse stdout stderr).obj).mapError .js

/-! ## Networks -/

/-- An address in what `networkInterfaces` returns. -/
structure NetAddress where
  mac : JsString
  address : JsString
  internal : Bool
  family : JsString

/-- `getNetworks`, of the interfaces with their addresses. -/
def getNetworks (ifsInfo : List (JsString × List NetAddress)) :
    List NetworkInterface :=
  ifsInfo.flatMap fun e =>
    (e.2.filter fun net => !net.internal && net.family = js "IPv4").map
      fun net => ⟨net.mac, e.1, net.address⟩

/-! ## What has been read can be written -/

theorem parseScriptResponse_canonical (stdout stderr : JsString) :
    (parseScriptResponse stdout stderr).obj.Canonical := by
  rw [parseScriptResponse]
  cases hparse : Json.parse stdout with
  | none => exact .obj List.nodup_nil fun _ hf => absurd hf List.not_mem_nil
  | some parsed =>
      have hparsed := Json.parse_canonical hparse
      have hobj : (if isTruthy (getProp? (some parsed) "obj") then
          (getProp? (some parsed) "obj").getD .null else parsed).Canonical := by
        split
        · cases hprop : getProp? (some parsed) "obj" with
          | none => exact .null
          | some v =>
              refine canonical_getProp? (v := some parsed) ?_ "obj" v hprop
              rintro w ⟨⟩
              exact hparsed
        · exact hparsed
      simp only []
      split
      · exact hobj
      · exact hobj

theorem canonical_andProp {v w : JsValue}
    (hv : ∀ u, v = some u → u.Canonical) {name : String}
    (h : andProp v name = .ok w) : ∀ u, w = some u → u.Canonical := by
  rw [andProp] at h
  split at h
  · rw [getProp_ok_eq h]
    exact canonical_getProp? hv name
  · obtain rfl := Except.ok.inj h
    exact hv

theorem readCpuTemp_normal {obj : Json} (hobj : obj.Canonical) {n : JsNumber}
    (h : readCpuTemp obj = .ok n) : JsNumber.Normal n := by
  obtain ⟨prop, hprop, h⟩ := bind_eq_ok.1 h
  obtain ⟨temp1, htemp1, h⟩ := bind_eq_ok.1 h
  obtain ⟨input, hinput, h⟩ := bind_eq_ok.1 h
  have hcanonical : ∀ w, prop = some w → w.Canonical := by
    rw [getProp_ok_eq hprop]
    refine canonical_getProp? ?_ _
    rintro w ⟨⟩
    exact hobj
  exact jsNumber_normal
    (canonical_andProp (canonical_andProp hcanonical htemp1) hinput) h

theorem getCpuTemp_normal {exec : ExecResult} {n : JsNumber}
    (h : getCpuTemp exec = .ok n) : JsNumber.Normal n := by
  cases exec with
  | error => cases h
  | output stdout stderr =>
      rw [getCpuTemp] at h
      cases hread : readCpuTemp (parseScriptResponse stdout stderr).obj with
      | error e =>
          rw [hread] at h
          cases h
      | ok m =>
          rw [hread] at h
          obtain rfl := Except.ok.inj h
          exact readCpuTemp_normal (parseScriptResponse_canonical _ _) hread

/-! ## The loop -/

/-- What an iteration finds: how the script ends, the interfaces there are,
and the time. -/
structure Iteration where
  exec : ExecResult
  ifsInfo : List (JsString × List NetAddress)
  now : Int

/-- `getSysPulse`. -/
def getSysPulse (it : Iteration) : Except OsError OsPulse :=
  match h : getCpuTemp it.exec with
  | .error e => .error e
  | .ok cpuTemperature =>
      .ok {
        sysName := js "rpi-local.system"
        cpuTemperature
        netIfs := getNetworks it.ifsInfo
        ts := .dec (.ofInt it.now)
        cpuTemperature_normal := getCpuTemp_normal h
        ts_normal := fun d hd => by
          obtain rfl := JsNumber.dec.inj hd
          exact Dec.ofInt_normal it.now }

/-- The loop, and the pulses it has made so far. -/
structure PulseLoop where
  running : Bool
  pulses : List OsPulse

/-- An iteration of `_infiniteRunSendPulse`. -/
def PulseLoop.next (s : PulseLoop) (it : Iteration) : PulseLoop :=
  if s.running then
    match getSysPulse it with
    | .ok pulse => { s with pulses := s.pulses ++ [pulse] }
    | .error _ => { s with running := false }
  else s

/-- `_infiniteRunSendPulse`, for as long as it finds these. -/
def PulseLoop.run (its : List Iteration) : PulseLoop :=
  its.foldl PulseLoop.next ⟨true, []⟩

end IotHome.Os
