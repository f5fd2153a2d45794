import IotHome.Cmd.DeviceControl
import IotHome.Cmd.Runner

/-!
# The main command tree

The objects of `main.cmd.tree.ts` and of the trees it takes in, with the
classes of the instances, and what the functions among them send. An object
is its number; the constructors of the classes are one object here, and so
are the methods of the language, since none of them is ever listed. `app`,
which `Cmd.init` gives to the instances, leads out of the tree.

The commands that send something are `select`, to a device, and those that
have a script run, over the connection of the system client.
-/

namespace IotHome.Cmd

open IotHome.Lib
open IotHome.Server

/-! ## The objects -/

def trueValue : Value := .primitive .boolean true

/-- A function, with what `cmdInclude` has put on it. -/
def funcObject (name : String) (marks : List String) : JsObject :=
  ⟨.ofWrites ([(js "length", .hidden (.primitive .number true)),
    (js "name", .hidden (.str (js name)))] ++
    marks.map fun mark => (js mark, .data trueValue)), some 1, some .function⟩

def plainObject (entries : List (String × Nat)) : JsObject :=
  ⟨.ofWrites (entries.map fun e => (js e.1, .data (.ref e.2))), some 0, none⟩

/-- The `prototype` of a class. -/
def classObject (base : Nat) (methods : List (String × Nat)) : JsObject :=
  ⟨.ofWrites ((("constructor", 3) :: methods).map fun m =>
    (js m.1, .hidden (.ref m.2))), some base, none⟩

def instanceObject (base : Nat) (fields : List (String × Nat)) : JsObject :=
  ⟨.ofWrites (fields.map fun f => (js f.1, .data (.ref f.2))), some base,
    none⟩

def objectMethods : List String :=
  ["constructor", "__defineGetter__", "__defineSetter__", "hasOwnProperty",
    "__lookupGetter__", "__lookupSetter__", "isPrototypeOf",
    "propertyIsEnumerable", "toString", "valueOf", "toLocaleString"]

def functionMethods : List String :=
  ["constructor", "apply", "bind", "call", "toString"]

/-- The language's own objects, the two functions that list, and the app. -/
def baseObjects : List JsObject :=
  [⟨.ofWrites (objectMethods.map fun m => (js m, .hidden (.ref 2))), none,
    none⟩,
  ⟨.ofWrites (functionMethods.map fun m => (js m, .hidden (.ref 2))), some 0,
    some .function⟩,
  funcObject "toString" [],
  ⟨.empty, some 1, some .classConstructor⟩,
  funcObject "help" [],
  classObject 0 [("help", 6)],
  funcObject "help" [],
  plainObject []]

/-- `mainCmdTree`, and `cmdDemoTree` with its class. -/
def demoObjects : List JsObject :=
  [plainObject [("help", 4), ("ping", 9), ("demo", 10), ("sys", 18),
    ("dev", 28)],
  funcObject "ping" [],
  plainObject [("help", 4), ("ping", 11), ("fake", 14)],
  plainObject [("help", 4), ("pong", 12)],
  plainObject [("help", 4), ("ping", 13)],
  funcObject "ping" [],
  instanceObject 15 [],
  classObject 5 [("isReallyFake", 16), ("getFakeHelp", 17)],
  funcObject "isReallyFake" ["includeMe"],
  funcObject "getFakeHelp" ["includeMe", "canBeCalledWithHelp"]]

/-- `sysMainCmdTree` with its classes, and `CmdTreeAppCommon`. -/
def sysObjects : List JsObject :=
  [plainObject [("help", 4), ("fake", 21), ("net", 22), ("res", 23)],
  classObject 5 [],
  classObject 19 [("runRemoteScript", 2)],
  instanceObject 37 [("app", 7)],
  instanceObject 38 [("app", 7)],
  instanceObject 39 [("app", 7)],
  funcObject "runFakeScript" ["includeMe"],
  funcObject "listDevices" ["includeMe"],
  funcObject "cpuTemperature" ["includeMe"],
  classObject 19 [("request", 2), ("requestStream", 2)]]

/-- `devMainCmdTree` with its classes, and the classes of the scripts. -/
def devObjects : List JsObject :=
  [plainObject [("help", 4), ("get", 29), ("ctrl", 30)],
  instanceObject 31 [("app", 7)],
  instanceObject 32 [("app", 7), ("_selectedDevice", 7), ("_pins", 35),
    ("_values", 36)],
  classObject 27 [("all", 33)],
  classObject 27 [("select", 34)],
  funcObject "all" ["includeMe"],
  funcObject "select" ["includeMe", "canBeCalledWithHelp"],
  plainObject [],
  plainObject [],
  classObject 20 [("runFakeScript", 24)],
  classObject 20 [("listDevices", 25)],
  classObject 20 [("cpuTemperature", 26)]]

def mainObjects : List JsObject :=
  baseObjects ++ demoObjects ++ sysObjects ++ devObjects

def mainObject (n : Nat) : JsObject :=
  mainObjects.getD n ⟨.empty, none, none⟩

/-- How long the prototype chain behind an object is. -/
def mainRank (n : Nat) : Nat :=
  if n = 0 then 0
  else if n ∈ [1, 5] then 1
  else if n ∈ [15, 19] then 2
  else if n ∈ [14, 20, 27] then 3
  else if n ∈ [31, 32, 37, 38, 39] then 4
  else 5

theorem mainRank_lt (n p : Nat) (hp : (mainObject n).proto = some p) :
    mainRank p < mainRank n := by
  have hall : ∀ n < mainObjects.length, ((mainObject n).proto.all fun p =>
      decide (mainRank p < mainRank n)) = true := by decide +kernel
  rcases Nat.lt_or_ge n mainObjects.length with hn | hn
  · have hlt := hall n hn
    rw [hp] at hlt
    exact of_decide_eq_true hlt
  · rw [mainObject, List.getD_eq_getElem?_getD,
      List.getElem?_eq_none hn] at hp
    cases hp

def mainHeap : CmdHeap where
  object := mainObject
  objectPrototype := 0
  stringPrototype := 0
  primitivePrototype _ := 0
  rank := mainRank
  rank_lt := mainRank_lt
  helpFunction := 4
  baseHelpFunction := 6
  baseHelp_ne := by decide

/-- `mainCmdTree`. -/
def mainCmdTree : Value := .ref 8

def getFakeHelpFunction : Nat := 17

def selectFunction : Nat := 34

/-! ## What the commands send -/

inductive Sent where
  | request (query : List Char)
  | runScript (scriptFilename : JsString)
  deriving DecidableEq

/-- What the commands find: the devices, whether `new URL` takes the address
of one, and whether a system client is connected. -/
structure AppState where
  getDeviceList : JsString → List Device
  hasUrl : Device → Bool
  sysClient : Bool

/-- `runRemoteScript`. -/
def runRemoteScript (app : AppState) (scriptFilename : String) : List Sent :=
  if app.sysClient then [.runScript (js scriptFilename)] else []

def selectedDeviceMac (args : List JsString) : JsString :=
  ((Arg.ofArgs args).getValueOf (js "--dev-name")).getD (js "")

/-- What `select` sends. -/
def selectSends (app : AppState) (args : List JsString) : List Sent :=
  match select app.getDeviceList args,
    app.getDeviceList (selectedDeviceMac args) with
  | .ok (.request query), dev :: _ =>
      if app.hasUrl dev then [.request query] else []
  | _, _ => []

/-- What a function of the tree sends. -/
def commandSends (app : AppState) (f : Nat) (args : List JsString) :
    List Sent :=
  if f = selectFunction then selectSends app args
  else if f = 24 then runRemoteScript app "fake-script.js"
  else if f = 25 then runRemoteScript app "net-list-devices.js"
  else if f = 26 then runRemoteScript app "cpu-temperature.js"
  else []

/-- What a command line of the main tree sends. -/
def runSends (app : AppState) (args : List JsString) : List Sent :=
  match run mainHeap mainCmdTree args with
  | .invoked f _ executorArgs => commandSends app f executorArgs
  | _ => []

end IotHome.Cmd
