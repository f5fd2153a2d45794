import IotHome.Lib.Comparator
import IotHome.Lib.JsString
import Mathlib.Data.List.Lex

/-!
# The component that shows a server

`Server.tsx`, as far as the order of the devices. A rendering sorts the array
of the server itself, so the next one finds it as this one has left it. How the
language sorts is a parameter. A display name is a text, as its type says; what
leads to it need not be there.
-/

namespace IotHome.HomepageFe

open IotHome.Lib

structure TDeviceInfo where
  id : JsString
  displayName : Option JsString

structure TDevice where
  mac : JsString
  ip : JsString
  info : Option TDeviceInfo

/-- `a < b`, of two texts: by their units. -/
def textLess (a b : JsString) : Bool :=
  a.map UInt16.toNat < b.map UInt16.toNat

/-- `d?.info?.displayName ?? ""`. -/
def dName (d : TDevice) : JsString := (d.info.bind (·.displayName)).getD []

/-- The comparator. -/
def compareDevices (d1 d2 : TDevice) : Int :=
  if textLess (dName d2) (dName d1) then 1 else -1

/-- What a rendering makes of the devices of the server. -/
def renderDevices (engine : ArraySort TDevice) (devices : List TDevice) :
    List TDevice :=
  if 1 < devices.length then engine.sort compareDevices devices else devices

/-- The devices when the server has been rendered so often. -/
def rerenderDevices (engine : ArraySort TDevice) (devices : List TDevice) :
    Nat → List TDevice
  | 0 => devices
  | n + 1 => renderDevices engine (rerenderDevices engine devices n)

end IotHome.HomepageFe
