import IotHome.HomepageFe.Device
import IotHome.Server.PulseJson

/-!
# The switches

What the component of a device does when one of its switches is moved: it
writes a control message for that pin. The page may have been drawn of an
older pulse than the last, so of the device only its address counts.
-/

namespace IotHome.HomepageFe

open IotHome.Lib
open IotHome.Server

/-- `deviceStateOutMsg`. -/
def deviceStateOutMsg (device : Json) (pin : PinView) (nextChecked : Bool) :
    Json :=
  definedObject [("type", some (.str (js "CTRL_DEV"))),
    ("mac", getProp? (some device) "mac"),
    ("states", some (.arr [definedObject [("pin", some (numberJson pin.pin)),
      ("val", some (.num (Dec.ofInt nextChecked.toNat)))]]))]

/-- `handleSwitchChange`, up to the socket. -/
def handleSwitchChange (device : Json) (pin : PinView) (nextChecked : Bool) :
    JsString :=
  Json.stringify (deviceStateOutMsg device pin nextChecked)

end IotHome.HomepageFe
