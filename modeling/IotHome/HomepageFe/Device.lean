import IotHome.Os.Netplan
import IotHome.Server.JsNumber

/-!
# The component that shows a device

`Device.tsx`. The component takes the device apart as the pulse has it, and
makes of each pin in the description what its switch is to show. That it
throws takes the page down with it.

The state that `useState` and the buffer of the pins keep, which only asks
for another rendering, and what a `Pin` does with its state are left out.
-/

namespace IotHome.HomepageFe

open IotHome.Lib
open IotHome.Server
open IotHome.Virtual

/-- `TDevicePinState`. -/
structure PinView where
  pin : JsNumber
  val : Json
  dir : Json
  sta : Json
  disabled : Bool

/-- What the component shows. -/
structure DeviceView where
  displayName : JsValue
  active : Bool
  pins : List PinView

/-- `a ?? b`. -/
def orElse (v : JsValue) (default : Json) : Json :=
  match v with
  | none => default
  | some .null => default
  | some v => v

/-- The names `Object.entries` goes through. -/
def entryNames : Json → List JsString
  | .obj fields => fields.map Prod.fst
  | .arr elems => (List.range elems.length).map fun i => js (toString i)
  | .str s => (List.range s.length).map fun i => js (toString i)
  | _ => []

/-- `v[pin]`, for a number. -/
def atNumber (v : JsValue) (pin : JsNumber) : Except JsError JsValue :=
  match v with
  | none => .error .typeError
  | some .null => .error .typeError
  | some (.obj fields) => .ok (lastFor (numberText pin) fields)
  | some (.arr elems) =>
      .ok (pin.integer?.bind fun i => if i < 0 then none else elems[i.toNat]?)
  | some (.str s) =>
      .ok (pin.integer?.bind fun i =>
        if i < 0 then none else s[i.toNat]?.map fun u => .str [u])
  | some _ => .ok none

/-- One turn of the loop over the pins. A device without states has none for
any pin. -/
def pinView (devPinStates : JsValue) (isOnline : Bool) (pinNo : JsString) :
    Except JsError PinView := do
  let pin := textNumber pinNo
  let state ← atNumber (some (devPinStates.getD (.obj []))) pin
  pure {
    pin
    val := orElse (getProp? state "val") (.num (.ofInt (-1)))
    dir := orElse (getProp? state "dir") (.num (.ofInt 1))
    sta := orElse (getProp? state "sta") (.num (.ofInt 0))
    disabled := !isOnline }

/-- `Device(props)`, with `props.device`. -/
def Device (device : Json) : Except JsError DeviceView := do
  let info ← getProp (some device) "info"
  let displayName ← getProp info "displayName"
  let isOnline ← getProp (some device) "isOnline"
  let active := isOnline.any Os.truthy
  let pinDefs := getProp? (getProp? info "controls") "pins"
  let devPinStates ← getProp (some device) "devPinStates"
  let pins ← (entryNames (orElse pinDefs (.obj []))).mapM
    (pinView devPinStates active)
  pure ⟨displayName, active, pins⟩

/-! ## When it throws -/

/-- The device has an `info` object with a name in it. -/
def HasInfo (device : Json) : Prop :=
  ∃ fields name, getProp? (some device) "info" = some (.obj fields) ∧
    lastFor (js "displayName") fields = some (.str name)

/-- With an `info` object, and with states that are an object if there are
any, nothing throws. -/
theorem device_ok {fields infoFields : List (JsString × Json)}
    (hinfo : lastFor (js "info") fields = some (.obj infoFields))
    (hstates : lastFor (js "devPinStates") fields = none ∨
      ∃ states, lastFor (js "devPinStates") fields = some (.obj states)) :
    ∃ view, Device (.obj fields) = .ok view := by
  have hpin : ∀ active pinNo, ∃ view,
      pinView (lastFor (js "devPinStates") fields) active pinNo =
        .ok view := by
    intro active pinNo
    rcases hstates with hnone | ⟨states, hsome⟩
    · rw [hnone]
      exact ⟨_, rfl⟩
    · rw [hsome]
      exact ⟨_, rfl⟩
  rw [Device, getProp, hinfo, ok_bind, getProp, ok_bind]
  simp only [getProp, ok_bind]
  rw [exists_bind_pure_ok, exists_mapM_ok]
  exact fun pinNo _ => hpin _ pinNo

end IotHome.HomepageFe
