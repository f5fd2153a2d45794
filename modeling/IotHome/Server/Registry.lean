import IotHome.Lib.Stringify
import IotHome.Server.Messages
import IotHome.Virtual.DeviceControl

/-!
# The devices the server has

`DeviceModule` and the notifications that fill it. A notification makes a new
`Device`, looks its description up in the database, and puts it into the
store under its address; the one that was there is replaced, but handlers
that wait for it keep it. So devices live on a heap, and the store has their
places.

Three things are done to the devices, `RegistryOp`: one is set, all of them
are asked whether they are online, and an answer is recorded on one.
-/

namespace IotHome.Server

open IotHome.Lib

/-- An entry of the device database: the pins it lists, and all of it. -/
structure DeviceInfo where
  pins : List Nat
  content : Json

/-- `device.db.json`. -/
abbrev DevicesDb := JsString → Option DeviceInfo

/-- What a `set-is-online` request says, and when it came. -/
structure Notification where
  mac : JsString
  ip : JsString
  port : JsString
  lastSeen : JsString

structure StoredDevice extends Device where
  mac : JsString
  /-- `info`, of which `Device` keeps the pins. -/
  description : JsValue
  lastSeen : JsString
  isOnline : Option Bool

/-- `Number(port)`. What is no number goes into a URL and into a text as
nothing that could be one. -/
def portNumber (port : JsString) : Json :=
  match Virtual.toNumber (port.map fun u => Char.ofNat u.toNat) with
  | .dec d => .num d
  | .infinity _ => .null
  | .nan => .null

/-- `new Device(plainDevice)`, with its description. -/
def newDevice (db : DevicesDb) (n : Notification) : StoredDevice where
  ip := some (.str n.ip)
  port := some (portNumber n.port)
  info := (db n.mac).map DeviceInfo.pins
  devPinStates := none
  mac := n.mac
  description := (db n.mac).map DeviceInfo.content
  lastSeen := n.lastSeen
  isOnline := none

/-! ## The store -/

structure Registry where
  heap : List StoredDevice
  deviceStore : OrderedMap JsString Nat

def Registry.empty : Registry := ⟨[], .empty⟩

/-- `DeviceModule.setDevice`. -/
def Registry.setDevice (db : DevicesDb) (r : Registry) (n : Notification) :
    Registry :=
  { heap := r.heap ++ [newDevice db n]
    deviceStore := r.deviceStore.set n.mac r.heap.length }

/-- `DeviceModule.getDeviceList`, of a `mac` out of a message. -/
def Registry.getDeviceList (r : Registry) (mac : JsValue) : List Nat :=
  if isText mac "*" then r.deviceStore.values
  else
    match mac with
    | some (.str mac) => (r.deviceStore.get mac).toList
    | _ => []

def Registry.modify (r : Registry) (device : Nat)
    (f : StoredDevice → StoredDevice) : Registry :=
  { r with heap := r.heap.modify device f }

/-- `dev.isOnline = dev.checkIsOnline()`, for all devices of the store. The
time being what it is, it is a matter of when a device was last seen. -/
def Registry.checkIsOnline (r : Registry) (online : JsString → Bool) :
    Registry :=
  { r with
    heap := r.heap.mapIdx fun i dev =>
      if i ∈ r.deviceStore.values then
        { dev with isOnline := some (online dev.lastSeen) }
      else dev }

/-- `this.devPinStates = …`. -/
def Registry.record (r : Registry) (device : Nat) (states : PinStates) :
    Registry :=
  r.modify device fun dev => { dev with devPinStates := some states }

inductive RegistryOp where
  | setDevice (n : Notification)
  | checkIsOnline (online : JsString → Bool)
  | record (device : Nat) (states : PinStates)

def Registry.apply (db : DevicesDb) (r : Registry) : RegistryOp → Registry
  | .setDevice n => r.setDevice db n
  | .checkIsOnline online => r.checkIsOnline online
  | .record device states => r.record device states

/-! ## The text of a device -/

def pinStatesText (states : PinStates) : JsString :=
  Json.objectText (states.entries.map fun e => (e.1, Json.stringify e.2))

/-- `JSON.stringify(device)`: the fields in the order in which the class
declares them, without the undefined ones. -/
def StoredDevice.text (d : StoredDevice) : JsString :=
  Json.objectText ([("mac", some (Json.quote d.mac)),
    ("ip", d.ip.map Json.stringify),
    ("port", d.port.map Json.stringify),
    ("info", d.description.map Json.stringify),
    ("lastSeen", some (Json.quote d.lastSeen)),
    ("isOnline", d.isOnline.map fun b => Json.stringify (.bool b)),
    ("devPinStates", d.devPinStates.map pinStatesText)].filterMap
      fun field => field.2.map fun text => (js field.1, text))

/-! ## What the operations keep -/

/-- Every place in the store has a device of that address, with its
description. -/
structure Registry.Ok (db : DevicesDb) (r : Registry) : Prop where
  stored : ∀ mac p, (mac, p) ∈ r.deviceStore.entries →
    ∃ d, r.heap[p]? = some d ∧ d.mac = mac
  described : ∀ d ∈ r.heap, d.info = (db d.mac).map DeviceInfo.pins ∧
    d.description = (db d.mac).map DeviceInfo.content

/-- A place is in the store under one address. -/
theorem Registry.Ok.place_inj {db : DevicesDb} {r : Registry} (h : r.Ok db)
    {mac mac' : JsString} {p : Nat} (hm : (mac, p) ∈ r.deviceStore.entries)
    (hm' : (mac', p) ∈ r.deviceStore.entries) : mac = mac' := by
  obtain ⟨d, hd, rfl⟩ := h.stored mac p hm
  obtain ⟨d', hd', rfl⟩ := h.stored mac' p hm'
  rw [hd] at hd'
  rw [Option.some.inj hd']

theorem Registry.ok_empty (db : DevicesDb) : Registry.empty.Ok db where
  stored _ _ hmem := absurd hmem List.not_mem_nil
  described _ hmem := absurd hmem List.not_mem_nil

/-- An operation that changes devices where they are keeps the rest. -/
theorem Registry.Ok.of_heap {db : DevicesDb} {r : Registry} (h : r.Ok db)
    {heap : List StoredDevice}
    (hheap : ∀ p : Nat, heap[p]? = r.heap[p]? ∨
      ∃ d d' : StoredDevice, r.heap[p]? = some d ∧
      heap[p]? = some d' ∧ d'.mac = d.mac ∧ d'.info = d.info ∧
      d'.description = d.description) :
    ({ r with heap := heap } : Registry).Ok db where
  stored mac p hmem := by
    obtain ⟨d, hd, hmac⟩ := h.stored mac p hmem
    rcases hheap p with hsame | ⟨d₀, d', hd₀, hd', hmac', _⟩
    · exact ⟨d, hsame.trans hd, hmac⟩
    · rw [hd] at hd₀
      obtain rfl := Option.some.inj hd₀
      exact ⟨d', hd', hmac'.trans hmac⟩
  described d hmem := by
    obtain ⟨p, hp⟩ := List.mem_iff_getElem?.1 hmem
    rcases hheap p with hsame | ⟨d₀, d', hd₀, hd', hmac, hinfo, hdescr⟩
    · exact h.described d (List.mem_of_getElem? (hsame.symm.trans hp))
    · obtain rfl := Option.some.inj (hp.symm.trans hd')
      rw [hmac, hinfo, hdescr]
      exact h.described d₀ (List.mem_of_getElem? hd₀)

theorem Registry.Ok.apply {db : DevicesDb} {r : Registry} (h : r.Ok db)
    (op : RegistryOp) : (r.apply db op).Ok db := by
  cases op with
  | setDevice n =>
      refine ⟨fun mac p hmem => ?_, fun d hmem => ?_⟩
      · rcases OrderedMap.mem_setEntry hmem r.deviceStore.nodup with
          ⟨rfl, rfl⟩ | ⟨_, hold⟩
        · exact ⟨newDevice db n, by
            simp [Registry.apply, Registry.setDevice], rfl⟩
        · obtain ⟨d, hd, hmac⟩ := h.stored mac p hold
          refine ⟨d, ?_, hmac⟩
          rw [Registry.apply, Registry.setDevice,
            List.getElem?_append_left (List.getElem?_eq_some_iff.1 hd).1, hd]
      · rcases List.mem_append.1 hmem with hold | hnew
        · exact h.described d hold
        · obtain rfl := List.mem_singleton.1 hnew
          exact ⟨rfl, rfl⟩
  | checkIsOnline online =>
      refine h.of_heap fun p => ?_
      cases hp : r.heap[p]? with
      | none => simp [hp]
      | some d =>
          refine .inr ⟨d, _, rfl, by rw [List.getElem?_mapIdx, hp]; rfl, ?_⟩
          split
          · exact ⟨rfl, rfl, rfl⟩
          · exact ⟨rfl, rfl, rfl⟩
  | record device states =>
      refine h.of_heap fun p => ?_
      cases hp : r.heap[p]? with
      | none => simp [hp, List.getElem?_modify]
      | some d =>
          refine .inr ⟨d, _, rfl, by rw [List.getElem?_modify, hp]; rfl, ?_⟩
          split
          · exact ⟨rfl, rfl, rfl⟩
          · exact ⟨rfl, rfl, rfl⟩

theorem Registry.Ok.foldl {db : DevicesDb} {r : Registry} (h : r.Ok db)
    (ops : List RegistryOp) : (ops.foldl (Registry.apply db) r).Ok db := by
  induction ops generalizing r with
  | nil => exact h
  | cons op ops ih => exact ih (h.apply op)

theorem Registry.Ok.exists_heap {db : DevicesDb} {r : Registry}
    (h : r.Ok db) :
    ∀ e ∈ r.deviceStore.entries, ∃ d, r.heap[e.2]? = some d := by
  intro e he
  obtain ⟨d, hd, _⟩ := h.stored e.1 e.2 he
  exact ⟨d, hd⟩

end IotHome.Server
