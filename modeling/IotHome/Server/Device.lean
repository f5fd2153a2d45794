import IotHome.Server.QueryString

/-!
# A device as the server knows it

`device.module.ts` and what it uses of the HTTP client. Both calls are
asynchronous with one `await` that matters, the request: before it the query
is put together, after it the answer is recorded. The two halves are
functions of their own, so that a run can put anything between them.

The network is a parameter, from the device's address and the query to how
the request ends. Of a device's description only the pins it lists are kept;
a device that is not in the database has none, and reading it throws.
-/

namespace IotHome.Server

open IotHome.Lib

/-- How a request ends: with the body of a response, or in an error. -/
inductive HttpOutcome where
  | response (str : JsString)
  | failed (error : JsError)

/-- `HttpClientModule.request`, as far as `body.parsed`: a text that is not
JSON leaves it undefined. -/
def HttpOutcome.parsed : HttpOutcome → Except JsError JsValue
  | .response str => .ok (Json.parse str)
  | .failed e => .error e

/-- `devPinStates`, from pin to the state the device gave for it. -/
abbrev PinStates := OrderedMap JsString Json

structure Device where
  ip : JsValue
  port : JsValue
  info : Option (List Nat)
  devPinStates : Option PinStates

/-- From `ip`, `port` and the query in the URL to the end of the request. -/
abbrev Network := JsValue → JsValue → List Char → HttpOutcome

/-! ## Recording an answer -/

/-- The `Map` of the answer's elements by their `pin`, each with that value
of `pin`. -/
def pinStateMap (states : List Json) :
    Except JsError (OrderedMap MapKey (JsValue × Json)) :=
  states.zipIdx.foldlM (fun m s => do
    let pin ← getProp (some s.1) "pin"
    pure (m.set (mapKey s.2 pin) (pin, s.1))) .empty

/-- `Object.fromEntries`. -/
def fromEntries (m : OrderedMap MapKey (JsValue × Json)) :
    Except JsError PinStates :=
  m.values.foldlM (fun o entry => do
    let key ← propertyKey entry.1
    pure (o.set key entry.2)) .empty

/-- The states an answer is recorded as: none if it is no array. -/
def recordStates : JsValue → Except JsError (Option PinStates)
  | some (.arr states) => do
      let m ← pinStateMap states
      let o ← fromEntries m
      pure (some o)
  | _ => pure none

/-- The second half of `setState` and of `queryState`. -/
def Device.recordAnswer (d : Device) (answer : HttpOutcome) :
    Except JsError (Device × Option PinStates) := do
  let parsed ← answer.parsed
  match ← recordStates parsed with
  | none => pure (d, none)
  | some states => pure ({ d with devPinStates := some states }, some states)

/-! ## The calls -/

/-- `({ pin, val }) => qs.stringify({ pin, val })`. -/
def stateQuery (state : Json) : Except JsError (List Char) := do
  let pin ← getProp (some state) "pin"
  let val ← getProp (some state) "val"
  stringify [("pin", pin), ("val", val)]

/-- The query of `setState`. What is no array has no `map` to call. -/
def setStateQuery : JsValue → Except JsError (List Char)
  | some (.arr inStates) => do
      let parts ← inStates.mapM stateQuery
      pure (joinQueries parts)
  | _ => .error .typeError

def Device.setState (net : Network) (d : Device) (inStates : JsValue) :
    Except JsError (Device × Option PinStates) := do
  let query ← setStateQuery inStates
  d.recordAnswer (net d.ip d.port query)

/-- The query of `queryState`. -/
def Device.queryStateQuery (d : Device) : Except JsError (List Char) :=
  match d.info with
  | none => .error .typeError
  | some pins => do
      let parts ← pins.mapM fun pin =>
        stringify [("pin", some (.num (Dec.ofInt pin)))]
      pure (joinQueries parts)

def Device.queryState (net : Network) (isOnline : Bool) (d : Device) :
    Except JsError (Device × Option PinStates) :=
  if isOnline then do
    let query ← d.queryStateQuery
    d.recordAnswer (net d.ip d.port query)
  else pure (d, none)

/-- A call of either of the two. `queryState` can be given the pins to ask
for. -/
inductive DeviceCall where
  | setState (inStates : JsValue)
  | queryState (isOnline : Bool) (pins : Option (List Nat))

/-- The query of a call, if it comes to sending one. Of the pins `queryState`
is given none are in it. -/
def Device.callQuery (d : Device) :
    DeviceCall → Except JsError (Option (List Char))
  | .setState inStates => (setStateQuery inStates).map some
  | .queryState false _ => .ok none
  | .queryState true none => d.queryStateQuery.map some
  | .queryState true (some _) => .ok (some (joinQueries []))

def Device.call (net : Network) (d : Device) (c : DeviceCall) :
    Except JsError (Device × Option PinStates) := do
  match ← d.callQuery c with
  | none => pure (d, none)
  | some query => d.recordAnswer (net d.ip d.port query)

/-! ## What is recorded -/

theorem recordAnswer_eq_ok {d d' : Device} {answer : HttpOutcome}
    {states : Option PinStates} :
    d.recordAnswer answer = .ok (d', states) ↔
      ∃ parsed, answer.parsed = .ok parsed ∧
        recordStates parsed = .ok states ∧
        d' = { d with devPinStates := states.or d.devPinStates } := by
  rw [Device.recordAnswer, bind_eq_ok]
  refine exists_congr fun parsed => and_congr_right fun _ => ?_
  rw [bind_eq_ok]
  constructor
  · intro h
    obtain ⟨o, ho, hd⟩ := h
    cases o with
    | none =>
        obtain ⟨rfl, rfl⟩ := Prod.mk.inj (Except.ok.inj hd)
        exact ⟨ho, rfl⟩
    | some s =>
        obtain ⟨rfl, rfl⟩ := Prod.mk.inj (Except.ok.inj hd)
        exact ⟨ho, rfl⟩
  · intro h
    obtain ⟨ho, rfl⟩ := h
    refine ⟨states, ho, ?_⟩
    cases states with
    | none => rfl
    | some s => rfl

end IotHome.Server
