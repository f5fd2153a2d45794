import IotHome.Lib.Json
import IotHome.Lib.Outcome

/-!
# Values as the server's code handles them

What the handlers work on comes out of `JSON.parse`, so a value is a JSON
value or `undefined`. The operations here are the language's own, as far as
the modelled code uses them: reading a property, which throws on `null` and
`undefined`; being a key of a `Map`, where primitives are compared by value
and objects are the same only if they are the same one; and being a property
name, which for an object with a `toString` of its own fails, since what came
out of JSON is no function.
-/

namespace IotHome.Server

open IotHome.Lib

/-- What the modelled code throws, or rejects a promise with. -/
inductive JsError where
  | typeError
  | uriError
  | invalidUrl
  | requestError
  | timeout
  deriving DecidableEq, Repr

/-- A JSON value, or `undefined`. -/
abbrev JsValue := Option Json

/-- `v.name`. -/
def getProp (v : JsValue) (name : String) : Except JsError JsValue :=
  match v with
  | none => .error .typeError
  | some .null => .error .typeError
  | some (.obj fields) => .ok (lastFor (js name) fields)
  | some _ => .ok none

/-- `v?.name`. -/
def getProp? (v : JsValue) (name : String) : JsValue :=
  match v with
  | some (.obj fields) => lastFor (js name) fields
  | _ => none

def isNull : Json → Bool
  | .null => true
  | _ => false

/-- `v === text`. -/
def isText (v : JsValue) (text : String) : Bool :=
  match v with
  | some (.str s) => s == js text
  | _ => false

/-! ## Map keys -/

/-- What a `Map` compares keys by. An object is told from others by `index`,
the place it has in the array that is being gone through. -/
inductive MapKey where
  | undefined
  | null
  | bool (b : Bool)
  | num (n : Dec)
  | str (s : JsString)
  | object (index : Nat)
  deriving DecidableEq

def mapKey (index : Nat) : JsValue → MapKey
  | none => .undefined
  | some .null => .null
  | some (.bool b) => .bool b
  | some (.num n) => .num n
  | some (.str s) => .str s
  | some (.arr _) => .object index
  | some (.obj _) => .object index

/-! ## Property names -/

mutual

/-- `String(v)`. -/
def toJsString : Json → Except JsError JsString
  | .null => .ok (js "null")
  | .bool b => .ok (if b then js "true" else js "false")
  | .num n => .ok (n.text.flatMap utf16Encode)
  | .str s => .ok s
  | .arr elems => (elemStrings elems).map [unit ','].intercalate
  | .obj fields =>
      if js "toString" ∈ fields.map Prod.fst then .error .typeError
      else .ok (js "[object Object]")

/-- The parts `Array.prototype.join` puts together. -/
def elemStrings : List Json → Except JsError (List JsString)
  | [] => .ok []
  | v :: vs => do
      let s ← if isNull v then .ok [] else toJsString v
      let ss ← elemStrings vs
      pure (s :: ss)

end

def propertyKey : JsValue → Except JsError JsString
  | none => .ok (js "undefined")
  | some v => toJsString v

/-! ## Reading properties -/

/-- A property can be read of every value but `null` and `undefined`. -/
theorem getProp_eq (v : JsValue) (name : String) :
    getProp v name =
      if v = none ∨ v.any isNull then .error .typeError
      else .ok (getProp? v name) := by
  cases v with
  | none => rfl
  | some v =>
      cases v with
      | null => rfl
      | _ => simp [getProp, getProp?, isNull]

end IotHome.Server
