import IotHome.Lib.Assoc
import IotHome.Lib.JsString

/-!
# Objects, prototypes and property reads

A heap of JavaScript objects, and what reading a property of a value finds:
the first property of that name along the prototype chain, beginning with the
object itself, or with what stands for a primitive. Functions are objects
that can be called.

A property is read for a receiver, so an accessor is the function from the
receiver to what it returns; a data property does not look at it. Symbols are
no names here, and no object is a proxy. `rank` witnesses that prototype
chains end.
-/

namespace IotHome.Lib

/-- The types of primitives whose value does not matter. -/
inductive Primitive where
  | boolean
  | number
  | bigint
  | symbol
  deriving DecidableEq

inductive Value where
  | undefined
  | null
  | primitive (type : Primitive) (truthy : Bool)
  | str (s : JsString)
  | ref (r : Nat)
  deriving DecidableEq

def Value.truthy : Value → Bool
  | .undefined => false
  | .null => false
  | .primitive _ truthy => truthy
  | .str s => s ≠ []
  | .ref _ => true

structure Property where
  read : Value → Value
  enumerable : Bool

def Property.data (v : Value) : Property := ⟨fun _ => v, true⟩

/-- A data property that is not enumerable, such as a method of a class. -/
def Property.hidden (v : Value) : Property := ⟨fun _ => v, false⟩

/-- A class can be called only by `new`. -/
inductive Callable where
  | function
  | classConstructor
  deriving DecidableEq

structure JsObject where
  props : OrderedMap JsString Property
  proto : Option Nat
  callable : Option Callable

structure JsHeap where
  object : Nat → JsObject
  objectPrototype : Nat
  stringPrototype : Nat
  primitivePrototype : Primitive → Nat
  rank : Nat → Nat
  rank_lt : ∀ r p, (object r).proto = some p → rank p < rank r

namespace JsHeap

variable (h : JsHeap)

/-! ## The prototype chain -/

def chainFrom : (fuel r : Nat) → List Nat
  | 0, _ => []
  | fuel + 1, r =>
      r :: match (h.object r).proto with
        | none => []
        | some p => chainFrom fuel p

/-- The object and its prototypes. -/
def chain (r : Nat) : List Nat := h.chainFrom (h.rank r + 1) r

theorem chainFrom_eq {n m r : Nat} (hn : h.rank r < n) (hm : h.rank r < m) :
    h.chainFrom n r = h.chainFrom m r := by
  induction n generalizing m r with
  | zero => omega
  | succ n ih =>
      cases m with
      | zero => omega
      | succ m =>
          rw [chainFrom, chainFrom]
          cases hp : (h.object r).proto with
          | none => rfl
          | some p =>
              have hlt := h.rank_lt r p hp
              exact congrArg (r :: ·) (ih (by omega) (by omega))

theorem chain_eq (r : Nat) :
    h.chain r = r :: match (h.object r).proto with
      | none => []
      | some p => h.chain p := by
  rw [chain, chainFrom]
  cases hp : (h.object r).proto with
  | none => rfl
  | some p =>
      have hlt := h.rank_lt r p hp
      exact congrArg (r :: ·) (h.chainFrom_eq (by omega) (by omega))

/-! ## Reading a property -/

def ownProp (r : Nat) (name : JsString) : Option Property :=
  (h.object r).props.get name

/-- The property a name stands for along a chain. -/
def findProp (chain : List Nat) (name : JsString) : Option Property :=
  chain.findSome? fun r => h.ownProp r name

def readChain (r : Nat) (name : JsString) (receiver : Value) : Value :=
  match h.findProp (h.chain r) name with
  | none => .undefined
  | some p => p.read receiver

/-- The own properties of a string: its length, and its units. -/
def stringProp (s : JsString) (name : JsString) : Option Value :=
  if name = js "length" then some (.primitive .number (s ≠ []))
  else (s.zipIdx.find? fun u => js (toString u.2) = name).map
    fun u => .str [u.1]

/-- `v[name]`. Of `undefined` and `null` it is not to be asked. -/
def get (v : Value) (name : JsString) : Value :=
  match v with
  | .undefined => .undefined
  | .null => .undefined
  | .primitive type _ => h.readChain (h.primitivePrototype type) name v
  | .str s => (stringProp s name).getD (h.readChain h.stringPrototype name v)
  | .ref r => h.readChain r name v

/-- `typeof v === "function"`, and the function. -/
def function? (v : Value) : Option Nat :=
  match v with
  | .ref r => if (h.object r).callable.isSome then some r else none
  | _ => none

/-- `Object.keys`. -/
def objectKeys (r : Nat) : List JsString :=
  ((h.object r).props.entries.filter fun p => p.2.enumerable).map Prod.fst

/-- `Object.getOwnPropertyNames`. -/
def ownNames (r : Nat) : List JsString := (h.object r).props.keys

/-- The name is an own property that `Object.keys` lists. -/
def OwnEnumerable (r : Nat) (name : JsString) : Prop :=
  ∃ p, h.ownProp r name = some p ∧ p.enumerable = true

theorem mem_objectKeys {r : Nat} {name : JsString} :
    name ∈ h.objectKeys r ↔ h.OwnEnumerable r name := by
  rw [objectKeys, List.mem_map]
  constructor
  · intro h'
    obtain ⟨⟨name, p⟩, hmem, rfl⟩ := h'
    obtain ⟨hp, henum⟩ := List.mem_filter.1 hmem
    exact ⟨p, OrderedMap.get_of_mem _ hp, henum⟩
  · intro h'
    obtain ⟨p, hp, henum⟩ := h'
    exact ⟨(name, p), List.mem_filter.2 ⟨mem_of_lastFor hp, henum⟩, rfl⟩

theorem get_own {r : Nat} {name : JsString} {p : Property}
    (hp : h.ownProp r name = some p) :
    h.get (.ref r) name = p.read (.ref r) := by
  rw [get, readChain, findProp, chain_eq, List.findSome?_cons, hp]

end JsHeap

end IotHome.Lib
