import IotHome.Cmd.SerializeObject
import IotHome.Lib.JsonLayout

/-!
# The text of a value, with the replacer and without

What `serializeObject` returns, laid out two spaces a level, and what
`JSON.stringify` returns for the same value when it is left alone: an object
may be met in several places, but not inside of itself.
-/

namespace IotHome.Cmd

open IotHome.Lib

variable {ρ : Type} [DecidableEq ρ] (heap : ValueHeap ρ)

/-! ## With the replacer -/

/-- The gap of a `jsonSpace` of two. -/
def jsonSpace : JsString := js "  "

def serializedText (depth : Nat) (obj : Read ρ) : Option (Option JsString) :=
  (serializeObject heap depth obj).map fun json =>
    json.map (Json.layout jsonSpace [])

/-! ## Without -/

/-- The entries of a map are no properties of it. -/
def ObjectKind.ownNode : ObjectKind ρ → Option (Node ρ)
  | .array items => some (.array items)
  | .map _ => some (.object [])
  | .boxed value => primitiveNode value
  | .plain fields => some (.object fields)

def ownNode : Read ρ → Option (Node ρ)
  | .object r => (heap.object r).kind.ownNode
  | value => primitiveNode value

/-- A property of the innermost of `ancestors`. An object that is among them
is a circle, and `JSON.stringify` throws. -/
def stringifyProperty : (depth : Nat) → (ancestors : List (Read ρ)) →
    Read ρ → Option (Option Json)
  | 0, _, _ => none
  | depth + 1, ancestors, value =>
      if ancestors.contains value then none
      else do
        let node ← ownNode heap value
        let texts ← node.children.mapM
          (stringifyProperty depth (value :: ancestors))
        some (node.json texts)

/-- `JSON.stringify(obj)`. -/
def stringifiedText (depth : Nat) (obj : Read ρ) : Option (Option JsString) :=
  (stringifyProperty heap depth [] obj).map fun json =>
    json.map Json.stringify

end IotHome.Cmd
