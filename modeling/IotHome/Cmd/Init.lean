import IotHome.Cmd.Runner

/-!
# What `Cmd.init` does to the command tree

`init` walks down the tree with `traverseObject` and gives the application to
the instances of `CmdTreeAppCommon`, into which it does not walk. It goes along
the own enumerable properties (`for` and `hasOwnProperty`) and looks only at
what is an object, which includes `null`. `hasOwnProperty` is that of the
language. `app` is a property that can be written, as the class declares it.
-/

namespace IotHome.Cmd

open IotHome.Lib

/-- `typeof value === "object"`. -/
def isObject (h : JsHeap) (value : Value) : Bool :=
  match value with
  | .null => true
  | .ref r => (h.object r).callable.isNone
  | _ => false

/-- A callback, with what it does to the heap. -/
abbrev ObjectCallback := JsHeap → Value → JsHeap × Bool

/-- `traverseObject`, with `none` when the stack is used up. There is nothing
to enumerate in `null`. -/
def traverseObject (cb : ObjectCallback) : (stack : Nat) → JsHeap → Value →
    Option JsHeap
  | 0, _, .ref _ => none
  | stack + 1, h, .ref r =>
      (h.objectKeys r).foldlM (fun h key =>
        let value := h.get (.ref r) key
        if isObject h value then
          match cb h value with
          | (h, true) => some h
          | (h, false) => traverseObject cb stack h value
        else some h) h
  | _, h, _ => some h

/-- `CmdTreeAppCommon.prototype`, and `this.app`. -/
structure AppContext where
  appCommonPrototype : Nat
  app : Value

variable (ctx : AppContext)

/-- `value instanceof CmdTreeAppCommon`. -/
def isAppCommon (h : JsHeap) (r : Nat) : Bool :=
  (h.chain r).tail.contains ctx.appCommonPrototype

/-- The field, which is listed as it was before, if it was there. -/
def appProperty (o : JsObject) : Property where
  read := fun _ => ctx.app
  enumerable := ((o.props.get (js "app")).map Property.enumerable).getD true

def withApp (o : JsObject) : JsObject :=
  { o with props := o.props.set (js "app") (appProperty ctx o) }

/-- `subTree.app = this.app`. -/
def setApp (h : JsHeap) (r : Nat) : JsHeap where
  object := fun s => if s = r then withApp ctx (h.object s) else h.object s
  objectPrototype := h.objectPrototype
  stringPrototype := h.stringPrototype
  primitivePrototype := h.primitivePrototype
  rank := h.rank
  rank_lt := by
    intro s p hp
    refine h.rank_lt s p ?_
    split at hp
    · exact hp
    · exact hp

/-- The callback of `init`. -/
def ensureApp : ObjectCallback := fun h subTree =>
  match subTree with
  | .ref r => if isAppCommon ctx h r then (setApp ctx h r, true) else (h, false)
  | _ => (h, false)

/-- `Cmd.init`, as far as the tree. -/
def init (stack : Nat) (h : JsHeap) (mainCmdTree : Value) :
    Option JsHeap :=
  traverseObject (ensureApp ctx) stack h mainCmdTree

end IotHome.Cmd
