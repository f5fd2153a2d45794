import IotHome.Lib.Traversal
import IotHome.Server.JsNumber

/-!
# What a command returns, as a text

`serializeObject`, without options, as the controller calls it: a call of
`JSON.stringify` whose replacer keeps the plain objects it has met, shows a
buffer by its hash and turns maps into objects. The objects of a value are the
vertices of a graph of any shape. Where a property cannot be read, where the
`toJSON` of a value throws, and where the stack is used up, the whole call
throws.

The text is a JSON value here, whose layout is that of `SerializedText.lean`.
The order in which JavaScript lists number-like keys is left out.

`serializeObject_iff` says which values have a text.
-/

namespace IotHome.Cmd

open IotHome.Lib
open IotHome.Server
open IotHome.Virtual

/-! ## Values -/

/-- What is found where a property is read, with its `toJSON` already called:
a value, or an exception. `ρ` are the objects; of a function there is its
`length`. -/
inductive Read (ρ : Type) where
  | throws
  | undefined
  | null
  | boolean (b : Bool)
  | number (n : JsNumber)
  | bigint
  | string (s : JsString)
  | symbol
  | function (length : Read ρ)
  | object (r : ρ)
  deriving DecidableEq

/-- What the key of a map becomes as the key of a property. -/
inductive EntryKey where
  | name (s : JsString)
  | symbol
  | throws

inductive ObjectKind (ρ : Type) where
  /-- Without the places that hold nothing. -/
  | array (items : List (Read ρ))
  | map (entries : List (EntryKey × Read ρ))
  /-- The object of a primitive value, by what it is converted to. -/
  | boxed (value : Read ρ)
  /-- Everything else, by its own properties that can be listed. -/
  | plain (fields : List (JsString × Read ρ))

def ObjectKind.values {ρ : Type} : ObjectKind ρ → List (Read ρ)
  | .array items => items
  | .map entries => entries.map Prod.snd
  | .boxed value => [value]
  | .plain fields => fields.map Prod.snd

/-- An object, with the properties that are read of any. -/
structure HeapObject (ρ : Type) where
  type : Read ρ
  data : Read ρ
  length : Read ρ
  kind : ObjectKind ρ

/-- The objects, and `sha1` of a buffer made from a value, if one can be. -/
structure ValueHeap (ρ : Type) where
  object : ρ → HeapObject ρ
  sha1sum : Read ρ → Option JsString

/-! ## The replacer -/

/-- What `JSON.stringify` goes on with: a text that is complete, or none at
all, or the properties of an object, or the elements of an array. -/
inductive Node (ρ : Type) where
  | leaf (json : Option Json)
  | object (fields : List (JsString × Read ρ))
  | array (items : List (Read ρ))

variable {ρ : Type}

def Node.children : Node ρ → List (Read ρ)
  | .leaf _ => []
  | .object fields => fields.map Prod.snd
  | .array items => items

/-- The node, when its children have been written. -/
def Node.json (texts : List (Option Json)) : Node ρ → Option Json
  | .leaf json => json
  | .object fields => some (.obj (((fields.map Prod.fst).zip texts).filterMap
      fun (key, text) => text.map fun json => (key, json)))
  | .array _ => some (.arr (texts.map fun text => text.getD .null))

/-- A value that is no object. -/
def primitiveNode : Read ρ → Option (Node ρ)
  | .throws => none
  | .bigint => none
  | .undefined => some (.leaf none)
  | .symbol => some (.leaf none)
  | .function _ => some (.leaf none)
  | .null => some (.leaf (some .null))
  | .boolean b => some (.leaf (some (.bool b)))
  | .number n => some (.leaf (some (numberJson n)))
  | .string s => some (.leaf (some (.str s)))
  | .object _ => none

/-- `Object.fromEntries`. -/
def fromEntries (entries : List (EntryKey × Read ρ)) :
    Option (List (JsString × Read ρ)) :=
  entries.foldlM (fun fields entry =>
    match entry.1 with
    | .name key => some (OrderedMap.setEntry key entry.2 fields)
    | .symbol => some fields
    | .throws => none) []

variable (heap : ValueHeap ρ)

/-- `data?.length`. -/
def dataLength : Read ρ → Read ρ
  | .throws => .throws
  | .string s => .number (.dec (.ofInt s.length))
  | .function length => length
  | .object r => (heap.object r).length
  | _ => .undefined

/-- `value?.data ?? ""`. -/
def dataOrEmpty : Read ρ → Read ρ
  | .undefined => .string []
  | .null => .string []
  | data => data

/-- What is shown of a buffer. -/
def bufferNode (value : HeapObject ρ) : Option (Node ρ) :=
  (heap.sha1sum (dataOrEmpty value.data)).map fun sha1sum =>
    .object [(js "type", value.type),
      (js "data_len", dataLength heap value.data),
      (js "sha1sum", .string sha1sum)]

def isBuffer (value : HeapObject ρ) : Bool :=
  match value.type with
  | .string type => type = js "Buffer"
  | _ => false

/-- The replacer returns the object as it is. -/
def ObjectKind.isReturned : ObjectKind ρ → Bool
  | .array _ => false
  | .map _ => false
  | .boxed _ => true
  | .plain _ => true

/-- What is made of an object that is no buffer. -/
def ObjectKind.node : ObjectKind ρ → Option (Node ρ)
  | .map entries => (fromEntries entries).map .object
  | .array items => some (.array items)
  | .boxed value => primitiveNode value
  | .plain fields => some (.object fields)

/-- What is made of an object that has not been met. -/
def objectNode (value : HeapObject ρ) : Option (Node ρ) :=
  match value.type with
  | .throws => none
  | _ =>
      if isBuffer value then bufferNode heap value else value.kind.node

theorem objectNode_buffer {heap : ValueHeap ρ} {value : HeapObject ρ}
    (h : isBuffer value = true) :
    objectNode heap value = bufferNode heap value := by
  rw [objectNode, if_pos h]
  cases htype : value.type with
  | throws => simp [isBuffer, htype] at h
  | _ => rfl

/-- An object that is no buffer, by its kind. -/
theorem objectNode_kind {heap : ValueHeap ρ} {value : HeapObject ρ}
    (htype : value.type ≠ .throws) (h : isBuffer value = false) :
    objectNode heap value = value.kind.node := by
  rw [objectNode, h, if_neg Bool.false_ne_true]
  cases hread : value.type with
  | throws => exact absurd hread htype
  | _ => rfl

/-- The objects that are kept in `circular`. -/
def isKept : Read ρ → Bool
  | .object r => !isBuffer (heap.object r) && (heap.object r).kind.isReturned
  | _ => false

/-- The children of a node, one after the other. -/
def serializeAll (go : List (Read ρ) → Read ρ →
      Option (Option Json × List (Read ρ))) :
    List (Read ρ) → List (Read ρ) → Option (List (Option Json) × List (Read ρ))
  | circular, [] => some ([], circular)
  | circular, value :: values => do
      let (text, circular) ← go circular value
      let (texts, circular) ← serializeAll go circular values
      some (text :: texts, circular)

theorem serializeAll_snd
    {go : List (Read ρ) → Read ρ → Option (Option Json × List (Read ρ))}
    {visitChild : List (Read ρ) → Read ρ → Option (List (Read ρ))}
    {kept : Read ρ → Bool}
    (hgo : ∀ circular value, (∀ v ∈ circular, kept v = true) →
      (go circular value).map Prod.snd = visitChild circular value)
    (hkept : ∀ circular value circular', (∀ v ∈ circular, kept v = true) →
      visitChild circular value = some circular' →
      ∀ v ∈ circular', kept v = true)
    (values circular : List (Read ρ)) (h : ∀ v ∈ circular, kept v = true) :
    (serializeAll go circular values).map Prod.snd =
      values.foldlM visitChild circular := by
  induction values generalizing circular with
  | nil => rfl
  | cons value values ih =>
      have hfirst := hgo circular value h
      rw [serializeAll, List.foldlM_cons, ← hfirst]
      cases hcall : go circular value with
      | none => rfl
      | some result =>
          rw [hcall] at hfirst
          have hrest := ih result.2 (hkept circular value _ h hfirst.symm)
          simp only [Option.map_some, Option.bind_eq_bind, Option.bind_some]
          rw [← hrest]
          cases serializeAll go result.2 values <;> rfl

variable [DecidableEq ρ]

/-- The replacer, and what is done with the value it returns. The newest of
`circular` is first. -/
def replacer (circular : List (Read ρ)) (value : Read ρ) :
    Option (Node ρ × List (Read ρ)) :=
  match value with
  | .object r =>
      if value ∈ circular then
        some (.leaf (some (.str (js "[Circular]"))), circular)
      else (objectNode heap (heap.object r)).map fun node =>
        (node, Traversal.remember (isKept heap) circular value)
  | _ => (primitiveNode value).map fun node => (node, circular)

/-! ## The call -/

/-- A property, on a stack of the given depth. -/
def serializeProperty : (depth : Nat) → List (Read ρ) → Read ρ →
    Option (Option Json × List (Read ρ))
  | 0, _, _ => none
  | depth + 1, circular, value => do
      let (node, circular) ← replacer heap circular value
      let (texts, circular) ←
        serializeAll (serializeProperty depth) circular node.children
      some (node.json texts, circular)

/-- `serializeObject(obj)`: nothing if it throws, and a text or `undefined` if
it does not. -/
def serializeObject (depth : Nat) (obj : Read ρ) : Option (Option Json) :=
  (serializeProperty heap depth [] obj).map Prod.fst

/-! ## The values that have a text -/

/-- What is written inside of a value that has not been met. -/
def opened (value : Read ρ) : Option (List (Read ρ)) :=
  (replacer heap [] value).map fun result => result.1.children

/-- Everything inside of the value can be read and written, it is finitely
much, and no array or map is inside of itself by way of arrays and maps
alone. -/
def Serializable (value : Read ρ) : Prop :=
  Traversal.Visitable (opened heap) (isKept heap) value

variable {heap}

theorem replacer_of_mem {circular : List (Read ρ)} {value : Read ρ}
    (h : ∀ v ∈ circular, isKept heap v = true) (hmem : value ∈ circular) :
    replacer heap circular value =
      some (.leaf (some (.str (js "[Circular]"))), circular) := by
  have hkept := h value hmem
  cases value with
  | object r => rw [replacer, if_pos hmem]
  | _ => cases hkept

theorem replacer_of_notMem {circular : List (Read ρ)} {value : Read ρ}
    (hnew : value ∉ circular) :
    replacer heap circular value = (replacer heap [] value).map fun result =>
      (result.1, Traversal.remember (isKept heap) circular value) := by
  cases value with
  | object r =>
      rw [replacer, if_neg hnew, replacer, if_neg (by simp), Option.map_map]
      rfl
  | _ => simp [replacer, Traversal.remember, isKept, Function.comp_def]

theorem opened_object (r : ρ) :
    opened heap (.object r) =
      (objectNode heap (heap.object r)).map Node.children := by
  rw [opened, replacer, if_neg (by simp), Option.map_map]
  rfl

/-- The call visits the graph of the value. -/
theorem serializeProperty_snd (depth : Nat) (circular : List (Read ρ))
    (value : Read ρ) (h : ∀ v ∈ circular, isKept heap v = true) :
    (serializeProperty heap depth circular value).map Prod.snd =
      Traversal.visit (opened heap) (isKept heap) depth circular value := by
  induction depth generalizing circular value with
  | zero => rfl
  | succ depth ih =>
      rw [serializeProperty, Traversal.visit]
      split_ifs with hmem
      · rw [replacer_of_mem h hmem]
        rfl
      · rw [replacer_of_notMem hmem, opened]
        cases replacer heap [] value with
        | none => rfl
        | some result =>
            have hchildren := serializeAll_snd ih
              (fun _ _ _ hcircular hvisit v hv =>
                Traversal.marked_of_visit hvisit hcircular v hv)
              result.1.children _ (Traversal.marked_remember (v := value) h)
            simp only [Option.map_some, Option.bind_eq_bind, Option.bind_some]
            rw [← hchildren]
            cases serializeAll (serializeProperty heap depth) _
              result.1.children <;> rfl

theorem serializeObject_isSome (depth : Nat) (obj : Read ρ) :
    (serializeObject heap depth obj).isSome =
      (Traversal.visit (opened heap) (isKept heap) depth [] obj).isSome := by
  rw [← serializeProperty_snd depth [] obj (by simp), serializeObject,
    Option.isSome_map, Option.isSome_map]

/-- A value has a text, on any stack that is deep enough, exactly if it is
serializable. -/
theorem serializeObject_iff (obj : Read ρ) :
    (∃ depth₀, ∀ depth, depth₀ ≤ depth →
      (serializeObject heap depth obj).isSome = true) ↔
      Serializable heap obj := by
  rw [Serializable, ← Traversal.visit_iff]
  constructor
  · intro ⟨depth₀, h⟩
    have hvisit := h depth₀ (le_refl _)
    rw [serializeObject_isSome, Option.isSome_iff_exists] at hvisit
    exact ⟨depth₀, hvisit⟩
  · intro ⟨depth₀, seen, hvisit⟩
    refine ⟨depth₀, fun depth hle => ?_⟩
    rw [serializeObject_isSome, Traversal.visit_mono hle hvisit]
    rfl

/-- An object and an array, each inside of itself. -/
def loops : ValueHeap Bool where
  object isArray :=
    ⟨.undefined, .undefined, .undefined,
      if isArray then .array [.object true]
      else .plain [(js "self", .object false)]⟩
  sha1sum _ := none

example : (serializeObject loops 2 (.object false)).isSome = true := by decide

example : (serializeObject loops 20 (.object true)).isSome = false := by
  decide

end IotHome.Cmd
