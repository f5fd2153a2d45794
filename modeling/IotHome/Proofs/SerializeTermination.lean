import IotHome.Cmd.SerializeObject
import IotHome.Lib.Places
import Mathlib.Data.Set.Finite.Lattice

/-!
# The values that are written to the end

A value of finitely many plain objects, arrays, maps and primitive values, in
a graph of any shape. The replacer hands arrays and maps back as new ones, so
nothing that is kept ever meets them again: a circle of plain objects is cut,
and a circle of arrays and maps alone is followed until the stack is used up.
`returnsText_iff` says all that a text needs.
-/

namespace IotHome.Cmd

open IotHome.Lib
open IotHome.Virtual
open Relation

variable {ρ : Type}

/-! ## Values without code in them -/

/-- No getter is behind it, and it is no function. -/
def Read.isData : Read ρ → Bool
  | .throws => false
  | .function _ => false
  | _ => true

/-- A plain object, an array or a map. -/
structure HeapObject.IsData (object : HeapObject ρ) : Prop where
  type : object.type.isData = true
  data : object.data.isData = true
  length : object.length.isData = true
  values : ∀ value ∈ object.kind.values, value.isData = true
  unboxed : ∀ value, object.kind ≠ .boxed value

theorem HeapObject.IsData.type_ne {object : HeapObject ρ}
    (h : object.IsData) : object.type ≠ .throws := by
  intro htype
  have hdata := h.type
  rw [htype] at hdata
  cases hdata

/-- A value and everything it is made of. -/
structure ValueGraph (ρ : Type) where
  heap : ValueHeap ρ
  obj : Read ρ
  objects : ∀ r, (heap.object r).IsData
  isData : obj.isData = true

/-! ## Maps -/

def addEntry (fields : List (JsString × Read ρ)) (entry : EntryKey × Read ρ) :
    Option (List (JsString × Read ρ)) :=
  match entry.1 with
  | .name key => some (OrderedMap.setEntry key entry.2 fields)
  | .symbol => some fields
  | .throws => none

theorem fromEntries_eq (entries : List (EntryKey × Read ρ)) :
    fromEntries entries = entries.foldlM addEntry [] := rfl

theorem addEntry_isSome {fields : List (JsString × Read ρ)}
    {entry : EntryKey × Read ρ} :
    (addEntry fields entry).isSome = true ↔ entry.1 ≠ .throws := by
  rw [addEntry]
  cases entry.1 <;> simp

theorem foldlM_addEntry_isSome {entries : List (EntryKey × Read ρ)}
    {fields : List (JsString × Read ρ)} :
    (entries.foldlM addEntry fields).isSome = true ↔
      ∀ entry ∈ entries, entry.1 ≠ .throws := by
  induction entries generalizing fields with
  | nil => simp
  | cons entry entries ih =>
      rw [List.foldlM_cons, List.forall_mem_cons, ← @addEntry_isSome _ fields]
      cases addEntry fields entry with
      | none => simp
      | some next => simp [ih]

/-- The values of an object are values of the map it is made from. -/
theorem mem_foldlM_addEntry {entries : List (EntryKey × Read ρ)}
    {fields fields' : List (JsString × Read ρ)} {p : Read ρ → Prop}
    (h : entries.foldlM addEntry fields = some fields')
    (hentries : ∀ entry ∈ entries, p entry.2)
    (hfields : ∀ field ∈ fields, p field.2) : ∀ field ∈ fields', p field.2 := by
  induction entries generalizing fields with
  | nil =>
      obtain rfl := Option.some.inj h
      exact hfields
  | cons entry entries ih =>
      obtain ⟨next, hnext, hrest⟩ := Option.bind_eq_some_iff.1 h
      refine ih hrest (fun e he => hentries e (List.mem_cons_of_mem _ he)) ?_
      have hentry := hentries entry List.mem_cons_self
      rw [addEntry] at hnext
      cases hkey : entry.1 with
      | name key =>
          rw [hkey] at hnext
          obtain rfl := Option.some.inj hnext
          exact OrderedMap.forall_mem_setEntry hentry hfields
      | symbol =>
          rw [hkey] at hnext
          obtain rfl := Option.some.inj hnext
          exact hfields
      | throws =>
          rw [hkey] at hnext
          cases hnext

/-! ## One object -/

variable {heap : ValueHeap ρ}

theorem dataLength_isData (hobjects : ∀ r, (heap.object r).IsData)
    {data : Read ρ} (h : data.isData = true) :
    (dataLength heap data).isData = true := by
  cases data with
  | throws => exact h
  | function length => cases h
  | object r => exact (hobjects r).length
  | _ => rfl

/-- What an object that is no buffer shows. -/
def ObjectKind.inside : ObjectKind ρ → List (Read ρ)
  | .array items => items
  | .map entries => ((fromEntries entries).getD []).map Prod.snd
  | .boxed _ => []
  | .plain fields => fields.map Prod.snd

/-- What a value shows, and a buffer instead of what is in it. -/
def ValueHeap.inside (heap : ValueHeap ρ) : Read ρ → List (Read ρ)
  | .object r =>
      if isBuffer (heap.object r) then
        (heap.object r).type :: dataLength heap (heap.object r).data ::
          (heap.sha1sum (dataOrEmpty (heap.object r).data)).toList.map .string
      else (heap.object r).kind.inside
  | _ => []

/-- An object becomes an object or an array, of what is inside of it. -/
theorem objectNode_spec {r : ρ} (hobject : (heap.object r).IsData)
    {node : Node ρ} (h : objectNode heap (heap.object r) = some node) :
    node.children = heap.inside (.object r) ∧
      ∀ texts, (node.json texts).isSome = true := by
  rw [ValueHeap.inside]
  cases hbuffer : isBuffer (heap.object r) with
  | true =>
      rw [objectNode_buffer hbuffer, bufferNode] at h
      obtain ⟨sha1sum, hsum, rfl⟩ := Option.map_eq_some_iff.1 h
      rw [if_pos rfl, hsum]
      exact ⟨rfl, fun _ => rfl⟩
  | false =>
      rw [objectNode_kind hobject.type_ne hbuffer] at h
      rw [if_neg Bool.false_ne_true]
      cases hkind : (heap.object r).kind with
      | array items =>
          rw [hkind] at h
          obtain rfl := Option.some.inj h
          exact ⟨rfl, fun _ => rfl⟩
      | map entries =>
          rw [hkind] at h
          obtain ⟨fields, hfields, rfl⟩ := Option.map_eq_some_iff.1 h
          rw [ObjectKind.inside, hfields]
          exact ⟨rfl, fun _ => rfl⟩
      | boxed value => exact absurd hkind (hobject.unboxed value)
      | plain fields =>
          rw [hkind] at h
          obtain rfl := Option.some.inj h
          exact ⟨rfl, fun _ => rfl⟩

theorem HeapObject.IsData.inside {object : HeapObject ρ}
    (h : object.IsData) : ∀ value ∈ object.kind.inside,
      value.isData = true := by
  have hvalues := h.values
  cases hkind : object.kind with
  | array items =>
      rw [hkind] at hvalues
      exact hvalues
  | map entries =>
      rw [hkind] at hvalues
      rw [ObjectKind.inside]
      cases hfields : fromEntries entries with
      | none => exact fun value hvalue => absurd hvalue List.not_mem_nil
      | some fields =>
          rw [fromEntries_eq] at hfields
          have hall := @mem_foldlM_addEntry _ entries [] fields
            (fun value => value.isData = true) hfields
            (fun entry hentry =>
              hvalues entry.2 (List.mem_map_of_mem hentry)) (by simp)
          exact List.forall_mem_map.2 hall
  | boxed value => exact absurd hkind (h.unboxed value)
  | plain fields =>
      rw [hkind] at hvalues
      exact hvalues

/-- What is inside of data is data. -/
theorem isData_of_mem_inside (hobjects : ∀ r, (heap.object r).IsData)
    {value c : Read ρ} (hc : c ∈ heap.inside value) : c.isData = true := by
  cases value with
  | object r =>
      have hobject := hobjects r
      rw [ValueHeap.inside] at hc
      split_ifs at hc
      · have hlength := dataLength_isData hobjects hobject.data
        rcases List.mem_cons.1 hc with rfl | hc
        · exact hobject.type
        · rcases List.mem_cons.1 hc with rfl | hc
          · exact hlength
          · obtain ⟨sha1sum, -, rfl⟩ := List.mem_map.1 hc
            rfl
      · exact hobject.inside c hc
  | _ => cases hc

/-- The object can be read, and made a text of. -/
theorem objectNode_isSome {object : HeapObject ρ} (hobject : object.IsData) :
    (objectNode heap object).isSome = true ↔
      (isBuffer object = true →
        (heap.sha1sum (dataOrEmpty object.data)).isSome = true) ∧
      ∀ entries, isBuffer object = false → object.kind = .map entries →
        ∀ entry ∈ entries, entry.1 ≠ .throws := by
  cases hbuffer : isBuffer object with
  | true => simp [objectNode_buffer hbuffer, bufferNode]
  | false =>
      rw [objectNode_kind hobject.type_ne hbuffer]
      cases hkind : object.kind with
      | array items => simp [ObjectKind.node]
      | map entries =>
          rw [ObjectKind.node, Option.isSome_map, fromEntries_eq,
            foldlM_addEntry_isSome]
          simp
      | boxed value => exact absurd hkind (hobject.unboxed value)
      | plain fields => simp [ObjectKind.node]

/-! ## Everything that is written -/

/-- The value is inside of the one that is written, at some depth. -/
def ValueGraph.Reached (g : ValueGraph ρ) (value : Read ρ) : Prop :=
  ReflTransGen (Places.Below g.heap.inside) g.obj value

/-- `c` is inside of an array, a map or a buffer. -/
def NotKeptAround (heap : ValueHeap ρ) (w c : Read ρ) : Prop :=
  isKept heap w = false ∧ c ∈ heap.inside w

/-- What it takes for a text. -/
structure ValueGraph.Writable (g : ValueGraph ρ) : Prop where
  undefined : g.obj ≠ .undefined
  symbol : g.obj ≠ .symbol
  bigint : ¬ g.Reached .bigint
  /-- The keys of a map can be made texts. -/
  keys : ∀ r entries, g.Reached (.object r) →
    isBuffer (g.heap.object r) = false →
    (g.heap.object r).kind = .map entries → ∀ e ∈ entries, e.1 ≠ .throws
  /-- What looks like a buffer has data that one can be made of. -/
  buffers : ∀ r, g.Reached (.object r) → isBuffer (g.heap.object r) = true →
    (g.heap.sha1sum (dataOrEmpty (g.heap.object r).data)).isSome = true
  /-- Every circle goes through a plain object. -/
  circles : ∀ value, g.Reached value →
    ¬ TransGen (NotKeptAround g.heap) value value

theorem ValueGraph.Reached.isData {g : ValueGraph ρ} {value : Read ρ}
    (h : g.Reached value) : value.isData = true := by
  cases h with
  | refl => exact g.isData
  | tail _ hchild => exact isData_of_mem_inside g.objects hchild

/-- Only the objects have values inside, and each has finitely many. -/
theorem ValueGraph.finite_reached [Fintype ρ] (g : ValueGraph ρ) :
    {value | g.Reached value}.Finite := by
  have hobject : ∀ r : ρ, {c | c ∈ g.heap.inside (.object r)}.Finite :=
    fun r => List.finite_toSet _
  refine ((Set.finite_singleton g.obj).union
    (Set.finite_iUnion hobject)).subset fun value hvalue => ?_
  cases hvalue with
  | refl => exact .inl rfl
  | @tail w _ _ hchild =>
      cases w with
      | object r => exact .inr (Set.mem_iUnion.2 ⟨r, hchild⟩)
      | _ => cases hchild

variable [DecidableEq ρ]

theorem opened_eq_inside (hobjects : ∀ r, (heap.object r).IsData)
    {value : Read ρ} {children : List (Read ρ)}
    (h : opened heap value = some children) :
    children = heap.inside value := by
  cases value with
  | object r =>
      rw [opened_object] at h
      obtain ⟨node, hnode, rfl⟩ := Option.map_eq_some_iff.1 h
      exact (objectNode_spec (hobjects r) hnode).1
  | throws => cases h
  | bigint => cases h
  | _ => exact (Option.some.inj h).symm

/-- A value of data opens if it is no big integer and no object that cannot be
made a text of. -/
theorem ValueGraph.opens_iff {g : ValueGraph ρ} :
    (∀ value, g.Reached value → (opened g.heap value).isSome = true) ↔
      ¬ g.Reached .bigint ∧ ∀ r, g.Reached (.object r) →
        (objectNode g.heap (g.heap.object r)).isSome = true := by
  refine ⟨fun h => ⟨fun hbig => Bool.false_ne_true (h _ hbig), fun r hr => ?_⟩,
    fun ⟨hbig, hobjects⟩ value hvalue => ?_⟩
  · have hopens := h _ hr
    rwa [opened_object, Option.isSome_map] at hopens
  · have hdata := hvalue.isData
    cases value with
    | object r =>
        rw [opened_object, Option.isSome_map]
        exact hobjects r hvalue
    | bigint => exact absurd hvalue hbig
    | throws => cases hdata
    | _ => rfl

/-- Where everything opens, the call meets what is inside. -/
theorem child_iff (hobjects : ∀ r, (heap.object r).IsData) {w c : Read ρ} :
    Traversal.Child (opened heap) w c ↔
      (opened heap w).isSome = true ∧ c ∈ heap.inside w := by
  constructor
  · intro ⟨children, hopen, hc⟩
    rw [opened_eq_inside hobjects hopen] at hc
    exact ⟨by rw [hopen]; rfl, hc⟩
  · intro ⟨hopens, hc⟩
    obtain ⟨children, hopen⟩ := Option.isSome_iff_exists.1 hopens
    rw [← opened_eq_inside hobjects hopen] at hc
    exact ⟨children, hopen, hc⟩

theorem ValueGraph.reached_of_child {g : ValueGraph ρ} {value : Read ρ}
    (h : ReflTransGen (Traversal.Child (opened g.heap)) g.obj value) :
    g.Reached value := by
  induction h with
  | refl => exact .refl
  | tail _ hchild ih => exact ih.tail ((child_iff g.objects).1 hchild).2

theorem ValueGraph.child_of_reached {g : ValueGraph ρ}
    (hopens : ∀ value,
      ReflTransGen (Traversal.Child (opened g.heap)) g.obj value →
      (opened g.heap value).isSome = true) {value : Read ρ}
    (h : g.Reached value) :
    ReflTransGen (Traversal.Child (opened g.heap)) g.obj value := by
  induction h with
  | refl => exact .refl
  | tail _ hc ih => exact ih.tail ((child_iff g.objects).2 ⟨hopens _ ih, hc⟩)

theorem nested_of_around {g : ValueGraph ρ}
    (hopens : ∀ value, g.Reached value →
      (opened g.heap value).isSome = true) {v w : Read ρ} (hv : g.Reached v)
    (h : TransGen (NotKeptAround g.heap) v w) :
    TransGen (Traversal.Nested (opened g.heap) (isKept g.heap)) v w ∧
      g.Reached w := by
  induction h with
  | single hc =>
      exact ⟨.single ⟨hc.1, (child_iff g.objects).2 ⟨hopens _ hv, hc.2⟩⟩,
        hv.tail hc.2⟩
  | tail _ hc ih =>
      exact ⟨ih.1.tail ⟨hc.1, (child_iff g.objects).2 ⟨hopens _ ih.2, hc.2⟩⟩,
        ih.2.tail hc.2⟩

theorem ValueGraph.serializable_iff [Fintype ρ] {g : ValueGraph ρ} :
    Serializable g.heap g.obj ↔
      (∀ value, g.Reached value → (opened g.heap value).isSome = true) ∧
      ∀ value, g.Reached value →
        ¬ TransGen (NotKeptAround g.heap) value value := by
  constructor
  · intro h
    have hopens : ∀ value, g.Reached value →
        (opened g.heap value).isSome = true :=
      fun value hvalue => h.opens value (child_of_reached h.opens hvalue)
    refine ⟨hopens, fun value hvalue hcircle => ?_⟩
    exact h.noCircle value (child_of_reached h.opens hvalue)
      (nested_of_around hopens hvalue hcircle).1
  · intro ⟨hopens, hcircles⟩
    refine ⟨fun w hw => hopens w (reached_of_child hw),
      g.finite_reached.subset fun w hw => reached_of_child hw,
      fun w hw hcircle => hcircles w (reached_of_child hw) ?_⟩
    have hinside : ∀ w c,
        Traversal.Nested (opened g.heap) (isKept g.heap) w c →
        NotKeptAround g.heap w c :=
      fun _ _ hnested => ⟨hnested.1, ((child_iff g.objects).1 hnested.2).2⟩
    exact TransGen.mono hinside _ _ hcircle

/-! ## The text -/

theorem serializeObject_eq_some {depth : Nat} {obj : Read ρ}
    {text : Option Json} (h : serializeObject heap depth obj = some text) :
    ∃ result texts, replacer heap [] obj = some result ∧
      text = result.1.json texts := by
  cases depth with
  | zero => cases h
  | succ depth =>
      obtain ⟨out, hout, rfl⟩ := Option.map_eq_some_iff.1 h
      obtain ⟨result, hresult, hrest⟩ := Option.bind_eq_some_iff.1 hout
      obtain ⟨texts, -, heq⟩ := Option.bind_eq_some_iff.1 hrest
      exact ⟨result, texts.1, hresult,
        congrArg Prod.fst (Option.some.inj heq).symm⟩

/-- What is returned is a text, but for the two values that have none. -/
theorem ValueGraph.text_isSome {g : ValueGraph ρ} {depth : Nat}
    {text : Option Json}
    (h : serializeObject g.heap depth g.obj = some text) :
    text.isSome = true ↔ g.obj ≠ .undefined ∧ g.obj ≠ .symbol := by
  obtain ⟨result, texts, hresult, rfl⟩ := serializeObject_eq_some h
  have hdata := g.isData
  cases hobj : g.obj with
  | object r =>
      rw [hobj, replacer, if_neg (by simp)] at hresult
      obtain ⟨node, hnode, rfl⟩ := Option.map_eq_some_iff.1 hresult
      have hsome := (objectNode_spec (g.objects r) hnode).2 texts
      simp [hsome]
  | function =>
      rw [hobj] at hdata
      cases hdata
  | throws =>
      rw [hobj] at hdata
      cases hdata
  | bigint =>
      rw [hobj] at hresult
      cases hresult
  | _ =>
      rw [hobj] at hresult
      obtain rfl := Option.some.inj hresult
      simp [Node.json]

/-- On every stack that is deep enough there is a text. -/
def ValueGraph.ReturnsText (g : ValueGraph ρ) : Prop :=
  ∃ depth₀, ∀ depth, depth₀ ≤ depth →
    ∃ text, serializeObject g.heap depth g.obj = some (some text)

theorem ValueGraph.returnsText_iff_serializable {g : ValueGraph ρ} :
    g.ReturnsText ↔
      Serializable g.heap g.obj ∧ g.obj ≠ .undefined ∧ g.obj ≠ .symbol := by
  rw [← serializeObject_iff]
  refine ⟨fun ⟨depth₀, h⟩ => ?_, fun ⟨⟨depth₀, h⟩, htext⟩ => ?_⟩
  · obtain ⟨text, htext⟩ := h depth₀ (le_refl _)
    refine ⟨⟨depth₀, fun depth hle => ?_⟩, (text_isSome htext).1 rfl⟩
    obtain ⟨text, htext⟩ := h depth hle
    rw [htext]
    rfl
  · refine ⟨depth₀, fun depth hle => ?_⟩
    obtain ⟨text, hcall⟩ := Option.isSome_iff_exists.1 (h depth hle)
    obtain ⟨json, rfl⟩ :=
      Option.isSome_iff_exists.1 ((text_isSome hcall).2 htext)
    exact ⟨json, hcall⟩

/-- There is a text just for what can be written: without a big integer, and
without a circle of arrays and maps alone. -/
theorem returnsText_iff [Fintype ρ] (g : ValueGraph ρ) :
    g.ReturnsText ↔ g.Writable := by
  rw [ValueGraph.returnsText_iff_serializable, ValueGraph.serializable_iff,
    ValueGraph.opens_iff]
  refine ⟨fun ⟨⟨⟨hbig, hobjects⟩, hcircles⟩, hundefined, hsymbol⟩ => ?_,
    fun h => ⟨⟨⟨h.bigint, fun r hr => ?_⟩, h.circles⟩, h.undefined, h.symbol⟩⟩
  · have hopens := fun r hr =>
      (objectNode_isSome (g.objects r)).1 (hobjects r hr)
    exact ⟨hundefined, hsymbol, hbig,
      fun r entries hr => (hopens r hr).2 entries,
      fun r hr => (hopens r hr).1, hcircles⟩
  · exact (objectNode_isSome (g.objects r)).2
      ⟨h.buffers r hr, fun entries => h.keys r entries hr⟩

/-! ## An array that is inside of itself -/

theorem loops_isData (r : Bool) : (loops.object r).IsData := by
  cases r with
  | false =>
      exact ⟨rfl, rfl, rfl, List.forall_mem_singleton.2 rfl,
        fun _ h => by cases h⟩
  | true =>
      exact ⟨rfl, rfl, rfl, List.forall_mem_singleton.2 rfl,
        fun _ h => by cases h⟩

/-- `const a = []; a.push(a);`. -/
def selfArray : ValueGraph Bool where
  heap := loops
  obj := .object true
  objects := loops_isData
  isData := rfl

theorem serializeProperty_selfArray (depth : Nat) :
    serializeProperty loops depth [] (.object true) = none := by
  induction depth with
  | zero => rfl
  | succ depth ih =>
      show (serializeAll (serializeProperty loops depth) []
        [.object true]).bind _ = none
      rw [serializeAll, ih]
      rfl

/-- No stack is deep enough for it. -/
theorem not_returnsText_selfArray :
    ¬ selfArray.ReturnsText ∧
      ∀ depth, serializeObject selfArray.heap depth selfArray.obj = none := by
  have hnone : ∀ depth,
      serializeObject selfArray.heap depth selfArray.obj = none :=
    fun depth => congrArg (Option.map Prod.fst)
      (serializeProperty_selfArray depth)
  refine ⟨fun ⟨depth₀, h⟩ => ?_, hnone⟩
  obtain ⟨text, htext⟩ := h depth₀ (le_refl _)
  rw [hnone] at htext
  cases htext

end IotHome.Cmd
