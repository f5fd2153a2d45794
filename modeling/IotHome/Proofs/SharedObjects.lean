import IotHome.Cmd.SerializedText
import IotHome.Lib.Places
import Mathlib.Data.Set.Finite.Lattice

/-!
# Objects that are met more than once

A graph of plain objects and arrays without circles, in which an object may be
met in several places. `JSON.stringify` writes it out at each of them, so its
value is the graph unfolded. The replacer never takes an object off its list:
where one is met again, `[Circular]` is written, whether the object is around
that place or only beside it.

The two texts say the same just if each plain object has one place
(`same_value_iff`).
-/

namespace IotHome.Cmd

open IotHome.Lib
open IotHome.Server
open IotHome.Virtual
open Relation

variable {ρ : Type}

/-! ## Graphs of JSON values -/

/-- A value that has a text, with its numbers as they are written. -/
def Read.IsJson : Read ρ → Prop
  | .null => True
  | .boolean _ => True
  | .number n => IsFinite n ∧ JsNumber.Normal n
  | .string _ => True
  | .object _ => True
  | _ => False

/-- A plain object or an array, and no buffer. -/
structure HeapObject.IsJson (object : HeapObject ρ) : Prop where
  type : object.type ≠ .throws
  notBuffer : isBuffer object = false
  kind : (∃ items, object.kind = .array items) ∨
    ∃ fields, object.kind = .plain fields ∧ (fields.map Prod.fst).Nodup
  values : ∀ value ∈ object.kind.values, value.IsJson

def contents (heap : ValueHeap ρ) : Read ρ → List (Read ρ)
  | .object r => (heap.object r).kind.values
  | _ => []

/-- A value in a graph without circles. -/
structure JsonGraph (ρ : Type) where
  heap : ValueHeap ρ
  obj : Read ρ
  objects : ∀ r, (heap.object r).IsJson
  isJson : obj.IsJson
  acyclic : ∀ value, ¬ TransGen (Places.Below (contents heap)) value value

/-- No plain object is found at two places. -/
def JsonGraph.OnePlace (g : JsonGraph ρ) : Prop :=
  ∀ r fields p q, (g.heap.object r).kind = .plain fields →
    Places.follow (contents g.heap) g.obj p = some (.object r) →
    Places.follow (contents g.heap) g.obj q = some (.object r) → p = q

variable (heap : ValueHeap ρ)

/-- The value, written out wherever it is met. -/
def unfolded : (depth : Nat) → Read ρ → Json
  | 0, _ => .null
  | depth + 1, value =>
      ((ownNode heap value).bind fun node =>
        node.json (node.children.map fun c => some (unfolded depth c))).getD
        .null

/-! ## One value -/

/-- What a value in such a graph is, for both calls. -/
inductive Shape (heap : ValueHeap ρ) (value : Read ρ) : Node ρ → Prop where
  | leaf (json : Json) : json.Canonical → contents heap value = [] →
      isKept heap value = false → Shape heap value (.leaf (some json))
  | array (items : List (Read ρ)) : contents heap value = items →
      isKept heap value = false → Shape heap value (.array items)
  | plain (fields : List (JsString × Read ρ)) :
      (fields.map Prod.fst).Nodup →
      contents heap value = fields.map Prod.snd →
      isKept heap value = true → Shape heap value (.object fields)

variable {heap}

theorem Shape.children {value : Read ρ} {node : Node ρ}
    (h : Shape heap value node) : node.children = contents heap value := by
  cases h with
  | leaf json _ hcontents _ => exact hcontents.symm
  | array items hcontents _ => exact hcontents.symm
  | plain fields _ hcontents _ => exact hcontents.symm

theorem isJson_of_mem_contents (hobjects : ∀ r, (heap.object r).IsJson)
    {value c : Read ρ} (hc : c ∈ contents heap value) : c.IsJson := by
  cases value with
  | object r => exact (hobjects r).values c hc
  | _ => cases hc

/-! ## From the children to the value -/

theorem array_json (items : List (Read ρ)) (jsons : List Json) :
    (Node.array items).json (jsons.map some) = some (.arr jsons) := by
  simp [Node.json, Function.comp_def]

theorem object_json (fields : List (JsString × Read ρ)) (jsons : List Json) :
    (Node.object fields).json (jsons.map some) =
      some (.obj ((fields.map Prod.fst).zip jsons)) := by
  rw [Node.json, List.zip_map_right, List.filterMap_map]
  congr 2
  exact List.filterMap_some

theorem Shape.exists_json {value : Read ρ} {node : Node ρ}
    (h : Shape heap value node) (jsons : List Json) :
    ∃ json, node.json (jsons.map some) = some json := by
  cases h with
  | leaf json _ _ _ => exact ⟨json, rfl⟩
  | array items _ _ => exact ⟨.arr jsons, array_json items jsons⟩
  | plain fields _ _ _ => exact ⟨_, object_json fields jsons⟩

theorem Shape.canonical {value : Read ρ} {node : Node ρ}
    (h : Shape heap value node) {jsons : List Json}
    (hlength : jsons.length = (contents heap value).length)
    (hjsons : ∀ json ∈ jsons, json.Canonical) {json : Json}
    (hjson : node.json (jsons.map some) = some json) : json.Canonical := by
  cases h with
  | leaf json' hcanonical _ _ =>
      obtain rfl := Option.some.inj hjson
      exact hcanonical
  | array items _ _ =>
      rw [array_json] at hjson
      obtain rfl := Option.some.inj hjson
      exact .arr hjsons
  | plain fields hnodup hcontents _ =>
      rw [hcontents, List.length_map] at hlength
      rw [object_json] at hjson
      obtain rfl := Option.some.inj hjson
      refine .obj ?_ fun f hf => hjsons f.2 (List.of_mem_zip hf).2
      rw [List.map_fst_zip (by simp [hlength])]
      exact hnodup

/-- The text of a value says what the texts of its children are. -/
theorem Shape.json_inj {value : Read ρ} {node : Node ρ}
    (h : Shape heap value node) {jsons jsons' : List Json}
    (hlength : jsons.length = (contents heap value).length)
    (hlength' : jsons'.length = (contents heap value).length)
    (heq : node.json (jsons.map some) = node.json (jsons'.map some)) :
    jsons = jsons' := by
  cases h with
  | leaf json _ hcontents _ =>
      rw [hcontents, List.length_nil, List.length_eq_zero_iff] at hlength
      rw [hcontents, List.length_nil, List.length_eq_zero_iff] at hlength'
      rw [hlength, hlength']
  | array items _ _ =>
      rw [array_json, array_json] at heq
      exact Json.arr.inj (Option.some.inj heq)
  | plain fields _ hcontents _ =>
      rw [hcontents, List.length_map] at hlength hlength'
      rw [object_json, object_json] at heq
      have hzip := Json.obj.inj (Option.some.inj heq)
      have hsnd := congrArg (List.map Prod.snd) hzip
      rwa [List.map_snd_zip (by simp [hlength]),
        List.map_snd_zip (by simp [hlength'])] at hsnd

/-! ## What was written -/

/-- What was written, beside what the value unfolds to, when `met` was met:
the two agree just if that was fresh. -/
structure Written {β : Type} (heap : ValueHeap ρ) (met circular : List (Read ρ))
    (whole out : β) (circular' : List (Read ρ)) : Prop where
  kept : ∀ u ∈ circular', isKept heap u = true
  agree : Places.Fresh met circular →
    out = whole ∧ circular' = met.reverse ++ circular
  fresh : out = whole → Places.Fresh met circular

theorem Written.cons {β : Type} {met met' circular circular' circular'' :
      List (Read ρ)} {whole out : β} {wholes outs : List β}
    (h : Written heap met circular whole out circular')
    (h' : Written heap met' circular' wholes outs circular'') :
    Written heap (met ++ met') circular (whole :: wholes) (out :: outs)
      circular'' where
  kept := h'.kept
  agree hfresh := by
    rw [Places.fresh_append] at hfresh
    obtain ⟨rfl, rfl⟩ := h.agree hfresh.1
    obtain ⟨rfl, rfl⟩ := h'.agree hfresh.2
    refine ⟨rfl, ?_⟩
    rw [List.reverse_append, List.append_assoc]
  fresh heq := by
    obtain ⟨hhead, htail⟩ := List.cons.inj heq
    have hmet := h.fresh hhead
    rw [Places.fresh_append]
    refine ⟨hmet, ?_⟩
    rw [← (h.agree hmet).2]
    exact h'.fresh htail

/-- The children of a value, each as the call writes it. -/
theorem serializeAll_written
    {go : List (Read ρ) → Read ρ → Option (Option Json × List (Read ρ))}
    {met : Read ρ → List (Read ρ)} {whole : Read ρ → Json}
    {values : List (Read ρ)}
    (hgo : ∀ value ∈ values, ∀ circular,
      (∀ u ∈ circular, isKept heap u = true) →
      ∃ json circular', go circular value = some (some json, circular') ∧
        json.Canonical ∧
        Written heap (met value) circular (whole value) json circular')
    {circular : List (Read ρ)}
    (hcircular : ∀ u ∈ circular, isKept heap u = true) :
    ∃ jsons circular',
      serializeAll go circular values = some (jsons.map some, circular') ∧
      jsons.length = values.length ∧ (∀ json ∈ jsons, json.Canonical) ∧
      Written heap (values.flatMap met) circular (values.map whole) jsons
        circular' := by
  induction values generalizing circular with
  | nil =>
      exact ⟨[], circular, rfl, rfl, by simp, hcircular,
        fun _ => ⟨rfl, rfl⟩, fun _ => Places.fresh_nil circular⟩
  | cons value values ih =>
      rw [List.forall_mem_cons] at hgo
      obtain ⟨json, mid, hjson, hcanonical, hwritten⟩ :=
        hgo.1 circular hcircular
      obtain ⟨jsons, circular', hjsons, hlength, hall, hrest⟩ :=
        ih hgo.2 hwritten.kept
      refine ⟨json :: jsons, circular', ?_, by simp [hlength],
        List.forall_mem_cons.2 ⟨hcanonical, hall⟩, hwritten.cons hrest⟩
      simp only [serializeAll, hjson, hjsons, Option.bind_eq_bind,
        Option.bind_some, List.map_cons]

/-- What a value that is on no list adds to the ones in it. -/
theorem fresh_enter {value : Read ρ} {met circular : List (Read ρ)}
    (hnew : value ∉ circular) :
    Places.Fresh ((if isKept heap value then [value] else []) ++ met)
        circular ↔
      Places.Fresh met
        (Traversal.remember (isKept heap) circular value) := by
  rw [Traversal.remember]
  cases isKept heap value with
  | true =>
      rw [if_pos rfl, if_pos rfl, List.singleton_append, Places.fresh_cons,
        and_iff_right hnew]
  | false =>
      rw [if_neg Bool.false_ne_true, if_neg Bool.false_ne_true,
        List.nil_append]

theorem reverse_enter {value : Read ρ} {met circular : List (Read ρ)} :
    ((if isKept heap value then [value] else []) ++ met).reverse ++ circular =
      met.reverse ++ Traversal.remember (isKept heap) circular value := by
  rw [Traversal.remember]
  cases isKept heap value <;> simp

/-- From the children to the value, where that is on no list. -/
theorem Written.enter {value : Read ρ} {node : Node ρ}
    (hshape : Shape heap value node) {met circular circular' : List (Read ρ)}
    (hnew : value ∉ circular) {wholes jsons : List Json}
    (h : Written heap met (Traversal.remember (isKept heap) circular value)
      wholes jsons circular') {whole json : Json}
    (hwholes : wholes.length = (contents heap value).length)
    (hjsons : jsons.length = (contents heap value).length)
    (hwhole : node.json (wholes.map some) = some whole)
    (hjson : node.json (jsons.map some) = some json) :
    Written heap ((if isKept heap value then [value] else []) ++ met) circular
      whole json circular' where
  kept := h.kept
  agree hfresh := by
    obtain ⟨rfl, rfl⟩ := h.agree ((fresh_enter hnew).1 hfresh)
    exact ⟨Option.some.inj (hjson.symm.trans hwhole), reverse_enter.symm⟩
  fresh heq := by
    have hsame : node.json (jsons.map some) = node.json (wholes.map some) := by
      rw [hjson, hwhole, heq]
    exact (fresh_enter hnew).2 (h.fresh (hshape.json_inj hjsons hwholes hsame))

/-- The plain objects that are met in a value. -/
def metObjects (heap : ValueHeap ρ) (depth : Nat) (value : Read ρ) :
    List (Read ρ) :=
  Places.met (contents heap) (isKept heap) depth value

/-! ## One place -/

theorem JsonGraph.finite_below [Fintype ρ] (g : JsonGraph ρ) (value : Read ρ) :
    {c | TransGen (Places.Below (contents g.heap)) value c}.Finite := by
  have hobject : ∀ r : ρ, {c | c ∈ contents g.heap (.object r)}.Finite :=
    fun r => List.finite_toSet _
  refine (Set.finite_iUnion hobject).subset fun c hc => ?_
  obtain ⟨w, -, hlast⟩ := TransGen.tail'_iff.1 hc
  cases w with
  | object r => exact Set.mem_iUnion.2 ⟨r, hlast⟩
  | _ => cases hlast

theorem JsonGraph.isKept_iff {g : JsonGraph ρ} {value : Read ρ} :
    isKept g.heap value = true ↔
      ∃ r fields, value = .object r ∧
        (g.heap.object r).kind = .plain fields := by
  constructor
  · intro hkept
    cases value with
    | object r =>
        obtain ⟨items, hkind⟩ | ⟨fields, hkind, -⟩ := (g.objects r).kind
        · rw [isKept, hkind, ObjectKind.isReturned, Bool.and_false] at hkept
          cases hkept
        · exact ⟨r, fields, rfl, hkind⟩
    | _ => cases hkept
  · rintro ⟨r, fields, rfl, hkind⟩
    rw [isKept, hkind, (g.objects r).notBuffer]
    rfl

theorem JsonGraph.onePlace_iff {g : JsonGraph ρ} {rank : Read ρ → Nat}
    (hrank : Places.Ranks (contents g.heap) rank) {depth : Nat}
    (hdepth : rank g.obj < depth) :
    (metObjects g.heap depth g.obj).Nodup ↔ g.OnePlace := by
  rw [metObjects, Places.nodup_met_iff hrank hdepth]
  constructor
  · intro h r fields p q hkind hp hq
    exact h _ p q (isKept_iff.2 ⟨r, fields, rfl, hkind⟩) hp hq
  · intro h e p q hkept hp hq
    obtain ⟨r, fields, rfl, hkind⟩ := isKept_iff.1 hkept
    exact h r fields p q hkind hp hq

/-! ## One value, for both calls -/

/-- Both calls make the same of a value that is not on the list. -/
def NodeOf (heap : ValueHeap ρ) [DecidableEq ρ] (value : Read ρ)
    (node : Node ρ) : Prop :=
  ownNode heap value = some node ∧ ∀ circular, value ∉ circular →
    replacer heap circular value =
      some (node, Traversal.remember (isKept heap) circular value)

variable [DecidableEq ρ]

theorem nodeOf_primitive {value : Read ρ} {json : Json}
    (hnode : primitiveNode value = some (.leaf (some json)))
    (hkept : isKept heap value = false) :
    NodeOf heap value (.leaf (some json)) := by
  refine ⟨?_, fun circular _ => ?_⟩
  · cases value with
    | object r => cases hnode
    | _ => exact hnode
  · rw [Traversal.remember, hkept, if_neg Bool.false_ne_true]
    cases value with
    | object r => cases hnode
    | _ => simp [replacer, hnode]

theorem nodeOf_object {r : ρ} (hobject : (heap.object r).IsJson)
    {kind : ObjectKind ρ} (hkind : (heap.object r).kind = kind)
    {node : Node ρ} (hown : kind.ownNode = some node)
    (hnode : kind.node = some node) : NodeOf heap (.object r) node := by
  refine ⟨by rw [ownNode, hkind, hown], fun circular hnew => ?_⟩
  rw [replacer, if_neg hnew, objectNode_kind hobject.type hobject.notBuffer,
    hkind, hnode]
  rfl

theorem exists_shape (hobjects : ∀ r, (heap.object r).IsJson)
    {value : Read ρ} (hvalue : value.IsJson) :
    ∃ node, NodeOf heap value node ∧ Shape heap value node := by
  cases value with
  | null =>
      exact ⟨_, nodeOf_primitive rfl rfl, .leaf .null .null rfl rfl⟩
  | boolean b =>
      exact ⟨_, nodeOf_primitive rfl rfl, .leaf (.bool b) (.bool b) rfl rfl⟩
  | number n =>
      exact ⟨_, nodeOf_primitive rfl rfl,
        .leaf (numberJson n) (numberJson_canonical hvalue.2) rfl rfl⟩
  | string s =>
      exact ⟨_, nodeOf_primitive rfl rfl, .leaf (.str s) (.str s) rfl rfl⟩
  | object r =>
      have hobject := hobjects r
      obtain ⟨items, hkind⟩ | ⟨fields, hkind, hnodup⟩ := hobject.kind
      · refine ⟨.array items, nodeOf_object hobject hkind rfl rfl,
          .array items ?_ ?_⟩
        · rw [contents, hkind, ObjectKind.values]
        · rw [isKept, hkind, ObjectKind.isReturned, Bool.and_false]
      · refine ⟨.object fields, nodeOf_object hobject hkind rfl rfl,
          .plain fields hnodup ?_ ?_⟩
        · rw [contents, hkind, ObjectKind.values]
        · rw [isKept, hkind, ObjectKind.isReturned, hobject.notBuffer]
          rfl
  | _ => exact hvalue.elim

/-! ## The call without a replacer -/

theorem mapM_eq_some_map {α β : Type} {f : α → Option β} {g : α → β}
    {xs : List α} (h : ∀ x ∈ xs, f x = some (g x)) :
    xs.mapM f = some (xs.map g) := by
  induction xs with
  | nil => rfl
  | cons x xs ih =>
      rw [List.forall_mem_cons] at h
      rw [List.mapM_cons, h.1, ih h.2]
      rfl

theorem unfolded_succ {value : Read ρ} {node : Node ρ}
    (hnode : NodeOf heap value node) (hshape : Shape heap value node)
    (depth : Nat) :
    node.json (((contents heap value).map (unfolded heap depth)).map some) =
      some (unfolded heap (depth + 1) value) := by
  obtain ⟨json, hjson⟩ :=
    hshape.exists_json ((contents heap value).map (unfolded heap depth))
  have htexts : (contents heap value).map
      (fun c => some (unfolded heap depth c)) =
      ((contents heap value).map (unfolded heap depth)).map some := by
    rw [List.map_map]
    rfl
  rw [unfolded, hnode.1, Option.bind_some, hshape.children, htexts, hjson,
    Option.getD_some]

/-- Without the replacer the value is written as it unfolds, on a stack that
is deeper than its rank. -/
theorem stringifyProperty_eq (hobjects : ∀ r, (heap.object r).IsJson)
    {rank : Read ρ → Nat} (hrank : Places.Ranks (contents heap) rank)
    {depth : Nat} {value : Read ρ} (hvalue : value.IsJson)
    (hdepth : rank value < depth) {ancestors : List (Read ρ)}
    (habove : ∀ a ∈ ancestors, rank value < rank a) :
    stringifyProperty heap depth ancestors value =
        some (some (unfolded heap depth value)) ∧
      (unfolded heap depth value).Canonical := by
  induction depth generalizing value ancestors with
  | zero => omega
  | succ depth ih =>
      have hnew : ancestors.contains value ≠ true := fun hmem =>
        Nat.lt_irrefl _ (habove value (List.contains_iff_mem.1 hmem))
      obtain ⟨node, hnode, hshape⟩ := exists_shape hobjects hvalue
      have hchild : ∀ c ∈ contents heap value,
          stringifyProperty heap depth (value :: ancestors) c =
              some (some (unfolded heap depth c)) ∧
            (unfolded heap depth c).Canonical := by
        intro c hc
        have hlt := hrank value c hc
        refine ih (isJson_of_mem_contents hobjects hc) (by omega) fun a ha => ?_
        rcases List.mem_cons.1 ha with rfl | ha
        · exact hlt
        · exact hlt.trans (habove a ha)
      have hlength : ((contents heap value).map (unfolded heap depth)).length =
          (contents heap value).length := List.length_map _
      have hjson := unfolded_succ hnode hshape depth
      have htexts : (contents heap value).mapM
          (stringifyProperty heap depth (value :: ancestors)) = some
            (((contents heap value).map (unfolded heap depth)).map some) := by
        rw [List.map_map]
        exact mapM_eq_some_map fun c hc => (hchild c hc).1
      refine ⟨?_, hshape.canonical hlength
        (List.forall_mem_map.2 fun c hc => (hchild c hc).2) hjson⟩
      rw [stringifyProperty, if_neg hnew, hnode.1, Option.bind_eq_bind,
        Option.bind_some, hshape.children, htexts, ← hjson]
      rfl

/-! ## The call with the replacer -/

/-- A value that is on the list is an object that has been met. -/
theorem serializeProperty_circular {depth : Nat} {value : Read ρ}
    {circular : List (Read ρ)}
    (hcircular : ∀ u ∈ circular, isKept heap u = true)
    (hmem : value ∈ circular) :
    serializeProperty heap (depth + 1) circular value =
      some (some (.str (js "[Circular]")), circular) := by
  rw [serializeProperty, replacer_of_mem hcircular hmem]
  rfl

theorem unfolded_ne_str {value : Read ρ} {node : Node ρ}
    (hnode : NodeOf heap value node) (hshape : Shape heap value node)
    (hkept : isKept heap value = true) (depth : Nat) (s : JsString) :
    unfolded heap (depth + 1) value ≠ .str s := by
  intro heq
  have hjson := unfolded_succ hnode hshape depth
  rw [heq] at hjson
  cases hshape with
  | leaf json _ _ hnot =>
      rw [hkept] at hnot
      cases hnot
  | array items _ hnot =>
      rw [hkept] at hnot
      cases hnot
  | plain fields _ _ _ =>
      rw [object_json] at hjson
      cases hjson

/-- With the replacer a value is written as it unfolds just if no plain object
in it is met twice or has been met before. -/
theorem serializeProperty_written (hobjects : ∀ r, (heap.object r).IsJson)
    {rank : Read ρ → Nat} (hrank : Places.Ranks (contents heap) rank)
    {depth : Nat} {value : Read ρ} (hvalue : value.IsJson)
    (hdepth : rank value < depth) {circular : List (Read ρ)}
    (hcircular : ∀ u ∈ circular, isKept heap u = true) :
    ∃ json circular',
      serializeProperty heap depth circular value =
        some (some json, circular') ∧ json.Canonical ∧
      Written heap (metObjects heap depth value) circular
        (unfolded heap depth value) json circular' := by
  induction depth generalizing value circular with
  | zero => omega
  | succ depth ih =>
      obtain ⟨node, hnode, hshape⟩ := exists_shape hobjects hvalue
      have hmet : metObjects heap (depth + 1) value =
          (if isKept heap value then [value] else []) ++
            (contents heap value).flatMap (metObjects heap depth) :=
        Places.met_succ depth value
      by_cases hmem : value ∈ circular
      · have hkept := hcircular value hmem
        refine ⟨_, circular, serializeProperty_circular hcircular hmem, .str _,
          hcircular, fun hfresh => ?_, fun heq => ?_⟩
        · rw [hmet, hkept] at hfresh
          exact absurd hmem (hfresh.2 value List.mem_cons_self)
        · exact absurd heq.symm (unfolded_ne_str hnode hshape hkept depth _)
      · have hchildren : ∀ c ∈ contents heap value, ∀ mid,
            (∀ u ∈ mid, isKept heap u = true) → ∃ json mid',
            serializeProperty heap depth mid c = some (some json, mid') ∧
              json.Canonical ∧ Written heap (metObjects heap depth c) mid
                (unfolded heap depth c) json mid' := by
          intro c hc mid hmid
          have hlt := hrank value c hc
          exact ih (isJson_of_mem_contents hobjects hc) (by omega) hmid
        obtain ⟨jsons, circular', hall, hlength, hcanonical, hwritten⟩ :=
          serializeAll_written hchildren
            (Traversal.marked_remember (v := value) hcircular)
        obtain ⟨json, hjson⟩ := hshape.exists_json jsons
        have hwhole : ((contents heap value).map (unfolded heap depth)).length =
          (contents heap value).length := List.length_map _
        refine ⟨json, circular', ?_, hshape.canonical hlength hcanonical hjson,
          ?_⟩
        · simp only [serializeProperty, hnode.2 circular hmem, hall, hjson,
            hshape.children, Option.bind_eq_bind, Option.bind_some]
        · rw [hmet]
          exact hwritten.enter hshape hmem hwhole hlength
            (unfolded_succ hnode hshape depth) hjson

/-! ## The two texts -/

theorem blanks_jsonSpace : Json.Blanks jsonSpace :=
  List.all_eq_true.1 (by decide)

/-- Both texts can be read, and they say the same just if no plain object is
at two places of the graph. -/
theorem same_value_iff [Fintype ρ] (g : JsonGraph ρ) :
    ∃ depth₀, ∀ depth, depth₀ ≤ depth → ∃ s t v w,
      serializedText g.heap depth g.obj = some (some s) ∧
      stringifiedText g.heap depth g.obj = some (some t) ∧
      Json.parse s = some v ∧ Json.parse t = some w ∧
      (v = w ↔ g.OnePlace) := by
  obtain ⟨rank, hrank⟩ := Places.exists_rank g.finite_below g.acyclic
  refine ⟨rank g.obj + 1, fun depth hle => ?_⟩
  obtain ⟨hwhole, hcanonical⟩ := stringifyProperty_eq g.objects hrank g.isJson
    hle (fun _ ha => absurd ha List.not_mem_nil)
  obtain ⟨json, circular', hjson, hcanonical', hwritten⟩ :=
    serializeProperty_written g.objects hrank g.isJson hle
      (fun _ hu => absurd hu List.not_mem_nil)
  refine ⟨_, _, json, unfolded g.heap depth g.obj, ?_, ?_,
    Json.parse_layout blanks_jsonSpace hcanonical',
    Json.parse_stringify hcanonical, ?_⟩
  · rw [serializedText, serializeObject, hjson]
    rfl
  · rw [stringifiedText, hwhole]
    rfl
  · rw [← g.onePlace_iff hrank hle, ← Places.fresh_before_nil]
    exact ⟨hwritten.fresh, fun h => (hwritten.agree h).1⟩

/-! ## An object in two fields -/

/-- `const o = { x: 1 };`, and `{ a: o, b: o }`. -/
def twoFields : ValueHeap Bool where
  object isInner :=
    ⟨.undefined, .undefined, .undefined, .plain (if isInner then
      [(js "x", .number (.dec (.ofInt 1)))]
    else [(js "a", .object true), (js "b", .object true)])⟩
  sha1sum _ := none

def twoFieldsRank : Read Bool → Nat
  | .object isInner => if isInner then 1 else 2
  | _ => 0

theorem twoFields_ranks :
    Places.Ranks (contents twoFields) twoFieldsRank := by
  intro w c hc
  cases w with
  | object isInner =>
      cases isInner <;>
        simp [contents, twoFields, ObjectKind.values] at hc <;>
        simp [hc, twoFieldsRank]
  | _ => cases hc

theorem twoFields_isJson (isInner : Bool) :
    (twoFields.object isInner).IsJson := by
  have htype : (Read.undefined : Read Bool) ≠ .throws := by simp
  cases isInner with
  | true =>
      have hx : (Read.number (.dec (.ofInt 1)) : Read Bool).IsJson := by
        refine ⟨⟨_, rfl⟩, fun d hd => ?_⟩
        obtain rfl := JsNumber.dec.inj hd
        exact Dec.ofInt_normal 1
      exact ⟨htype, rfl, .inr ⟨_, rfl, by decide⟩,
        List.forall_mem_singleton.2 hx⟩
  | false =>
      have hfield : (Read.object true : Read Bool).IsJson := trivial
      exact ⟨htype, rfl, .inr ⟨_, rfl, by decide⟩, List.forall_mem_cons.2
        ⟨hfield, List.forall_mem_singleton.2 hfield⟩⟩

def twoFieldsGraph : JsonGraph Bool where
  heap := twoFields
  obj := .object false
  objects := twoFields_isJson
  isJson := trivial
  acyclic := twoFields_ranks.acyclic

def inner : Json := .obj [(js "x", .num (.ofInt 1))]

/-- As `serializeObject` writes it. -/
def circularText : JsString :=
  js "\x7b\n  \"a\": \x7b\n    \"x\": 1\n  \x7d,\n" ++
    js "  \"b\": \"[Circular]\"\n\x7d"

/-- As `JSON.stringify` writes it. -/
def wholeText : JsString :=
  js "\x7b\"a\":\x7b\"x\":1\x7d,\"b\":\x7b\"x\":1\x7d\x7d"

/-- The second field shows `[Circular]`, though nothing is inside of itself. -/
theorem not_same_value :
    serializedText twoFieldsGraph.heap 3 twoFieldsGraph.obj =
      some (some circularText) ∧
    stringifiedText twoFieldsGraph.heap 3 twoFieldsGraph.obj =
      some (some wholeText) ∧
    Json.parse circularText ≠ Json.parse wholeText := by
  refine ⟨by decide +kernel, by decide +kernel, fun hsame => ?_⟩
  have hcircular : Json.parse circularText =
      some (.obj [(js "a", inner), (js "b", .str (js "[Circular]"))]) := rfl
  have hwhole : Json.parse wholeText =
      some (.obj [(js "a", inner), (js "b", inner)]) := rfl
  rw [hcircular, hwhole] at hsame
  simp [inner] at hsame

end IotHome.Cmd
