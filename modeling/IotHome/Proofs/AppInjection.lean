import IotHome.Cmd.Init
import IotHome.Cmd.MainTree

/-!
# Which instances get the application

`init` does not walk into an instance, and the command runner does. It walks
along what can be enumerated, and the command runner along every property. So
an instance of a finite tree has the application after `init` just if it had
it before, or can be reached without passing through an instance and without a
property that is not listed (`initialized_iff`). The root is given to no
callback, so it cannot be an instance itself.
-/

namespace IotHome.Cmd

open IotHome.Lib

variable (ctx : AppContext)

/-! ## The two ways down a tree -/

section

variable (h : JsHeap)

/-- The value of an own property is this object. -/
def Owns (r : Nat) (name : JsString) (c : Nat) : Prop :=
  ∃ p, h.ownProp r name = some p ∧ p.read (.ref r) = .ref c ∧
    (h.object c).callable = none

/-- The property can be enumerated. -/
def Lists (r : Nat) (name : JsString) (c : Nat) : Prop :=
  name ∈ h.objectKeys r ∧ Owns h r name c

/-- The way that the command runner takes. -/
inductive Reaches : Nat → List JsString → Nat → Prop where
  | here {r : Nat} : Reaches r [] r
  | there {r c t : Nat} {name : JsString} {path : List JsString} :
      Owns h r name c → Reaches c path t → Reaches r (name :: path) t

/-- What `init` walks into. -/
inductive Walked (root : Nat) : Nat → Prop where
  | root : Walked root root
  | child {r c : Nat} {name : JsString} : Walked root r → Lists h r name c →
      isAppCommon ctx h c = false → Walked root c

/-- The first instances below an object, which `init` comes to. -/
inductive Given : Nat → Nat → Prop where
  | first {r c : Nat} {name : JsString} : Lists h r name c →
      isAppCommon ctx h c = true → Given r c
  | deeper {r c t : Nat} {name : JsString} : Lists h r name c →
      isAppCommon ctx h c = false → Given c t → Given r t

/-- `r.app` is the application. -/
def AppIs (r : Nat) : Prop :=
  ∃ p, h.ownProp r (js "app") = some p ∧ p.read (.ref r) = ctx.app

end

/-- A tree in which the walk of `init` goes round in no circle. -/
structure FiniteTree where
  heap : CmdHeap
  root : Nat
  depth : Nat → Nat
  depth_lt : ∀ {r name c}, Walked ctx heap.toJsHeap root r →
    Lists heap.toJsHeap r name c → depth c < depth r

/-- The instances that commands get to have the application, and nothing but
the application of instances has changed. -/
structure Initialized (tree : FiniteTree ctx) (h' : JsHeap) : Prop where
  apps : ∀ path r, Reaches tree.heap.toJsHeap tree.root path r →
    isAppCommon ctx tree.heap.toJsHeap r = true → AppIs ctx h' r
  changed : ∀ r, h'.object r ≠ tree.heap.object r →
    isAppCommon ctx tree.heap.toJsHeap r = true ∧
      ∃ path, Reaches tree.heap.toJsHeap tree.root path r
  fields : ∀ r name, name ≠ js "app" →
    h'.ownProp r name = tree.heap.ownProp r name
  kinds : ∀ r, (h'.object r).proto = (tree.heap.object r).proto ∧
    (h'.object r).callable = (tree.heap.object r).callable

/-- `init` comes to an end, and does what it is for. -/
def InitEnsuresApp (tree : FiniteTree ctx) : Prop :=
  ∃ stack₀ h', Initialized ctx tree h' ∧ ∀ stack, stack₀ ≤ stack →
    init ctx stack tree.heap.toJsHeap (.ref tree.root) = some h'

/-! ## Heaps in which some have the application -/

def inject (h : JsHeap) (given : List Nat) : JsHeap where
  object := fun r =>
    if r ∈ given then withApp ctx (h.object r) else h.object r
  objectPrototype := h.objectPrototype
  stringPrototype := h.stringPrototype
  primitivePrototype := h.primitivePrototype
  rank := h.rank
  rank_lt := by
    intro r p hp
    refine h.rank_lt r p ?_
    split at hp
    · exact hp
    · exact hp

variable {ctx} {h : JsHeap} {given : List Nat}

theorem withApp_get (o : JsObject) :
    (withApp ctx o).props.get (js "app") = some (appProperty ctx o) := by
  rw [withApp, OrderedMap.get_set, if_pos rfl]

theorem withApp_get_ne (o : JsObject) {name : JsString}
    (hname : name ≠ js "app") :
    (withApp ctx o).props.get name = o.props.get name :=
  OrderedMap.get_set_ne _ (Ne.symm hname) _

theorem withApp_withApp (o : JsObject) :
    withApp ctx (withApp ctx o) = withApp ctx o := by
  have hproperty : appProperty ctx (withApp ctx o) = appProperty ctx o := by
    rw [appProperty, withApp_get]
    rfl
  have hset := OrderedMap.set_eq_self (@withApp_get ctx o)
  rw [withApp, hproperty, hset]

theorem setApp_inject (r : Nat) :
    setApp ctx (inject ctx h given) r = inject ctx h (given ++ [r]) := by
  simp only [setApp, inject, JsHeap.mk.injEq, and_true]
  funext s
  by_cases hs : s = r
  · by_cases hgiven : s ∈ given
    · rw [if_pos hs, if_pos hgiven, if_pos (by simp [hs]), withApp_withApp]
    · rw [if_pos hs, if_neg hgiven, if_pos (by simp [hs])]
  · simp [hs]

theorem inject_object_proto (r : Nat) :
    ((inject ctx h given).object r).proto = (h.object r).proto := by
  rw [inject]
  dsimp only
  split
  · rfl
  · rfl

theorem inject_object_callable (r : Nat) :
    ((inject ctx h given).object r).callable = (h.object r).callable := by
  rw [inject]
  dsimp only
  split
  · rfl
  · rfl

theorem inject_chain (r : Nat) : (inject ctx h given).chain r = h.chain r := by
  have hfrom : ∀ fuel r, (inject ctx h given).chainFrom fuel r =
      h.chainFrom fuel r := by
    intro fuel
    induction fuel with
    | zero =>
        intro r
        rfl
    | succ fuel ih =>
        intro r
        rw [JsHeap.chainFrom, JsHeap.chainFrom, inject_object_proto]
        cases (h.object r).proto with
        | none => rfl
        | some p => exact congrArg (r :: ·) (ih p)
  exact hfrom _ r

theorem isAppCommon_inject (r : Nat) :
    isAppCommon ctx (inject ctx h given) r = isAppCommon ctx h r := by
  rw [isAppCommon, inject_chain]
  rfl

theorem inject_congr {given' : List Nat} (hmem : ∀ t, t ∈ given' ↔ t ∈ given) :
    inject ctx h given' = inject ctx h given := by
  simp only [inject, hmem]

theorem inject_object_of_mem {r : Nat} (hr : r ∈ given) :
    (inject ctx h given).object r = withApp ctx (h.object r) :=
  if_pos hr

theorem inject_object_of_not_mem {r : Nat} (hr : r ∉ given) :
    (inject ctx h given).object r = h.object r :=
  if_neg hr

/-! ## The traversal -/

theorem listsObject_iff {r c : Nat} {name : JsString}
    (hname : name ∈ h.objectKeys r) :
    Lists h r name c ↔
      h.get (.ref r) name = .ref c ∧ (h.object c).callable = none := by
  obtain ⟨p, hp, _⟩ := h.mem_objectKeys.1 hname
  have hget := h.get_own hp
  constructor
  · rintro ⟨_, p', hp', hvalue, hcallable⟩
    rw [hp] at hp'
    cases hp'
    exact ⟨hget.trans hvalue, hcallable⟩
  · rintro ⟨hvalue, hcallable⟩
    exact ⟨hname, p, hp, hget.symm.trans hvalue, hcallable⟩

theorem inject_get {r : Nat} {name : JsString} (hr : r ∉ given)
    (hname : name ∈ h.objectKeys r) :
    (inject ctx h given).get (.ref r) name = h.get (.ref r) name := by
  obtain ⟨p, hp, _⟩ := h.mem_objectKeys.1 hname
  have hp' : (inject ctx h given).ownProp r name = some p := by
    rw [JsHeap.ownProp, inject_object_of_not_mem hr]
    exact hp
  rw [JsHeap.get_own _ hp, JsHeap.get_own _ hp']

theorem isObject_inject (v : Value) :
    isObject (inject ctx h given) v = isObject h v := by
  cases v with
  | ref r => exact congrArg Option.isNone (inject_object_callable r)
  | _ => rfl

/-- What `init` comes to behind one property. -/
def Behind (ctx : AppContext) (h : JsHeap) (r : Nat) (name : JsString)
    (t : Nat) : Prop :=
  ∃ c, Lists h r name c ∧
    (isAppCommon ctx h c = true ∧ t = c ∨
      isAppCommon ctx h c = false ∧ Given ctx h c t)

theorem given_iff {r t : Nat} :
    Given ctx h r t ↔ ∃ name ∈ h.objectKeys r, Behind ctx h r name t := by
  constructor
  · intro hgiven
    cases hgiven with
    | @first _ _ name hlists happ =>
        exact ⟨name, hlists.1, t, hlists, .inl ⟨happ, rfl⟩⟩
    | @deeper _ c _ name hlists happ hbelow =>
        exact ⟨name, hlists.1, c, hlists, .inr ⟨happ, hbelow⟩⟩
  · rintro ⟨name, _, c, hlists, ⟨happ, rfl⟩ | ⟨happ, hbelow⟩⟩
    · exact .first hlists happ
    · exact .deeper hlists happ hbelow

/-- The walk from an object, some instances having been given theirs. -/
def WalksFrom (ctx : AppContext) (h : JsHeap) (stack r : Nat) : Prop :=
  ∀ given, (∀ t ∈ given, isAppCommon ctx h t = true) → r ∉ given → ∃ more,
    traverseObject (ensureApp ctx) stack (inject ctx h given) (.ref r) =
      some (inject ctx h (given ++ more)) ∧
    ∀ t, t ∈ more ↔ Given ctx h r t

/-- A property has one value. -/
theorem Lists.unique {r c c' : Nat} {name : JsString}
    (hname : name ∈ h.objectKeys r) (hlists : Lists h r name c)
    (hlists' : Lists h r name c') : c' = c := by
  have hvalue := ((listsObject_iff hname).1 hlists).1
  have hvalue' := ((listsObject_iff hname).1 hlists').1
  rw [hvalue] at hvalue'
  exact (Value.ref.inj hvalue').symm

theorem behind_iff {r c t : Nat} {name : JsString}
    (hname : name ∈ h.objectKeys r) (hlists : Lists h r name c) :
    Behind ctx h r name t ↔ isAppCommon ctx h c = true ∧ t = c ∨
      isAppCommon ctx h c = false ∧ Given ctx h c t := by
  constructor
  · rintro ⟨c', hlists', hc'⟩
    rwa [Lists.unique hname hlists hlists'] at hc'
  · exact fun hc => ⟨c, hlists, hc⟩

/-- The callback gives an instance the application, and leaves what is none. -/
theorem visit_object {stack r c : Nat} {name : JsString}
    (happs : ∀ t ∈ given, isAppCommon ctx h t = true)
    (hname : name ∈ h.objectKeys r) (hlists : Lists h r name c)
    (hbelow : isAppCommon ctx h c = false → WalksFrom ctx h stack c) :
    ∃ more, (match ensureApp ctx (inject ctx h given) (.ref c) with
      | (h, true) => some h
      | (h, false) => traverseObject (ensureApp ctx) stack h (.ref c)) =
        some (inject ctx h (given ++ more)) ∧
      ∀ t, t ∈ more ↔ Behind ctx h r name t := by
  simp only [behind_iff hname hlists]
  cases happ : isAppCommon ctx h c with
  | true =>
      refine ⟨[c], ?_, fun t => ?_⟩
      · simp only [ensureApp, isAppCommon_inject, happ, if_true, setApp_inject]
      · rw [List.mem_singleton]
        simp
  | false =>
      have hc : c ∉ given := by
        intro hmem
        rw [happs c hmem] at happ
        cases happ
      obtain ⟨more, hmore, hmem⟩ := hbelow happ given happs hc
      refine ⟨more, ?_, fun t => ?_⟩
      · simp only [ensureApp, isAppCommon_inject, happ, Bool.false_eq_true,
          if_false]
        exact hmore
      · rw [hmem]
        simp

/-- What lists no object is passed over. -/
theorem visit_nothing {stack r : Nat} {name : JsString} {value : Value}
    (hname : name ∈ h.objectKeys r) (hnone : ¬ ∃ c, Lists h r name c)
    (hvalue : h.get (.ref r) name = value) :
    (if isObject h value then
      match ensureApp ctx (inject ctx h given) value with
      | (h, true) => some h
      | (h, false) => traverseObject (ensureApp ctx) stack h value
    else some (inject ctx h given)) = some (inject ctx h given) := by
  cases value with
  | ref c =>
      cases hcallable : (h.object c).callable with
      | none =>
          exact absurd ⟨c, (listsObject_iff hname).2 ⟨hvalue, hcallable⟩⟩ hnone
      | some callable =>
          rw [if_neg]
          simp [isObject, hcallable]
  | null =>
      cases stack with
      | zero => rfl
      | succ stack => rfl
  | _ => rfl

/-- One property. -/
theorem visit_key {stack r : Nat} {name : JsString}
    (happs : ∀ t ∈ given, isAppCommon ctx h t = true) (hr : r ∉ given)
    (hname : name ∈ h.objectKeys r)
    (hbelow : ∀ c, Lists h r name c → isAppCommon ctx h c = false →
      WalksFrom ctx h stack c) :
    ∃ more, (let value := (inject ctx h given).get (.ref r) name
      if isObject (inject ctx h given) value then
        match ensureApp ctx (inject ctx h given) value with
        | (h, true) => some h
        | (h, false) => traverseObject (ensureApp ctx) stack h value
      else some (inject ctx h given)) =
        some (inject ctx h (given ++ more)) ∧
      ∀ t, t ∈ more ↔ Behind ctx h r name t := by
  simp only [inject_get hr hname, isObject_inject]
  by_cases hlists : ∃ c, Lists h r name c
  · obtain ⟨c, hlists⟩ := hlists
    obtain ⟨hvalue, hcallable⟩ := (listsObject_iff hname).1 hlists
    rw [hvalue, if_pos (by rw [isObject, hcallable]; rfl)]
    exact visit_object happs hname hlists (hbelow c hlists)
  · refine ⟨[], ?_, fun t => ?_⟩
    · rw [List.append_nil]
      exact visit_nothing hname hlists rfl
    · refine iff_of_false List.not_mem_nil ?_
      rintro ⟨c, hlists', _⟩
      exact hlists ⟨c, hlists'⟩

theorem given_isAppCommon {r t : Nat} (hgiven : Given ctx h r t) :
    isAppCommon ctx h t = true := by
  induction hgiven with
  | first _ happ => exact happ
  | deeper _ _ _ ih => exact ih

/-- The properties one after the other. -/
theorem visit_keys {stack r : Nat} (hnot : ¬ Given ctx h r r)
    (hbelow : ∀ name c, Lists h r name c → isAppCommon ctx h c = false →
      WalksFrom ctx h stack c) (names : List JsString) :
    ∀ given, (∀ t ∈ given, isAppCommon ctx h t = true) → r ∉ given →
      (∀ name ∈ names, name ∈ h.objectKeys r) → ∃ more,
        (names.foldlM (fun h key =>
          let value := h.get (.ref r) key
          if isObject h value then
            match ensureApp ctx h value with
            | (h, true) => some h
            | (h, false) => traverseObject (ensureApp ctx) stack h value
          else some h) (inject ctx h given)) =
            some (inject ctx h (given ++ more)) ∧
        ∀ t, t ∈ more ↔ ∃ name ∈ names, Behind ctx h r name t := by
  induction names with
  | nil =>
      intro given _ _ _
      exact ⟨[], by rw [List.append_nil]; rfl, by simp⟩
  | cons name names ih =>
      intro given happs hr hnames
      have hname := hnames name List.mem_cons_self
      obtain ⟨more, hvisit, hmore⟩ :=
        visit_key happs hr hname (hbelow name)
      have hgiven : ∀ t ∈ more, Given ctx h r t := fun t ht =>
        given_iff.2 ⟨name, hname, (hmore t).1 ht⟩
      obtain ⟨rest, hrest, hmem⟩ := ih (given ++ more)
        (by
          intro t ht
          rcases List.mem_append.1 ht with ht | ht
          · exact happs t ht
          · exact given_isAppCommon (hgiven t ht))
        (by
          intro ht
          rcases List.mem_append.1 ht with ht | ht
          · exact hr ht
          · exact hnot (hgiven r ht))
        fun name' hname' => hnames name' (List.mem_cons_of_mem _ hname')
      refine ⟨more ++ rest, ?_, ?_⟩
      · rw [List.foldlM_cons, hvisit, ← List.append_assoc]
        exact hrest
      · intro t
        rw [List.mem_append, hmore, hmem]
        simp

variable {tree : FiniteTree ctx}

theorem depth_given {r t : Nat}
    (hwalked : Walked ctx tree.heap.toJsHeap tree.root r)
    (hgiven : Given ctx tree.heap.toJsHeap r t) :
    tree.depth t < tree.depth r := by
  induction hgiven with
  | first hlists _ => exact tree.depth_lt hwalked hlists
  | deeper hlists happ _ ih =>
      have hlt := ih (.child hwalked hlists happ)
      have := tree.depth_lt hwalked hlists
      omega

theorem walksFrom (stack : Nat) : ∀ r,
    Walked ctx tree.heap.toJsHeap tree.root r → tree.depth r < stack →
    WalksFrom ctx tree.heap.toJsHeap stack r := by
  induction stack with
  | zero =>
      intro r _ hlt
      omega
  | succ stack ih =>
      intro r hwalked hlt given happs hr
      have hnot : ¬ Given ctx tree.heap.toJsHeap r r := by
        intro hgiven
        have := depth_given hwalked hgiven
        omega
      have hbelow : ∀ name c, Lists tree.heap.toJsHeap r name c →
          isAppCommon ctx tree.heap.toJsHeap c = false →
          WalksFrom ctx tree.heap.toJsHeap stack c := by
        intro name c hlists happ
        have := tree.depth_lt hwalked hlists
        exact ih c (.child hwalked hlists happ) (by omega)
      obtain ⟨more, hvisit, hmore⟩ := visit_keys hnot hbelow
        (tree.heap.objectKeys r) given happs hr fun _ hname => hname
      refine ⟨more, ?_, fun t => (hmore t).trans given_iff.symm⟩
      rw [traverseObject, JsHeap.objectKeys, inject_object_of_not_mem hr]
      exact hvisit

/-- `init` comes to an end, and those get the application to whom it comes. -/
theorem init_eq (tree : FiniteTree ctx) : ∃ given,
    (∀ stack, tree.depth tree.root < stack →
      init ctx stack tree.heap.toJsHeap (.ref tree.root) =
        some (inject ctx tree.heap.toJsHeap given)) ∧
    ∀ t, t ∈ given ↔ Given ctx tree.heap.toJsHeap tree.root t := by
  obtain ⟨given, _, hgiven⟩ := walksFrom (tree.depth tree.root + 1) tree.root
    .root (Nat.lt_succ_self _) [] (by simp) List.not_mem_nil
  refine ⟨given, ?_, hgiven⟩
  intro stack hlt
  obtain ⟨given', hinit, hgiven'⟩ := walksFrom stack tree.root .root hlt []
    (by simp) List.not_mem_nil
  rw [init, ← inject_congr fun t => (hgiven' t).trans (hgiven t).symm]
  exact hinit

/-! ## What has changed -/

theorem reaches_of_given {r t : Nat}
    (hgiven : Given ctx h r t) : ∃ path, Reaches h r path t := by
  induction hgiven with
  | @first _ _ name hlists _ => exact ⟨[name], .there hlists.2 .here⟩
  | @deeper _ _ _ name hlists _ _ ih =>
      obtain ⟨path, hpath⟩ := ih
      exact ⟨name :: path, .there hlists.2 hpath⟩

theorem inject_ownProp (r : Nat) {name : JsString} (hname : name ≠ js "app") :
    (inject ctx h given).ownProp r name = h.ownProp r name := by
  rw [JsHeap.ownProp]
  by_cases hr : r ∈ given
  · rw [inject_object_of_mem hr, withApp_get_ne _ hname]
    rfl
  · rw [inject_object_of_not_mem hr]
    rfl

theorem appIs_inject (r : Nat) :
    AppIs ctx (inject ctx h given) r ↔ r ∈ given ∨ AppIs ctx h r := by
  by_cases hr : r ∈ given
  · refine iff_of_true ⟨appProperty ctx (h.object r), ?_, rfl⟩ (.inl hr)
    rw [JsHeap.ownProp, inject_object_of_mem hr, withApp_get]
  · have hsame : (inject ctx h given).ownProp r (js "app") =
        h.ownProp r (js "app") := by
      rw [JsHeap.ownProp, inject_object_of_not_mem hr]
      rfl
    rw [AppIs, hsame]
    exact (or_iff_right hr).symm

theorem initialized_inject_iff
    (hgiven : ∀ t, t ∈ given ↔ Given ctx tree.heap.toJsHeap tree.root t) :
    Initialized ctx tree (inject ctx tree.heap.toJsHeap given) ↔
      ∀ path r, Reaches tree.heap.toJsHeap tree.root path r →
        isAppCommon ctx tree.heap.toJsHeap r = true →
        Given ctx tree.heap.toJsHeap tree.root r ∨
          AppIs ctx tree.heap.toJsHeap r := by
  constructor
  · intro hinit path r hreaches happ
    rw [← hgiven, ← appIs_inject]
    exact hinit.apps path r hreaches happ
  · intro hall
    refine ⟨?_, ?_, fun r name hname => inject_ownProp r hname,
      fun r => ⟨inject_object_proto r, inject_object_callable r⟩⟩
    · intro path r hreaches happ
      rw [appIs_inject, hgiven]
      exact hall path r hreaches happ
    · intro r hchanged
      have hr : r ∈ given := by
        by_contra hr
        exact hchanged (inject_object_of_not_mem hr)
      have hgiven' := (hgiven r).1 hr
      exact ⟨given_isAppCommon hgiven', reaches_of_given hgiven'⟩

/-- `init` does what it is for just if it comes to every instance that
commands get to, or that has the application already. -/
theorem initialized_iff (tree : FiniteTree ctx) :
    InitEnsuresApp ctx tree ↔
      ∀ path r, Reaches tree.heap.toJsHeap tree.root path r →
        isAppCommon ctx tree.heap.toJsHeap r = true →
        Given ctx tree.heap.toJsHeap tree.root r ∨
          AppIs ctx tree.heap.toJsHeap r := by
  obtain ⟨given, hinit, hgiven⟩ := init_eq tree
  rw [← initialized_inject_iff hgiven]
  constructor
  · rintro ⟨stack₀, h', hinitialized, hstack⟩
    have h₁ := hstack (stack₀ + tree.depth tree.root + 1) (by omega)
    have h₂ := hinit (stack₀ + tree.depth tree.root + 1) (by omega)
    rw [h₁] at h₂
    rwa [← Option.some.inj h₂]
  · intro hinitialized
    exact ⟨tree.depth tree.root + 1, _, hinitialized,
      fun stack hle => hinit stack (by omega)⟩

/-! ## An instance in an instance -/

/-- `{ get: a }`, where `a.ctrl` is an instance too. -/
def nestedObject (n : Nat) : JsObject :=
  [⟨.empty, none, none⟩, ⟨.empty, some 0, none⟩, plainObject [("get", 3)],
    instanceObject 1 [("ctrl", 4)], instanceObject 1 []].getD n
      ⟨.empty, none, none⟩

def nestedHeap : CmdHeap where
  object := nestedObject
  objectPrototype := 0
  stringPrototype := 0
  primitivePrototype _ := 0
  rank n := if n = 0 then 0 else if n = 1 then 1 else 2
  rank_lt := by
    intro r p hp
    match r with
    | 0 => cases hp
    | 1 => cases hp; decide
    | 2 => cases hp; decide
    | 3 => cases hp; decide
    | 4 => cases hp; decide
    | n + 5 => cases hp
  helpFunction := 5
  baseHelpFunction := 6
  baseHelp_ne := by decide

def nestedContext : AppContext := ⟨1, .ref 0⟩

theorem nested_reaches :
    Reaches nestedHeap.toJsHeap 2 [js "get", js "ctrl"] 4 := by
  have hget : Lists nestedHeap.toJsHeap 2 (js "get") 3 :=
    (listsObject_iff (by decide +kernel)).2
      ⟨by decide +kernel, by decide +kernel⟩
  have hctrl : Lists nestedHeap.toJsHeap 3 (js "ctrl") 4 :=
    (listsObject_iff (by decide +kernel)).2
      ⟨by decide +kernel, by decide +kernel⟩
  exact .there hget.2 (.there hctrl.2 .here)

theorem nested_lists {name : JsString} {c : Nat}
    (hlists : Lists nestedHeap.toJsHeap 2 name c) : c = 3 := by
  have hkeys : nestedHeap.objectKeys 2 = [js "get"] := by decide +kernel
  have hget : nestedHeap.get (.ref 2) (js "get") = .ref 3 := by decide +kernel
  have hname := hlists.1
  have hvalue := ((listsObject_iff hname).1 hlists).1
  rw [hkeys, List.mem_singleton] at hname
  rw [hname, hget] at hvalue
  exact (Value.ref.inj hvalue).symm

theorem nested_walked {r : Nat}
    (hwalked : Walked nestedContext nestedHeap.toJsHeap 2 r) : r = 2 := by
  induction hwalked with
  | root => rfl
  | child _ hlists happ ih =>
      subst ih
      rw [nested_lists hlists] at happ
      exact absurd happ (by decide +kernel)

def nestedTree : FiniteTree nestedContext where
  heap := nestedHeap
  root := 2
  depth n := if n = 2 then 1 else 0
  depth_lt := by
    intro r name c hwalked hlists
    rw [nested_walked hwalked] at hlists ⊢
    rw [nested_lists hlists]
    decide

/-- Nothing gives the inner instance the application. -/
theorem not_initEnsuresApp :
    ¬ ∀ (ctx : AppContext) (tree : FiniteTree ctx),
      InitEnsuresApp ctx tree := by
  intro h
  obtain ⟨stack₀, h', hinitialized, hstack⟩ := h nestedContext nestedTree
  obtain ⟨given, hinit, _⟩ := init_eq nestedTree
  have hh' := hstack (stack₀ + 2) (by omega)
  rw [hinit _ (by simp [nestedTree]), ← hinit 2 (by decide)] at hh'
  have hnone : (init nestedContext 2 nestedHeap.toJsHeap (.ref 2)).map
      (fun h' => (h'.ownProp 4 (js "app")).isSome) = some false := by
    decide +kernel
  obtain ⟨p, hp, _⟩ :=
    hinitialized.apps _ 4 nested_reaches (by decide +kernel)
  rw [show init nestedContext 2 nestedHeap.toJsHeap (.ref 2) = some h' from hh',
    Option.map_some, hp] at hnone
  cases hnone

end IotHome.Cmd
