import IotHome.Server.Messages

/-!
# Which messages a handler gets through

Of the steps of a handler three are not guarded: the request that sets the
state of the device, the reading of its answer, and for the public server the
translation of the pulse. `msgMainHandler_ok` puts together what each of them
needs. Everything else completes, the queries because they are caught.
-/

namespace IotHome.Server

open IotHome.Lib

/-! ## What the steps need -/

/-- The strings of a field can be written in a URL. -/
def Writable : JsValue → Prop
  | some (.str s) => scalars s ≠ none
  | some (.arr elems) => ∀ s, .str s ∈ elems → scalars s ≠ none
  | _ => True

/-- The states of a message are an array, none of them is `null`, and they
can be written in a URL. -/
def SendableStates (states : JsValue) : Prop :=
  ∃ inStates, states = some (.arr inStates) ∧ ∀ state ∈ inStates,
    isNull state = false ∧ Writable (getProp? (some state) "pin") ∧
      Writable (getProp? (some state) "val")

/-- If the body of an answer is an array, no element is `null` and the `pin`
of each can be made a property name. -/
def KeyedStates (body : JsValue) : Prop :=
  ∀ states, body = some (.arr states) → ∀ state ∈ states,
    isNull state = false ∧
      ∃ key, propertyKey (getProp? (some state) "pin") = .ok key

/-- The request ends in a response that can be recorded. -/
def ReadableAnswer (answer : HttpOutcome) : Prop :=
  ∃ str, answer = .response str ∧ KeyedStates (Json.parse str)

def NamesUplink (netIf : Json) : Prop :=
  isText (getProp? (some netIf) "ifName") "wlan0" = true ∨
    isText (getProp? (some netIf) "ifName") "eth0" = true

/-- The pulse has an array of interfaces, and no `null` in it before the one
that is looked for. -/
def Adaptable (pulse : Json) : Prop :=
  ∃ netIfs, getProp? (some pulse) "netIfs" = some (.arr netIfs) ∧
    ∀ i : Nat, netIfs[i]? = some .null →
      ∃ j netIf, j < i ∧ netIfs[j]? = some netIf ∧ NamesUplink netIf

/-! ## The request -/

theorem stringifyPrimitive_ok {v : Json} :
    (∃ text, stringifyPrimitive (some v) = .ok text) ↔
      ∀ s, v = .str s → scalars s ≠ none := by
  cases v with
  | str s =>
      cases hs : scalars s with
      | none => simp [stringifyPrimitive, hs]
      | some cs => simp [stringifyPrimitive, hs]
  | _ => simp [stringifyPrimitive]

theorem fieldPairs_ok {name : String} {v : JsValue} :
    (∃ pairs, fieldPairs (name, v) = .ok pairs) ↔ Writable v := by
  cases v with
  | none => exact ⟨fun _ => trivial, fun _ => ⟨_, rfl⟩⟩
  | some v =>
      cases v with
      | arr elems =>
          rw [fieldPairs, exists_mapM_ok]
          have helem : ∀ x : Json, (∃ y, (do
              let text ← stringifyPrimitive (some x)
              pure (name.toList, text) : Except JsError Pair) = .ok y) ↔
                ∀ s, x = .str s → scalars s ≠ none := by
            intro x
            rw [← stringifyPrimitive_ok, exists_bind_pure_ok]
          constructor
          · intro h s hs
            exact (helem _).1 (h _ hs) s rfl
          · intro h x hx
            refine (helem x).2 fun s hs => h s ?_
            rwa [← hs]
      | str s =>
          rw [Writable]
          have htext := stringifyPrimitive_ok (v := .str s)
          constructor
          · intro h'
            obtain ⟨pairs, hpairs⟩ := h'
            obtain ⟨text, htext', _⟩ := bind_eq_ok.1 hpairs
            exact htext.1 ⟨text, htext'⟩ s rfl
          · intro h
            obtain ⟨text, htext'⟩ := htext.2 fun t ht => by
              rwa [← Json.str.inj ht]
            refine ⟨[(name.toList, text)], ?_⟩
            show (stringifyPrimitive (some (.str s)) >>= fun text =>
              pure [(name.toList, text)]) = _
            rw [htext']
            rfl
      | null => exact ⟨fun _ => trivial, fun _ => ⟨_, rfl⟩⟩
      | bool b => exact ⟨fun _ => trivial, fun _ => ⟨_, rfl⟩⟩
      | num n => exact ⟨fun _ => trivial, fun _ => ⟨_, rfl⟩⟩
      | obj fields => exact ⟨fun _ => trivial, fun _ => ⟨_, rfl⟩⟩

theorem stringify_ok {fields : List (String × JsValue)} :
    (∃ query, stringify fields = .ok query) ↔
      ∀ f ∈ fields, Writable f.2 := by
  rw [stringify, exists_map_ok, stringifyPairs, exists_bind_pure_ok,
    exists_mapM_ok]
  exact forall₂_congr fun f _ => fieldPairs_ok

theorem getProp_ok {v : Json} {name : String} :
    getProp (some v) name =
      if isNull v then .error .typeError
      else .ok (getProp? (some v) name) := by
  rw [getProp_eq]
  simp

theorem stateQuery_ok {state : Json} :
    (∃ query, stateQuery state = .ok query) ↔
      isNull state = false ∧ Writable (getProp? (some state) "pin") ∧
        Writable (getProp? (some state) "val") := by
  rw [stateQuery, getProp_ok, getProp_ok]
  cases hnull : isNull state with
  | true => simp
  | false =>
      simp only [Bool.false_eq_true, if_false, ok_bind, true_and]
      rw [stringify_ok]
      simp

theorem setStateQuery_ok {states : JsValue} :
    (∃ query, setStateQuery states = .ok query) ↔ SendableStates states := by
  have hno : ∀ v : JsValue, (∀ elems, v ≠ some (.arr elems)) →
      setStateQuery v = .error .typeError := by
    intro v hv
    rw [setStateQuery]
    exact fun elems h => hv elems h
  by_cases harr : ∃ inStates, states = some (.arr inStates)
  · obtain ⟨inStates, rfl⟩ := harr
    rw [setStateQuery, exists_bind_pure_ok, exists_mapM_ok]
    constructor
    · intro h
      exact ⟨inStates, rfl, fun state hs => stateQuery_ok.1 (h state hs)⟩
    · rintro ⟨inStates', heq, h⟩ state hs
      obtain rfl := Json.arr.inj (Option.some.inj heq)
      exact stateQuery_ok.2 (h state hs)
  · rw [hno states fun elems h => harr ⟨elems, h⟩]
    constructor
    · intro h'
      obtain ⟨query, hquery⟩ := h'
      cases hquery
    · intro h'
      obtain ⟨inStates, rfl, _⟩ := h'
      exact absurd ⟨inStates, rfl⟩ harr

/-! ## The answer -/

/-- Only an object is a key by its place. -/
theorem mapKey_eq_object {i j : Nat} {v : JsValue}
    (h : mapKey i v = .object j) : i = j := by
  cases v with
  | none => cases h
  | some v =>
      cases v with
      | arr elems => exact MapKey.object.inj h
      | obj fields => exact MapKey.object.inj h
      | _ => cases h

/-- Primitives have a text. -/
theorem propertyKey_ok_or (i : Nat) (v : JsValue) :
    (∃ key, propertyKey v = .ok key) ∨ mapKey i v = .object i := by
  cases v with
  | none => exact .inl ⟨_, rfl⟩
  | some v =>
      cases v with
      | arr elems => exact .inr rfl
      | obj fields => exact .inr rfl
      | null => exact .inl ⟨_, by rw [propertyKey, toJsString]⟩
      | bool b => exact .inl ⟨_, by rw [propertyKey, toJsString]⟩
      | num n => exact .inl ⟨_, by rw [propertyKey, toJsString]⟩
      | str s => exact .inl ⟨_, by rw [propertyKey, toJsString]⟩

/-- The entries made for the states of an answer. -/
def stateWrites (states : List Json) : List (MapKey × JsValue × Json) :=
  states.zipIdx.map fun s =>
    (mapKey s.2 (getProp? (some s.1) "pin"), getProp? (some s.1) "pin", s.1)

theorem pinStateMap_eq {states : List Json}
    (h : ∀ state ∈ states, isNull state = false) :
    pinStateMap states = .ok (.ofWrites (stateWrites states)) := by
  have hfrom : ∀ (i : Nat) (m : OrderedMap MapKey (JsValue × Json)),
      (states.zipIdx i).foldlM (fun m s => do
        let pin ← getProp (some s.1) "pin"
        pure (m.set (mapKey s.2 pin) (pin, s.1))) m =
      (.ok (((states.zipIdx i).map fun s =>
        (mapKey s.2 (getProp? (some s.1) "pin"),
          getProp? (some s.1) "pin", s.1)).foldl
            (fun m w => m.set w.1 w.2) m) : Except JsError _) := by
    induction states with
    | nil => intro i m; rfl
    | cons state states ih =>
        intro i m
        have hstate : getProp (some state) "pin" =
            .ok (getProp? (some state) "pin") := by
          rw [getProp_ok, h state List.mem_cons_self]
          rfl
        rw [List.zipIdx_cons, List.foldlM_cons, hstate]
        exact ih (fun s hs => h s (List.mem_cons_of_mem state hs)) _ _
  exact hfrom 0 .empty

theorem pinStateMap_ok {states : List Json} :
    (∃ m, pinStateMap states = .ok m) ↔
      ∀ state ∈ states, isNull state = false := by
  constructor
  · intro h state hstate
    obtain ⟨i, hi⟩ := List.mem_iff_getElem?.1 hstate
    have hmem : (state, i) ∈ states.zipIdx :=
      List.mk_mem_zipIdx_iff_getElem?.2 hi
    obtain ⟨pin, hpin⟩ := exists_foldlM_ok.1 h (state, i) hmem
    rw [getProp_ok] at hpin
    cases hnull : isNull state with
    | false => rfl
    | true => rw [hnull] at hpin; cases hpin
  · exact fun h => ⟨_, pinStateMap_eq h⟩

/-- Every state is an entry, unless a later one has the same pin, which then
is a primitive. -/
theorem mem_values_or {states : List Json} {state : Json}
    (h : state ∈ states) :
    (getProp? (some state) "pin", state) ∈
        (OrderedMap.ofWrites (stateWrites states)).values ∨
      ∃ key, propertyKey (getProp? (some state) "pin") = .ok key := by
  obtain ⟨i, hi⟩ := List.mem_iff_getElem?.1 h
  rcases propertyKey_ok_or i (getProp? (some state) "pin") with hkey | hobj
  · exact .inr hkey
  · refine .inl ?_
    have hwrite : ∀ j : Nat, (stateWrites states)[j]? = states[j]?.map fun s =>
        (mapKey j (getProp? (some s) "pin"), getProp? (some s) "pin", s) := by
      intro j
      rw [stateWrites, List.getElem?_map, List.getElem?_zipIdx, Option.map_map,
        Nat.zero_add]
      rfl
    have hlast : lastFor (.object i) (stateWrites states) =
        some (getProp? (some state) "pin", state) := by
      refine lastFor_eq_some.2 ⟨i, ?_, fun j w hj hw => ?_⟩
      · rw [hwrite, hi, Option.map_some, hobj]
      · rw [hwrite] at hw
        obtain ⟨s, _, rfl⟩ := Option.map_eq_some_iff.1 hw
        exact fun heq => by have := mapKey_eq_object heq; omega
    exact List.mem_map_of_mem (f := Prod.snd)
      (OrderedMap.mem_entries_ofWrites
        (w := (.object i, getProp? (some state) "pin", state)).2 hlast)

theorem fromEntries_ok {m : OrderedMap MapKey (JsValue × Json)} :
    (∃ o, fromEntries m = .ok o) ↔
      ∀ entry ∈ m.values, ∃ key, propertyKey entry.1 = .ok key :=
  exists_foldlM_ok

theorem recordStates_ok {body : JsValue} :
    (∃ o, recordStates body = .ok o) ↔ KeyedStates body := by
  by_cases harr : ∃ states, body = some (.arr states)
  · obtain ⟨states, rfl⟩ := harr
    have hkeyed : KeyedStates (some (.arr states)) ↔ ∀ state ∈ states,
        isNull state = false ∧
          ∃ key, propertyKey (getProp? (some state) "pin") = .ok key :=
      ⟨fun h => h states rfl, fun h states' heq => by
        obtain rfl := Json.arr.inj (Option.some.inj heq)
        exact h⟩
    rw [hkeyed, recordStates, exists_bind_ok]
    constructor
    · intro h'
      obtain ⟨m, hm, o, ho⟩ := h'
      have hnull := pinStateMap_ok.1 ⟨m, hm⟩
      obtain rfl := Except.ok.inj (hm.symm.trans (pinStateMap_eq hnull))
      obtain ⟨o', ho', _⟩ := bind_eq_ok.1 ho
      have hkeys := fromEntries_ok.1 ⟨o', ho'⟩
      refine fun state hs => ⟨hnull state hs, ?_⟩
      rcases mem_values_or hs with hmem | hkey
      · exact hkeys _ hmem
      · exact hkey
    · intro h
      have hnull := fun state hs => (h state hs).1
      refine ⟨_, pinStateMap_eq hnull, ?_⟩
      have hkeys : ∀ entry ∈ (OrderedMap.ofWrites (stateWrites states)).values,
          ∃ key, propertyKey entry.1 = .ok key := by
        intro entry hentry
        obtain ⟨w, hw, rfl⟩ := List.mem_map.1 hentry
        have hmem : w ∈ stateWrites states :=
          mem_of_lastFor (OrderedMap.mem_entries_ofWrites.1 hw)
        obtain ⟨s, hs, rfl⟩ := List.mem_map.1 hmem
        exact (h s.1 (List.fst_mem_of_mem_zipIdx hs)).2
      obtain ⟨o, ho⟩ := fromEntries_ok.2 hkeys
      exact ⟨some o, by rw [ho]; rfl⟩
  · have hnone : recordStates body = .ok none := by
      rw [recordStates]
      · rfl
      · exact fun states h => harr ⟨states, h⟩
    exact ⟨fun _ states h => absurd ⟨states, h⟩ harr, fun _ => ⟨none, hnone⟩⟩

theorem recordAnswer_ok {d : Device} {answer : HttpOutcome} :
    (∃ r, d.recordAnswer answer = .ok r) ↔ ReadableAnswer answer := by
  cases answer with
  | failed e =>
      constructor
      · intro h'
        obtain ⟨r, hr⟩ := h'
        cases hr
      · intro h'
        obtain ⟨str, hstr, _⟩ := h'
        cases hstr
  | response str =>
      have hread : ReadableAnswer (.response str) ↔
          KeyedStates (Json.parse str) :=
        ⟨fun ⟨str', heq, h⟩ => HttpOutcome.response.inj heq ▸ h,
          fun h => ⟨str, rfl, h⟩⟩
      rw [hread, ← recordStates_ok]
      constructor
      · intro h'
        obtain ⟨⟨d', states⟩, hr⟩ := h'
        obtain ⟨parsed, hparsed, hstates, _⟩ := recordAnswer_eq_ok.1 hr
        obtain rfl := Except.ok.inj hparsed
        exact ⟨states, hstates⟩
      · intro h'
        obtain ⟨states, hstates⟩ := h'
        exact ⟨_, recordAnswer_eq_ok.2 ⟨_, rfl, hstates, rfl⟩⟩

/-- The request that sets states needs states it can send and an answer it
can record. -/
theorem setState_ok {net : Network} {d : Device} {states : JsValue} :
    (∃ r, d.setState net states = .ok r) ↔
      SendableStates states ∧ ∀ query, setStateQuery states = .ok query →
        ReadableAnswer (net d.ip d.port query) := by
  rw [Device.setState, exists_bind_ok, ← setStateQuery_ok]
  constructor
  · intro h'
    obtain ⟨query, hquery, h⟩ := h'
    refine ⟨⟨query, hquery⟩, fun query' hquery' => ?_⟩
    obtain rfl := Except.ok.inj (hquery.symm.trans hquery')
    exact recordAnswer_ok.1 h
  · intro h'
    obtain ⟨⟨query, hquery⟩, h⟩ := h'
    exact ⟨query, hquery, recordAnswer_ok.2 (h query hquery)⟩

/-! ## The pulse -/

theorem findNetIf_ok {netIfs : List Json} :
    (∃ netIf, findNetIf netIfs = .ok netIf) ↔
      ∀ i : Nat, netIfs[i]? = some .null →
        ∃ j netIf, j < i ∧ netIfs[j]? = some netIf ∧ NamesUplink netIf := by
  induction netIfs with
  | nil =>
      refine ⟨fun _ i hi => ?_, fun _ => ⟨none, rfl⟩⟩
      cases hi
  | cons netIf rest ih =>
      rw [findNetIf, getProp_ok]
      cases hnull : isNull netIf with
      | true =>
          have hnone : netIf = .null := by
            cases netIf with
            | null => rfl
            | _ => cases hnull
          constructor
          · intro h'
            obtain ⟨_, hfound⟩ := h'
            cases hfound
          · intro h
            obtain ⟨j, _, hj, _⟩ := h 0 (by rw [hnone]; rfl)
            omega
      | false =>
          have hne : netIf ≠ .null := by
            rintro rfl
            cases hnull
          simp only [Bool.false_eq_true, if_false, ok_bind]
          by_cases hup : NamesUplink netIf
          · rw [if_pos (Bool.or_eq_true_iff.2 hup)]
            refine ⟨fun _ i hi => ?_, fun _ => ⟨_, rfl⟩⟩
            refine ⟨0, netIf, ?_, rfl, hup⟩
            rcases Nat.eq_zero_or_pos i with rfl | hpos
            · exact absurd (Option.some.inj hi) hne
            · exact hpos
          · rw [if_neg fun h => hup (Bool.or_eq_true_iff.1 h), ih]
            constructor
            · intro h i hi
              cases i with
              | zero => exact absurd (Option.some.inj hi) hne
              | succ i =>
                  obtain ⟨j, other, hj, hother, hname⟩ := h i hi
                  exact ⟨j + 1, other, Nat.succ_lt_succ hj, hother, hname⟩
            · intro h i hi
              obtain ⟨j, other, hj, hother, hname⟩ := h (i + 1) hi
              cases j with
              | zero =>
                  obtain rfl := Option.some.inj hother
                  exact absurd hname hup
              | succ j =>
                  exact ⟨j, other, Nat.lt_of_succ_lt_succ hj, hother, hname⟩

theorem isNull_iff {v : Json} : isNull v = true ↔ v = .null := by
  cases v with
  | null => simp [isNull]
  | _ => simp [isNull]

theorem adaptSysPulse_ok {pulse : Pulse} :
    (∃ msg, adaptSysPulse pulse = .ok msg) ↔ Adaptable pulse.obj := by
  rw [adaptSysPulse]
  cases hnull : isNull pulse.obj with
  | true =>
      rw [isNull_iff.1 hnull]
      constructor
      · intro h'
        obtain ⟨msg, hmsg⟩ := h'
        cases hmsg
      · intro h'
        obtain ⟨netIfs, hnetIfs, _⟩ := h'
        cases hnetIfs
  | false =>
      simp only [getProp_ok, hnull, Bool.false_eq_true, if_false, ok_bind]
      by_cases harr : ∃ netIfs,
          getProp? (some pulse.obj) "netIfs" = some (.arr netIfs)
      · obtain ⟨netIfs, hnetIfs⟩ := harr
        have hadaptable : Adaptable pulse.obj ↔
            ∃ netIf, findNetIf netIfs = .ok netIf := by
          rw [findNetIf_ok, Adaptable]
          refine ⟨fun ⟨netIfs', heq, h⟩ => ?_, fun h => ⟨netIfs, hnetIfs, h⟩⟩
          rw [hnetIfs] at heq
          rwa [Json.arr.inj (Option.some.inj heq)]
        rw [hadaptable, hnetIfs]
        simp only []
        rw [exists_bind_ok]
        exact ⟨fun ⟨netIf, h, _⟩ => ⟨netIf, h⟩,
          fun ⟨netIf, h⟩ => ⟨netIf, h, _, rfl⟩⟩
      · constructor
        · intro h'
          obtain ⟨msg, hmsg⟩ := h'
          split at hmsg
          · next netIfs hnetIfs => exact absurd ⟨netIfs, hnetIfs⟩ harr
          · cases hmsg
        · intro h'
          obtain ⟨netIfs, hnetIfs, _⟩ := h'
          exact absurd ⟨netIfs, hnetIfs⟩ harr

/-! ## The handlers -/

section

variable {β : Type} {adapt : Pulse → Except JsError β} {net : Network}
  {online : Device → Bool}

/-- The message controls no device, or the one it controls takes the states
and the pulse that is known by then can be passed on. -/
def Handleable (canAdapt : Pulse → Prop) (net : Network) (now after : Memory)
    (obj : JsValue) : Prop :=
  isCtrlDevMsg obj = true →
    ∀ device, (getDeviceList now.store (getProp? obj "mac")).head? =
      some device →
    SendableStates (getProp? obj "states") ∧
      (∀ query, setStateQuery (getProp? obj "states") = .ok query →
        ReadableAnswer (net device.ip device.port query)) ∧
      ∀ pulse, after.lastSysPulse = some pulse → canAdapt pulse

theorem passPulse_ok {canAdapt : Pulse → Prop}
    (hadapt : ∀ pulse, (∃ msg, adapt pulse = .ok msg) ↔ canAdapt pulse)
    (hdevices : ∀ pulse devices,
      canAdapt { pulse with devices } ↔ canAdapt pulse)
    {after : Memory} {states : Option PinStates} :
    (∃ r, passPulse adapt net online after states = .ok r) ↔
      ∀ pulse, after.lastSysPulse = some pulse → canAdapt pulse := by
  rw [passPulse]
  cases after.lastSysPulse with
  | none => exact ⟨fun _ _ h => (by cases h), fun _ => ⟨_, rfl⟩⟩
  | some pulse =>
      simp only []
      rw [exists_bind_ok]
      constructor
      · rintro ⟨msg, hmsg, _⟩ pulse' heq
        obtain rfl := Option.some.inj heq
        exact (hdevices _ _).1 ((hadapt _).1 ⟨msg, hmsg⟩)
      · intro h
        obtain ⟨msg, hmsg⟩ := (hadapt _).2 ((hdevices pulse _).2 (h pulse rfl))
        exact ⟨msg, hmsg, _, rfl⟩

theorem isNull_of_isCtrlDevMsg {obj : Json}
    (h : isCtrlDevMsg (some obj) = true) : isNull obj = false := by
  cases obj with
  | null => cases h
  | _ => rfl

theorem msgMainHandler_ok {canAdapt : Pulse → Prop}
    (hadapt : ∀ pulse, (∃ msg, adapt pulse = .ok msg) ↔ canAdapt pulse)
    (hdevices : ∀ pulse devices,
      canAdapt { pulse with devices } ↔ canAdapt pulse)
    {now after : Memory} {obj : Json} :
    (∃ r, msgMainHandler adapt net online now after (some obj) = .ok r) ↔
      Handleable canAdapt net now after (some obj) := by
  rw [msgMainHandler, Handleable]
  cases hctrl : isCtrlDevMsg (some obj) with
  | false => exact ⟨fun _ h => (by cases h), fun _ => ⟨_, rfl⟩⟩
  | true =>
      simp only [if_true, getProp_ok, isNull_of_isCtrlDevMsg hctrl,
        Bool.false_eq_true, if_false, ok_bind, forall_const]
      cases getDeviceList now.store (getProp? (some obj) "mac") with
      | nil => exact ⟨fun _ _ h => (by cases h), fun _ => ⟨_, rfl⟩⟩
      | cons device rest =>
          simp only [List.head?_cons, Option.some.injEq, forall_eq']
          rw [← and_assoc, ← setState_ok, exists_bind_ok]
          constructor
          · intro h'
            obtain ⟨r, hr, h⟩ := h'
            exact ⟨⟨r, hr⟩, (passPulse_ok hadapt hdevices).1 h⟩
          · intro h'
            obtain ⟨⟨r, hr⟩, h⟩ := h'
            exact ⟨r, hr, (passPulse_ok hadapt hdevices).2 h⟩

end

/-- A text from a front-end or from the public server is handled without a
rejection if and only if, should it control a device, the device takes the
states and answers them readably, and a pulse for the public server can be
adapted. -/
theorem messages_complete_iff (net : Network) (online : Device → Bool)
    (now after : Memory) (data : JsString) :
    ((∃ r, feMessage net online now after data = .ok r) ↔
      Handleable (fun _ => True) net now after (parseMsg data)) ∧
    ((∃ r, wscMessage net online now after data = .ok r) ↔
      Handleable (fun pulse => Adaptable pulse.obj) net now after
        (parseMsg data)) := by
  have hfe : ∀ pulse : Pulse,
      (∃ msg, (pure pulse : Except JsError Pulse) = .ok msg) ↔ True :=
    fun pulse => ⟨fun _ => trivial, fun _ => ⟨pulse, rfl⟩⟩
  exact ⟨msgMainHandler_ok hfe fun _ _ => Iff.rfl,
    msgMainHandler_ok @adaptSysPulse_ok fun _ _ => Iff.rfl⟩

/-- Every connection is refused. -/
def refusing : Network := fun _ _ _ => .failed .requestError

def unreachable : Memory where
  store := OrderedMap.empty.set (.str (js "m")) ⟨none, none, none, none⟩
  lastSysPulse := none

def controlText : JsString :=
  js "\x7b\"type\":\"CTRL_DEV\",\"mac\":\"m\",\"states\":[]\x7d"

/-- A control message for a device that cannot be reached rejects, in either
handler. -/
theorem messages_reject_unreachable :
    (¬ ∃ r, feMessage refusing (fun _ => true) unreachable unreachable
      controlText = .ok r) ∧
    ¬ ∃ r, wscMessage refusing (fun _ => true) unreachable unreachable
      controlText = .ok r := by
  have hfe : (feMessage refusing (fun _ => true) unreachable unreachable
      controlText).isOk = false := by decide +kernel
  have hwsc : (wscMessage refusing (fun _ => true) unreachable unreachable
      controlText).isOk = false := by decide +kernel
  constructor
  · intro h
    obtain ⟨r, hr⟩ := h
    rw [hr] at hfe
    cases hfe
  · intro h
    obtain ⟨r, hr⟩ := h
    rw [hr] at hwsc
    cases hwsc

end IotHome.Server
