import IotHome.Firmware.Commands
import IotHome.Lib.JsonText
import IotHome.Server.Device

/-!
# The device's answer, read by the server

The device writes its answer piece by piece; the server parses it and files
the pieces under their pins. This is the whole way: the text is the JSON text
of an array of objects (`js_responseText`), it parses as that array, and what
is recorded of it has one entry for each command, in the order of the
commands (`recordStates_response`).

The numbers have to be ones that JavaScript writes in digits. The values a
`val` can have are 32 bit, so all of them are.
-/

namespace IotHome.Firmware

open IotHome.Lib

/-- The object reported for a command. -/
def stateJson (g : Gpio) (c : Command) : Json :=
  .obj [(js "pin", .num (Dec.ofInt c.1)), (js "val", .num (Dec.ofInt c.2)),
    (js "dir", .num (Dec.ofInt 1)),
    (js "sta", .num (Dec.ofInt (levelAfter g c).toNat))]

/-- Both numbers of a command are written in digits. -/
def SmallNumbers (c : Command) : Prop :=
  (c.1 : Int).natAbs < 10 ^ 21 ∧ c.2.natAbs < 10 ^ 21

/-! ## The text -/

theorem text_num {n : Int} (h : n.natAbs < 10 ^ 21) :
    Json.text (.num (Dec.ofInt n)) = js (toString n) := by
  rw [Json.text, text_ofInt h]
  rfl

theorem small_one : (1 : Int).natAbs < 10 ^ 21 := by decide

theorem small_bit (b : Bool) : (b.toNat : Int).natAbs < 10 ^ 21 := by
  cases b with
  | true => decide
  | false => decide

theorem js_commandText {g : Gpio} {c : Command} (h : SmallNumbers c) :
    js (commandText g c) = Json.text (stateJson g c) := by
  rw [stateJson, Json.text, Json.textField, text_num h.1]
  simp only [Json.textFields, Json.textField]
  rw [text_num h.2, text_num small_one, text_num (small_bit _)]
  simp only [commandText, objText, js_append, List.append_assoc,
    List.cons_append]
  rfl

theorem js_joinComma (x : String) (xs : List String) (vs : List Json)
    (h : xs.map js = vs.map Json.text) :
    js (xs.foldl (fun acc y => acc ++ "," ++ y) x) ++ [unit ']'] =
      js x ++ Json.textElems vs := by
  induction xs generalizing x vs with
  | nil =>
      cases vs with
      | nil => rfl
      | cons v vs => cases h
  | cons y ys ih =>
      cases vs with
      | nil => cases h
      | cons v vs =>
          rw [List.map_cons, List.map_cons, List.cons.injEq] at h
          rw [List.foldl_cons, ih _ vs h.2, js_append, js_append, h.1,
            Json.textElems, List.append_assoc, List.append_assoc]
          rfl

/-- The answer is the text of an array with one object for each command. -/
theorem js_responseText {g : Gpio} {rs : List Command}
    (h : ∀ c ∈ rs, SmallNumbers c) :
    js (responseText g rs) = Json.text (.arr (rs.map (stateJson g))) := by
  cases rs with
  | nil => rfl
  | cons c rs =>
      have hrest : (rs.map (commandText g)).map js =
          (rs.map (stateJson g)).map Json.text := by
        rw [List.map_map, List.map_map]
        refine List.map_congr_left fun d hd => ?_
        rw [Function.comp_apply, Function.comp_apply]
        exact js_commandText (h d (List.mem_cons_of_mem c hd))
      rw [responseText, js_append, js_append, List.map_cons, joinComma,
        List.append_assoc, show js "]" = [unit ']'] by decide,
        js_joinComma _ _ _ hrest, js_commandText (h c List.mem_cons_self),
        List.map_cons, Json.text]
      rfl

theorem regular_stateJson {g : Gpio} {c : Command} (h : SmallNumbers c) :
    Json.Regular (stateJson g c) := by
  have hplain : ∀ name ∈ ["pin", "val", "dir", "sta"],
      Json.PlainString (js name) := by
    simp only [List.forall_mem_cons]
    exact ⟨Json.plainString_of_all (by decide),
      Json.plainString_of_all (by decide),
      Json.plainString_of_all (by decide),
      Json.plainString_of_all (by decide), List.forall_mem_nil _⟩
  rw [stateJson, Json.Regular]
  refine ⟨?_, by show [js "pin", js "val", js "dir", js "sta"].Nodup; decide⟩
  simp only [Json.RegularFields, Json.Regular]
  exact ⟨hplain _ (by decide), ⟨_, rfl, h.1⟩,
    hplain _ (by decide), ⟨_, rfl, h.2⟩,
    hplain _ (by decide), ⟨_, rfl, small_one⟩,
    hplain _ (by decide), ⟨_, rfl, small_bit _⟩, trivial⟩

theorem parse_responseText {g : Gpio} {rs : List Command}
    (h : ∀ c ∈ rs, SmallNumbers c) :
    Json.parse (js (responseText g rs)) =
      some (.arr (rs.map (stateJson g))) := by
  have helems : Json.RegularElems (rs.map (stateJson g)) := by
    induction rs with
    | nil => exact trivial
    | cons c rs ih =>
        rw [List.map_cons, Json.RegularElems]
        exact ⟨regular_stateJson (h c List.mem_cons_self),
          ih fun d hd => h d (List.mem_cons_of_mem c hd)⟩
  rw [js_responseText h]
  refine Json.parse_text ?_
  rw [Json.Regular]
  exact helems

/-! ## The record -/

open IotHome.Server

theorem getProp_pin (g : Gpio) (c : Command) :
    getProp (some (stateJson g c)) "pin" =
      .ok (some (.num (Dec.ofInt c.1))) := rfl

theorem getProp_sta (g : Gpio) (c : Command) :
    getProp? (some (stateJson g c)) "sta" =
      some (.num (Dec.ofInt (levelAfter g c).toNat)) := rfl

/-- The name of a pin's property. -/
def pinKey (pin : Nat) : JsString := js (toString pin)

theorem pinKey_inj {p q : Nat} (h : pinKey p = pinKey q) : p = q := by
  have hread := congrArg (fun s : String => readInt s.toList) (js_inj h)
  simp only [readInt_toString] at hread
  exact Int.ofNat.inj hread

theorem nodup_map_fst {κ : Type} {rs : List Command} {f : Nat → κ}
    (hf : ∀ {p q}, f p = f q → p = q) (h : (rs.map Prod.fst).Nodup) :
    (rs.map fun c => f c.1).Nodup := by
  have hmap : (rs.map fun c => f c.1) = (rs.map Prod.fst).map f := by
    rw [List.map_map]
    rfl
  rw [hmap]
  exact h.map fun _ _ => hf

theorem pinStateMap_response (g : Gpio) (rs : List Command) :
    pinStateMap (rs.map (stateJson g)) =
      .ok (.ofWrites (rs.map fun c =>
        (MapKey.num (Dec.ofInt c.1),
          (some (.num (Dec.ofInt c.1)), stateJson g c)))) := by
  have hfrom : ∀ i (m : OrderedMap MapKey (JsValue × Json)),
      ((rs.map (stateJson g)).zipIdx i).foldlM (fun m s => do
        let pin ← getProp (some s.1) "pin"
        pure (m.set (mapKey s.2 pin) (pin, s.1))) m =
      (.ok ((rs.map fun c => (MapKey.num (Dec.ofInt c.1),
        ((some (.num (Dec.ofInt c.1)) : JsValue), stateJson g c))).foldl
          (fun m w => m.set w.1 w.2) m) : Except JsError _) := by
    induction rs with
    | nil => intro i m; rfl
    | cons c rs ih =>
        intro i m
        rw [List.map_cons, List.zipIdx_cons, List.foldlM_cons, getProp_pin]
        exact ih (i + 1) _
  exact hfrom 0 .empty

/-- What is recorded of an answer: each command's object, under its pin. -/
theorem recordStates_response {g : Gpio} {rs : List Command}
    (h : ∀ c ∈ rs, SmallNumbers c) (hnd : (rs.map Prod.fst).Nodup) :
    ∃ m, recordStates (Json.parse (js (responseText g rs))) =
        .ok (some m) ∧
      m.entries = rs.map fun c => (pinKey c.1, stateJson g c) := by
  have hkeys : ((rs.map fun c => (MapKey.num (Dec.ofInt c.1),
      ((some (.num (Dec.ofInt c.1)) : JsValue), stateJson g c))).map
        Prod.fst).Nodup := by
    rw [List.map_map]
    refine nodup_map_fst (f := fun p : Nat => MapKey.num (Dec.ofInt p)) ?_ hnd
    intro p q hpq
    have hdec := MapKey.num.inj hpq
    exact Int.ofNat.inj (congrArg Dec.mantissa hdec)
  have hentries : ∀ (o : PinStates),
      (rs.map fun c => ((some (.num (Dec.ofInt c.1)) : JsValue),
        stateJson g c)).foldlM (fun o entry => do
          let key ← propertyKey entry.1
          pure (o.set key entry.2)) o =
      .ok ((rs.map fun c => (pinKey c.1, stateJson g c)).foldl
        (fun m w => m.set w.1 w.2) o) := by
    clear hkeys hnd
    induction rs with
    | nil => intro o; rfl
    | cons c rs ih =>
        intro o
        have hkey : propertyKey (some (.num (Dec.ofInt c.1))) =
            .ok (pinKey c.1) := by
          rw [propertyKey, toJsString,
            text_ofInt (h c List.mem_cons_self).1]
          rfl
        rw [List.map_cons, List.foldlM_cons, hkey]
        exact ih (fun d hd => h d (List.mem_cons_of_mem c hd)) _
  have hnames : ((rs.map fun c => (pinKey c.1, stateJson g c)).map
      Prod.fst).Nodup := by
    rw [List.map_map]
    exact nodup_map_fst (f := pinKey) pinKey_inj hnd
  refine ⟨_, ?_, OrderedMap.entries_ofWrites hnames⟩
  rw [parse_responseText h, recordStates, pinStateMap_response, ok_bind,
    fromEntries, OrderedMap.values, OrderedMap.entries_ofWrites hkeys,
    List.map_map]
  exact congrArg (fun x => x >>= fun o => pure (some o)) (hentries .empty)

end IotHome.Firmware
