import IotHome.Cmd.DeviceControl
import IotHome.Firmware.Uri
import IotHome.Proofs.ApiResponse

/-!
# Whose value a selected pin is driven to

On a command line a value belongs to the pin it comes after. `select` gives
the k-th pin the k-th value, and writes `val=` where there is none, which the
device reads as zero. The two agree on lines that give every pin its value at
once and on little else.

`ownValues` is the reading by position on the line. What is sent is
`pinsWithValues`, the reading by index; `commandsFrom_select` follows it
through the query to the commands of the handler, and `select_ownValues_iff`
says for which lines the pins are driven to values of their own.
-/

namespace IotHome.Cmd

open IotHome.Lib
open IotHome.Server
open IotHome.Firmware

/-! ## The line, read by position -/

/-- The first `--val` of what follows a pin, if it comes before the next
`--pin`. -/
def firstVal : List JsString → Option JsString
  | [] => none
  | a :: rest =>
      match dashedValue a with
      | none => firstVal rest
      | some (n, v) =>
          if n = js "--val" then some v
          else if n = js "--pin" then none
          else firstVal rest

/-- The pins of a line, each with the value of its own that it has. -/
def ownValues : List JsString → List (JsString × Option JsString)
  | [] => []
  | a :: rest =>
      match dashedValue a with
      | none => ownValues rest
      | some (n, v) =>
          if n = js "--pin" then (v, firstVal rest) :: ownValues rest
          else ownValues rest

/-- The number a value stands for. -/
def valueInt (v : JsString) : Int :=
  clampInt32 (readInt (v.map fun u => Char.ofNat u.toNat))

/-- The number the device reads off what is sent of a text, none being sent
as nothing. -/
def wireInt (text : Option JsString) : Int :=
  match scalars (text.getD []) with
  | some cs => clampInt32 (readInt (formEncode cs))
  | none => 0

/-- The text names the pin `p` to the device. -/
def IsPin (text : JsString) (p : Nat) : Prop := wireInt (some text) = p

instance (text : JsString) (p : Nat) : Decidable (IsPin text p) :=
  inferInstanceAs (Decidable (wireInt (some text) = p))

/-- The line has a `--pin` for `p` whose own value is `own`. -/
def HasOwn (args : List JsString) (p : Nat) (own : JsString) : Prop :=
  ∃ text, (text, some own) ∈ ownValues args ∧ IsPin text p

/-- The handler gives the pin `p` the value `x`. -/
def Drives (n : Nat) (pcParam pcValue : Nat → CharPtr) (p : Nat) (x : Int) :
    Prop :=
  ∃ cs, commandsFrom pcParam pcValue n 0 = .ok cs ∧
    (p, x) ∈ requested cs ∧ 0 ≤ x

/-- The line's pins are driven to values of their own, and a pin without one
is left at its level. -/
def OwnValuesOnly (args : List JsString) (n : Nat)
    (pcParam pcValue : Nat → CharPtr) : Prop :=
  (∀ p x, Drives n pcParam pcValue p x →
    ∃ own, HasOwn args p own ∧ valueInt own = x) ∧
  (∀ p, (∀ own, ¬ HasOwn args p own) →
    ∀ g g' res, handleRequestParams n pcParam pcValue g = .ok (g', res) →
      g'.level p = g.level p)

/-! ## The line, read by index -/

def pinsOf (args : List JsString) : List JsString :=
  valuesOf (js "--pin") args

def valsOf (args : List JsString) : List JsString :=
  valuesOf (js "--val") args

/-- The pins of a line, each with the value at its index. -/
def pinsWithValues (args : List JsString) :
    List (JsString × Option JsString) :=
  (pinsOf args).mapIdx fun i pin => (pin, (valsOf args)[i]?)

/-- The last `--pin` of the line that names `p` is the one at index `i`. -/
def IsLastPin (args : List JsString) (p i : Nat) : Prop :=
  (∃ text, (pinsOf args)[i]? = some text ∧ IsPin text p) ∧
    ∀ j text, i < j → (pinsOf args)[j]? = some text → ¬ IsPin text p

/-- A pin that is given a value, by its last place on the line, is given one
of its own. -/
def IndexGivesOwn (args : List JsString) : Prop :=
  ∀ p i, IsLastPin args p i → 0 ≤ wireInt (valsOf args)[i]? →
    ∃ own, HasOwn args p own ∧ valueInt own = wireInt (valsOf args)[i]?

/-! ## From the line to the parameters -/

theorem selectParams_set {args : List JsString} (hset : js "set" ∈ args) :
    selectParams (Arg.ofArgs args) = (pinsWithValues args).map fun k =>
      [("pin", some (.str k.1)), ("val", k.2.map .str)] := by
  have hhas : (Arg.ofArgs args).has (js "set") = true :=
    (has_ofArgs args (js "set")).2 hset
  rw [selectParams, getListValueOf_eq, getListValueOf_eq, pinsWithValues,
    List.mapIdx_eq_zipIdx_map, List.mapIdx_eq_zipIdx_map, List.map_map]
  simp only [hhas, if_true]
  rfl

/-- The characters of a pin and of its value, when they can be written. -/
def texts (k : JsString × Option JsString) : Option Pair := do
  let pin ← scalars k.1
  let val ← scalars (k.2.getD [])
  pure (pin, val)

theorem stringify_texts (k : JsString × Option JsString) :
    stringify [("pin", some (.str k.1)), ("val", k.2.map .str)] =
      match texts k with
      | some t => .ok (queryOf (pinValPairs t))
      | none => .error .uriError := by
  obtain ⟨pin, val⟩ := k
  cases hp : scalars pin with
  | none =>
      simp only [stringify, stringifyPairs, List.mapM_cons, fieldPairs,
        stringifyPrimitive, texts, hp]
      rfl
  | some cs =>
      cases val with
      | none =>
          simp only [stringify, stringifyPairs, List.mapM_cons, fieldPairs,
            stringifyPrimitive, texts, hp]
          rfl
      | some v =>
          cases hv : scalars v with
          | none =>
              simp only [stringify, stringifyPairs, List.mapM_cons,
                fieldPairs, stringifyPrimitive, texts, hp, hv,
                Option.map_some, Option.getD_some]
              rfl
          | some ds =>
              simp only [stringify, stringifyPairs, List.mapM_cons,
                fieldPairs, stringifyPrimitive, texts, hp, hv,
                Option.map_some, Option.getD_some]
              rfl

theorem mapM_stringify {ks : List (JsString × Option JsString)}
    {parts : List (List Char)}
    (h : (ks.map fun k => [("pin", some (Json.str k.1)),
      ("val", k.2.map Json.str)]).mapM stringify = .ok parts) :
    ∃ ts : List Pair, ks.map texts = ts.map some ∧
      parts = (ts.map pinValPairs).map queryOf := by
  induction ks generalizing parts with
  | nil =>
      obtain rfl := Except.ok.inj h
      exact ⟨[], rfl, rfl⟩
  | cons k ks ih =>
      rw [List.map_cons, List.mapM_cons, stringify_texts] at h
      cases ht : texts k with
      | none => rw [ht] at h; cases h
      | some t =>
          rw [ht, ok_bind, bind_eq_ok] at h
          obtain ⟨rest, hrest, h⟩ := h
          obtain rfl := Except.ok.inj h
          obtain ⟨ts, hts, rfl⟩ := ih hrest
          refine ⟨t :: ts, ?_, rfl⟩
          rw [List.map_cons, List.map_cons, ht, hts]

/-- The query of a line that is sent. -/
theorem select_request {getDeviceList : JsString → List Device}
    {args : List JsString} {query : List Char} (hset : js "set" ∈ args)
    (h : select getDeviceList args = .ok (.request query)) :
    ∃ ts : List Pair, (pinsWithValues args).map texts = ts.map some ∧
      query = joinQueries ((ts.map pinValPairs).map queryOf) := by
  rw [select] at h
  simp only [] at h
  split at h
  · cases h
  · split at h
    · cases h
    · rw [bind_eq_ok] at h
      obtain ⟨parts, hparts, h⟩ := h
      rw [selectParams_set hset] at hparts
      obtain ⟨ts, hts, rfl⟩ := mapM_stringify hparts
      split at h
      · cases h
      · obtain ⟨rfl⟩ := Selected.request.inj (Except.ok.inj h)
        exact ⟨ts, hts, rfl⟩

/-! ## From the parameters to the commands -/

/-- The command a pin of the line is sent for. -/
theorem commandOf_texts {k : JsString × Option JsString} {t : Pair} {p : Nat}
    (hp : p < 10) (hk : IsPin k.1 p) (ht : texts k = some t) :
    commandOf (sentTexts t) = (p, wireInt k.2) ∧
      ReadsAsPin (sentTexts t).1 := by
  rw [texts] at ht
  cases hpin : scalars k.1 with
  | none => rw [hpin] at ht; cases ht
  | some cs =>
      cases hv : scalars (k.2.getD []) with
      | none => rw [hpin, hv] at ht; cases ht
      | some ds =>
          rw [hpin, hv] at ht
          obtain rfl := Option.some.inj ht
          have hread : clampInt32 (readInt (formEncode cs)) = p := by
            rw [IsPin, wireInt, Option.getD_some, hpin] at hk
            exact hk
          have hval : wireInt k.2 = clampInt32 (readInt (formEncode ds)) := by
            rw [wireInt, hv]
          constructor
          · rw [commandOf, sentTexts, String.toList_ofList,
              String.toList_ofList, hread, hval]
            rfl
          · rw [ReadsAsPin, sentTexts, String.toList_ofList, hread]
            omega

/-- A line of at most five pins, all in range. -/
def PinsInRange (args : List JsString) : Prop :=
  (pinsOf args).length ≤ 5 ∧
    ∀ text ∈ pinsOf args, ∃ p, 1 ≤ p ∧ p ≤ 9 ∧ IsPin text p

/-- Pin by pin: what stands on the line, and what it was sent as. -/
theorem commandOf_sentTexts {args : List JsString} {ts : List Pair}
    (hts : (pinsWithValues args).map texts = ts.map some)
    (hpins : PinsInRange args) {i : Nat} {t : Pair} (hi : ts[i]? = some t) :
    ∃ p text, (pinsOf args)[i]? = some text ∧ IsPin text p ∧
      commandOf (sentTexts t) = (p, wireInt (valsOf args)[i]?) ∧
      ReadsAsPin (sentTexts t).1 := by
  have hk := congrArg (fun l => l[i]?) hts
  simp only [List.getElem?_map, hi, Option.map_some, pinsWithValues,
    List.getElem?_mapIdx] at hk
  cases hpin : (pinsOf args)[i]? with
  | none => rw [hpin] at hk; cases hk
  | some text =>
      rw [hpin] at hk
      obtain ⟨p, _, h9, hp⟩ := hpins.2 text (List.mem_of_getElem? hpin)
      have hcmd := commandOf_texts (k := (text, (valsOf args)[i]?))
        (by omega) hp (Option.some.inj hk)
      exact ⟨p, text, rfl, hp, hcmd⟩

/-- What the handler reads off the query of a line: for each pin the value at
its index. -/
theorem commandsFrom_select {args : List JsString} {ts : List Pair}
    (hts : (pinsWithValues args).map texts = ts.map some)
    (hpins : PinsInRange args) {pcParam pcValue : Nat → CharPtr}
    (hholds : Holds (uriParams (formSerialize (ts.map pinValPairs).flatten))
      pcParam pcValue) :
    ∃ cs, commandsFrom pcParam pcValue
        (uriParams (formSerialize (ts.map pinValPairs).flatten)).length 0 =
          .ok cs ∧
      ∀ (p i : Nat) x, cs[i]? = some (p, x) ↔
        (∃ text, (pinsOf args)[i]? = some text ∧ IsPin text p) ∧
          x = wireInt (valsOf args)[i]? := by
  have hlength := congrArg List.length hts
  rw [List.length_map, List.length_map, pinsWithValues,
    List.length_mapIdx] at hlength
  have hlen : ts.length ≤ 5 := hlength ▸ hpins.1
  have hreads : ∀ w ∈ ts.map sentTexts, ReadsAsPin w.1 := by
    intro w hw
    obtain ⟨t, ht, rfl⟩ := List.mem_map.1 hw
    obtain ⟨i, hi⟩ := List.mem_iff_getElem?.1 ht
    obtain ⟨_, _, _, _, _, hread⟩ := commandOf_sentTexts hts hpins hi
    exact hread
  rw [uriParams_pinVals] at hholds ⊢
  refine ⟨_, commandsFrom_pinVals hholds hreads, ?_⟩
  rw [List.take_of_length_le (by rwa [List.length_map]), List.map_map]
  intro p i x
  rw [List.getElem?_map]
  cases hi : ts[i]? with
  | none =>
      have hnone : (pinsOf args)[i]? = none := by
        rw [List.getElem?_eq_none_iff] at hi ⊢
        omega
      simp [hnone]
  | some t =>
      obtain ⟨q, text, htext, hq, hcmd, _⟩ := commandOf_sentTexts hts hpins hi
      rw [Option.map_some, Function.comp_apply, hcmd, htext, Option.some.injEq,
        Prod.mk.injEq]
      constructor
      · intro h
        obtain ⟨rfl, rfl⟩ := h
        exact ⟨⟨text, rfl, hq⟩, rfl⟩
      · intro h
        obtain ⟨⟨text', htext', hp⟩, rfl⟩ := h
        obtain rfl := Option.some.inj htext'
        exact ⟨Int.ofNat.inj (hq.symm.trans hp), rfl⟩

/-- The pins a line drives, and to what: each to the value at its last
index. -/
theorem drives_iff {args : List JsString} {n : Nat} {cs : List Command}
    {pcParam pcValue : Nat → CharPtr}
    (hrun : commandsFrom pcParam pcValue n 0 = .ok cs)
    (hcs : ∀ (p i : Nat) x, cs[i]? = some (p, x) ↔
      (∃ text, (pinsOf args)[i]? = some text ∧ IsPin text p) ∧
        x = wireInt (valsOf args)[i]?)
    (hpins : PinsInRange args) {p : Nat} {x : Int} :
    Drives n pcParam pcValue p x ↔ ∃ i : Nat, IsLastPin args p i ∧
      x = wireInt (valsOf args)[i]? ∧ 0 ≤ x := by
  have hlast : ∀ i : Nat,
      (∀ j (w : Command), i < j → cs[j]? = some w → w.1 ≠ p) ↔
        ∀ j text, i < j → (pinsOf args)[j]? = some text → ¬ IsPin text p := by
    intro i
    constructor
    · intro h j text hj htext hp
      exact h j (p, wireInt (valsOf args)[j]?) hj
        ((hcs p j _).2 ⟨⟨text, htext, hp⟩, rfl⟩) rfl
    · rintro h j ⟨q, y⟩ hj hw rfl
      obtain ⟨⟨text, htext, hp⟩, _⟩ := (hcs q j y).1 hw
      exact h j text hj htext hp
  constructor
  · intro h'
    obtain ⟨cs', hrun', hmem, hx⟩ := h'
    rw [hrun] at hrun'
    obtain rfl := Except.ok.inj hrun'
    have hread := lastFor_of_mem (nodup_requested cs) hmem
    rw [lastFor_requested] at hread
    split at hread
    · obtain ⟨i, hi, hafter⟩ := lastFor_eq_some.1 hread
      obtain ⟨hpin, hval⟩ := (hcs p i x).1 hi
      exact ⟨i, ⟨hpin, (hlast i).1 hafter⟩, hval, hx⟩
    · cases hread
  · intro h'
    obtain ⟨i, ⟨⟨text, htext, hp⟩, hafter⟩, hval, hx⟩ := h'
    obtain ⟨q, h1, h9, hq⟩ := hpins.2 _ (List.mem_of_getElem? htext)
    obtain rfl : q = p := Int.ofNat.inj (hq.symm.trans hp)
    refine ⟨cs, hrun, mem_of_lastFor ?_, hx⟩
    rw [lastFor_requested, if_pos (mem_apiPins.2 ⟨h1, h9⟩)]
    exact lastFor_eq_some.2 ⟨i, (hcs q i x).2 ⟨⟨text, htext, hp⟩, hval⟩,
      (hlast i).2 hafter⟩

/-! ## The line -/

/-- A pin that is given no value stays as it is. -/
theorem level_of_not_drives {n : Nat} {pcParam pcValue : Nat → CharPtr}
    {p : Nat} (h : ∀ x, ¬ Drives n pcParam pcValue p x) {g g' : Gpio}
    {res : String}
    (hrun : handleRequestParams n pcParam pcValue g = .ok (g', res)) :
    g'.level p = g.level p := by
  rw [handleRequestParams_eq, map_eq_ok] at hrun
  obtain ⟨cs, hcs, hg⟩ := hrun
  rw [← (Prod.mk.inj hg).1, level_after, ← lastFor_requested]
  cases hv : lastFor p (requested cs) with
  | none => rfl
  | some x =>
      have hneg : ¬ x ≥ 0 := fun hx => h x ⟨cs, hcs, mem_of_lastFor hv, hx⟩
      show levelAfter g (p, x) = _
      rw [levelAfter, if_neg hneg]

/-- The pins of a `set` line are driven to values of their own exactly when
the values at their indices are. -/
theorem select_ownValues_iff {getDeviceList : JsString → List Device}
    {args : List JsString} {query sent : List Char} (hset : js "set" ∈ args)
    (hpins : PinsInRange args)
    (hselect : select getDeviceList args = .ok (.request query))
    (hsent : sentQuery query = some sent) {pcParam pcValue : Nat → CharPtr}
    (hholds : Holds (uriParams sent) pcParam pcValue) :
    OwnValuesOnly args (uriParams sent).length pcParam pcValue ↔
      IndexGivesOwn args := by
  obtain ⟨ts, hts, rfl⟩ := select_request hset hselect
  rw [sentQuery_join] at hsent
  obtain rfl := Option.some.inj hsent
  obtain ⟨cs, hrun, hcs⟩ := commandsFrom_select hts hpins hholds
  have hdrives := fun p x => drives_iff (p := p) (x := x) hrun hcs hpins
  constructor
  · rintro ⟨hown, _⟩ p i hlast hx
    exact hown p _ ((hdrives p _).2 ⟨i, hlast, rfl, hx⟩)
  · intro hindex
    have hown : ∀ p x, Drives
        (uriParams (formSerialize (ts.map pinValPairs).flatten)).length
        pcParam pcValue p x →
          ∃ own, HasOwn args p own ∧ valueInt own = x := by
      intro p x hd
      obtain ⟨i, hlast, rfl, hx⟩ := (hdrives p x).1 hd
      exact hindex p i hlast hx
    refine ⟨hown, fun p hnone g g' res hhandle => ?_⟩
    refine level_of_not_drives (fun x hd => ?_) hhandle
    obtain ⟨own, hhas, _⟩ := hown p x hd
    exact hnone own hhas

/-! ## Two lines -/

def oneDevice : JsString → List Device := fun _ => [⟨none, none, none, none⟩]

/-- Each pin with its value behind it. -/
def pairedLine : List JsString :=
  [js "set", js "--pin=2", js "--val=1", js "--pin=3", js "--val=0"]

/-- A pin without a value. -/
def bareLine : List JsString := [js "set", js "--pin=2"]

theorem select_ownValues_iff_paired :
    ∃ query sent, select oneDevice pairedLine = .ok (.request query) ∧
      sentQuery query = some sent ∧
      (OwnValuesOnly pairedLine (uriParams sent).length
        (paramNames (uriParams sent)) (paramValues (uriParams sent)) ↔
          IndexGivesOwn pairedLine) := by
  have hselect : select oneDevice pairedLine =
      .ok (.request (joinQueries (([("2".toList, "1".toList),
        ("3".toList, "0".toList)].map pinValPairs).map queryOf))) := by
    decide +kernel
  refine ⟨_, _, hselect, sentQuery_join _, ?_⟩
  refine select_ownValues_iff (by decide) ⟨by decide, ?_⟩ hselect
    (sentQuery_join _) (holds_fresh _)
  intro pin hpin
  have hpin : pin ∈ [js "2", js "3"] := hpin
  rcases List.mem_cons.1 hpin with rfl | hpin
  · exact ⟨2, by decide, by decide, by decide⟩
  · obtain rfl := List.mem_singleton.1 hpin
    exact ⟨3, by decide, by decide, by decide⟩

/-- A high pin that is given no value is driven low. -/
theorem select_drives_bare_pin :
    ∃ query sent, select oneDevice bareLine = .ok (.request query) ∧
      sentQuery query = some sent ∧
      (handleRequestParams (uriParams sent).length
        (paramNames (uriParams sent)) (paramValues (uriParams sent))
        ⟨fun _ => true, fun _ => true, []⟩).map
          (fun r => (r.1.level 2, r.1.puts)) = .ok (false, [(2, false)]) ∧
      ¬ OwnValuesOnly bareLine (uriParams sent).length
        (paramNames (uriParams sent)) (paramValues (uriParams sent)) := by
  have hselect : select oneDevice bareLine = .ok (.request
      (joinQueries (([("2".toList, [])].map pinValPairs).map queryOf))) := by
    decide +kernel
  have hparams : uriParams (formSerialize
      ([("2".toList, ([] : List Char))].map pinValPairs).flatten) =
        [("pin", some "2"), ("val", some "")] := by
    rw [uriParams_pinVals]
    rfl
  refine ⟨_, _, hselect, sentQuery_join _, ?_⟩
  rw [hparams]
  refine ⟨rfl, ?_⟩
  intro h
  obtain ⟨hown, _⟩ := h
  have hdrives : Drives 2 (paramNames [("pin", some "2"), ("val", some "")])
      (paramValues [("pin", some "2"), ("val", some "")]) 2 0 :=
    ⟨[(2, 0)], rfl, by decide, by decide⟩
  obtain ⟨own, ⟨text, hmem, _⟩, _⟩ := hown 2 0 hdrives
  have hnone : ownValues bareLine = [(js "2", none)] := by decide
  rw [hnone, List.mem_singleton] at hmem
  exact absurd (Prod.mk.inj hmem).2 (by simp)

end IotHome.Cmd
