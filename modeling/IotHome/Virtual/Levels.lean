import IotHome.Virtual.DeviceControl
import Mathlib.Data.List.Induction

/-!
# What a request does to the virtual pins

A request is carried out parameter by parameter, and the state answered for a
parameter is the one its pin has at that moment. So a pin is left where the
last value it was given puts it, and the last state answered for it is the
one it is left in (`level_pinCtrl`, `lastFor_states`).

`WellKept` is what the map of states keeps to in every run from the start:
a state is filed under the number it names, and its level is 0 or 1.
-/

namespace IotHome.Virtual

open IotHome.Lib

/-- The level of a pin, low where it was never asked about. -/
def pinLevel (s : Pins) (p : Int) : Bool :=
  match s.get p with
  | some state => state.sta = 1
  | none => false

def WellKept (s : Pins) : Prop :=
  ∀ p state, s.get p = some state → state.pin = p ∧ state.sta ≤ 1

/-- The states the device can be in. -/
inductive Reachable : Pins → Prop where
  | init : Reachable initPins
  | request {s : Pins} (query : List (String × String)) :
      Reachable s → Reachable (pinCtrl s query).1

/-- The values a list of parameters gives to pins. -/
def writes (params : List (Int × Option JsNumber)) : List (Int × JsNumber) :=
  params.filterMap fun c => c.2.map fun v => (c.1, v)

/-! ## One parameter -/

theorem wellKept_set {s : Pins} (h : WellKept s) {pin : Int}
    {state : PinState} (hpin : state.pin = pin) (hsta : state.sta ≤ 1) :
    WellKept (s.set pin state) := by
  intro p st hst
  rcases OrderedMap.get_set_cases hst with ⟨hp, rfl⟩ | ⟨_, hold⟩
  · exact ⟨hpin.trans hp, hsta⟩
  · exact h p st hold

theorem pinLevel_set (s : Pins) (state : PinState) (pin p : Int) :
    pinLevel (s.set pin state) p =
      if pin = p then decide (state.sta = 1) else pinLevel s p := by
  by_cases hp : pin = p
  · rw [pinLevel, OrderedMap.get_set, if_pos hp, if_pos hp]
  · rw [pinLevel, OrderedMap.get_set, if_neg hp, if_neg hp, ← pinLevel]

/-- Asking for a state keeps every level, and gives the level of the pin. -/
theorem getState_spec {s : Pins} (h : WellKept s) (pin : Int) :
    WellKept (getState s pin).1 ∧
      (∀ p, pinLevel (getState s pin).1 p = pinLevel s p) ∧
      (getState s pin).2.pin = pin ∧
      (getState s pin).2.sta = (pinLevel s pin).toNat := by
  rw [getState]
  cases hget : s.get pin with
  | some current =>
      obtain ⟨hpin, hsta⟩ := h pin current hget
      refine ⟨h, fun _ => rfl, hpin, ?_⟩
      show current.sta = _
      rw [pinLevel, hget]
      show current.sta = (decide (current.sta = 1)).toNat
      rcases Nat.le_one_iff_eq_zero_or_eq_one.1 hsta with h0 | h1
      · rw [h0]; rfl
      · rw [h1]; rfl
  | none =>
      have hlow : pinLevel s pin = false := by rw [pinLevel, hget]
      refine ⟨wellKept_set h rfl (Nat.zero_le 1), fun p => ?_, rfl, ?_⟩
      · show pinLevel (s.set pin (defaultState pin)) p = _
        rw [pinLevel_set]
        split
        · next hp => rw [← hp, hlow]; rfl
        · rfl
      · rw [hlow]; rfl

/-- Giving a pin a value moves that pin. -/
theorem setState_spec {s : Pins} (h : WellKept s) (pin : Int)
    (val : JsNumber) :
    WellKept (setState s pin val).1 ∧
      (∀ p, pinLevel (setState s pin val).1 p =
        if pin = p then val.isPositive else pinLevel s p) ∧
      (setState s pin val).2.pin = pin ∧
      (setState s pin val).2.sta = val.isPositive.toNat := by
  obtain ⟨hkept, hlevel, _, _⟩ := getState_spec h pin
  have hsta : (setState s pin val).2.sta = val.isPositive.toNat := by
    show (if val.isPositive = true then 1 else 0) = val.isPositive.toNat
    cases val.isPositive <;> rfl
  have hset : (setState s pin val).1 =
      (getState s pin).1.set pin (setState s pin val).2 := rfl
  refine ⟨?_, fun p => ?_, rfl, hsta⟩
  · rw [hset]
    refine wellKept_set hkept rfl ?_
    rw [hsta]
    exact Bool.toNat_le _
  · rw [hset, pinLevel_set, hsta, hlevel]
    cases val.isPositive <;> rfl

theorem ctrlStep_spec {r : Pins × List PinState} (h : WellKept r.1)
    (param : Int × Option JsNumber) :
    WellKept (ctrlStep r param).1 ∧
      (∀ p, pinLevel (ctrlStep r param).1 p =
        ((lastFor p (writes [param])).map JsNumber.isPositive).getD
          (pinLevel r.1 p)) ∧
      ∃ state, (ctrlStep r param).2 = r.2 ++ [state] ∧
        state.pin = param.1 ∧
        state.sta = (pinLevel (ctrlStep r param).1 param.1).toNat := by
  obtain ⟨pin, val⟩ := param
  cases val with
  | none =>
      obtain ⟨hkept, hlevel, hpin, hsta⟩ := getState_spec h pin
      refine ⟨hkept, hlevel, (getState r.1 pin).2, rfl, hpin, ?_⟩
      rw [hsta, ← hlevel]
      rfl
  | some v =>
      obtain ⟨hkept, hlevel, hpin, hsta⟩ := setState_spec h pin v
      refine ⟨hkept, fun p => ?_, (setState r.1 pin v).2, rfl, hpin, ?_⟩
      · refine (hlevel p).trans ?_
        show _ = ((lastFor p [(pin, v)]).map JsNumber.isPositive).getD _
        rw [lastFor_cons]
        split <;> rfl
      · show _ = (pinLevel (setState r.1 pin v).1 pin).toNat
        rw [hsta, hlevel, if_pos rfl]

/-! ## A whole request -/

theorem foldl_ctrlStep_spec {s : Pins} (h : WellKept s)
    (params : List (Int × Option JsNumber)) :
    WellKept (params.foldl ctrlStep (s, [])).1 ∧
      (∀ p, pinLevel (params.foldl ctrlStep (s, [])).1 p =
        ((lastFor p (writes params)).map JsNumber.isPositive).getD
          (pinLevel s p)) ∧
      ∀ p, lastFor p ((params.foldl ctrlStep (s, [])).2.map fun state =>
          (state.pin, state.sta)) =
        if p ∈ params.map Prod.fst then
          some (pinLevel (params.foldl ctrlStep (s, [])).1 p).toNat
        else none := by
  induction params using List.reverseRecOn with
  | nil => exact ⟨h, fun _ => rfl, fun _ => rfl⟩
  | append_singleton params param ih =>
      obtain ⟨hkept, hlevel, hstates⟩ := ih
      obtain ⟨hkept', hlevel', state, hout, hpin, hsta⟩ :=
        ctrlStep_spec hkept param
      rw [List.foldl_append, List.foldl_cons, List.foldl_nil]
      refine ⟨hkept', fun p => ?_, fun p => ?_⟩
      · rw [hlevel', hlevel, writes, writes, writes, List.filterMap_append,
          lastFor_append]
        cases lastFor p (List.filterMap _ [param]) <;> rfl
      · rw [hout, List.map_append, List.map_append]
        by_cases hp : param.1 = p
        · subst hp
          rw [List.map_cons, hpin, List.map_nil, lastFor_concat_self, hsta,
            if_pos (by simp)]
        · have hsame : lastFor p (writes [param]) = none := by
            obtain ⟨pin, val⟩ := param
            cases val with
            | none => rfl
            | some v =>
                show lastFor p [(pin, v)] = none
                rw [lastFor_cons, if_neg hp]
                rfl
          have hmem : p ∈ params.map Prod.fst ++ List.map Prod.fst [param] ↔
              p ∈ params.map Prod.fst := by
            simp [Ne.symm hp]
          rw [List.map_cons, List.map_nil,
            lastFor_concat_ne (by rw [hpin]; exact hp), hstates, hlevel',
            hsame]
          simp only [hmem]
          rfl

theorem wellKept_pinCtrl {s : Pins} (h : WellKept s)
    (query : List (String × String)) : WellKept (pinCtrl s query).1 :=
  (foldl_ctrlStep_spec h _).1

theorem wellKept_of_reachable {s : Pins} (h : Reachable s) : WellKept s := by
  induction h with
  | init =>
      have hempty : WellKept .empty := by
        intro p state hget
        cases hget
      have hdefault : ∀ pin, (defaultState pin).sta ≤ 1 :=
        fun _ => Nat.zero_le 1
      exact wellKept_set (wellKept_set hempty rfl (hdefault 2)) rfl
        (hdefault 3)
  | request query _ ih => exact wellKept_pinCtrl ih query

/-- A pin is left where the last value it was given puts it. -/
theorem level_pinCtrl {s : Pins} (h : WellKept s)
    (query : List (String × String)) (p : Int) :
    pinLevel (pinCtrl s query).1 p =
      ((lastFor p (writes (getControlParams query))).map
        JsNumber.isPositive).getD (pinLevel s p) :=
  (foldl_ctrlStep_spec h _).2.1 p

/-- The last state answered for a pin is the one it is left in. -/
theorem lastFor_states {s : Pins} (h : WellKept s)
    (query : List (String × String)) {p : Int}
    (hp : p ∈ (getControlParams query).map Prod.fst) :
    lastFor p ((pinCtrl s query).2.map fun state => (state.pin, state.sta)) =
      some (pinLevel (pinCtrl s query).1 p).toNat := by
  refine ((foldl_ctrlStep_spec h _).2.2 p).trans ?_
  rw [if_pos hp]
  rfl

end IotHome.Virtual
