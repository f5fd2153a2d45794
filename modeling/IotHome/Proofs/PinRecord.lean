import IotHome.Lib.JsonRead
import IotHome.Proofs.HandlerErrors

/-!
# What an answer leaves of the record of the pins

The states of an answer are put in the place of the record, not into it. Under
a pin of the answer there is its last state then, and under the others there
is nothing, so the record is the old one with the answer's states only if the
answer has every pin that was recorded (`merges_iff`).
-/

namespace IotHome.Server

open IotHome.Lib

/-- The state recorded for a pin, by the name of its property. -/
def Device.recorded (d : Device) (pin : JsString) : Option Json :=
  d.devPinStates.bind fun states => states.get pin

/-- The pin of a state, if that is a number. -/
def statePin (state : Json) : Option Dec :=
  match getProp? (some state) "pin" with
  | some (.num pin) => some pin
  | _ => none

def pinName (pin : Dec) : JsString := pin.text.flatMap utf16Encode

/-- The last state an answer has for a pin. -/
def lastState (pin : JsString) (states : List Json) : Option Json :=
  lastFor pin (states.filterMap fun state =>
    (statePin state).map fun n => (pinName n, state))

/-- After a call, the states of its answer are in the record; an answer that
is no array changes nothing. -/
def Merges (d d' : Device) (answer : JsValue) : Prop :=
  (∀ states, answer = some (.arr states) → ∀ pin,
    d'.recorded pin = (lastState pin states).or (d.recorded pin)) ∧
  ((∀ states, answer ≠ some (.arr states)) →
    d'.devPinStates = d.devPinStates)

/-- The call has this for its response. -/
def Device.Answered (net : Network) (d : Device) (c : DeviceCall)
    (body : JsString) : Prop :=
  ∃ query, d.callQuery c = .ok (some query) ∧
    net d.ip d.port query = .response body

/-- If the response is an array, its elements are states of pins. -/
def PinStatesOnly (answer : JsValue) : Prop :=
  ∀ states, answer = some (.arr states) →
    ∀ state ∈ states, ∃ pin, statePin state = some pin

/-! ## The record of an answer -/

theorem statePin_eq_some {state : Json} {pin : Dec} :
    statePin state = some pin ↔
      getProp? (some state) "pin" = some (.num pin) := by
  rw [statePin]
  split
  · next n hn => simp [hn]
  · next hn =>
      constructor
      · simp
      · exact fun h => absurd h (hn pin)

theorem statePin_normal {state : Json} {pin : Dec}
    (h : Json.Canonical state) (hpin : statePin state = some pin) :
    pin.Normal := by
  have hprop := statePin_eq_some.1 hpin
  cases state with
  | obj fields => exact (h.lastFor hprop).normal
  | _ => cases hprop

theorem pinName_inj {p q : Dec} (hp : p.Normal) (hq : q.Normal)
    (h : pinName p = pinName q) : p = q := by
  obtain ⟨hencp, hdecp, _⟩ := Json.flatMap_numeral fun c => mem_text (d := p) c
  obtain ⟨hencq, hdecq, _⟩ := Json.flatMap_numeral fun c => mem_text (d := q) c
  rw [pinName, pinName, hencp, hencq] at h
  refine text_injective hp hq ?_
  rw [← hdecp, h, hdecq]

/-- The name of a key of the map of states. -/
def MapKey.name : MapKey → JsString
  | .num n => pinName n
  | _ => []

theorem fromEntries_eq {m : OrderedMap MapKey (JsValue × Json)}
    (h : ∀ w ∈ m.entries, propertyKey w.2.1 = .ok w.1.name) :
    fromEntries m =
      .ok (.ofWrites (m.entries.map fun w => (w.1.name, w.2.2))) := by
  have hfrom : ∀ (ws : List (MapKey × JsValue × Json)) (o : PinStates),
      (∀ w ∈ ws, propertyKey w.2.1 = .ok w.1.name) →
      (ws.map Prod.snd).foldlM (fun o entry => do
        let key ← propertyKey entry.1
        pure (o.set key entry.2)) o =
      (.ok ((ws.map fun w => (w.1.name, w.2.2)).foldl
        (fun m w => m.set w.1 w.2) o) : Except JsError _) := by
    intro ws
    induction ws with
    | nil => intro o _; rfl
    | cons w ws ih =>
        intro o hws
        rw [List.map_cons, List.foldlM_cons, hws w List.mem_cons_self]
        exact ih _ fun u hu => hws u (List.mem_cons_of_mem w hu)
  exact hfrom m.entries .empty h

section

variable {states : List Json}

theorem mem_stateWrites
    (hstates : ∀ state ∈ states, ∃ pin, statePin state = some pin)
    {w : MapKey × JsValue × Json} (hw : w ∈ stateWrites states) :
    ∃ pin, w.1 = .num pin ∧ w.2.1 = some (.num pin) ∧ w.2.2 ∈ states ∧
      statePin w.2.2 = some pin := by
  obtain ⟨s, hs, rfl⟩ := List.mem_map.1 hw
  have hmem := List.fst_mem_of_mem_zipIdx hs
  obtain ⟨pin, hpin⟩ := hstates s.1 hmem
  have hprop := statePin_eq_some.1 hpin
  exact ⟨pin, by simp [hprop, mapKey], hprop, hmem, hpin⟩

theorem map_stateWrites
    (hstates : ∀ state ∈ states, ∃ pin, statePin state = some pin) :
    (stateWrites states).map (fun w => (w.1.name, w.2.2)) =
      states.filterMap fun state =>
        (statePin state).map fun n => (pinName n, state) := by
  have hfrom : ∀ i, ((states.zipIdx i).map fun s =>
      (mapKey s.2 (getProp? (some s.1) "pin"),
        getProp? (some s.1) "pin", s.1)).map (fun w => (w.1.name, w.2.2)) =
      states.filterMap fun state =>
        (statePin state).map fun n => (pinName n, state) := by
    induction states with
    | nil => intro i; rfl
    | cons state states ih =>
        intro i
        obtain ⟨pin, hpin⟩ := hstates state List.mem_cons_self
        rw [List.zipIdx_cons, List.map_cons, List.map_cons,
          ih (fun s hs => hstates s (List.mem_cons_of_mem state hs)),
          List.filterMap_cons, hpin, statePin_eq_some.1 hpin]
        rfl
  exact hfrom 0

/-- Under a pin of the answer its last state is recorded, and nothing under
any other. -/
theorem recordStates_arr (hcanonical : Json.Canonical (.arr states))
    (hstates : ∀ state ∈ states, ∃ pin, statePin state = some pin) :
    ∃ o, recordStates (some (.arr states)) = .ok (some o) ∧
      ∀ pin, o.get pin = lastState pin states := by
  have hnormal : ∀ state ∈ states, ∀ pin, statePin state = some pin →
      pin.Normal := fun state hstate pin hpin =>
    statePin_normal (hcanonical.elems state hstate) hpin
  have hnull : ∀ state ∈ states, isNull state = false := by
    intro state hstate
    obtain ⟨pin, hpin⟩ := hstates state hstate
    cases state with
    | null => cases hpin
    | _ => rfl
  have hentries : ∀ w ∈ (OrderedMap.ofWrites (stateWrites states)).entries,
      propertyKey w.2.1 = .ok w.1.name := by
    intro w hw
    obtain ⟨pin, hkey, hprop, _⟩ := mem_stateWrites hstates
      (mem_of_lastFor (OrderedMap.mem_entries_ofWrites.1 hw))
    rw [hkey, hprop, propertyKey, toJsString]
    rfl
  refine ⟨.ofWrites ((OrderedMap.ofWrites (stateWrites states)).entries.map
    fun w => (w.1.name, w.2.2)), ?_, fun pin => ?_⟩
  · rw [recordStates, pinStateMap_eq hnull, ok_bind, fromEntries_eq hentries]
    rfl
  · have hinj : ∀ w ∈ stateWrites states, ∀ u ∈ stateWrites states,
        w.1.name = u.1.name → w.1 = u.1 := by
      intro w hw u hu hname
      obtain ⟨p, hp, _, hpmem, hpin⟩ := mem_stateWrites hstates hw
      obtain ⟨q, hq, _, hqmem, hqpin⟩ := mem_stateWrites hstates hu
      rw [hp, hq] at hname ⊢
      rw [pinName_inj (hnormal _ hpmem p hpin) (hnormal _ hqmem q hqpin) hname]
    have hvalue : ∀ ws : List (MapKey × JsValue × Json),
        lastFor pin (ws.map fun w => (w.1.name, w.2.2)) =
          (lastFor pin (ws.map fun w => (w.1.name, w.2))).map Prod.snd := by
      intro ws
      rw [← lastFor_map, List.map_map]
      rfl
    rw [OrderedMap.get_ofWrites, lastState, ← map_stateWrites hstates, hvalue,
      hvalue, OrderedMap.lastFor_rename_entries hinj pin]

end

theorem recordStates_other {answer : JsValue}
    (h : ∀ states, answer ≠ some (.arr states)) :
    recordStates answer = .ok none := by
  rw [recordStates]
  · rfl
  · exact h

/-! ## The record after a call -/

theorem call_eq {net : Network} {d : Device} {c : DeviceCall}
    {body : JsString} (h : d.Answered net c body) :
    d.call net c = d.recordAnswer (.response body) := by
  obtain ⟨query, hquery, hbody⟩ := h
  rw [Device.call, hquery, ok_bind]
  exact congrArg d.recordAnswer hbody

theorem exists_recordAnswer {body : JsString} (d : Device)
    (hstates : PinStatesOnly (Json.parse body)) :
    ∃ d' states, d.recordAnswer (.response body) = .ok (d', states) ∧
      (∀ elems, Json.parse body = some (.arr elems) →
        ∀ pin, d'.recorded pin = lastState pin elems) ∧
      ((∀ elems, Json.parse body ≠ some (.arr elems)) →
        d'.devPinStates = d.devPinStates) := by
  by_cases harr : ∃ elems, Json.parse body = some (.arr elems)
  · obtain ⟨elems, helems⟩ := harr
    obtain ⟨o, ho, hget⟩ := recordStates_arr (Json.parse_canonical helems)
      (hstates elems helems)
    refine ⟨_, some o, recordAnswer_eq_ok.2 ⟨_, rfl, ?_, rfl⟩, ?_, ?_⟩
    · rw [helems, ho]
    · intro elems' helems' pin
      rw [helems] at helems'
      obtain rfl := Json.arr.inj (Option.some.inj helems')
      exact hget pin
    · exact fun hother => absurd helems (hother elems)
  · have hother : ∀ elems, Json.parse body ≠ some (.arr elems) :=
      fun elems helems => harr ⟨elems, helems⟩
    exact ⟨_, none, recordAnswer_eq_ok.2
      ⟨_, rfl, recordStates_other hother, rfl⟩,
      fun elems helems => absurd helems (hother elems), fun _ => rfl⟩

/-- A call whose answer is an array keeps what was recorded of the other pins
just if there are none. -/
theorem merges_iff {net : Network} {d : Device} {c : DeviceCall}
    {body : JsString} (h : d.Answered net c body)
    (hstates : PinStatesOnly (Json.parse body)) :
    ∃ d' states, d.call net c = .ok (d', states) ∧
      (Merges d d' (Json.parse body) ↔
        ∀ elems, Json.parse body = some (.arr elems) →
          ∀ pin, (d.recorded pin).isSome → (lastState pin elems).isSome) := by
  obtain ⟨d', states, hd', harr, hother⟩ := exists_recordAnswer d hstates
  refine ⟨d', states, (call_eq h).trans hd', ?_⟩
  constructor
  · intro hmerges elems helems pin hpin
    have hrecord := hmerges.1 elems helems pin
    rw [harr elems helems pin] at hrecord
    rw [hrecord, Option.isSome_or, hpin, Bool.or_true]
  · intro hcovers
    refine ⟨fun elems helems pin => ?_, hother⟩
    rw [harr elems helems pin]
    cases hlast : lastState pin elems with
    | some state => rfl
    | none =>
        have hpin := hcovers elems helems pin
        rw [hlast] at hpin
        cases hold : d.recorded pin with
        | none => rfl
        | some state =>
            rw [hold] at hpin
            exact absurd (hpin rfl) (by simp)

/-! ## One switch of two -/

def stateOf (pin : Nat) : Json :=
  .obj [(js "pin", .num (.ofInt pin)), (js "val", .num (.ofInt 1))]

/-- A device with the pins 2 and 3 in its record. -/
def recordedTwo : Device :=
  ⟨none, none, none,
    some (.ofWrites [(js "2", stateOf 2), (js "3", stateOf 3)])⟩

def answersPins (pins : List Nat) : Network :=
  fun _ _ _ => .response (Json.stringify (.arr (pins.map stateOf)))

theorem stateOf_canonical (pin : Nat) : Json.Canonical (stateOf pin) := by
  refine .obj (by show [js "pin", js "val"].Nodup; decide) ?_
  simp only [List.forall_mem_cons]
  exact ⟨.num (Dec.ofInt_normal _), .num (Dec.ofInt_normal _),
    List.forall_mem_nil _⟩

theorem parse_answersPins (pins : List Nat) :
    Json.parse (Json.stringify (.arr (pins.map stateOf))) =
      some (.arr (pins.map stateOf)) :=
  Json.parse_stringify (.arr (List.forall_mem_map.2
    fun pin _ => stateOf_canonical pin))

theorem pinStatesOnly_answersPins (pins : List Nat) :
    PinStatesOnly (Json.parse (Json.stringify (.arr (pins.map stateOf)))) := by
  intro states hstates
  rw [parse_answersPins] at hstates
  obtain rfl := Json.arr.inj (Option.some.inj hstates)
  exact List.forall_mem_map.2 fun pin _ => ⟨.ofInt pin, rfl⟩

/-- The switch of pin 2 is set. -/
theorem answered_switch (pins : List Nat) :
    recordedTwo.Answered (answersPins pins)
      (.setState (some (.arr [stateOf 2])))
      (Json.stringify (.arr (pins.map stateOf))) :=
  ⟨_, rfl, rfl⟩

theorem merges_iff_both : ∃ d' states,
    recordedTwo.call (answersPins [2, 3])
      (.setState (some (.arr [stateOf 2]))) = .ok (d', states) ∧
    (Merges recordedTwo d'
        (Json.parse (Json.stringify (.arr ([2, 3].map stateOf)))) ↔
      ∀ elems, Json.parse (Json.stringify (.arr ([2, 3].map stateOf))) =
          some (.arr elems) →
        ∀ pin, (recordedTwo.recorded pin).isSome →
          (lastState pin elems).isSome) :=
  merges_iff (answered_switch [2, 3]) (pinStatesOnly_answersPins [2, 3])

/-- The device answers with the pin that was set, and the record of the other
is gone. -/
theorem not_merges : ¬ ∀ (net : Network) (d : Device) (c : DeviceCall)
    (body : JsString), d.Answered net c body →
    PinStatesOnly (Json.parse body) →
    ∃ d' states, d.call net c = .ok (d', states) ∧
      Merges d d' (Json.parse body) := by
  intro h
  obtain ⟨d', states, hd', hmerges⟩ := h (answersPins [2]) recordedTwo
    (.setState (some (.arr [stateOf 2]))) _ (answered_switch [2])
    (pinStatesOnly_answersPins [2])
  obtain ⟨d'', states', hd'', harr, _⟩ := exists_recordAnswer recordedTwo
    (pinStatesOnly_answersPins [2])
  rw [call_eq (answered_switch [2]), hd''] at hd'
  obtain ⟨rfl, rfl⟩ := Prod.mk.inj (Except.ok.inj hd')
  have hkept := hmerges.1 _ (parse_answersPins [2]) (js "3")
  rw [harr _ (parse_answersPins [2])] at hkept
  have hgone : (lastState (js "3") ([2].map stateOf)).isNone = true := by
    decide +kernel
  have hold : (recordedTwo.recorded (js "3")).isSome = true := by
    decide +kernel
  rw [Option.isNone_iff_eq_none] at hgone
  rw [hgone, Option.none_or] at hkept
  rw [← hkept] at hold
  cases hold

end IotHome.Server
