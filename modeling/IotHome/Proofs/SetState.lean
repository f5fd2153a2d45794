import IotHome.Firmware.Uri
import IotHome.Proofs.ApiResponse

/-!
# A control message, from the server to the pins and back

`setState` writes two parameters for each state, a `pin` and its `val`, and
the device looks at ten parameters. So of the states of a message the first
five reach the pins and the record, in whatever order the pins are named, and
the rest do not.

The way there is the query (`setStateQuery_states`), what the web server
cuts it into (`uriParams_states`), and the commands the handler reads
(`commandsFrom_states`); the way back is `recordStates_response`.
-/

namespace IotHome.Firmware

open IotHome.Lib
open IotHome.Server

/-- A state of a control message, with its pin and its value, 0 or 1. -/
def IsState (j : Json) (s : Nat × Bool) : Prop :=
  ∃ fields, j = .obj fields ∧
    lastFor (js "pin") fields = some (.num (Dec.ofInt s.1)) ∧
    lastFor (js "val") fields = some (.num (Dec.ofInt s.2.toNat))

def PinInRange (s : Nat × Bool) : Prop := 1 ≤ s.1 ∧ s.1 ≤ 9

theorem PinInRange.lt_ten {s : Nat × Bool} (h : PinInRange s) : s.1 < 10 :=
  Nat.lt_of_le_of_lt h.2 (by decide)

/-- The command a state is sent for. -/
def stateCommand (s : Nat × Bool) : Command := (s.1, s.2.toNat)

/-! ## The way there -/

def statePairs (s : Nat × Bool) : List Pair :=
  pinValPairs ((toString s.1).toList, (toString s.2.toNat).toList)

theorem stateQuery_state {j : Json} {s : Nat × Bool} (h : IsState j s)
    (hpin : PinInRange s) : stateQuery j = .ok (queryOf (statePairs s)) := by
  obtain ⟨fields, rfl, hp, hv⟩ := h
  have hsmall : ((s.1 : Nat) : Int).natAbs < 10 ^ 21 := by
    have hlt := hpin.lt_ten
    omega
  have hptext : stringifyPrimitive (some (.num (Dec.ofInt s.1))) =
      .ok (toString s.1).toList := by
    rw [stringifyPrimitive, text_ofInt hsmall]
    rfl
  have hvtext : stringifyPrimitive (some (.num (Dec.ofInt s.2.toNat))) =
      .ok (toString s.2.toNat).toList := by
    rw [stringifyPrimitive, text_ofInt (small_bit _)]
    rfl
  rw [stateQuery, getProp, getProp, hp, hv]
  simp only [ok_bind, stringify, stringifyPairs, List.mapM_cons,
    List.mapM_nil, fieldPairs, hptext, hvtext, pure_eq_ok, map_ok]
  rfl

theorem setStateQuery_states {js' : List Json} {ss : List (Nat × Bool)}
    (h : List.Forall₂ IsState js' ss) (hpins : ∀ s ∈ ss, PinInRange s) :
    setStateQuery (some (.arr js')) =
      .ok (joinQueries ((ss.map statePairs).map queryOf)) := by
  have hparts : js'.mapM stateQuery =
      .ok ((ss.map statePairs).map queryOf) := by
    induction h with
    | nil => rfl
    | cons hj _ ih =>
        rw [List.mapM_cons, stateQuery_state hj (hpins _ List.mem_cons_self),
          ok_bind, ih fun s hs => hpins s (List.mem_cons_of_mem _ hs)]
        rfl
  rw [setStateQuery, hparts]
  rfl

def stateTexts (s : Nat × Bool) : String × String :=
  (toString s.1, toString s.2.toNat)

theorem uriParams_states (ss : List (Nat × Bool)) :
    uriParams (formSerialize (ss.map statePairs).flatten) =
      (pinVals (ss.map stateTexts)).take 16 := by
  have hpairs : ss.map statePairs = (ss.map fun s => ((toString s.1).toList,
      (toString s.2.toNat).toList)).map pinValPairs := by
    rw [List.map_map]
    rfl
  rw [hpairs, uriParams_pinVals, List.map_map]
  congr 2
  refine List.map_congr_left fun s _ => ?_
  show sentTexts (_, _) = _
  rw [sentTexts, formEncode_toString, formEncode_toString, stateTexts]

theorem commandOf_stateTexts {s : Nat × Bool} (h : PinInRange s) :
    commandOf (stateTexts s) = stateCommand s := by
  have hval : s.2.toNat < 10 := by
    have hle := Bool.toNat_le s.2
    omega
  rw [commandOf, stateTexts, readInt_toString, readInt_toString,
    clampInt32_small h.lt_ten, clampInt32_small hval]
  rfl

/-- The commands the handler reads off the query of a control message. -/
theorem commandsFrom_states {ss : List (Nat × Bool)}
    (hpins : ∀ s ∈ ss, PinInRange s) {pcParam pcValue : Nat → CharPtr}
    (h : Holds ((pinVals (ss.map stateTexts)).take 16) pcParam pcValue) :
    commandsFrom pcParam pcValue
        ((pinVals (ss.map stateTexts)).take 16).length 0 =
      .ok ((ss.take 5).map stateCommand) := by
  rw [commandsFrom_pinVals h, ← List.map_take, List.map_map]
  · refine congrArg Except.ok (List.map_congr_left fun s hs => ?_)
    exact commandOf_stateTexts (hpins s (List.mem_of_mem_take hs))
  · intro w hw
    obtain ⟨s, hs, rfl⟩ := List.mem_map.1 hw
    have hpin := (hpins s hs).lt_ten
    rw [ReadsAsPin, stateTexts, readInt_toString, clampInt32_small hpin]
    omega

/-! ## What a list of states asks for -/

theorem lastFor_states {ss : List (Nat × Bool)}
    (hnd : (ss.map Prod.fst).Nodup) {s : Nat × Bool} (hs : s ∈ ss) :
    lastFor s.1 (ss.map stateCommand) = some (s.2.toNat : Int) := by
  refine lastFor_of_mem ?_ ?_
  · rw [List.map_map]
    exact hnd
  · exact List.mem_map_of_mem hs

theorem mem_requested_states {ss : List (Nat × Bool)}
    (hpins : ∀ s ∈ ss, PinInRange s) (hnd : (ss.map Prod.fst).Nodup)
    {c : Command} :
    c ∈ requested (ss.map stateCommand) ↔ ∃ s ∈ ss, c = stateCommand s := by
  constructor
  · intro hc
    obtain ⟨s, hs, rfl⟩ := List.mem_map.1 (mem_requested hc)
    exact ⟨s, hs, rfl⟩
  · intro h
    obtain ⟨s, hs, rfl⟩ := h
    refine mem_of_lastFor ?_
    rw [lastFor_requested, if_pos (mem_apiPins.2 (hpins s hs)),
      lastFor_states hnd hs]

theorem levelAfter_state (g : Gpio) (s : Nat × Bool) :
    levelAfter g (stateCommand s) = s.2 := by
  obtain ⟨p, v⟩ := s
  cases v with
  | true => rfl
  | false => rfl

theorem level_states {ss : List (Nat × Bool)}
    (hpins : ∀ s ∈ ss, PinInRange s) (hnd : (ss.map Prod.fst).Nodup)
    (g : Gpio) :
    (∀ s ∈ ss, ((requested (ss.map stateCommand)).foldl drive g).level s.1 =
      s.2) ∧
    (∀ p, p ∉ ss.map Prod.fst →
      ((requested (ss.map stateCommand)).foldl drive g).level p =
        g.level p) := by
  constructor
  · intro s hs
    rw [level_after, if_pos (mem_apiPins.2 (hpins s hs)),
      lastFor_states hnd hs]
    exact levelAfter_state g s
  · intro p hp
    have hnone : lastFor p (ss.map stateCommand) = none := by
      refine lastFor_of_notMem ?_
      rw [List.map_map]
      exact hp
    rw [level_after, hnone, ite_self]

theorem smallNumbers_states {ss : List (Nat × Bool)}
    (hpins : ∀ s ∈ ss, PinInRange s) :
    ∀ c ∈ requested (ss.map stateCommand), SmallNumbers c := by
  intro c hc
  obtain ⟨s, hs, rfl⟩ := List.mem_map.1 (mem_requested hc)
  have hpin := (hpins s hs).lt_ten
  refine ⟨?_, small_bit s.2⟩
  show ((s.1 : Nat) : Int).natAbs < _
  omega

/-! ## There and back -/

/-- One entry for each of the states, with the value as the level. -/
def Records (m : PinStates) (ss : List (Nat × Bool)) : Prop :=
  (∀ k, k ∈ m.keys ↔ ∃ s ∈ ss, k = pinKey s.1) ∧
  ∀ s ∈ ss, ∃ state, m.get (pinKey s.1) = some state ∧
    getProp? (some state) "sta" = some (.num (Dec.ofInt s.2.toNat))

theorem records_of_entries {ss : List (Nat × Bool)}
    (hpins : ∀ s ∈ ss, PinInRange s) (hnd : (ss.map Prod.fst).Nodup)
    {g : Gpio} {m : PinStates}
    (hm : m.entries = (requested (ss.map stateCommand)).map
      fun c => (pinKey c.1, stateJson g c)) : Records m ss := by
  have hmem := fun c => mem_requested_states hpins hnd (c := c)
  constructor
  · intro k
    rw [OrderedMap.keys, hm, List.map_map, List.mem_map]
    constructor
    · intro h
      obtain ⟨c, hc, rfl⟩ := h
      obtain ⟨s, hs, rfl⟩ := (hmem c).1 hc
      exact ⟨s, hs, rfl⟩
    · intro h
      obtain ⟨s, hs, rfl⟩ := h
      exact ⟨stateCommand s, (hmem _).2 ⟨s, hs, rfl⟩, rfl⟩
  · intro s hs
    have hin := (hmem _).2 ⟨s, hs, rfl⟩
    refine ⟨stateJson g (stateCommand s), m.get_of_mem ?_, ?_⟩
    · rw [hm]
      exact List.mem_map.2 ⟨_, hin, rfl⟩
    · rw [getProp_sta, levelAfter_state]

/-- The message, sent to a device and processed by it, drives the states `ss`
and no other pin, and the answer is recorded as those states. What stands in
the parameter arrays behind the message's own parameters is left open. -/
def DrivesAndRecords (d : Device) (g : Gpio) (inStates : JsValue)
    (ss : List (Nat × Bool)) : Prop :=
  ∃ query sent, setStateQuery inStates = .ok query ∧
    sentQuery query = some sent ∧
    ∀ pcParam pcValue, Holds (uriParams sent) pcParam pcValue →
      ∃ g' res,
        handleRequestParams (uriParams sent).length pcParam pcValue g =
          .ok (g', res) ∧
        (∀ s ∈ ss, g'.level s.1 = s.2) ∧
        (∀ p, p ∉ ss.map Prod.fst → g'.level p = g.level p) ∧
        ∀ net : Network, net d.ip d.port query = .response (js res) →
          ∃ m, d.setState net inStates =
              .ok ({ d with devPinStates := some m }, some m) ∧
            Records m ss

/-- What the device does with the parameters of a control message. -/
theorem handleRequestParams_states {ss : List (Nat × Bool)}
    (hpins : ∀ s ∈ ss, PinInRange s) {pcParam pcValue : Nat → CharPtr}
    (h : Holds ((pinVals (ss.map stateTexts)).take 16) pcParam pcValue)
    (g : Gpio) :
    handleRequestParams ((pinVals (ss.map stateTexts)).take 16).length
        pcParam pcValue g =
      .ok ((requested ((ss.take 5).map stateCommand)).foldl drive g,
        responseText g (requested ((ss.take 5).map stateCommand))) := by
  rw [handleRequestParams_eq, commandsFrom_states hpins h, map_ok]

/-- A control message drives and records its first five states. -/
theorem setState_first_five {js' : List Json} {ss : List (Nat × Bool)}
    (h : List.Forall₂ IsState js' ss) (hpins : ∀ s ∈ ss, PinInRange s)
    (hnd : (ss.map Prod.fst).Nodup) (d : Device) (g : Gpio) :
    DrivesAndRecords d g (some (.arr js')) (ss.take 5) := by
  have hquery := setStateQuery_states h hpins
  refine ⟨_, _, hquery, sentQuery_join _, ?_⟩
  rw [uriParams_states]
  intro pcParam pcValue hholds
  have hpins5 : ∀ s ∈ ss.take 5, PinInRange s :=
    fun s hs => hpins s (List.mem_of_mem_take hs)
  have hnd5 : ((ss.take 5).map Prod.fst).Nodup := by
    rw [List.map_take]
    exact hnd.sublist (List.take_sublist 5 _)
  have hlevels := level_states hpins5 hnd5 g
  refine ⟨_, _, handleRequestParams_states hpins hholds g, hlevels.1,
    hlevels.2, ?_⟩
  intro net hnet
  obtain ⟨m, hm, hentries⟩ := recordStates_response (g := g)
    (smallNumbers_states hpins5) (nodup_requested _)
  refine ⟨m, ?_, records_of_entries hpins5 hnd5 hentries⟩
  rw [Device.setState, hquery, ok_bind]
  refine recordAnswer_eq_ok.2 ⟨_, ?_, hm, rfl⟩
  rw [hnet]
  rfl

/-- The states of a message as a client writes them. -/
def statesJson (ss : List (Nat × Bool)) : List Json :=
  ss.map fun s => .obj [(js "pin", .num (Dec.ofInt s.1)),
    (js "val", .num (Dec.ofInt s.2.toNat))]

theorem isState_statesJson (ss : List (Nat × Bool)) :
    List.Forall₂ IsState (statesJson ss) ss := by
  induction ss with
  | nil => exact .nil
  | cons s ss ih => exact .cons ⟨_, rfl, rfl, rfl⟩ ih

def lowBoard : Gpio := ⟨fun _ => false, fun _ => false, []⟩

def plainDevice : Device := ⟨none, none, some [2, 3], none⟩

theorem setState_first_five_two :
    DrivesAndRecords plainDevice lowBoard
      (some (.arr (statesJson [(2, true), (3, false)])))
      [(2, true), (3, false)] :=
  setState_first_five (isState_statesJson [(2, true), (3, false)])
    (by unfold PinInRange; decide) (by decide) plainDevice lowBoard

/-- Six pins to be driven high; the sixth is not. -/
def sixStates : List (Nat × Bool) :=
  [(1, true), (2, true), (3, true), (4, true), (5, true), (6, true)]

theorem setState_drops_sixth :
    ¬ DrivesAndRecords plainDevice lowBoard
      (some (.arr (statesJson sixStates))) sixStates := by
  have hpins : ∀ s ∈ sixStates, PinInRange s := by
    unfold PinInRange
    decide
  intro h
  obtain ⟨query, sent, hquery, hsent, hall⟩ := h
  rw [setStateQuery_states (isState_statesJson _) hpins] at hquery
  obtain rfl := Except.ok.inj hquery
  rw [sentQuery_join] at hsent
  obtain rfl := Option.some.inj hsent
  rw [uriParams_states] at hall
  have hholds := holds_fresh ((pinVals (sixStates.map stateTexts)).take 16)
  obtain ⟨g', res, hrun, hdriven, _⟩ := hall _ _ hholds
  rw [handleRequestParams_states hpins hholds] at hrun
  obtain ⟨rfl, _⟩ := Prod.mk.inj (Except.ok.inj hrun)
  have hsix := hdriven (6, true) (by decide)
  exact absurd hsix (by decide)

end IotHome.Firmware
