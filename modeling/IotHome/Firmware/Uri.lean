import IotHome.Firmware.Commands
import IotHome.Lib.UrlEncoded

/-!
# From a query to the parameter arrays

The web server cuts the query at every `&`, the first sixteen pieces become
the parameters, and a piece is cut in two at its first `=`; one without has
no value. `Holds` says that two arrays carry a parameter list, and nothing
about what stands behind it.

`commandsFrom_pinVals` reads the commands off a list that alternates between
a `pin` and its `val`: the loop looks at ten parameters, so they are those of
the first five pins.
-/

namespace IotHome.Firmware

open IotHome.Lib

/-- A parameter's name and value. -/
abbrev Param := String × CharPtr

def uriParam (part : List Char) : Param :=
  (String.ofList (splitPair part).1,
    if '=' ∈ part then some (String.ofList (splitPair part).2) else none)

/-- The parameters of a query. -/
def uriParams (query : List Char) : List Param :=
  if query = [] then []
  else ((query.splitOn '&').take 16).map uriParam

/-- The arrays hold the parameters, whatever comes behind them. -/
def Holds (params : List Param) (pcParam pcValue : Nat → CharPtr) : Prop :=
  ∀ i (h : i < params.length),
    pcParam i = some (params[i]).1 ∧ pcValue i = (params[i]).2

/-- The arrays of a server that has not had a request yet. -/
def paramNames (params : List Param) : Nat → CharPtr :=
  fun i => params[i]?.map Prod.fst

def paramValues (params : List Param) : Nat → CharPtr :=
  fun i => params[i]?.bind Prod.snd

theorem holds_fresh (params : List Param) :
    Holds params (paramNames params) (paramValues params) := by
  intro i hi
  rw [paramNames, paramValues, List.getElem?_eq_getElem hi]
  exact ⟨rfl, rfl⟩

theorem uriParams_formSerialize (pairs : List Pair) :
    uriParams (formSerialize pairs) = (pairs.take 16).map fun p =>
      (String.ofList (formEncode p.1),
        some (String.ofList (formEncode p.2))) := by
  cases pairs with
  | nil => rfl
  | cons p pairs =>
      have hne : formSerialize (p :: pairs) ≠ [] := by
        rw [formSerialize, List.map_cons]
        cases pairs with
        | nil => simp
        | cons q pairs => simp [List.intercalate_cons_cons]
      have hpair : ∀ q : Pair,
          uriParam (formEncode q.1 ++ '=' :: formEncode q.2) =
            (String.ofList (formEncode q.1),
              some (String.ofList (formEncode q.2))) := by
        intro q
        rw [uriParam, if_pos (by simp), splitPair_append (notMem_formEncode
          (by decide) (by decide) (by decide) (by decide) q.1)]
      rw [uriParams, if_neg hne, splitOn_formSerialize (by simp),
        ← List.map_take, List.map_map]
      exact List.map_congr_left fun q _ => hpair q

/-! ## Pins with their values -/

/-- Digits are sent as they are. -/
theorem formEncode_digits {cs : List Char}
    (h : ∀ c ∈ cs, c.isDigit = true) : formEncode cs = cs := by
  induction cs with
  | nil => rfl
  | cons c cs ih =>
      have hc := h c List.mem_cons_self
      have hspace : c ≠ ' ' := isDigit_ne hc (by decide)
      have hkeep : isFormChar c = true := by
        rw [isFormChar, Char.isAlphanum, hc, Bool.or_true, Bool.true_or]
      rw [formEncode, List.flatMap_cons, formEncodeChar, if_neg hspace,
        percentChar, if_pos hkeep, ← formEncode,
        ih fun d hd => h d (List.mem_cons_of_mem c hd)]
      rfl

theorem formEncode_toString (n : Nat) :
    String.ofList (formEncode (toString n).toList) = toString n := by
  have hdigits : ∀ c ∈ (toString n).toList, c.isDigit = true := by
    intro c hc
    rw [Nat.toString_eq_repr, Nat.toList_repr] at hc
    exact isDigit_of_mem_toDigits hc
  rw [formEncode_digits hdigits, String.ofList_toList]

/-- The parameters of a list of pins with their values. -/
def pinVals (ws : List (String × String)) : List Param :=
  ws.flatMap fun w => [("pin", some w.1), ("val", some w.2)]

/-- The pairs a pin and its value are sent as. -/
def pinValPairs (t : Pair) : List Pair :=
  [("pin".toList, t.1), ("val".toList, t.2)]

/-- A pin and its value, as they arrive. -/
def sentTexts (t : Pair) : String × String :=
  (String.ofList (formEncode t.1), String.ofList (formEncode t.2))

theorem uriParams_pinVals (ts : List Pair) :
    uriParams (formSerialize (ts.map pinValPairs).flatten) =
      (pinVals (ts.map sentTexts)).take 16 := by
  rw [uriParams_formSerialize, List.map_take]
  congr 1
  induction ts with
  | nil => rfl
  | cons t ts ih =>
      rw [List.map_cons, List.flatten_cons, List.map_append, ih,
        List.map_cons, pinVals, pinVals, List.flatMap_cons]
      rfl

/-- The command of a pin and its value, read as the handler reads them. -/
def commandOf (w : String × String) : Command :=
  ((clampInt32 (readInt w.1.toList)).toNat, clampInt32 (readInt w.2.toList))

/-- The text reads as the index of a table entry. -/
def ReadsAsPin (s : String) : Prop :=
  0 ≤ clampInt32 (readInt s.toList) ∧ clampInt32 (readInt s.toList) < 10

theorem length_pinVals (ws : List (String × String)) :
    (pinVals ws).length = 2 * ws.length := by
  induction ws with
  | nil => rfl
  | cons w ws ih =>
      rw [pinVals, List.flatMap_cons, List.length_append, ← pinVals, ih]
      simp [Nat.mul_add, Nat.add_comm]

theorem getElem_pinVals {ws : List (String × String)} {i : Nat}
    (h : i < ws.length) :
    (pinVals ws)[2 * i]? = some ("pin", some (ws[i]).1) ∧
      (pinVals ws)[2 * i + 1]? = some ("val", some (ws[i]).2) := by
  induction ws generalizing i with
  | nil => cases h
  | cons w ws ih =>
      rw [pinVals, List.flatMap_cons, ← pinVals]
      cases i with
      | zero => exact ⟨rfl, rfl⟩
      | succ i =>
          have hi : i < ws.length := Nat.lt_of_succ_lt_succ h
          have hrest := ih hi
          rw [show 2 * (i + 1) = 2 * i + 1 + 1 by omega]
          exact hrest

theorem Holds.getElem? {params : List Param} {pcParam pcValue : Nat → CharPtr}
    (h : Holds params pcParam pcValue) {i : Nat} {p : Param}
    (hp : params[i]? = some p) : pcParam i = some p.1 ∧ pcValue i = p.2 := by
  obtain ⟨hi, rfl⟩ := List.getElem?_eq_some_iff.1 hp
  exact h i hi

/-- The `pin` at index `2 * j` and the `val` behind it. -/
theorem commandAt_pinVals {ws : List (String × String)}
    {pcParam pcValue : Nat → CharPtr}
    (h : Holds ((pinVals ws).take 16) pcParam pcValue) {j : Nat}
    (hj : j < ws.length) (h5 : j < 5) (hpin : ReadsAsPin (ws[j]).1) :
    commandAt pcParam pcValue (2 * j) = .ok [commandOf ws[j]] ∧
      commandAt pcParam pcValue (2 * j + 1) = .ok [] := by
  have hparam := getElem_pinVals hj
  have hname := h.getElem? (i := 2 * j)
    (by rw [List.getElem?_take_of_lt (by omega)]; exact hparam.1)
  have hval := h.getElem? (i := 2 * j + 1)
    (by rw [List.getElem?_take_of_lt (by omega)]; exact hparam.2)
  constructor
  · have hafter : valAfter pcParam pcValue (2 * j) =
        .ok (clampInt32 (readInt (ws[j]).2.toList)) := by
      rw [valAfter_val (by omega) hval.1, hval.2]
      rfl
    rw [commandAt_pin hname.1, hname.2, hafter, atoi, ok_bind, arrayIndex,
      if_pos ⟨hpin.1, hpin.2⟩]
    rfl
  · have hne : "val" ≠ "pin" := by decide
    exact commandAt_not_pin hval.1 hne

theorem commandsFrom_pinVals_from {ws : List (String × String)}
    {pcParam pcValue : Nat → CharPtr}
    (h : Holds ((pinVals ws).take 16) pcParam pcValue)
    (hpins : ∀ w ∈ ws, ReadsAsPin w.1) :
    ∀ k j, j + k ≤ 8 → j + k ≤ ws.length → j ≤ 5 →
      commandsFrom pcParam pcValue (2 * k) (2 * j) =
        .ok (((ws.drop j).take (min k (5 - j))).map commandOf) := by
  intro k
  induction k with
  | zero => intro j _ _ _; simp [commandsFrom]
  | succ k ih =>
      intro j h8 hlen h5
      rw [show 2 * (k + 1) = 2 * k + 1 + 1 by omega, commandsFrom]
      rcases Nat.eq_or_lt_of_le h5 with rfl | hlt
      · simp
      · obtain ⟨hpin, hval⟩ := commandAt_pinVals h (j := j) (by omega) hlt
          (hpins _ (List.getElem_mem (by omega)))
        have hrest := ih (j + 1) (by omega) (by omega) (by omega)
        rw [if_neg (by omega), hpin, ok_bind, commandsFrom,
          if_neg (by omega), hval, ok_bind,
          show 2 * j + 1 + 1 = 2 * (j + 1) by omega, hrest, ok_bind]
        have hcons : ws.drop j = ws[j] :: ws.drop (j + 1) :=
          List.drop_eq_getElem_cons (by omega)
        rw [hcons, show min (k + 1) (5 - j) = min k (5 - (j + 1)) + 1 by omega]
        rfl

/-- The commands of a list of pins with their values are those of the first
five. -/
theorem commandsFrom_pinVals {ws : List (String × String)}
    {pcParam pcValue : Nat → CharPtr}
    (h : Holds ((pinVals ws).take 16) pcParam pcValue)
    (hpins : ∀ w ∈ ws, ReadsAsPin w.1) :
    commandsFrom pcParam pcValue ((pinVals ws).take 16).length 0 =
      .ok ((ws.take 5).map commandOf) := by
  have hlen : ((pinVals ws).take 16).length = 2 * min 8 ws.length := by
    rw [List.length_take, length_pinVals]
    omega
  have hrun := commandsFrom_pinVals_from h hpins (min 8 ws.length) 0
    (by omega) (by omega) (by omega)
  rw [hlen]
  rw [Nat.mul_zero] at hrun
  rw [hrun, List.drop_zero]
  congr 2
  refine List.take_eq_take_iff.2 ?_
  omega

end IotHome.Firmware
