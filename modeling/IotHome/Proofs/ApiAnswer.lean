import IotHome.Firmware.Params
import IotHome.Proofs.ApiResponse
import IotHome.Proofs.ApiSafety

/-!
# What the device answers

A request names pins, each with or without a value behind it, and the device
answers with one object for each pin that is named. `Answers` says what the
answer parses as and what becomes of the levels, for every list of at most ten
parameters whose pins are decimals from 1 to 9 and whose values are decimal
32-bit integers. Pins may be repeated, values may be negative, and parameters
that are neither may stand anywhere.

The handler looks for a value behind the last parameter as well, and where
nothing has ever been there it compares NULL. `handleRequestParams_answers_iff`
says that this is the only way for such a request to go without its answer.
-/

namespace IotHome.Firmware

open IotHome.Lib

/-- The integer a C string is the decimal of. -/
def decimalOf (p : CharPtr) : Option Int := p.bind fun s => decimalInt s.toList

/-- The pins are decimals from 1 to 9 and the values behind them decimals
that an `int` holds. -/
def DecimalPins (ps : List Param) : Prop :=
  ∀ o ∈ occurrences ps,
    (∃ x, decimalOf o.1 = some x ∧ 1 ≤ x ∧ x ≤ 9) ∧
    ∀ v, o.2 = some v →
      ∃ y, decimalOf v = some y ∧ -2147483648 ≤ y ∧ y ≤ 2147483647

/-- The pins of a request, each with the value that follows it. -/
def pinsAsked (ps : List Param) : List (Nat × Option Int) :=
  (occurrences ps).map fun o =>
    (((decimalOf o.1).getD 0).toNat, o.2.map fun v => (decimalOf v).getD 0)

/-- The value behind the last occurrence of a pin. -/
def valAsked (ps : List Param) (p : Nat) : Int :=
  ((lastFor p (pinsAsked ps)).getD none).getD (-1)

/-- The object for one pin. -/
def pinJson (p : Nat) (val : Int) (sta : Bool) : Json :=
  .obj [(js "pin", .num (Dec.ofInt p)), (js "val", .num (Dec.ofInt val)),
    (js "dir", .num (Dec.ofInt 1)), (js "sta", .num (Dec.ofInt sta.toNat))]

theorem clampInt32_of_int {x : Int} (h : -2147483648 ≤ x)
    (h' : x ≤ 2147483647) : clampInt32 x = x := by
  rw [clampInt32]
  omega

theorem atoi_decimalOf {p : CharPtr} {x : Int} (h : decimalOf p = some x)
    (hlow : -2147483648 ≤ x) (hhigh : x ≤ 2147483647) : atoi p = .ok x := by
  obtain ⟨s, rfl, hs⟩ := Option.bind_eq_some_iff.1 h
  rw [atoi, readInt_decimalInt hs, clampInt32_of_int hlow hhigh]

/-- What a pin with the value behind it asks for. -/
def commandAsked (w : Nat × Option Int) : Command := (w.1, w.2.getD (-1))

theorem readOccurrence_asked {ps : List Param} (h : DecimalPins ps)
    {o : CharPtr × Option CharPtr} (ho : o ∈ occurrences ps) :
    readOccurrence o = .ok (commandAsked (((decimalOf o.1).getD 0).toNat,
      o.2.map fun v => (decimalOf v).getD 0)) := by
  obtain ⟨⟨x, hx, h1, h9⟩, hval⟩ := h o ho
  obtain ⟨pin, val⟩ := o
  have hread : atoi pin = .ok x := atoi_decimalOf hx (by omega) (by omega)
  rw [show decimalOf pin = some x from hx, Option.getD_some]
  cases val with
  | none => exact readOccurrence_ok hread (by omega) (by omega) rfl
  | some v =>
      obtain ⟨y, hy, hlow, hhigh⟩ := hval v rfl
      rw [Option.map_some, hy]
      exact readOccurrence_ok hread (by omega) (by omega)
        (atoi_decimalOf hy hlow hhigh)

theorem commandsFrom_asked {ps : List Param} {pcParam pcValue : Nat → CharPtr}
    (hps : DecimalPins ps) (h : HoldsFrom ps pcParam pcValue 0) :
    commandsFrom pcParam pcValue ps.length 0 =
      .ok ((pinsAsked ps).map commandAsked) := by
  rw [commandsFrom_occurrences ps 0 h,
    mapM_eq_ok_map.2 fun o ho => readOccurrence_asked hps ho, pinsAsked,
    List.map_map]
  rfl

theorem mem_pinsAsked {ps : List Param} (hps : DecimalPins ps)
    {w : Nat × Option Int} (hw : w ∈ pinsAsked ps) :
    w.1 ∈ apiPins ∧ ∀ v, w.2 = some v → -2147483648 ≤ v ∧ v ≤ 2147483647 := by
  obtain ⟨o, ho, rfl⟩ := List.mem_map.1 hw
  obtain ⟨⟨x, hx, h1, h9⟩, hval⟩ := hps o ho
  rw [mem_apiPins, hx]
  refine ⟨by show 1 ≤ x.toNat ∧ x.toNat ≤ 9; omega, fun v hv => ?_⟩
  obtain ⟨t, ht, rfl⟩ := Option.map_eq_some_iff.1 hv
  obtain ⟨y, hy, hrange⟩ := hval t ht
  rw [hy]
  exact hrange

theorem lastFor_asked (ps : List Param) (p : Nat) :
    lastFor p ((pinsAsked ps).map commandAsked) =
      (lastFor p (pinsAsked ps)).map fun v => v.getD (-1) :=
  lastFor_map p (fun v : Option Int => v.getD (-1)) (pinsAsked ps)

theorem valAsked_eq {ps : List Param} {p : Nat} {v : Int}
    (h : lastFor p ((pinsAsked ps).map commandAsked) = some v) :
    valAsked ps p = v := by
  rw [lastFor_asked] at h
  obtain ⟨w, hw, rfl⟩ := Option.map_eq_some_iff.1 h
  rw [valAsked, hw]
  rfl

/-- The pins the commands that count are for: those that are named, each
once and in ascending order. -/
theorem pins_requested {ps : List Param} (hps : DecimalPins ps) :
    let pins := (requested ((pinsAsked ps).map commandAsked)).map Prod.fst
    pins.Pairwise (· < ·) ∧
      ∀ p, p ∈ pins ↔ p ∈ (pinsAsked ps).map Prod.fst := by
  intro pins
  have hpins : pins = apiPins.filter fun p =>
      (lastFor p ((pinsAsked ps).map commandAsked)).isSome :=
    map_fst_requested _
  rw [hpins]
  refine ⟨List.Pairwise.filter _ (by decide), fun p => ?_⟩
  rw [List.mem_filter, lastFor_asked, Option.isSome_map]
  constructor
  · intro h
    obtain ⟨v, hv⟩ := Option.isSome_iff_exists.1 h.2
    exact List.mem_map_of_mem (mem_of_lastFor hv)
  · intro h
    obtain ⟨w, hw, rfl⟩ := List.mem_map.1 h
    obtain ⟨v, hv⟩ := exists_lastFor hw
    exact ⟨(mem_pinsAsked hps hw).1, by rw [hv]; rfl⟩

theorem small_asked {ps : List Param} (hps : DecimalPins ps) {c : Command}
    (hc : c ∈ requested ((pinsAsked ps).map commandAsked)) :
    SmallNumbers c := by
  obtain ⟨w, hw, rfl⟩ := List.mem_map.1 (mem_requested hc)
  obtain ⟨hpin, hval⟩ := mem_pinsAsked hps hw
  have hrange := mem_apiPins.1 hpin
  obtain ⟨p, v⟩ := w
  refine ⟨by show (p : Int).natAbs < 10 ^ 21; omega, ?_⟩
  show (v.getD (-1)).natAbs < 10 ^ 21
  cases v with
  | none => show (1 : Nat) < 10 ^ 21; omega
  | some v =>
      have hv := hval v rfl
      show v.natAbs < 10 ^ 21
      omega

/-- The level of a pin after the request, by whether it is named. -/
theorem level_asked {ps : List Param} (hps : DecimalPins ps) (g : Gpio)
    (p : Nat) :
    ((requested ((pinsAsked ps).map commandAsked)).foldl drive g).level p =
      if p ∈ (pinsAsked ps).map Prod.fst then levelAfter g (p, valAsked ps p)
      else g.level p := by
  rw [level_after]
  by_cases hp : p ∈ (pinsAsked ps).map Prod.fst
  · obtain ⟨w, hw, rfl⟩ := List.mem_map.1 hp
    obtain ⟨v, hv⟩ := exists_lastFor hw
    have hlast : lastFor w.1 ((pinsAsked ps).map commandAsked) =
        some (v.getD (-1)) := by rw [lastFor_asked, hv]; rfl
    rw [if_pos (mem_pinsAsked hps hw).1, if_pos hp, hlast, valAsked_eq hlast]
  · rw [if_neg hp, lastFor_asked, lastFor_of_notMem hp, Option.map_none,
      ite_self]

theorem valAsked_requested {ps : List Param} {c : Nat × Int}
    (hc : c ∈ requested ((pinsAsked ps).map commandAsked)) :
    valAsked ps c.1 = c.2 := by
  have hlast := lastFor_of_mem (nodup_requested _) hc
  rw [lastFor_requested] at hlast
  split at hlast
  · exact valAsked_eq hlast
  · cases hlast

/-- One object for each pin that is named, in ascending order, with the value
asked for last and the level the pin then has; a value that is not negative
sets the level, and no other pin changes. -/
structure AnswersWith (ps : List Param) (g g' : Gpio) (res : String)
    (pins : List Nat) : Prop where
  sorted : pins.Pairwise (· < ·)
  mem : ∀ p, p ∈ pins ↔ p ∈ (pinsAsked ps).map Prod.fst
  parses : Json.parse (js res) = some (.arr (pins.map fun p =>
    pinJson p (valAsked ps p) (g'.level p)))
  level : ∀ p, g'.level p =
    if p ∈ pins ∧ 0 ≤ valAsked ps p then valAsked ps p != 0 else g.level p

/-- The request is answered as asked, whatever the levels are. -/
def Answers (ps : List Param) (pcParam pcValue : Nat → CharPtr) : Prop :=
  ∀ g, ∃ g' res pins,
    handleRequestParams ps.length pcParam pcValue g = .ok (g', res) ∧
      AnswersWith ps g g' res pins

theorem handleRequestParams_answer {ps : List Param}
    {pcParam pcValue : Nat → CharPtr} (hps : DecimalPins ps)
    (h : HoldsFrom ps pcParam pcValue 0) : Answers ps pcParam pcValue := by
  intro g
  have hcommands := commandsFrom_asked hps h
  obtain ⟨hsorted, hmem⟩ := pins_requested hps
  refine ⟨_, _, _, by rw [handleRequestParams_eq, hcommands]; rfl, hsorted,
    hmem, ?_, fun p => ?_⟩
  · rw [parse_responseText fun c hc => small_asked hps hc, List.map_map]
    congr 2
    refine List.map_congr_left fun c hc => ?_
    have hpin := (hmem c.1).1 (List.mem_map_of_mem hc)
    show stateJson g c = pinJson c.1 _ _
    rw [level_asked hps, if_pos hpin, valAsked_requested hc]
    rfl
  · rw [level_asked hps]
    by_cases hp : p ∈ (pinsAsked ps).map Prod.fst
    · by_cases hval : 0 ≤ valAsked ps p
      · rw [if_pos hp, if_pos ⟨(hmem p).2 hp, hval⟩, levelAfter, if_pos hval]
      · rw [if_pos hp, if_neg fun h => hval h.2, levelAfter, if_neg hval]
    · rw [if_neg hp, if_neg fun h => hp ((hmem p).1 h.1)]

/-- A request that gets through has a name behind it where one is looked
for. -/
theorem namedBehind_of_ok {ps : List Param} {pcParam pcValue : Nat → CharPtr}
    (hholds : Holds ps pcParam pcValue) {g g' : Gpio} {res : String}
    (hrun : handleRequestParams ps.length pcParam pcValue g = .ok (g', res)) :
    NamedBehind ps pcParam := by
  intro hten hpin
  obtain ⟨v, hv⟩ := hpin
  rw [List.getLast?_eq_getElem?] at hv
  have hlen : ps.length - 1 < ps.length := (List.getElem?_eq_some_iff.1 hv).1
  have hlast := (hholds.getElem? hv).1
  have hsafe := (handleRequestParams_terminates_iff hholds g).1 ⟨_, hrun⟩
    (ps.length - 1) hlen (by omega) hlast
  have hthere := (hsafe.2 (by omega)).1
  rwa [Nat.sub_add_cancel (by omega)] at hthere

/-- A request is answered as asked if and only if it does not end in a pin
with nothing behind it. -/
theorem handleRequestParams_answers_iff {ps : List Param}
    {pcParam pcValue : Nat → CharPtr} (hps : DecimalPins ps)
    (hten : ps.length ≤ 10) (hholds : Holds ps pcParam pcValue)
    (hbehind : ps.length < 10 → pcParam ps.length ≠ some "val") :
    Answers ps pcParam pcValue ↔ NamedBehind ps pcParam := by
  constructor
  · intro h
    obtain ⟨g', res, pins, hrun, _⟩ := h ⟨fun _ => false, fun _ => false, []⟩
    exact namedBehind_of_ok hholds hrun
  · intro hnamed
    exact handleRequestParams_answer hps
      (holdsFrom_zero hten hholds hbehind hnamed)

/-- `pin=4&pin=2&val=-3&t=1&pin=2&val=7` in fresh arrays: pin 4 is read, and
of the two values for pin 2 the second counts. -/
theorem handleRequestParams_answers_repeated :
    Answers [("pin", some "4"), ("pin", some "2"), ("val", some "-3"),
        ("t", some "1"), ("pin", some "2"), ("val", some "7")]
      (fun i => ["pin", "pin", "val", "t", "pin", "val"][i]?)
      (fun i => ["4", "2", "-3", "1", "2", "7"][i]?) := by
  have hdecimal : DecimalPins [("pin", some "4"), ("pin", some "2"),
      ("val", some "-3"), ("t", some "1"), ("pin", some "2"),
      ("val", some "7")] := by
    show ∀ o ∈ [(some "4", none), (some "2", some (some "-3")),
      (some "2", some (some "7"))], _
    simp only [List.forall_mem_cons]
    refine ⟨⟨⟨4, by decide⟩, fun v hv => by cases hv⟩,
      ⟨⟨2, by decide⟩, fun v hv => ⟨-3, ?_⟩⟩,
      ⟨⟨2, by decide⟩, fun v hv => ⟨7, ?_⟩⟩, List.forall_mem_nil _⟩
    · obtain rfl := Option.some.inj hv
      decide
    · obtain rfl := Option.some.inj hv
      decide
  have hholds : Holds [("pin", some "4"), ("pin", some "2"),
      ("val", some "-3"), ("t", some "1"), ("pin", some "2"),
      ("val", some "7")]
      (fun i => ["pin", "pin", "val", "t", "pin", "val"][i]?)
      (fun i => ["4", "2", "-3", "1", "2", "7"][i]?) := by
    unfold Holds
    decide
  refine (handleRequestParams_answers_iff hdecimal (by decide) hholds
    (fun _ => by decide)).2 fun _ hpin => ?_
  obtain ⟨v, hv⟩ := hpin
  exact absurd hv (by simp)

/-- `pin=2` is the first request after the start: behind it there is nothing
but NULL. -/
theorem not_answers_fresh :
    ∃ (ps : List Param) (pcParam pcValue : Nat → CharPtr),
      DecimalPins ps ∧ ps.length ≤ 10 ∧ Holds ps pcParam pcValue ∧
      pcParam ps.length ≠ some "val" ∧ ¬ Answers ps pcParam pcValue := by
  refine ⟨[("pin", some "2")], fun i => ["pin"][i]?, fun i => ["2"][i]?, ?_,
    by decide, ?_, by decide, ?_⟩
  · show ∀ o ∈ [(some "2", none)], _
    simp only [List.forall_mem_cons]
    exact ⟨⟨⟨2, by decide⟩, fun v hv => by cases hv⟩, List.forall_mem_nil _⟩
  · unfold Holds
    decide
  · intro h
    obtain ⟨g', res, pins, hrun, _⟩ := h ⟨fun _ => false, fun _ => false, []⟩
    have hfault : handleRequestParams 1 (fun i => ["pin"][i]?)
        (fun i => ["2"][i]?) ⟨fun _ => false, fun _ => false, []⟩ =
          .error .nullPointer := rfl
    exact nomatch hfault.symm.trans hrun

end IotHome.Firmware
