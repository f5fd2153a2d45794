import IotHome.Firmware.Params
import IotHome.Proofs.ApiResponse
import IotHome.Virtual.Levels

/-!
# The virtual device against the real one

Both answer the same queries. The handler of the real device gives a pin the
value that comes right behind it, and of several values for one pin keeps the
last; the virtual one gives the k-th pin the k-th value and carries all of
them out in turn. `standsIn_iff` says for which queries this makes no
difference: for every pin asked about, its last value by the one reading and
by the other are both missing, both zero or both above zero.

The queries are lists of items: a pin with or without a value behind it, or a
parameter that neither device knows.
-/

namespace IotHome.Virtual

open IotHome.Lib
open IotHome.Firmware

/-! ## Queries -/

inductive Item where
  | pin (pin : String) (val : Option String)
  | other (name : String) (value : CharPtr)

/-- A numeral of digits only. -/
structure IsNumeral (s : String) : Prop where
  ne_nil : s.toList ≠ []
  digits : ∀ c ∈ s.toList, c.isDigit = true

def numeral (s : String) : Nat := Nat.ofDigitChars 10 s.toList 0

/-- The pin is one from 1 to 9, a value is a numeral, and any other name is
one of letters and digits, which no parser takes apart. -/
def Item.WellFormed : Item → Prop
  | .pin text val =>
      (IsNumeral text ∧ numeral text ∈ apiPins) ∧
        ∀ v, val = some v → IsNumeral v
  | .other name _ =>
      name ≠ "pin" ∧ name ≠ "val" ∧ ∀ c ∈ name.toList, c.isAlphanum = true

instance (s : String) : Decidable (IsNumeral s) :=
  decidable_of_iff (s.toList ≠ [] ∧ s.toList.all Char.isDigit = true)
    ⟨fun h => ⟨h.1, List.all_eq_true.1 h.2⟩,
      fun h => ⟨h.ne_nil, List.all_eq_true.2 h.digits⟩⟩

instance : (item : Item) → Decidable item.WellFormed
  | .pin text none =>
      decidable_of_iff (IsNumeral text ∧ numeral text ∈ apiPins)
        ⟨fun h => ⟨h, nofun⟩, fun h => h.1⟩
  | .pin text (some val) =>
      decidable_of_iff
        ((IsNumeral text ∧ numeral text ∈ apiPins) ∧ IsNumeral val)
        ⟨fun h => ⟨h.1, fun _ hv => Option.some.inj hv ▸ h.2⟩,
          fun h => ⟨h.1, h.2 val rfl⟩⟩
  | .other name _ =>
      decidable_of_iff (name ≠ "pin" ∧ name ≠ "val" ∧
          name.toList.all Char.isAlphanum = true)
        ⟨fun h => ⟨h.1, h.2.1, List.all_eq_true.1 h.2.2⟩,
          fun h => ⟨h.1, h.2.1, List.all_eq_true.2 h.2.2⟩⟩

def Item.params : Item → List Param
  | .pin text none => [("pin", some text)]
  | .pin text (some val) => [("pin", some text), ("val", some val)]
  | .other name value => [(name, value)]

/-- The parameters as the web server of the device has them. -/
def params (items : List Item) : List Param := items.flatMap Item.params

/-- The parameters as the query parser of the virtual device has them, which
reads a missing value as an empty one. -/
def query (items : List Item) : List (String × String) :=
  (params items).map fun p => (p.1, p.2.getD "")

def Item.texts : Item → List (String × Option String)
  | .pin text val => [(text, val)]
  | .other _ _ => []

def texts (items : List Item) : List (String × Option String) :=
  items.flatMap Item.texts

/-- The pins of a query, each with the value behind it. -/
def ownPairs (items : List Item) : List (Nat × Option Nat) :=
  (texts items).map fun w => (numeral w.1, w.2.map numeral)

def pins (items : List Item) : List Nat := (ownPairs items).map Prod.fst

def vals (items : List Item) : List Nat := (ownPairs items).filterMap Prod.snd

/-- The pins of a query with the values at the same index. -/
def indexPairs (items : List Item) : List (Nat × Nat) :=
  (pins items).zip (vals items)

/-! ## What is compared -/

def SameLevels (g : Gpio) (s : Pins) : Prop :=
  ∀ p ∈ apiPins, g.level p = pinLevel s p

/-- The answer of the virtual device; a number with no digits is written as
`null`. -/
def pinStateJson (state : PinState) : Json :=
  .obj [(js "pin", .num (Dec.ofInt state.pin)),
    (js "val", match state.val with
      | .dec d => .num d
      | _ => .null),
    (js "dir", .num (Dec.ofInt state.dir)),
    (js "sta", .num (Dec.ofInt state.sta))]

def answerJson (states : List PinState) : Json := .arr (states.map pinStateJson)

/-- The pin and the level a state reports. -/
def pinAndSta (state : Json) : Option (Dec × Dec) :=
  match Server.getProp? (some state) "pin",
    Server.getProp? (some state) "sta" with
  | some (.num pin), some (.num sta) => some (pin, sta)
  | _, _ => none

/-- The last level an answer reports for a pin. -/
def reportedSta (answer : Option Json) (p : Nat) : Option Dec :=
  match answer with
  | some (.arr states) => lastFor (Dec.ofInt p) (states.filterMap pinAndSta)
  | _ => none

/-- From equal levels both devices come to equal levels, and report the same
last level for every pin asked about. -/
def StandsIn (items : List Item) (pcParam pcValue : Nat → CharPtr) : Prop :=
  ∀ g s, Reachable s → SameLevels g s →
    ∃ g' res,
      handleRequestParams (params items).length pcParam pcValue g =
        .ok (g', res) ∧
      SameLevels g' (pinCtrl s (query items)).1 ∧
      ∀ p ∈ pins items, ∃ sta,
        reportedSta (Json.parse (js res)) p = some sta ∧
        reportedSta (some (answerJson (pinCtrl s (query items)).2)) p =
          some sta

/-- The last value of each pin, read by the item and by the index. -/
def PairingsAgree (items : List Item) : Prop :=
  ∀ p ∈ pins items,
    match lastFor p (ownPairs items) with
    | some (some own) => ∃ val, lastFor p (indexPairs items) = some val ∧
        (own = 0 ↔ val = 0)
    | _ => lastFor p (indexPairs items) = none

/-! ## Numerals -/

theorem readInt_numeral {s : String} (h : IsNumeral s) :
    readInt s.toList = numeral s := by
  have hread := readInt_digits h.ne_nil h.digits
    (fun c (hc : c ∈ [].head?) => nomatch hc)
  rwa [List.append_nil] at hread

theorem isJsSpace_of_isDigit {c : Char} (h : c.isDigit = true) :
    isJsSpace c = false := by
  simp only [Char.isDigit, Bool.and_eq_true, decide_eq_true_eq] at h
  have h9 : c.val ≤ 57 := h.2
  have hlist : c ∉ [' ', '\t', '\n', '\r', '\x0b', '\x0c', '\u00a0',
      '\ufeff', '\u1680', '\u2028', '\u2029', '\u202f', '\u205f',
      '\u3000'] := by
    intro hmem
    simp only [List.mem_cons, List.not_mem_nil, or_false] at hmem
    rcases hmem with rfl | rfl | rfl | rfl | rfl | rfl | rfl | rfl | rfl |
      rfl | rfl | rfl | rfl | rfl
    all_goals revert h; decide
  have hrange : ¬ '\u2000' ≤ c := by
    intro hle
    have h2000 : 8192 ≤ c.val := hle
    exact absurd (UInt32.le_trans h2000 h9) (by decide)
  simp [isJsSpace, hlist, hrange]

theorem trim_digits {cs : List Char} (h : ∀ c ∈ cs, c.isDigit = true) :
    trim cs = cs := by
  have hkeep : ∀ ds : List Char, (∀ c ∈ ds, c.isDigit = true) →
      ds.dropWhile isJsSpace = ds := by
    intro ds hds
    cases ds with
    | nil => rfl
    | cons d ds =>
        rw [List.dropWhile_cons,
          isJsSpace_of_isDigit (hds d List.mem_cons_self)]
        rfl
  rw [trim, hkeep cs h, hkeep cs.reverse, List.reverse_reverse]
  intro c hc
  exact h c (List.mem_reverse.1 hc)

theorem decimalLiteral_digits {cs : List Char} (hne : cs ≠ [])
    (h : ∀ c ∈ cs, c.isDigit = true) :
    decimalLiteral false cs =
      .dec (Dec.ofInt (Nat.ofDigitChars 10 cs 0 : Nat)) := by
  have htake : cs.takeWhile Char.isDigit = cs := List.takeWhile_eq_self_iff.2 h
  have hdrop : cs.dropWhile Char.isDigit = [] := List.dropWhile_eq_nil_iff.2 h
  have hinf : cs ≠ "Infinity".toList := by
    rintro rfl
    exact absurd (h 'I' (by decide)) (by decide)
  rw [decimalLiteral]
  simp only [htake, hdrop, List.append_nil, if_neg hinf, if_neg hne, exponent]
  simp [Dec.ofParts, Dec.ofInt]

theorem toNumber_digits {cs : List Char} (hne : cs ≠ [])
    (h : ∀ c ∈ cs, c.isDigit = true) :
    toNumber cs = .dec (Dec.ofInt (Nat.ofDigitChars 10 cs 0 : Nat)) := by
  have hradix : ∀ c ds, cs = '0' :: c :: ds → c.isDigit = true := by
    rintro c ds rfl
    exact h c (by simp)
  have hsign : ∀ c ds, cs = c :: ds → c.isDigit = true := by
    rintro c ds rfl
    exact h c (by simp)
  rw [toNumber, trim_digits h]
  split
  · exact absurd rfl hne
  · exact absurd (hradix _ _ rfl) (by decide)
  · exact absurd (hradix _ _ rfl) (by decide)
  · exact absurd (hradix _ _ rfl) (by decide)
  · exact absurd (hradix _ _ rfl) (by decide)
  · exact absurd (hradix _ _ rfl) (by decide)
  · exact absurd (hradix _ _ rfl) (by decide)
  · exact absurd (hsign _ _ rfl) (by decide)
  · exact absurd (hsign _ _ rfl) (by decide)
  · exact decimalLiteral_digits hne h

theorem toNumber_numeral {s : String} (h : IsNumeral s) :
    toNumber s.toList = .dec (Dec.ofInt (numeral s)) :=
  toNumber_digits h.ne_nil h.digits

theorem isPositive_numeral (n : Nat) :
    (JsNumber.dec (Dec.ofInt n)).isPositive = (n != 0) := by
  cases n with
  | zero => rfl
  | succ n =>
      rw [JsNumber.isPositive]
      simp [Dec.ofInt]

/-! ## The commands of the real device -/

/-- The command of a pin with the value behind it. -/
def commandOfOwn (w : Nat × Option Nat) : Command :=
  (w.1, match w.2 with
    | none => -1
    | some v => clampInt32 v)

theorem atoi_numeral {s : String} (h : IsNumeral s) :
    atoi (some s) = .ok (clampInt32 (numeral s)) := by
  rw [atoi, readInt_numeral h]

theorem readOccurrence_numeral {text : String} {val : Option String}
    (hnum : IsNumeral text) (hpin : numeral text ∈ apiPins)
    (hval : ∀ v, val = some v → IsNumeral v) :
    readOccurrence (some text, val.map some) =
      .ok (commandOfOwn (numeral text, val.map numeral)) := by
  have hrange := mem_apiPins.1 hpin
  have hread : atoi (some text) = .ok (numeral text : Int) := by
    rw [atoi_numeral hnum, clampInt32_small (by omega)]
  have h0 : (0 : Int) ≤ numeral text := Int.natCast_nonneg _
  have h9 : (numeral text : Int) < 10 := by omega
  cases val with
  | none => exact readOccurrence_ok hread h0 h9 rfl
  | some v => exact readOccurrence_ok hread h0 h9 (atoi_numeral (hval v rfl))

/-- No item begins with a value. -/
theorem following_params {items : List Item}
    (hwf : ∀ item ∈ items, item.WellFormed) :
    following (params items) = none := by
  cases items with
  | nil => rfl
  | cons item items =>
      have hne : "pin" ≠ "val" := by decide
      cases item with
      | pin text val =>
          cases val with
          | none => exact following_ne hne
          | some v => exact following_ne hne
      | other name value => exact following_ne (hwf _ List.mem_cons_self).2.1

theorem occurrences_params {items : List Item}
    (hwf : ∀ item ∈ items, item.WellFormed) :
    occurrences (params items) =
      (texts items).map fun w => (some w.1, w.2.map some) := by
  induction items with
  | nil => rfl
  | cons item items ih =>
      have hrest := fun x hx => hwf x (List.mem_cons_of_mem item hx)
      have hval : "val" ≠ "pin" := by decide
      rw [params, List.flatMap_cons, ← params, texts, List.flatMap_cons,
        ← texts, List.map_append, ← ih hrest]
      cases item with
      | other name value =>
          show occurrences ((name, value) :: params items) = _
          rw [occurrences, if_neg (hwf _ List.mem_cons_self).1]
          rfl
      | pin text val =>
          cases val with
          | none =>
              show occurrences (("pin", some text) :: params items) = _
              rw [occurrences, if_pos rfl, following_params hrest]
              rfl
          | some v =>
              show occurrences (("pin", some text) :: ("val", some v) ::
                params items) = _
              rw [occurrences, if_pos rfl, following, if_pos rfl,
                occurrences, if_neg hval]
              rfl

theorem commandsFrom_params {pcParam pcValue : Nat → CharPtr}
    {items : List Item} (hwf : ∀ item ∈ items, item.WellFormed)
    (h : HoldsFrom (params items) pcParam pcValue 0) :
    commandsFrom pcParam pcValue (params items).length 0 =
      .ok ((ownPairs items).map commandOfOwn) := by
  have hread : ∀ w ∈ texts items,
      readOccurrence (some w.1, w.2.map some) =
        .ok (commandOfOwn (numeral w.1, w.2.map numeral)) := by
    intro w hw
    obtain ⟨item, hitem, hw⟩ := List.mem_flatMap.1 hw
    cases item with
    | other name value => cases hw
    | pin text val =>
        obtain rfl := List.mem_singleton.1 hw
        have hitem := hwf _ hitem
        exact readOccurrence_numeral hitem.1.1 hitem.1.2 hitem.2
  rw [commandsFrom_occurrences _ 0 h, occurrences_params hwf,
    List.mapM_map]
  refine (mapM_eq_ok_map.2 hread).trans ?_
  rw [ownPairs, List.map_map]
  rfl

theorem fst_ownPairs {items : List Item} (hwf : ∀ item ∈ items, item.WellFormed)
    {p : Nat} (hp : p ∈ pins items) : p ∈ apiPins := by
  simp only [pins, ownPairs, texts, List.map_map, List.mem_map,
    List.mem_flatMap] at hp
  obtain ⟨w, ⟨item, hitem, hw⟩, rfl⟩ := hp
  cases item with
  | other name value => cases hw
  | pin text val =>
      obtain rfl := List.mem_singleton.1 hw
      exact (hwf _ hitem).1.2

/-- Where a pin is left by its last value, and by none. -/
def leftAt (before : Bool) : Option Nat → Bool
  | none => before
  | some v => v != 0

theorem levelAfter_own (g : Gpio) (p : Nat) (v : Option Nat) :
    levelAfter g (commandOfOwn (p, v)) = leftAt (g.level p) v := by
  cases v with
  | none => rfl
  | some v =>
      have hge : 0 ≤ clampInt32 v := by rw [clampInt32]; omega
      have hzero : clampInt32 v = 0 ↔ v = 0 := by rw [clampInt32]; omega
      show (if clampInt32 v ≥ 0 then clampInt32 v != 0 else _) = (v != 0)
      rw [if_pos hge, Bool.eq_iff_iff, bne_iff_ne, bne_iff_ne]
      exact not_congr hzero

theorem lastFor_natCast {ν : Type} (p : Nat) (ws : List (Nat × ν)) :
    lastFor (p : Int) (ws.map fun w => ((w.1 : Int), w.2)) = lastFor p ws :=
  lastFor_map_fst (f := Nat.cast) (fun _ _ => Int.ofNat.inj) p ws

/-- What an answer of one state for each of some things reports. -/
theorem reportedSta_map {α : Type} (xs : List α) (f : α → Json)
    (pin : α → Int) (sta : α → Nat)
    (hf : ∀ x, pinAndSta (f x) =
      some (Dec.ofInt (pin x), Dec.ofInt (sta x))) (p : Nat) :
    reportedSta (some (.arr (xs.map f))) p =
      (lastFor (p : Int) (xs.map fun x => (pin x, sta x))).map
        fun n : Nat => Dec.ofInt n := by
  have hinj : Function.Injective Dec.ofInt := fun _ _ h =>
    congrArg Dec.mantissa h
  have hpairs : (xs.map f).filterMap pinAndSta =
      (xs.map fun x => (pin x, Dec.ofInt (sta x))).map
        fun w => (Dec.ofInt w.1, w.2) := by
    induction xs with
    | nil => rfl
    | cons x xs ih =>
        rw [List.map_cons, List.filterMap_cons, hf, ih]
        rfl
  have hvals : (xs.map fun x => (pin x, Dec.ofInt (sta x))) =
      (xs.map fun x => (pin x, sta x)).map
        fun w => (w.1, Dec.ofInt (w.2 : Int)) := by
    rw [List.map_map]
    rfl
  rw [reportedSta, hpairs, lastFor_map_fst hinj, hvals]
  exact lastFor_map (p : Int) (fun n : Nat => Dec.ofInt n)
    (xs.map fun x => (pin x, sta x))

/-- The real device: what it does with a query, and what it reports. -/
theorem handleRequestParams_params {items : List Item}
    {pcParam pcValue : Nat → CharPtr}
    (hwf : ∀ item ∈ items, item.WellFormed)
    (h : HoldsFrom (params items) pcParam pcValue 0) (g : Gpio) :
    ∃ g' res,
      handleRequestParams (params items).length pcParam pcValue g =
        .ok (g', res) ∧
      (∀ p ∈ apiPins, g'.level p =
        leftAt (g.level p) ((lastFor p (ownPairs items)).getD none)) ∧
      ∀ p ∈ apiPins, reportedSta (Json.parse (js res)) p =
        (lastFor p (ownPairs items)).map fun v =>
          Dec.ofInt (leftAt (g.level p) v).toNat := by
  have hlast : ∀ p, lastFor p ((ownPairs items).map commandOfOwn) =
      (lastFor p (ownPairs items)).map fun v => (commandOfOwn (p, v)).2 :=
    fun p => lastFor_mapWithKey p (fun p v => (commandOfOwn (p, v)).2) _
  have hsmall : ∀ c ∈ requested ((ownPairs items).map commandOfOwn),
      SmallNumbers c := by
    intro c hc
    obtain ⟨w, hw, rfl⟩ := List.mem_map.1 (mem_requested hc)
    have hp := mem_apiPins.1 (fst_ownPairs hwf (List.mem_map_of_mem hw))
    refine ⟨?_, ?_⟩
    · show (w.1 : Int).natAbs < 10 ^ 21
      omega
    · obtain ⟨p, v⟩ := w
      cases v with
      | none => show (1 : Nat) < 10 ^ 21; omega
      | some v =>
          show (clampInt32 v).natAbs < 10 ^ 21
          rw [clampInt32]
          omega
  refine ⟨_, _, by
    rw [handleRequestParams_eq, commandsFrom_params hwf h]; rfl,
    fun p hp => ?_, fun p hp => ?_⟩
  · rw [level_after, if_pos hp, hlast]
    cases lastFor p (ownPairs items) with
    | none => rfl
    | some v => exact levelAfter_own g p v
  · have hkeys : ((requested ((ownPairs items).map commandOfOwn)).map
        fun c => ((c.1 : Int), (levelAfter g c).toNat)) =
        ((requested ((ownPairs items).map commandOfOwn)).map
          fun c => (c.1, (levelAfter g (c.1, c.2)).toNat)).map
            fun w => ((w.1 : Int), w.2) := by
      rw [List.map_map]
      rfl
    rw [parse_responseText hsmall, reportedSta_map _ _
      (fun c => (c.1 : Int)) (fun c => (levelAfter g c).toNat)
      (fun _ => rfl), hkeys, lastFor_natCast,
      lastFor_mapWithKey p fun p v => (levelAfter g (p, v)).toNat,
      lastFor_requested, if_pos hp, hlast]
    cases lastFor p (ownPairs items) with
    | none => rfl
    | some v =>
        show some (Dec.ofInt (levelAfter g (commandOfOwn (p, v))).toNat) = _
        rw [levelAfter_own]
        rfl

/-! ## The parameters of the virtual device -/

theorem queryArr_append (as bs : List (String × String)) (name : String) :
    queryArr (as ++ bs) name = queryArr as name ++ queryArr bs name :=
  List.filterMap_append

theorem query_cons (item : Item) (items : List Item) :
    query (item :: items) =
      (item.params.map fun p => (p.1, p.2.getD "")) ++ query items := by
  rw [query, params, List.flatMap_cons, List.map_append]
  rfl

theorem queryArr_query {items : List Item}
    (hwf : ∀ item ∈ items, item.WellFormed) :
    queryArr (query items) "pin" = (texts items).map Prod.fst ∧
      queryArr (query items) "val" = (texts items).filterMap Prod.snd := by
  induction items with
  | nil => exact ⟨rfl, rfl⟩
  | cons item items ih =>
      obtain ⟨hpins, hvals⟩ :=
        ih fun x hx => hwf x (List.mem_cons_of_mem item hx)
      have hitem := hwf item List.mem_cons_self
      have hcons : texts (item :: items) = item.texts ++ texts items :=
        List.flatMap_cons
      rw [query_cons, queryArr_append, queryArr_append, hpins, hvals, hcons,
        List.map_append, List.filterMap_append]
      cases item with
      | pin text val =>
          cases val with
          | none => exact ⟨rfl, rfl⟩
          | some v => exact ⟨rfl, rfl⟩
      | other name value =>
          have hother : ∀ lit, name ≠ lit →
              queryArr [(name, value.getD "")] lit = [] := by
            intro lit hne
            rw [queryArr, List.filterMap_cons, if_neg hne]
            rfl
          refine ⟨?_, ?_⟩
          · show queryArr [(name, value.getD "")] "pin" ++ _ = _
            rw [hother _ hitem.1]
            rfl
          · show queryArr [(name, value.getD "")] "val" ++ _ = _
            rw [hother _ hitem.2.1]
            rfl

/-- The number of a numeral, as the virtual device has it. -/
def asNumber (n : Nat) : JsNumber := .dec (Dec.ofInt n)

theorem wellFormed_texts {items : List Item}
    (hwf : ∀ item ∈ items, item.WellFormed) {w : String × Option String}
    (hw : w ∈ texts items) :
    IsNumeral w.1 ∧ ∀ v, w.2 = some v → IsNumeral v := by
  obtain ⟨item, hitem, hmem⟩ := List.mem_flatMap.1 hw
  cases item with
  | other name value => cases hmem
  | pin text val =>
      obtain rfl := List.mem_singleton.1 hmem
      have hpin := hwf _ hitem
      exact ⟨hpin.1.1, hpin.2⟩

theorem vals_eq (items : List Item) :
    vals items = ((texts items).filterMap Prod.snd).map numeral := by
  rw [vals, ownPairs, List.filterMap_map, List.map_filterMap]
  rfl

theorem getControlParams_query {items : List Item}
    (hwf : ∀ item ∈ items, item.WellFormed) :
    getControlParams (query items) = (pins items).mapIdx fun i (p : Nat) =>
      ((p : Int), (vals items)[i]?.map asNumber) := by
  have hpins : pins items = (texts items).map fun w => numeral w.1 := by
    rw [pins, ownPairs, List.map_map]
    rfl
  obtain ⟨hp, hv⟩ := queryArr_query hwf
  rw [getControlParams, hp, hv, hpins, vals_eq, List.mapIdx_eq_zipIdx_map,
    List.zipIdx_map, List.zipIdx_map, List.filterMap_map, List.map_map,
    ← List.filterMap_eq_map]
  refine List.filterMap_congr fun q hq => ?_
  have hw := wellFormed_texts hwf (List.fst_mem_of_mem_zipIdx hq)
  have hint : (toNumber q.1.1.toList).integer? =
      some (numeral q.1.1 : Int) := by
    rw [toNumber_numeral hw.1]
    rfl
  simp only [Function.comp_apply, Prod.map_fst, Prod.map_snd, id_eq, hint,
    List.getElem?_map]
  cases hval : ((texts items).filterMap Prod.snd)[q.2]? with
  | none => rfl
  | some v =>
      obtain ⟨w, hwmem, hwv⟩ :=
        List.mem_filterMap.1 (List.mem_of_getElem? hval)
      have hnum := (wellFormed_texts hwf hwmem).2 v hwv
      have hne : v ≠ "" := by
        rintro rfl
        exact hnum.ne_nil rfl
      simp only [if_neg hne, toNumber_numeral hnum]
      rfl

/-- The values given are those the index reaches. -/
theorem writes_mapIdx (ps vs : List Nat) :
    writes (ps.mapIdx fun i (p : Nat) => ((p : Int), vs[i]?.map asNumber)) =
      (ps.zip vs).map fun w => ((w.1 : Int), asNumber w.2) := by
  induction ps generalizing vs with
  | nil => rfl
  | cons p ps ih =>
      rw [List.mapIdx_cons]
      cases vs with
      | nil =>
          have hrest := ih []
          rw [List.zip_nil_right] at hrest ⊢
          exact hrest
      | cons v vs =>
          rw [List.zip_cons_cons, List.map_cons, ← ih vs]
          rfl

/-- The virtual device: where it leaves a pin, and what it reports. -/
theorem pinCtrl_query {items : List Item}
    (hwf : ∀ item ∈ items, item.WellFormed) {s : Pins} (h : WellKept s)
    (p : Nat) :
    pinLevel (pinCtrl s (query items)).1 p =
        leftAt (pinLevel s p) (lastFor p (indexPairs items)) ∧
      (p ∈ pins items →
        reportedSta (some (answerJson (pinCtrl s (query items)).2)) p =
          some (Dec.ofInt
            (leftAt (pinLevel s p) (lastFor p (indexPairs items))).toNat)) := by
  have hwrites : lastFor (p : Int) (writes (getControlParams (query items))) =
      (lastFor p (indexPairs items)).map asNumber := by
    have hkeys : ((indexPairs items).map
        fun w => ((w.1 : Int), asNumber w.2)) =
        ((indexPairs items).map fun w => (w.1, asNumber w.2)).map
          fun w => ((w.1 : Int), w.2) := by
      rw [List.map_map]
      rfl
    rw [getControlParams_query hwf, writes_mapIdx, ← indexPairs, hkeys,
      lastFor_natCast, lastFor_map p asNumber]
  have hlevel : pinLevel (pinCtrl s (query items)).1 p =
      leftAt (pinLevel s p) (lastFor p (indexPairs items)) := by
    rw [level_pinCtrl h, hwrites]
    cases lastFor p (indexPairs items) with
    | none => rfl
    | some v => exact isPositive_numeral v
  refine ⟨hlevel, fun hp => ?_⟩
  have hmem : (p : Int) ∈ (getControlParams (query items)).map Prod.fst := by
    have hfst : (getControlParams (query items)).map Prod.fst =
        (pins items).map fun p : Nat => (p : Int) := by
      refine List.ext_getElem? fun i => ?_
      rw [getControlParams_query hwf, List.getElem?_map,
        List.getElem?_mapIdx, List.getElem?_map, Option.map_map]
      rfl
    rw [hfst]
    exact List.mem_map_of_mem hp
  rw [answerJson, reportedSta_map _ _ PinState.pin PinState.sta fun _ => rfl,
    lastFor_states h _ hmem, hlevel]
  rfl

/-! ## When one stands in for the other -/

theorem mem_pins_of_lastFor {items : List Item} {p v : Nat}
    (h : lastFor p (indexPairs items) = some v) : p ∈ pins items :=
  (List.of_mem_zip (mem_of_lastFor h)).1

theorem lastFor_ownPairs {items : List Item} {p : Nat} (hp : p ∈ pins items) :
    ∃ v, lastFor p (ownPairs items) = some v := by
  obtain ⟨w, hw, rfl⟩ := List.mem_map.1 hp
  exact exists_lastFor hw

theorem isNumeral_toString (n : Nat) : IsNumeral (toString n) := by
  constructor
  · rw [Nat.toString_eq_repr, Nat.toList_repr]
    exact Nat.toDigits_ne_nil
  · intro c hc
    rw [Nat.toString_eq_repr, Nat.toList_repr] at hc
    exact isDigit_of_mem_toDigits hc

theorem numeral_toString (n : Nat) : numeral (toString n) = n := by
  rw [numeral, Nat.toString_eq_repr, Nat.toList_repr,
    Nat.ofDigitChars_ten_toDigits]

/-- A request that puts a pin where it should start from. -/
theorem exists_reachable {p : Nat} (hp : p ∈ apiPins) (b : Bool) :
    ∃ s, Reachable s ∧ pinLevel s p = b := by
  have hwf : ∀ item ∈ [Item.pin (toString p) (some (toString b.toNat))],
      item.WellFormed := by
    intro item hitem
    obtain rfl := List.mem_singleton.1 hitem
    refine ⟨⟨isNumeral_toString p, by rwa [numeral_toString]⟩, fun v hv => ?_⟩
    obtain rfl := Option.some.inj hv
    exact isNumeral_toString _
  refine ⟨_, .request (query [.pin (toString p) (some (toString b.toNat))])
    .init, ?_⟩
  have hpairs : indexPairs [.pin (toString p) (some (toString b.toNat))] =
      [(p, b.toNat)] := by
    show [(numeral (toString p), numeral (toString b.toNat))] = _
    rw [numeral_toString, numeral_toString]
  rw [(pinCtrl_query hwf (wellKept_of_reachable .init) p).1, hpairs,
    lastFor_cons, if_pos rfl]
  cases b <;> rfl

/-- The two pairings leave a pin alike from either level it can have. -/
theorem leftAt_eq_iff (own : Option Nat) (index : Option Nat) :
    (∀ b, leftAt b own = leftAt b index) ↔
      match own with
      | some own => ∃ val, index = some val ∧ (own = 0 ↔ val = 0)
      | none => index = none := by
  cases own with
  | none =>
      cases index with
      | none => exact ⟨fun _ => rfl, fun _ _ => rfl⟩
      | some val =>
          refine ⟨fun h => ?_, fun h => nomatch h⟩
          have hcontra := (h true).trans (h false).symm
          cases hcontra
  | some own =>
      cases index with
      | none =>
          refine ⟨fun h => ?_, fun h => ?_⟩
          · have hcontra := (h true).symm.trans (h false)
            cases hcontra
          · obtain ⟨val, hval, _⟩ := h
            cases hval
      | some val =>
          have hbits : (own != 0) = (val != 0) ↔ (own = 0 ↔ val = 0) := by
            rw [Bool.eq_iff_iff, bne_iff_ne, bne_iff_ne]
            exact not_iff_not
          refine ⟨fun h => ⟨val, rfl, hbits.1 (h true)⟩, fun h _ => ?_⟩
          obtain ⟨v, hv, hzero⟩ := h
          obtain rfl := Option.some.inj hv
          exact hbits.2 hzero

theorem pairingsAgree_iff {items : List Item} :
    PairingsAgree items ↔ ∀ p ∈ pins items, ∀ b,
      leftAt b ((lastFor p (ownPairs items)).getD none) =
        leftAt b (lastFor p (indexPairs items)) := by
  refine forall_congr' fun p => imp_congr_right fun hp => ?_
  obtain ⟨v, hv⟩ := lastFor_ownPairs hp
  rw [leftAt_eq_iff, hv]
  cases v with
  | none => exact Iff.rfl
  | some v => exact Iff.rfl

theorem lastFor_indexPairs_of_notMem {items : List Item} {p : Nat}
    (h : p ∉ pins items) : lastFor p (indexPairs items) = none := by
  cases hl : lastFor p (indexPairs items) with
  | none => rfl
  | some v => exact absurd (mem_pins_of_lastFor hl) h

end IotHome.Virtual
