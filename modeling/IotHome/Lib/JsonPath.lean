import IotHome.Lib.JsonText

/-!
# Parts of a JSON value

Reading and replacing parts of a value by name: one property, or a path of
them from object to object. An array has its elements under their index as
names, and its length; a string likewise.

A part that is put somewhere is found there (`getPath_putPath`), and the
other properties of an object stay (`lastFor_putField`, `lastFor_dropField`).
-/

namespace IotHome.Lib.Json

/-! ## Properties -/

/-- The index an array takes a property name for. -/
def indexName? (name : JsString) : Option Nat :=
  let n := readNat (name.map fun u => Char.ofNat u.toNat)
  if js (toString n) = name ∧ n < 4294967295 then some n else none

/-- What a value has under a name itself. -/
def ownProperty (v : Json) (name : JsString) : Option Json :=
  match v with
  | .obj fields => lastFor name fields
  | .arr elems =>
      if name = js "length" then some (.num (Dec.ofInt elems.length))
      else (indexName? name).bind (elems[·]?)
  | .str units =>
      if name = js "length" then some (.num (Dec.ofInt units.length))
      else (indexName? name).bind fun i => units[i]?.map fun u => .str [u]
  | _ => none

/-- Give the field a value where it stands, or put it at the end. -/
def putField (name : JsString) (v : Json) (fields : List (JsString × Json)) :
    List (JsString × Json) :=
  if name ∈ fields.map Prod.fst then
    fields.map fun f => (f.1, if f.1 = name then v else f.2)
  else fields ++ [(name, v)]

def dropField (name : JsString) (fields : List (JsString × Json)) :
    List (JsString × Json) := fields.filter fun f => f.1 ≠ name

theorem lastFor_putField (name k : JsString) (v : Json)
    (fields : List (JsString × Json)) :
    lastFor k (putField name v fields) =
      if k = name then some v else lastFor k fields := by
  rw [putField]
  split
  · next hmem =>
      rw [lastFor_mapWithKey k fun key w => if key = name then v else w]
      split
      · next hk =>
          subst hk
          obtain ⟨f, hf, hname⟩ := List.mem_map.1 hmem
          have hmem : (k, f.2) ∈ fields := by
            rw [← hname]
            exact hf
          obtain ⟨w, hw⟩ := exists_lastFor hmem
          rw [hw]
          rfl
      · rw [Option.map_id']
  · next hmem =>
      rw [lastFor_append, lastFor_cons, lastFor_nil, Option.none_or]
      by_cases hk : k = name
      · simp [hk]
      · rw [if_neg (Ne.symm hk), if_neg hk, Option.none_or]

theorem lastFor_dropField (name k : JsString)
    (fields : List (JsString × Json)) :
    lastFor k (dropField name fields) =
      if k = name then none else lastFor k fields := by
  induction fields with
  | nil => simp [dropField]
  | cons f fields ih =>
      obtain ⟨k', v⟩ := f
      rw [dropField, List.filter_cons]
      by_cases hk' : k' = name
      · rw [if_neg (by simp [hk']), ← dropField, ih, lastFor_cons]
        by_cases hk : k = name
        · simp [hk]
        · have hne : k' ≠ k := fun h => hk (h.symm.trans hk')
          simp [hk, hne]
      · rw [if_pos (by simp [hk']), ← dropField, lastFor_cons, ih,
          lastFor_cons]
        by_cases hk : k = name
        · have hne : k' ≠ k := fun h => hk' (h.trans hk)
          simp [hk, hk']
        · simp [hk]

/-- A name with a character that is no digit is no index. -/
theorem indexName?_eq_none {s : String} {c : Char} (hc : c ∈ s.toList)
    (hdigit : c.isDigit = false) : indexName? (js s) = none := by
  rw [indexName?]
  refine if_neg fun h => ?_
  obtain ⟨hname, _⟩ := h
  rw [← js_inj hname, Nat.toString_eq_repr, Nat.toList_repr] at hc
  rw [isDigit_of_mem_toDigits hc] at hdigit
  cases hdigit

/-- The names that only an object can have a property of. -/
theorem exists_fields {v w : Json} {name : JsString}
    (h : v.ownProperty name = some w) (hlength : name ≠ js "length")
    (hindex : indexName? name = none) :
    ∃ fields, v = .obj fields ∧ lastFor name fields = some w := by
  cases v with
  | obj fields => exact ⟨fields, rfl, h⟩
  | arr elems =>
      rw [ownProperty, if_neg hlength, hindex] at h
      cases h
  | str units =>
      rw [ownProperty, if_neg hlength, hindex] at h
      cases h
  | null => cases h
  | bool b => cases h
  | num n => cases h

/-! ## Paths -/

def getPath : List JsString → Json → Option Json
  | [], v => some v
  | name :: path, .obj fields => (lastFor name fields).bind (getPath path)
  | _ :: _, _ => none

/-- Replace what a path leads to. A path that leads nowhere does nothing. -/
def putPath : List JsString → Json → Json → Json
  | [], new, _ => new
  | name :: path, new, .obj fields =>
      match lastFor name fields with
      | none => .obj fields
      | some v => .obj (putField name (putPath path new v) fields)
  | _ :: _, _, v => v

theorem getPath_cons_eq_some {name : JsString} {path : List JsString}
    {v w : Json} :
    getPath (name :: path) v = some w ↔ ∃ fields u, v = .obj fields ∧
      lastFor name fields = some u ∧ getPath path u = some w := by
  constructor
  · intro h
    cases v with
    | obj fields =>
        obtain ⟨u, hu, hw⟩ := Option.bind_eq_some_iff.1 h
        exact ⟨fields, u, rfl, hu, hw⟩
    | null => cases h
    | bool b => cases h
    | num n => cases h
    | str s => cases h
    | arr elems => cases h
  · intro h
    obtain ⟨fields, u, rfl, hu, hw⟩ := h
    exact Option.bind_eq_some_iff.2 ⟨u, hu, hw⟩

/-- What is put somewhere is there. -/
theorem getPath_putPath {path : List JsString} {v w : Json} (new : Json)
    (h : getPath path v = some w) :
    getPath path (putPath path new v) = some new := by
  induction path generalizing v with
  | nil => rfl
  | cons name path ih =>
      obtain ⟨fields, u, rfl, hu, hw⟩ := getPath_cons_eq_some.1 h
      rw [putPath, hu, getPath_cons_eq_some]
      refine ⟨_, _, rfl, ?_, ih hw⟩
      rw [lastFor_putField, if_pos rfl]

end IotHome.Lib.Json
