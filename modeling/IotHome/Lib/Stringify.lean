import IotHome.Lib.Json

/-!
# The text of a value

`JSON.stringify`. A string is quoted with the escapes the language uses, a
surrogate that stands alone among them; an object is its fields in order.

`objectText` takes the fields with their values' texts, so that it also
writes an object that holds more than JSON values. Its text says what each
field's text is: setting a field changes it unless the field had that text
already (`objectText_setEntry_iff`).
-/

namespace IotHome.Lib

namespace Json

/-! ## Strings -/

def lowerHexDigit (n : Nat) : Char :=
  if n < 10 then Char.ofNat (48 + n) else Char.ofNat (87 + n)

def hexEscape (u : UInt16) : JsString :=
  js "\\u" ++ [12, 8, 4, 0].map fun shift =>
    unit (lowerHexDigit ((u.toNat >>> shift) % 16))

def escapeUnit (u : UInt16) : JsString :=
  if u = unit '"' then js "\\\""
  else if u = unit '\\' then js "\\\\"
  else if u = 8 then js "\\b"
  else if u = 9 then js "\\t"
  else if u = 10 then js "\\n"
  else if u = 12 then js "\\f"
  else if u = 13 then js "\\r"
  else if u < 32 then hexEscape u
  else if isSurrogate u then hexEscape u
  else [u]

/-- Two halves of one character stay as they are. -/
def escapeUnits : JsString → JsString
  | [] => []
  | [u] => escapeUnit u
  | u :: v :: rest =>
      if 0xD800 ≤ u ∧ u < 0xDC00 ∧ 0xDC00 ≤ v ∧ v < 0xE000 then
        u :: v :: escapeUnits rest
      else escapeUnit u ++ escapeUnits (v :: rest)

def quote (s : JsString) : JsString := unit '"' :: (escapeUnits s ++ [unit '"'])

/-! ## Values -/

/-- Texts with commas between them. -/
def commaSeparated (texts : List JsString) : JsString :=
  [unit ','].intercalate texts

def fieldText (field : JsString × JsString) : JsString :=
  quote field.1 ++ unit ':' :: field.2

/-- An object, from its keys and the texts of its values. -/
def objectText (fields : List (JsString × JsString)) : JsString :=
  unit '\x7b' :: (commaSeparated (fields.map fieldText) ++ [unit '\x7d'])

def arrayText (elems : List JsString) : JsString :=
  unit '[' :: (commaSeparated elems ++ [unit ']'])

mutual

def stringify : Json → JsString
  | .null => js "null"
  | .bool b => if b then js "true" else js "false"
  | .num n => n.text.flatMap utf16Encode
  | .str s => quote s
  | .arr elems => arrayText (stringifyElems elems)
  | .obj fields => objectText (stringifyFields fields)

def stringifyElems : List Json → List JsString
  | [] => []
  | v :: vs => stringify v :: stringifyElems vs

def stringifyFields : List (JsString × Json) → List (JsString × JsString)
  | [] => []
  | (k, v) :: fs => (k, stringify v) :: stringifyFields fs

end

/-! ## What the text of an object says -/

theorem commaSeparated_comma {texts : List JsString} (h : texts ≠ []) :
    commaSeparated texts ++ [unit ','] =
      (texts.map (· ++ [unit ','])).flatten := by
  induction texts with
  | nil => exact absurd rfl h
  | cons t texts ih =>
      cases texts with
      | nil => simp [commaSeparated]
      | cons u texts =>
          have hrest := ih (List.cons_ne_nil u texts)
          rw [List.map_cons, List.flatten_cons, ← hrest]
          simp [commaSeparated, List.intercalate]

theorem commaSeparated_inj {xs ys : List JsString} (hx : xs ≠ [])
    (hy : ys ≠ []) :
    commaSeparated xs = commaSeparated ys ↔
      (xs.map (· ++ [unit ','])).flatten =
        (ys.map (· ++ [unit ','])).flatten := by
  rw [← commaSeparated_comma hx, ← commaSeparated_comma hy,
    List.append_left_inj]

theorem setEntry_ne_nil {κ ν : Type} [DecidableEq κ] (k : κ) (v : ν)
    (es : List (κ × ν)) : OrderedMap.setEntry k v es ≠ [] := by
  cases es with
  | nil => exact List.cons_ne_nil _ _
  | cons e es =>
      rw [OrderedMap.setEntry]
      split
      · exact List.cons_ne_nil _ _
      · exact List.cons_ne_nil _ _

theorem flatten_setEntry_iff {fields : List (JsString × JsString)}
    (hnodup : (fields.map Prod.fst).Nodup) (k v : JsString) :
    (((OrderedMap.setEntry k v fields).map fieldText).map
        (· ++ [unit ','])).flatten =
      ((fields.map fieldText).map (· ++ [unit ','])).flatten ↔
      lastFor k fields = some v := by
  induction fields with
  | nil => simp [OrderedMap.setEntry]
  | cons f fields ih =>
      obtain ⟨k', v'⟩ := f
      rw [List.map_cons, List.nodup_cons] at hnodup
      rw [OrderedMap.setEntry, lastFor_cons]
      split
      · next hk =>
          subst hk
          rw [lastFor_of_notMem hnodup.1]
          simp [fieldText, eq_comm]
      · next hk =>
          rw [List.map_cons, List.map_cons, List.flatten_cons, List.map_cons,
            List.map_cons, List.flatten_cons, List.append_right_inj,
            ih hnodup.2, Option.or_none]

/-- Setting a field leaves the text of an object just if the field is there
and has that text. -/
theorem objectText_setEntry_iff {fields : List (JsString × JsString)}
    (hnodup : (fields.map Prod.fst).Nodup) (k v : JsString) :
    objectText (OrderedMap.setEntry k v fields) = objectText fields ↔
      lastFor k fields = some v := by
  rw [objectText, objectText, List.cons.injEq, List.append_left_inj,
    ← flatten_setEntry_iff hnodup k v]
  cases fields with
  | nil => simp [OrderedMap.setEntry, commaSeparated, fieldText, quote]
  | cons f fields =>
      have hset : (OrderedMap.setEntry k v (f :: fields)).map fieldText ≠ [] :=
        fun h => setEntry_ne_nil k v _ (List.map_eq_nil_iff.1 h)
      have hfields : (f :: fields).map fieldText ≠ [] :=
        List.cons_ne_nil _ _
      rw [commaSeparated_inj hset hfields, eq_self_iff_true, true_and]

end Json

end IotHome.Lib
