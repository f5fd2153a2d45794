import Mathlib.Data.List.Basic

/-!
# JavaScript strings

A JavaScript string is a list of UTF-16 code units, any list: a surrogate
need not have its other half. Text that came in over the wire was decoded
from UTF-8 and has none such, but an escape inside JSON can spell one.

`js` is the string of a Lean literal. `scalars` is the way back as node's
own UTF-8 writers go it: a surrogate is joined with the unit behind it,
whatever that is, and one at the very end has nothing to be joined with.
`scalars_js` says that the text of a literal comes back.
-/

namespace IotHome.Lib

abbrev JsString := List UInt16

instance JsString.lawfulBEq : LawfulBEq JsString := inferInstance

/-- The code unit of a character that needs only one. -/
def unit (c : Char) : UInt16 := UInt16.ofNat c.toNat

def utf16Encode (c : Char) : JsString :=
  if c.toNat < 0x10000 then [unit c]
  else
    [UInt16.ofNat (0xD800 + (c.toNat - 0x10000) / 0x400),
     UInt16.ofNat (0xDC00 + (c.toNat - 0x10000) % 0x400)]

def js (s : String) : JsString := s.toList.flatMap utf16Encode

def isSurrogate (u : UInt16) : Bool := 0xD800 ≤ u && u < 0xE000

/-- The characters node writes for a string, if it gets to its end. -/
def scalars : JsString → Option (List Char)
  | [] => some []
  | u :: rest =>
      if isSurrogate u then
        match rest with
        | [] => none
        | v :: rest =>
            (scalars rest).map (Char.ofNat (0x10000 +
              (u.toNat % 0x400) * 0x400 + v.toNat % 0x400) :: ·)
      else (scalars rest).map (Char.ofNat u.toNat :: ·)

/-! ## The round trip -/

theorem js_append (a b : String) : js (a ++ b) = js a ++ js b := by
  rw [js, String.toList_append, List.flatMap_append]
  rfl

/-- A character is no surrogate. -/
theorem char_bounds (c : Char) :
    c.toNat < 0xD800 ∨ (0xDFFF < c.toNat ∧ c.toNat < 0x110000) := c.valid

theorem isSurrogate_iff (u : UInt16) :
    isSurrogate u = true ↔ 0xD800 ≤ u.toNat ∧ u.toNat < 0xE000 := by
  simp [isSurrogate, UInt16.le_iff_toNat_le, UInt16.lt_iff_toNat_lt]

theorem scalars_encode_append (c : Char) (rest : JsString) :
    scalars (utf16Encode c ++ rest) = (scalars rest).map (c :: ·) := by
  have hc := char_bounds c
  rw [utf16Encode]
  split
  · next hsmall =>
      have hu : (unit c).toNat = c.toNat := by
        rw [unit, UInt16.toNat_ofNat']
        omega
      have hplain : isSurrogate (unit c) = false := by
        rw [Bool.eq_false_iff, Ne, isSurrogate_iff]
        omega
      rw [List.singleton_append, scalars.eq_def]
      simp only [hplain, Bool.false_eq_true, if_false, hu, Char.ofNat_toNat]
  · next hbig =>
      rw [List.cons_append, List.singleton_append]
      generalize hu : UInt16.ofNat (0xD800 + (c.toNat - 0x10000) / 0x400) = u
      generalize hv : UInt16.ofNat (0xDC00 + (c.toNat - 0x10000) % 0x400) = v
      have hun : u.toNat = 0xD800 + (c.toNat - 0x10000) / 0x400 := by
        rw [← hu, UInt16.toNat_ofNat']
        omega
      have hvn : v.toNat = 0xDC00 + (c.toNat - 0x10000) % 0x400 := by
        rw [← hv, UInt16.toNat_ofNat']
        omega
      have hhalf : isSurrogate u = true := by
        rw [isSurrogate_iff]
        omega
      have hval : 0x10000 + (u.toNat % 0x400) * 0x400 + v.toNat % 0x400 =
          c.toNat := by
        omega
      rw [scalars.eq_def]
      simp only [hhalf, if_true, hval, Char.ofNat_toNat]

theorem scalars_flatMap (cs : List Char) :
    scalars (cs.flatMap utf16Encode) = some cs := by
  induction cs with
  | nil => rfl
  | cons c cs ih =>
      rw [List.flatMap_cons, scalars_encode_append, ih]
      rfl

theorem scalars_js (s : String) : scalars (js s) = some s.toList :=
  scalars_flatMap s.toList

theorem js_inj {a b : String} (h : js a = js b) : a = b := by
  have hlists := congrArg scalars h
  rw [scalars_js, scalars_js] at hlists
  exact String.toList_inj.1 (Option.some.inj hlists)

end IotHome.Lib
