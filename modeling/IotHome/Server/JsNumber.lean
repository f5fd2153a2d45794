import IotHome.Lib.JsonCanonical
import IotHome.Server.JsValue
import IotHome.Virtual.DeviceControl

/-!
# Numbers as the code handles them

`Number(v)`, and what becomes of a number when it is written: in a text it is
itself, and in JSON a number without digits is `null`.
-/

namespace IotHome.Server

open IotHome.Lib
open IotHome.Virtual

/-- `Number(text)`. -/
def textNumber (text : JsString) : JsNumber :=
  toNumber (text.map fun u => Char.ofNat u.toNat)

/-- `Number(v)`. It throws where an object cannot become a text. -/
def jsNumber : JsValue → Except JsError JsNumber
  | none => .ok .nan
  | some .null => .ok (.dec (.ofInt 0))
  | some (.bool b) => .ok (.dec (.ofInt (if b then 1 else 0)))
  | some (.num n) => .ok (.dec n)
  | some (.str s) => .ok (textNumber s)
  | some (.arr elems) => (toJsString (.arr elems)).map textNumber
  | some (.obj fields) => (toJsString (.obj fields)).map textNumber

/-- `String(n)`. -/
def numberText : JsNumber → JsString
  | .nan => js "NaN"
  | .infinity neg => js (if neg then "-Infinity" else "Infinity")
  | .dec d => d.text.flatMap utf16Encode

/-- What `JSON.stringify` writes for a number. -/
def numberJson : JsNumber → Json
  | .nan => .null
  | .infinity _ => .null
  | .dec d => .num d

/-! ## Numbers that are written and read again -/

/-- The digits of a number are as the reader of numerals leaves them. -/
def JsNumber.Normal (n : JsNumber) : Prop := ∀ d, n = .dec d → d.Normal

theorem numberJson_canonical {n : JsNumber} (h : JsNumber.Normal n) :
    (numberJson n).Canonical := by
  cases n with
  | nan => exact .null
  | infinity neg => exact .null
  | dec d => exact .num (h d rfl)

theorem radixLiteral_normal (radix : Nat) (ds : List Char) :
    JsNumber.Normal (radixLiteral radix ds) := by
  intro d hd
  rw [radixLiteral] at hd
  split at hd
  · cases hd
  · obtain rfl := JsNumber.dec.inj hd
    exact Dec.ofInt_normal _

theorem decimalLiteral_normal (neg : Bool) (cs : List Char) :
    JsNumber.Normal (decimalLiteral neg cs) := by
  intro d hd
  rw [decimalLiteral] at hd
  split at hd
  split_ifs at hd
  split at hd
  · cases hd
  · obtain rfl := JsNumber.dec.inj hd
    exact Dec.ofParts_normal _ _ _

theorem toNumber_normal (text : List Char) :
    JsNumber.Normal (toNumber text) := by
  rw [toNumber.eq_def]
  split
  · intro d hd
    obtain rfl := JsNumber.dec.inj hd
    exact Dec.ofInt_normal 0
  · exact radixLiteral_normal _ _
  · exact radixLiteral_normal _ _
  · exact radixLiteral_normal _ _
  · exact radixLiteral_normal _ _
  · exact radixLiteral_normal _ _
  · exact radixLiteral_normal _ _
  · exact decimalLiteral_normal _ _
  · exact decimalLiteral_normal _ _
  · exact decimalLiteral_normal _ _

/-- A number made of a value that was read can be written. -/
theorem jsNumber_normal {v : JsValue} (h : ∀ w, v = some w → w.Canonical)
    {n : JsNumber} (hn : jsNumber v = .ok n) : JsNumber.Normal n := by
  have hinteger : ∀ i : Int, JsNumber.Normal (.dec (.ofInt i)) := by
    intro i d hd
    obtain rfl := JsNumber.dec.inj hd
    exact Dec.ofInt_normal i
  have htext : ∀ s : Except JsError JsString, s.map textNumber = .ok n →
      JsNumber.Normal n := by
    intro s hs
    cases s with
    | error e => cases hs
    | ok text =>
        obtain rfl := Except.ok.inj hs
        exact toNumber_normal _
  cases v with
  | none =>
      obtain rfl := Except.ok.inj hn
      intro d hd
      cases hd
  | some v =>
      cases v with
      | null =>
          obtain rfl := Except.ok.inj hn
          exact hinteger 0
      | bool b =>
          obtain rfl := Except.ok.inj hn
          exact hinteger _
      | num m =>
          obtain rfl := Except.ok.inj hn
          intro d hd
          obtain rfl := JsNumber.dec.inj hd
          exact (h _ rfl).normal
      | str s => exact htext (.ok s) hn
      | arr elems => exact htext _ hn
      | obj fields => exact htext _ hn

def IsFinite (n : JsNumber) : Prop := ∃ d, n = .dec d

/-- A number comes back from JSON just if it has digits: the others come back
as zero. -/
theorem jsNumber_numberJson (n : JsNumber) :
    ∃ m, jsNumber (some (numberJson n)) = .ok m ∧ (m = n ↔ IsFinite n) := by
  cases n with
  | nan => exact ⟨_, rfl, iff_of_false nofun nofun⟩
  | infinity neg => exact ⟨_, rfl, iff_of_false nofun nofun⟩
  | dec d => exact ⟨_, rfl, iff_of_true rfl ⟨d, rfl⟩⟩

/-! ## Values that are no texts -/

/-- An object with a `toString` of its own, or an array with such a value in
it. -/
inductive HidesToString : Json → Prop where
  | obj {fields : List (JsString × Json)}
      (h : js "toString" ∈ fields.map Prod.fst) : HidesToString (.obj fields)
  | arr {elems : List Json} {v : Json} (hmem : v ∈ elems)
      (h : HidesToString v) : HidesToString (.arr elems)

theorem hidesToString_arr {elems : List Json} :
    HidesToString (.arr elems) ↔ ∃ v ∈ elems, HidesToString v := by
  constructor
  · rintro ⟨⟩
    exact ⟨_, ‹_›, ‹_›⟩
  · rintro ⟨v, hmem, hv⟩
    exact .arr hmem hv

mutual

/-- A value has a text unless a `toString` of its own hides the language's. -/
theorem toJsString_ok (v : Json) :
    (∃ s, toJsString v = .ok s) ↔ ¬ HidesToString v := by
  cases v with
  | null => exact iff_of_true ⟨_, rfl⟩ nofun
  | bool b => exact iff_of_true ⟨_, rfl⟩ nofun
  | num n => exact iff_of_true ⟨_, rfl⟩ nofun
  | str s => exact iff_of_true ⟨_, rfl⟩ nofun
  | arr elems =>
      rw [toJsString, exists_map_ok, hidesToString_arr, elemStrings_ok]
      simp
  | obj fields =>
      rw [toJsString]
      split
      · next h => exact iff_of_false nofun fun hnot => hnot (.obj h)
      · next h =>
          refine iff_of_true ⟨_, rfl⟩ fun hhides => ?_
          cases hhides with
          | obj hmem => exact h hmem

theorem elemStrings_ok (vs : List Json) :
    (∃ ss, elemStrings vs = .ok ss) ↔ ∀ v ∈ vs, ¬ HidesToString v := by
  cases vs with
  | nil => exact iff_of_true ⟨_, rfl⟩ fun _ hv => absurd hv List.not_mem_nil
  | cons v vs =>
      rw [elemStrings, List.forall_mem_cons, ← elemStrings_ok vs]
      split
      · next hnull =>
          have hplain : ¬ HidesToString v := by
            cases v with
            | null => nofun
            | _ => cases hnull
          rw [ok_bind, exists_bind_pure_ok, and_iff_right hplain]
      · next hnull =>
          rw [← toJsString_ok v, exists_bind_ok]
          simp only [exists_bind_pure_ok, exists_and_right]

end

theorem jsNumber_ok (v : JsValue) :
    (∃ n, jsNumber v = .ok n) ↔ ∀ w, v = some w → ¬ HidesToString w := by
  have hplain : ∀ {w : Json} {n : JsNumber}, jsNumber (some w) = .ok n →
      ¬ HidesToString w → ((∃ n, jsNumber (some w) = .ok n) ↔
        ∀ u, some w = some u → ¬ HidesToString u) := by
    intro w n hn hw
    refine iff_of_true ⟨n, hn⟩ fun u hu => ?_
    obtain rfl := Option.some.inj hu
    exact hw
  cases v with
  | none => exact iff_of_true ⟨_, rfl⟩ nofun
  | some v =>
      cases v with
      | null => exact hplain rfl nofun
      | bool b => exact hplain rfl nofun
      | num n => exact hplain rfl nofun
      | str s => exact hplain rfl nofun
      | arr elems =>
          rw [jsNumber, exists_map_ok, toJsString_ok]
          simp
      | obj fields =>
          rw [jsNumber, exists_map_ok, toJsString_ok]
          simp

end IotHome.Server
