import Mathlib.Data.List.Basic
import Mathlib.Data.List.TakeWhile

/-!
# Decimal numerals as C reads them

`readInt` is the reading `strtol` does in base ten: white space, an optional
sign, and then as many digits as there are — possibly none, which reads as
zero — with everything behind them ignored. Nothing here bounds the value;
the width of the result is the caller's business.

The lemmas are the two that a caller printing a number and a caller handing
over a digit string need: a printed number reads back whatever follows it
(`readInt_toDigits_append`), and a string of digits reads as its value
(`readInt_digits`).
-/

namespace IotHome.Lib

/-- `isspace` in the C locale. -/
def isSpace (c : Char) : Bool := c = ' ' || ('\t' ≤ c && c ≤ '\r')

/-- The value of the digits a text begins with. -/
def readNat (cs : List Char) : Nat :=
  Nat.ofDigitChars 10 (cs.takeWhile Char.isDigit) 0

/-- `strtol(s, NULL, 10)` without its bound. -/
def readInt (cs : List Char) : Int :=
  match cs.dropWhile isSpace with
  | '-' :: ds => -(readNat ds : Int)
  | '+' :: ds => readNat ds
  | ds => readNat ds

theorem takeWhile_append_stop {p : Char → Bool} {ds rest : List Char}
    (hds : ∀ c ∈ ds, p c = true) (hrest : ∀ c ∈ rest.head?, p c = false) :
    (ds ++ rest).takeWhile p = ds := by
  rw [List.takeWhile_append_of_pos hds]
  cases rest with
  | nil => simp
  | cons c cs => simp [hrest c (by simp)]

theorem isDigit_ne {c d : Char} (h : c.isDigit = true)
    (hd : d.isDigit = false) : c ≠ d := by
  rintro rfl
  rw [h] at hd
  cases hd

theorem isSpace_of_isDigit {c : Char} (h : c.isDigit = true) :
    isSpace c = false := by
  simp only [Char.isDigit, Bool.and_eq_true, decide_eq_true_eq] at h
  have hsp : c ≠ ' ' := by rintro rfl; exact absurd h.1 (by decide)
  have hcr : ¬ c ≤ '\r' := by
    intro hle
    have h1 : c.val ≤ 13 := hle
    exact absurd (UInt32.le_trans h.1 h1) (by decide)
  simp [isSpace, hsp, hcr]

/-- A string of digits reads as its value, sign and white space aside. -/
theorem readInt_digits {ds rest : List Char} (hne : ds ≠ [])
    (hds : ∀ c ∈ ds, c.isDigit = true)
    (hrest : ∀ c ∈ rest.head?, c.isDigit = false) :
    readInt (ds ++ rest) = Nat.ofDigitChars 10 ds 0 := by
  cases ds with
  | nil => exact absurd rfl hne
  | cons c cs =>
      have hc := hds c (by simp)
      have hdrop : (c :: cs ++ rest).dropWhile isSpace = c :: cs ++ rest := by
        simp [isSpace_of_isDigit hc]
      have hread : readNat (c :: cs ++ rest) =
          Nat.ofDigitChars 10 (c :: cs) 0 := by
        rw [readNat, takeWhile_append_stop hds hrest]
      rw [readInt, hdrop]
      rw [← hread]
      split
      · next ds heq =>
          exact absurd (List.cons.inj heq).1 (isDigit_ne hc (by decide))
      · next ds heq =>
          exact absurd (List.cons.inj heq).1 (isDigit_ne hc (by decide))
      · rfl

theorem isDigit_of_mem_toDigits {n : Nat} {c : Char}
    (h : c ∈ Nat.toDigits 10 n) : c.isDigit = true :=
  Nat.isDigit_of_mem_toDigits (by decide) (by decide) h

/-- A printed number reads back, whatever follows it. -/
theorem readInt_toDigits_append {n : Nat} {rest : List Char}
    (hrest : ∀ c ∈ rest.head?, c.isDigit = false) :
    readInt (Nat.toDigits 10 n ++ rest) = n := by
  rw [readInt_digits Nat.toDigits_ne_nil
    (fun _ hc => isDigit_of_mem_toDigits hc) hrest,
    Nat.ofDigitChars_ten_toDigits]

theorem readNat_append (cs : List Char) {rest : List Char}
    (hrest : ∀ c ∈ rest.head?, c.isDigit = false) :
    readNat (cs ++ rest) = readNat cs := by
  rw [readNat, readNat, List.takeWhile_append]
  split
  · next hall =>
      rw [(List.takeWhile_prefix _).eq_of_length hall]
      cases rest with
      | nil => simp
      | cons c rest => simp [hrest c (by simp)]
  · rfl

/-- A positive number ends before what is no digit. -/
theorem readInt_append {cs rest : List Char} (hpos : 0 < readInt cs)
    (hrest : ∀ c ∈ rest.head?, c.isDigit = false) :
    readInt (cs ++ rest) = readInt cs := by
  have hdrop : (cs ++ rest).dropWhile isSpace =
      cs.dropWhile isSpace ++ rest := by
    rw [List.dropWhile_append]
    split
    · next hempty =>
        rw [readInt, List.isEmpty_iff.1 hempty] at hpos
        exact absurd hpos (by decide)
    · rfl
  rw [readInt, readInt, hdrop]
  rw [readInt] at hpos
  cases hds : cs.dropWhile isSpace with
  | nil =>
      rw [hds] at hpos
      exact absurd hpos (by decide)
  | cons c ds =>
      rw [hds] at hpos
      by_cases hminus : c = '-'
      · subst hminus
        simp only at hpos
        omega
      · by_cases hplus : c = '+'
        · subst hplus
          exact congrArg Int.ofNat (readNat_append ds hrest)
        · have hread := readNat_append (c :: ds) hrest
          simp [hminus, hplus, ← hread]

theorem readInt_toString (n : Nat) : readInt (toString n).toList = n := by
  rw [Nat.toString_eq_repr, Nat.toList_repr]
  have hread : readInt (Nat.toDigits 10 n ++ []) = n :=
    readInt_toDigits_append fun c (hc : c ∈ [].head?) => nomatch hc
  simpa using hread

/-! ## Decimal integers -/

/-- The value of a text of digits only. -/
def digitsValue (ds : List Char) : Option Nat :=
  if ds ≠ [] ∧ ds.all Char.isDigit = true then
    some (Nat.ofDigitChars 10 ds 0)
  else none

/-- The value of a decimal integer, with a sign or without. -/
def decimalInt : List Char → Option Int
  | '-' :: ds => (digitsValue ds).map fun n : Nat => -(n : Int)
  | '+' :: ds => (digitsValue ds).map fun n : Nat => (n : Int)
  | ds => (digitsValue ds).map fun n : Nat => (n : Int)

theorem digitsValue_eq_some {ds : List Char} {n : Nat}
    (h : digitsValue ds = some n) :
    (ds ≠ [] ∧ ∀ c ∈ ds, c.isDigit = true) ∧ readNat ds = n := by
  rw [digitsValue] at h
  split at h
  · next hds =>
      have hall := List.all_eq_true.1 hds.2
      refine ⟨⟨hds.1, hall⟩, ?_⟩
      rw [readNat, List.takeWhile_eq_self_iff.2 hall]
      exact Option.some.inj h
  · cases h

/-- A decimal integer reads as its value. -/
theorem readInt_decimalInt {cs : List Char} {x : Int}
    (h : decimalInt cs = some x) : readInt cs = x := by
  rw [decimalInt.eq_def] at h
  split at h
  · next ds =>
      obtain ⟨n, hn, rfl⟩ := Option.map_eq_some_iff.1 h
      rw [readInt, List.dropWhile_cons_of_neg (by decide)]
      show -(readNat ds : Int) = _
      rw [(digitsValue_eq_some hn).2]
  · next ds =>
      obtain ⟨n, hn, rfl⟩ := Option.map_eq_some_iff.1 h
      rw [readInt, List.dropWhile_cons_of_neg (by decide)]
      show (readNat ds : Int) = _
      rw [(digitsValue_eq_some hn).2]
  · obtain ⟨n, hn, rfl⟩ := Option.map_eq_some_iff.1 h
    obtain ⟨⟨hne, hdigits⟩, hread⟩ := digitsValue_eq_some hn
    have hwhole := readInt_digits hne hdigits
      (fun c (hc : c ∈ [].head?) => nomatch hc)
    rw [List.append_nil] at hwhole
    rw [hwhole, ← hread, readNat, List.takeWhile_eq_self_iff.2 hdigits]

end IotHome.Lib
