import IotHome.Lib.Numeral
import Mathlib.Algebra.Group.Nat.Defs
import Mathlib.Data.List.TakeWhile

/-!
# Decimal numbers, as JSON and JavaScript write them

The number a decimal numeral denotes, `mantissa * 10 ^ -scale` with no zero
at the end of a mantissa that has a scale. What a JavaScript engine does to a
numeral of more digits than a double holds is not followed: numbers are
exact here.

`parseNumeral` reads the numerals of the JSON grammar, `Dec.text` writes a
number the way `Number.prototype.toString` does. Integers survive both
(`parseNumeral_toDigits`, `text_ofInt`).
-/

namespace IotHome.Lib

structure Dec where
  mantissa : Int
  scale : Nat
  deriving DecidableEq, Repr

namespace Dec

def ofInt (n : Int) : Dec := ⟨n, 0⟩

/-- Drop the zeros a scaled mantissa ends in. -/
def shorten : Nat → Nat → Nat × Nat
  | m, 0 => (m, 0)
  | m, s + 1 => if m % 10 = 0 then shorten (m / 10) s else (m, s + 1)

/-- `± digits * 10 ^ exp`. -/
def ofParts (neg : Bool) (digits : List Char) (exp : Int) : Dec :=
  let m := Nat.ofDigitChars 10 digits 0
  let (m, s) := if 0 ≤ exp then (m * 10 ^ exp.toNat, 0)
    else shorten m (-exp).toNat
  ⟨if neg then -(m : Int) else m, s⟩

/-- The digits of a number and the exponent `n` of its scientific notation
`0.digits * 10 ^ n`. -/
def toParts (d : Dec) : List Char × Int :=
  let digits := Nat.toDigits 10 d.mantissa.natAbs
  let kept := (digits.reverse.dropWhile (· = '0')).reverse
  (kept, (digits.length : Int) - d.scale)

def magnitudeText (digits : List Char) (n : Int) : List Char :=
  let k : Int := digits.length
  if k ≤ n ∧ n ≤ 21 then digits ++ List.replicate (n - k).toNat '0'
  else if 0 < n ∧ n ≤ 21 then
    digits.take n.toNat ++ '.' :: digits.drop n.toNat
  else if -6 < n ∧ n ≤ 0 then
    '0' :: '.' :: (List.replicate (-n).toNat '0' ++ digits)
  else
    let e := n - 1
    let exp := (if e < 0 then '-' else '+') :: Nat.toDigits 10 e.natAbs
    match digits with
    | [] => []
    | [d] => d :: 'e' :: exp
    | d :: ds => d :: '.' :: (ds ++ 'e' :: exp)

/-- `Number.prototype.toString`. -/
def text (d : Dec) : List Char :=
  if d.mantissa = 0 then ['0']
  else
    let (digits, n) := d.toParts
    let mag := magnitudeText digits n
    if d.mantissa < 0 then '-' :: mag else mag

end Dec

/-! ## Numerals -/

/-- `.` and digits, or nothing: the digits and what follows. -/
def fraction : List Char → Option (List Char × List Char)
  | '.' :: cs =>
      if (cs.takeWhile Char.isDigit).isEmpty then none
      else some (cs.takeWhile Char.isDigit, cs.dropWhile Char.isDigit)
  | cs => some ([], cs)

/-- `e` and an integer to the end of the text, or the end at once. -/
def exponent : List Char → Option Int
  | [] => some 0
  | c :: cs =>
      if c ≠ 'e' ∧ c ≠ 'E' then none
      else
        let (neg, ds) := match cs with
          | '-' :: ds => (true, ds)
          | '+' :: ds => (false, ds)
          | ds => (false, ds)
        if ds.isEmpty || ds.any (!·.isDigit) then none
        else
          let n : Int := Nat.ofDigitChars 10 ds 0
          some (if neg then -n else n)

def parseUnsigned (neg : Bool) (cs : List Char) : Option Dec :=
  let int := cs.takeWhile Char.isDigit
  if int.isEmpty || (int.length ≠ 1 && int.head? = some '0') then none
  else do
    let (frac, rest) ← fraction (cs.dropWhile Char.isDigit)
    let exp ← exponent rest
    pure (Dec.ofParts neg (int ++ frac) (exp - frac.length))

/-- A numeral of the JSON grammar, the whole text. -/
def parseNumeral : List Char → Option Dec
  | '-' :: cs => parseUnsigned true cs
  | cs => parseUnsigned false cs

/-! ## Integers -/

theorem head_toDigits {n : Nat} (hn : n ≠ 0) :
    (Nat.toDigits 10 n).head? ≠ some '0' := by
  induction n using Nat.strongRecOn with
  | ind n ih =>
      rcases Nat.lt_or_ge n 10 with h10 | h10
      · have hdigit : ∀ m, m < 10 → m ≠ 0 → Nat.digitChar m ≠ '0' := by decide
        rw [Nat.toDigits_of_lt_base h10, List.head?_cons]
        exact fun h => hdigit n h10 hn (Option.some.inj h)
      · rw [Nat.toDigits_of_base_le (by decide) h10,
          List.head?_append_of_ne_nil _ Nat.toDigits_ne_nil]
        exact ih (n / 10) (by omega) (by omega)

theorem parseUnsigned_toDigits (neg : Bool) (n : Nat) :
    parseUnsigned neg (Nat.toDigits 10 n) =
      some ⟨if neg then -(n : Int) else n, 0⟩ := by
  have hall : ∀ c ∈ Nat.toDigits 10 n, c.isDigit = true :=
    fun _ hc => isDigit_of_mem_toDigits hc
  have htake : (Nat.toDigits 10 n).takeWhile Char.isDigit =
      Nat.toDigits 10 n := List.takeWhile_eq_self_iff.2 hall
  have hdrop : (Nat.toDigits 10 n).dropWhile Char.isDigit = [] :=
    List.dropWhile_eq_nil_iff.2 hall
  have hne : (Nat.toDigits 10 n).isEmpty = false :=
    List.isEmpty_eq_false_iff.2 Nat.toDigits_ne_nil
  have hzero : ((Nat.toDigits 10 n).length ≠ 1 &&
      (Nat.toDigits 10 n).head? = some '0') = false := by
    rcases Nat.eq_zero_or_pos n with rfl | hpos
    · decide
    · simp [head_toDigits (Nat.pos_iff_ne_zero.1 hpos)]
  rw [parseUnsigned]
  simp only [htake, hdrop, hne, hzero, Bool.or_self, Bool.false_eq_true,
    if_false]
  show some (Dec.ofParts neg (Nat.toDigits 10 n ++ []) (0 - 0)) = _
  rw [List.append_nil, Dec.ofParts, if_pos (by decide)]
  simp

theorem parseNumeral_toDigits (n : Nat) :
    parseNumeral (Nat.toDigits 10 n) = some (Dec.ofInt n) := by
  have hne := Nat.toDigits_ne_nil (n := n) (b := 10)
  have hall : ∀ c ∈ Nat.toDigits 10 n, c.isDigit = true :=
    fun _ hc => isDigit_of_mem_toDigits hc
  have hparse := parseUnsigned_toDigits false n
  cases hds : Nat.toDigits 10 n with
  | nil => exact absurd hds hne
  | cons c cs =>
      rw [hds] at hparse hall
      have hc : c ≠ '-' := isDigit_ne (hall c List.mem_cons_self) (by decide)
      rw [parseNumeral]
      · exact hparse
      · rintro ds heq
        exact hc (List.cons.inj heq).1

/-- A list of digits is its digits up to the last other than zero, and the
zeros behind them. -/
theorem append_trailing_zeros (ds : List Char) :
    (ds.reverse.dropWhile (· = '0')).reverse ++
      List.replicate
        (ds.length - (ds.reverse.dropWhile (· = '0')).reverse.length) '0' =
      ds := by
  have hsplit := List.takeWhile_append_dropWhile
    (p := fun c => decide (c = '0')) (l := ds.reverse)
  have hzeros : ds.reverse.takeWhile (· = '0') = List.replicate
      (ds.reverse.takeWhile (· = '0')).length '0' := by
    refine List.eq_replicate_iff.2 ⟨rfl, fun c hc => ?_⟩
    have hz := List.mem_takeWhile_imp (p := fun c => decide (c = '0')) hc
    exact of_decide_eq_true hz
  have hlen : ds.length - (ds.reverse.dropWhile (· = '0')).reverse.length =
      (ds.reverse.takeWhile (· = '0')).length := by
    have hlens := congrArg List.length hsplit
    rw [List.length_append, List.length_reverse] at hlens
    rw [List.length_reverse]
    omega
  have hrev := congrArg List.reverse hsplit
  rw [List.reverse_append, List.reverse_reverse, hzeros,
    List.reverse_replicate] at hrev
  rw [hlen]
  exact hrev

theorem magnitudeText_int {digits : List Char} {n : Nat}
    (h : digits.length ≤ n) (h21 : n ≤ 21) :
    Dec.magnitudeText digits n =
      digits ++ List.replicate (n - digits.length) '0' := by
  rw [Dec.magnitudeText, if_pos (by omega)]
  congr 2
  omega

/-- An integer below `10 ^ 21` is written by its digits alone. -/
theorem text_ofInt {n : Int} (hn : n.natAbs < 10 ^ 21) :
    (Dec.ofInt n).text = (toString n).toList := by
  have hmag : n ≠ 0 → Dec.magnitudeText (Dec.ofInt n).toParts.1
      (Dec.ofInt n).toParts.2 = Nat.toDigits 10 n.natAbs := by
    intro hne
    have hlen : (Nat.toDigits 10 n.natAbs).length ≤ 21 :=
      (Nat.length_toDigits_le_iff (by decide) (by decide)).2 hn
    have hz := append_trailing_zeros (Nat.toDigits 10 n.natAbs)
    have hle := congrArg List.length hz
    rw [List.length_append, List.length_replicate] at hle
    have hparts : (Dec.ofInt n).toParts.2 =
        (Nat.toDigits 10 n.natAbs).length := Int.sub_zero _
    have hdigits : (Dec.ofInt n).toParts.1 =
        ((Nat.toDigits 10 n.natAbs).reverse.dropWhile
          (· = '0')).reverse := rfl
    rw [hparts, hdigits, magnitudeText_int (by omega) hlen]
    exact hz
  rw [Dec.text]
  cases n with
  | ofNat n =>
      show _ = (Nat.repr n).toList
      rw [Nat.toList_repr]
      split
      · next h0 =>
          have : n = 0 := by simpa [Dec.ofInt] using h0
          rw [this, Nat.toDigits_zero]
      · next h0 =>
          have hneg : ¬ (Dec.ofInt (.ofNat n)).mantissa < 0 := by
            simp [Dec.ofInt]
          simp only [if_neg hneg]
          exact hmag h0
  | negSucc n =>
      show _ = ("-" ++ Nat.repr (n + 1)).toList
      rw [String.toList_append, Nat.toList_repr, if_neg (by simp [Dec.ofInt])]
      have hneg : (Dec.ofInt (.negSucc n)).mantissa < 0 := Int.negSucc_lt_zero n
      simp only [if_pos hneg]
      rw [hmag (by simp)]
      rfl

end IotHome.Lib
