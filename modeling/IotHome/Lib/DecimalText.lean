import IotHome.Lib.Decimal

/-!
# Reading back the text of a number

The reader of numerals leaves no zero at the end of a mantissa that has a
scale (`parseNumeral_normal`), and what such a number is written as reads back
as the number (`parseNumeral_text`), whichever of the forms of
`magnitudeText` it takes: they write the same digits, and say by the place of
the point, by zeros or by an exponent where the first of them stands.
-/

namespace IotHome.Lib

namespace Dec

/-- No zero at the end of a mantissa that has a scale. -/
def Normal (d : Dec) : Prop := d.scale = 0 ∨ d.mantissa % 10 ≠ 0

instance (d : Dec) : Decidable d.Normal :=
  inferInstanceAs (Decidable (_ ∨ _))

theorem ofInt_normal (n : Int) : (ofInt n).Normal := .inl rfl

theorem shorten_normal (m s : Nat) :
    (shorten m s).2 = 0 ∨ (shorten m s).1 % 10 ≠ 0 := by
  induction s generalizing m with
  | zero => exact .inl rfl
  | succ s ih =>
      rw [shorten]
      split
      · exact ih (m / 10)
      · next hm => exact .inr hm

theorem shorten_eq_self {m : Nat} (hm : m % 10 ≠ 0) (s : Nat) :
    shorten m s = (m, s) := by
  cases s with
  | zero => rfl
  | succ s => rw [shorten, if_neg hm]

theorem ofParts_normal (neg : Bool) (digits : List Char) (exp : Int) :
    (ofParts neg digits exp).Normal := by
  simp only [ofParts, Normal]
  split
  · exact .inl rfl
  · have hshort := shorten_normal (Nat.ofDigitChars 10 digits 0) (-exp).toNat
    refine hshort.imp id fun hm => ?_
    split
    · omega
    · omega

/-- `± m * 10 ^ exp`, for an `m` that does not end in zero. -/
def scaled (neg : Bool) (m : Nat) (exp : Int) : Dec where
  mantissa :=
    if neg then -((m * 10 ^ exp.toNat : Nat) : Int)
    else (m * 10 ^ exp.toNat : Nat)
  scale := (-exp).toNat

theorem ofParts_eq (neg : Bool) {digits : List Char} {m : Nat} (exp : Int)
    (hdigits : Nat.ofDigitChars 10 digits 0 = m) (hm : m % 10 ≠ 0) :
    ofParts neg digits exp = scaled neg m exp := by
  by_cases hexp : 0 ≤ exp
  · have hscale : (-exp).toNat = 0 := by omega
    simp only [ofParts, scaled, hdigits, if_pos hexp, hscale]
  · have hpow : m * 10 ^ exp.toNat = m := by
      rw [show exp.toNat = 0 by omega, Nat.pow_zero, Nat.mul_one]
    simp only [ofParts, scaled, hdigits, if_neg hexp, shorten_eq_self hm,
      hpow]

end Dec

theorem parseUnsigned_normal {neg : Bool} {cs : List Char} {d : Dec}
    (h : parseUnsigned neg cs = some d) : d.Normal := by
  simp only [parseUnsigned] at h
  split at h
  · cases h
  · obtain ⟨⟨frac, rest⟩, _, h⟩ := Option.bind_eq_some_iff.1 h
    obtain ⟨exp, _, h⟩ := Option.bind_eq_some_iff.1 h
    obtain rfl := Option.some.inj h
    exact Dec.ofParts_normal neg _ _

theorem parseNumeral_normal {cs : List Char} {d : Dec}
    (h : parseNumeral cs = some d) : d.Normal := by
  rw [parseNumeral.eq_def] at h
  split at h
  · exact parseUnsigned_normal h
  · exact parseUnsigned_normal h

/-! ## The parts of a numeral -/

theorem dropWhile_append_stop {p : Char → Bool} {ds rest : List Char}
    (hds : ∀ c ∈ ds, p c = true) (hrest : ∀ c ∈ rest.head?, p c = false) :
    (ds ++ rest).dropWhile p = rest := by
  rw [List.dropWhile_append_of_pos hds]
  cases rest with
  | nil => rfl
  | cons c cs => rw [List.dropWhile_cons_of_neg]; simp [hrest c (by simp)]

theorem fraction_point (ds rest : List Char) (hne : ds ≠ [])
    (hds : ∀ c ∈ ds, c.isDigit = true)
    (hrest : ∀ c ∈ rest.head?, c.isDigit = false) :
    fraction ('.' :: (ds ++ rest)) = some (ds, rest) := by
  rw [fraction, takeWhile_append_stop hds hrest,
    dropWhile_append_stop hds hrest]
  simp [hne]

theorem fraction_none {cs : List Char} (h : cs.head? ≠ some '.') :
    fraction cs = some ([], cs) := by
  rw [fraction.eq_def]
  split
  · simp at h
  · rfl

/-- An exponent with its sign. -/
theorem exponent_text (e : Int) :
    exponent ('e' :: (if e < 0 then '-' else '+') ::
      Nat.toDigits 10 e.natAbs) = some e := by
  have hdigits : ((Nat.toDigits 10 e.natAbs).isEmpty ||
      (Nat.toDigits 10 e.natAbs).any (!·.isDigit)) = false := by
    rw [Bool.or_eq_false_iff]
    refine ⟨by simp [Nat.toDigits_ne_nil], List.any_eq_false.2 fun c hc => ?_⟩
    simp [isDigit_of_mem_toDigits hc]
  have hread : Nat.ofDigitChars 10 (Nat.toDigits 10 e.natAbs) 0 = e.natAbs :=
    Nat.ofDigitChars_ten_toDigits
  by_cases he : e < 0
  · rw [if_pos he, exponent, if_neg (by decide)]
    simp only [hdigits, hread, Bool.false_eq_true, if_false, if_true]
    congr 1
    omega
  · rw [if_neg he, exponent, if_neg (by decide)]
    simp only [hdigits, hread, Bool.false_eq_true, if_false]
    congr 1
    omega

theorem parseUnsigned_eq (neg : Bool) (int rest frac tail : List Char)
    (exp : Int) (hint : ∀ c ∈ int, c.isDigit = true) (hne : int ≠ [])
    (hzero : int.length = 1 ∨ int.head? ≠ some '0')
    (hrest : ∀ c ∈ rest.head?, c.isDigit = false)
    (hfrac : fraction rest = some (frac, tail))
    (hexp : exponent tail = some exp) :
    parseUnsigned neg (int ++ rest) =
      some (Dec.ofParts neg (int ++ frac) (exp - frac.length)) := by
  have hlead : (int.isEmpty ||
      (int.length ≠ 1 && int.head? = some '0')) = false := by
    rcases hzero with hone | hhead
    · simp [hne, hone]
    · simp [hne, hhead]
  simp only [parseUnsigned, takeWhile_append_stop hint hrest,
    dropWhile_append_stop hint hrest, hlead, hfrac, hexp,
    Bool.false_eq_true, if_false, Option.bind_eq_bind, Option.bind_some]
  rfl

/-! ## The text of a number -/

/-- Digits without a zero at either end. -/
structure Significant (ds : List Char) : Prop where
  digits : ∀ c ∈ ds, c.isDigit = true
  head : ds.head? ≠ some '0'
  last : Nat.ofDigitChars 10 ds 0 % 10 ≠ 0

theorem Significant.ne_nil {ds : List Char} (h : Significant ds) :
    ds ≠ [] := by
  rintro rfl
  exact h.last rfl

theorem isDigit_zeros (n : Nat) :
    ∀ c ∈ List.replicate n '0', c.isDigit = true := by
  intro c hc
  rw [List.eq_of_mem_replicate hc]
  decide

/-- A digit other than zero at the end. -/
theorem ofDigitChars_concat_mod {ds : List Char} {c : Char}
    (hc : c.isDigit = true) (h0 : c ≠ '0') :
    Nat.ofDigitChars 10 (ds ++ [c]) 0 % 10 ≠ 0 := by
  have hval : Nat.ofDigitChars 10 (ds ++ [c]) 0 =
      10 * Nat.ofDigitChars 10 ds 0 + (c.toNat - 48) := by
    rw [Nat.ofDigitChars_append, Nat.ofDigitChars_cons, Nat.ofDigitChars_nil]
    rfl
  simp only [Char.isDigit, Bool.and_eq_true, decide_eq_true_eq] at hc
  have hlo : 48 ≤ c.toNat := UInt32.le_iff_toNat_le.1 hc.1
  have hhi : c.toNat ≤ 57 := UInt32.le_iff_toNat_le.1 hc.2
  have hne : c.toNat ≠ 48 := fun h48 =>
    h0 (by rw [← Char.ofNat_toNat c, h48])
  omega

/-- The digits of a number up to the last other than zero. -/
def significantDigits (m : Nat) : List Char :=
  ((Nat.toDigits 10 m).reverse.dropWhile (· = '0')).reverse

theorem toDigits_eq_significantDigits (m : Nat) :
    significantDigits m ++ List.replicate
      ((Nat.toDigits 10 m).length - (significantDigits m).length) '0' =
      Nat.toDigits 10 m := append_trailing_zeros _

theorem significantDigits_value (m : Nat) :
    m = Nat.ofDigitChars 10 (significantDigits m) 0 *
      10 ^ ((Nat.toDigits 10 m).length - (significantDigits m).length) := by
  have hread := congrArg (Nat.ofDigitChars 10 · 0)
    (toDigits_eq_significantDigits m)
  simp only [Nat.ofDigitChars_append, Nat.ofDigitChars_replicate_zero,
    Nat.ofDigitChars_ten_toDigits] at hread
  rw [Nat.mul_comm]
  exact hread.symm

theorem significant_significantDigits {m : Nat} (hm : m ≠ 0) :
    Significant (significantDigits m) := by
  have hsplit := toDigits_eq_significantDigits m
  have hdigit : ∀ c ∈ significantDigits m, c.isDigit = true := fun c hc =>
    isDigit_of_mem_toDigits (hsplit ▸ List.mem_append_left _ hc)
  have hne : significantDigits m ≠ [] := by
    intro hnil
    have hvalue := significantDigits_value m
    rw [hnil, Nat.ofDigitChars_nil, Nat.zero_mul] at hvalue
    exact hm hvalue
  refine ⟨hdigit, ?_, ?_⟩
  · have hhead := head_toDigits hm
    rwa [← hsplit, List.head?_append_of_ne_nil _ hne] at hhead
  · cases hrev : (Nat.toDigits 10 m).reverse.dropWhile (· = '0') with
    | nil => exact absurd (congrArg List.reverse hrev) hne
    | cons c cs =>
        have hds : significantDigits m = cs.reverse ++ [c] := by
          rw [significantDigits, hrev, List.reverse_cons]
        have h0 := List.head?_dropWhile_not (fun c => decide (c = '0'))
          (Nat.toDigits 10 m).reverse
        rw [hrev, List.head?_cons] at h0
        rw [hds]
        refine ofDigitChars_concat_mod (hdigit c ?_) (by simpa using h0)
        simp [hds]

theorem ofDigitChars_zeros_append (z : Nat) (ds : List Char) :
    Nat.ofDigitChars 10 (List.replicate z '0' ++ ds) 0 =
      Nat.ofDigitChars 10 ds 0 := by
  rw [Nat.ofDigitChars_append, Nat.ofDigitChars_replicate_zero, Nat.mul_zero]

/-- Digits alone, with the zeros that bring the point behind them. -/
theorem parseUnsigned_int (neg : Bool) {ds : List Char} (h : Significant ds)
    (z : Nat) :
    parseUnsigned neg (ds ++ List.replicate z '0') =
      some (Dec.scaled neg (Nat.ofDigitChars 10 ds 0) z) := by
  have hparse := parseUnsigned_eq neg (ds ++ List.replicate z '0') [] [] [] 0
    (fun c hc => (List.mem_append.1 hc).elim (h.digits c) (isDigit_zeros z c))
    (by simp [h.ne_nil])
    (.inr (by rw [List.head?_append_of_ne_nil _ h.ne_nil]; exact h.head))
    (by simp) rfl rfl
  rw [List.append_nil] at hparse
  rw [hparse, Dec.ofParts, if_pos (by simp), Nat.ofDigitChars_append,
    Nat.ofDigitChars_replicate_zero]
  simp [Dec.scaled, Int.mul_comm]

/-- Digits with the point between them. -/
theorem parseUnsigned_point (neg : Bool) {ds : List Char}
    (h : Significant ds) {n : Nat} (hpos : 0 < n) (hn : n < ds.length) :
    parseUnsigned neg (ds.take n ++ '.' :: ds.drop n) =
      some (Dec.scaled neg (Nat.ofDigitChars 10 ds 0)
        ((n : Int) - ds.length)) := by
  have hne : ds.take n ≠ [] := by simp [h.ne_nil]; omega
  have hsplit := List.take_append_drop n ds
  have hfrac := fraction_point (ds.drop n) []
    (by simp; omega) (fun c hc => h.digits c (List.mem_of_mem_drop hc))
    (by simp)
  rw [List.append_nil] at hfrac
  have hparse := parseUnsigned_eq neg (ds.take n) ('.' :: ds.drop n) _ _ 0
    (fun c hc => h.digits c (List.mem_of_mem_take hc)) hne
    (.inr ?_) (by simp) hfrac rfl
  · rw [hparse, hsplit, Dec.ofParts_eq neg _ rfl h.last, List.length_drop]
    congr 2
    omega
  · have hhead := h.head
    rwa [← hsplit, List.head?_append_of_ne_nil _ hne] at hhead

/-- Digits behind the point, and behind zeros. -/
theorem parseUnsigned_small (neg : Bool) {ds : List Char}
    (h : Significant ds) (z : Nat) :
    parseUnsigned neg ('0' :: '.' :: (List.replicate z '0' ++ ds)) =
      some (Dec.scaled neg (Nat.ofDigitChars 10 ds 0)
        (-((z : Int) + ds.length))) := by
  have hfrac := fraction_point (List.replicate z '0' ++ ds) []
    (by simp [h.ne_nil])
    (fun c hc => (List.mem_append.1 hc).elim (isDigit_zeros z c) (h.digits c))
    (by simp)
  rw [List.append_nil] at hfrac
  have hparse := parseUnsigned_eq neg ['0'] _ _ _ 0
    (by simp) (by simp) (.inl rfl) (by simp) hfrac rfl
  have hval : Nat.ofDigitChars 10 (['0'] ++ (List.replicate z '0' ++ ds)) 0 =
      Nat.ofDigitChars 10 ds 0 := ofDigitChars_zeros_append (z + 1) ds
  rw [List.singleton_append] at hparse
  rw [hparse, Dec.ofParts_eq neg _ hval h.last]
  congr 2
  simp

/-- One digit before the point, and an exponent. -/
theorem parseUnsigned_scientific (neg : Bool) {d : Char} {ds : List Char}
    (h : Significant (d :: ds)) (e : Int) :
    parseUnsigned neg (d :: ((if ds = [] then [] else '.' :: ds) ++
      'e' :: (if e < 0 then '-' else '+') :: Nat.toDigits 10 e.natAbs)) =
      some (Dec.scaled neg (Nat.ofDigitChars 10 (d :: ds) 0)
        (e - ds.length)) := by
  have hd : d.isDigit = true := h.digits d List.mem_cons_self
  have hfrac : fraction ((if ds = [] then [] else '.' :: ds) ++
      'e' :: (if e < 0 then '-' else '+') :: Nat.toDigits 10 e.natAbs) =
      some (ds, 'e' :: (if e < 0 then '-' else '+') ::
        Nat.toDigits 10 e.natAbs) := by
    split
    · next hnil => rw [hnil, List.nil_append, fraction_none (by simp)]
    · next hne =>
        exact fraction_point ds _ hne
          (fun c hc => h.digits c (List.mem_cons_of_mem d hc)) (by simp)
  have hparse := parseUnsigned_eq neg [d] _ _ _ _ (by simpa using hd)
    (by simp) (.inl rfl) ?_ hfrac (exponent_text e)
  · rw [List.singleton_append] at hparse
    rw [hparse, List.singleton_append, Dec.ofParts_eq neg _ rfl h.last]
  · split
    · simp
    · simp

theorem parseUnsigned_magnitudeText (neg : Bool) {ds : List Char}
    (h : Significant ds) (n : Int) :
    parseUnsigned neg (Dec.magnitudeText ds n) =
      some (Dec.scaled neg (Nat.ofDigitChars 10 ds 0) (n - ds.length)) := by
  simp only [Dec.magnitudeText]
  split
  · rw [parseUnsigned_int neg h]
    congr 2
    omega
  split
  · next hpoint =>
      obtain ⟨k, rfl⟩ : ∃ k : Nat, n = k := ⟨n.toNat, by omega⟩
      exact parseUnsigned_point neg h (by omega) (by omega)
  split
  · rw [parseUnsigned_small neg h]
    congr 2
    omega
  · cases ds with
    | nil => exact absurd rfl h.ne_nil
    | cons d ds =>
        have hparse := parseUnsigned_scientific neg h (n - 1)
        have hexp : n - 1 - ds.length = n - (d :: ds).length := by
          rw [List.length_cons]
          omega
        rw [hexp] at hparse
        cases ds with
        | nil => exact hparse
        | cons d' ds => exact hparse

/-- What the parts of a number stand for is the number. -/
theorem Dec.Normal.eq_scaled {d : Dec} (h : d.Normal) :
    Dec.scaled (d.mantissa < 0)
      (Nat.ofDigitChars 10 (significantDigits d.mantissa.natAbs) 0)
      (d.toParts.2 - (significantDigits d.mantissa.natAbs).length) = d := by
  obtain ⟨mantissa, scale⟩ := d
  have hparts : (Dec.mk mantissa scale).toParts.2 =
      (Nat.toDigits 10 mantissa.natAbs).length - (scale : Int) := rfl
  have hvalue := significantDigits_value mantissa.natAbs
  have hle : (significantDigits mantissa.natAbs).length ≤
      (Nat.toDigits 10 mantissa.natAbs).length := by
    have hlen := congrArg List.length
      (toDigits_eq_significantDigits mantissa.natAbs)
    rw [List.length_append] at hlen
    omega
  rw [hparts]
  generalize (Nat.toDigits 10 mantissa.natAbs).length = len at *
  generalize (significantDigits mantissa.natAbs).length = k at *
  generalize Nat.ofDigitChars 10 (significantDigits mantissa.natAbs) 0 = v at *
  -- With a scale there are no zeros behind the digits.
  have hzeros : scale = 0 ∨ len = k := by
    refine h.imp id fun hmod => ?_
    by_contra hne
    obtain ⟨z, hz⟩ : ∃ z, len - k = z + 1 := ⟨len - k - 1, by omega⟩
    rw [hz, Nat.pow_succ, ← Nat.mul_assoc] at hvalue
    have hmod : mantissa % 10 ≠ 0 := hmod
    omega
  have hpow : ((len : Int) - scale - k).toNat = len - k := by omega
  have hscale : (-((len : Int) - scale - k)).toNat = scale := by omega
  rw [Dec.scaled, hpow, ← hvalue, hscale]
  congr 1
  split
  · next hneg => simp at hneg; omega
  · next hneg => simp at hneg; omega

theorem Dec.text_eq {d : Dec} (h0 : d.mantissa ≠ 0) :
    d.text =
      (if d.mantissa < 0 then ['-'] else []) ++
        magnitudeText (significantDigits d.mantissa.natAbs) d.toParts.2 := by
  rw [Dec.text, if_neg h0]
  show (if d.mantissa < 0 then _ else _) = _
  by_cases hneg : d.mantissa < 0
  · rw [if_pos hneg, if_pos hneg]
    rfl
  · rw [if_neg hneg, if_neg hneg]
    rfl

theorem head_magnitudeText {ds : List Char} (h : Significant ds) (n : Int) :
    ∃ c cs, Dec.magnitudeText ds n = c :: cs ∧ c.isDigit = true := by
  cases ds with
  | nil => exact absurd rfl h.ne_nil
  | cons d ds =>
      have hd : d.isDigit = true := h.digits d List.mem_cons_self
      simp only [Dec.magnitudeText]
      split
      · exact ⟨d, _, rfl, hd⟩
      split
      · next hpoint =>
          obtain ⟨k, hk⟩ : ∃ k, n.toNat = k + 1 := ⟨n.toNat - 1, by omega⟩
          rw [hk]
          exact ⟨d, _, rfl, hd⟩
      split
      · exact ⟨'0', _, rfl, by decide⟩
      · cases ds with
        | nil => exact ⟨d, _, rfl, hd⟩
        | cons d' ds => exact ⟨d, _, rfl, hd⟩

/-- A number is read back from its text. -/
theorem parseNumeral_text {d : Dec} (h : d.Normal) :
    parseNumeral d.text = some d := by
  by_cases h0 : d.mantissa = 0
  · have hscale : d.scale = 0 := h.resolve_right (by simp [h0])
    have hd : d = Dec.ofInt 0 := by
      obtain ⟨m, s⟩ := d
      simp only [Dec.ofInt, Dec.mk.injEq]
      exact ⟨h0, hscale⟩
    rw [hd]
    exact parseNumeral_toDigits 0
  · have hsig := significant_significantDigits (Int.natAbs_ne_zero.2 h0)
    have hparse := fun neg => parseUnsigned_magnitudeText neg hsig d.toParts.2
    have hback := h.eq_scaled
    rw [Dec.text_eq h0]
    by_cases hneg : d.mantissa < 0
    · rw [decide_eq_true hneg] at hback
      rw [if_pos hneg, List.singleton_append, parseNumeral, hparse, hback]
    · rw [decide_eq_false hneg] at hback
      obtain ⟨c, cs, htext, hc⟩ := head_magnitudeText hsig d.toParts.2
      have hminus : c ≠ '-' := isDigit_ne hc (by decide)
      rw [if_neg hneg, List.nil_append, htext, parseNumeral.eq_def]
      split
      · next heq => exact absurd (List.cons.inj heq).1 hminus
      · rw [← htext, hparse, hback]

theorem text_injective {d d' : Dec} (h : d.Normal) (h' : d'.Normal)
    (htext : d.text = d'.text) : d = d' := by
  have hread := parseNumeral_text h
  rw [htext, parseNumeral_text h'] at hread
  exact (Option.some.inj hread).symm

/-! ## The characters of a numeral -/

/-- What a number is written with. -/
def isNumeralChar (c : Char) : Bool :=
  c.isDigit || c = '-' || c = '+' || c = '.' || c = 'e'

theorem isNumeralChar_of_isDigit {c : Char} (h : c.isDigit = true) :
    isNumeralChar c = true := by
  simp [isNumeralChar, h]

theorem mem_magnitudeText {ds : List Char} (h : ∀ c ∈ ds, c.isDigit = true)
    (n : Int) : ∀ c ∈ Dec.magnitudeText ds n, isNumeralChar c = true := by
  have hexp : ∀ e : Int, ∀ c ∈ 'e' :: (if e < 0 then '-' else '+') ::
      Nat.toDigits 10 e.natAbs, isNumeralChar c = true := by
    intro e
    refine List.forall_mem_cons.2 ⟨by decide, List.forall_mem_cons.2
      ⟨?_, fun c hc => isNumeralChar_of_isDigit (isDigit_of_mem_toDigits hc)⟩⟩
    split
    · decide
    · decide
  have hds : ∀ c ∈ ds, isNumeralChar c = true :=
    fun c hc => isNumeralChar_of_isDigit (h c hc)
  have hzeros : ∀ z, ∀ c ∈ List.replicate z '0', isNumeralChar c = true :=
    fun z c hc => isNumeralChar_of_isDigit (isDigit_zeros z c hc)
  simp only [Dec.magnitudeText]
  split
  · exact List.forall_mem_append.2 ⟨hds, hzeros _⟩
  split
  · exact List.forall_mem_append.2
      ⟨fun c hc => hds c (List.mem_of_mem_take hc), List.forall_mem_cons.2
        ⟨by decide, fun c hc => hds c (List.mem_of_mem_drop hc)⟩⟩
  split
  · exact List.forall_mem_cons.2 ⟨by decide, List.forall_mem_cons.2
      ⟨by decide, List.forall_mem_append.2 ⟨hzeros _, hds⟩⟩⟩
  · cases ds with
    | nil => simp
    | cons d ds =>
        rw [List.forall_mem_cons] at hds
        cases ds with
        | nil => exact List.forall_mem_cons.2 ⟨hds.1, hexp (n - 1)⟩
        | cons d' ds =>
            exact List.forall_mem_cons.2 ⟨hds.1, List.forall_mem_cons.2
              ⟨by decide, List.forall_mem_append.2 ⟨hds.2, hexp (n - 1)⟩⟩⟩

theorem mem_text {d : Dec} : ∀ c ∈ d.text, isNumeralChar c = true := by
  have hdigits : ∀ c ∈ significantDigits d.mantissa.natAbs,
      c.isDigit = true := fun c hc => by
    have hsplit := toDigits_eq_significantDigits d.mantissa.natAbs
    exact isDigit_of_mem_toDigits (hsplit ▸ List.mem_append_left _ hc)
  by_cases h0 : d.mantissa = 0
  · rw [Dec.text, if_pos h0]
    simp [isNumeralChar]
  · rw [Dec.text_eq h0]
    refine List.forall_mem_append.2 ⟨?_, mem_magnitudeText hdigits _⟩
    split
    · simp [isNumeralChar]
    · simp

theorem text_ne_nil {d : Dec} : d.text ≠ [] := by
  by_cases h0 : d.mantissa = 0
  · rw [Dec.text, if_pos h0]
    simp
  · have hsig := significant_significantDigits (Int.natAbs_ne_zero.2 h0)
    obtain ⟨c, cs, htext, _⟩ := head_magnitudeText hsig d.toParts.2
    rw [Dec.text_eq h0, htext]
    simp

end IotHome.Lib
